import Ialp.Runtime.Runs

/-!
Empty blocks. A chain can always go on to a new block and, with blocks alone, to a new epoch, as
long as there are block numbers left; this changes nothing for the transfers but the status of the
exports of the epoch that closes.
-/

namespace Ialp

open Scale Function Transition Relation

namespace Epochs

section Hooks

variable {σ : Type} {blake2 : Bytes → Hash32} {config : Config σ} {context : BlockContext}
  {number : UInt32} {rest : σ} {state : State}

theorem stageSummaryForClosedEpoch_epochLengthBlocks (epochId : EpochId)
    (endHeight opening : UInt32) :
    (stageSummaryForClosedEpoch blake2 config context epochId endHeight opening state
      rest).1.epochLengthBlocks =
      state.epochLengthBlocks := by
  simp only [stageSummaryForClosedEpoch, stageHeader, reserveSlot]
  split
  · rfl
  · split <;> rfl

theorem stageSummaryForClosedEpoch_initialized (epochId : EpochId) (endHeight opening : UInt32) :
    (stageSummaryForClosedEpoch blake2 config context epochId endHeight opening state
      rest).1.initialized =
      state.initialized := by
  simp only [stageSummaryForClosedEpoch, stageHeader, reserveSlot]
  split
  · rfl
  · split <;> rfl

variable (blake2 config context rest state) in
theorem onInitialize_settings (started : number ≠ 0) :
    (onInitialize blake2 config context number state rest).1.epochLengthBlocks =
      state.epochLengthBlocks ∧
      (onInitialize blake2 config context number state rest).1.initialized = true := by
  have first : (reserveFirstSlot blake2 config number state).epochLengthBlocks =
      state.epochLengthBlocks ∧
      (reserveFirstSlot blake2 config number state).initialized = true := by
    unfold reserveFirstSlot
    split
    · exact ⟨rfl, ‹_›⟩
    · exact ⟨rfl, rfl⟩
  simp only [onInitialize, if_neg started]
  generalize reserveFirstSlot blake2 config number state = ready at first
  split
  · simp only [applyParentBlockObservation]
    split
    · exact first
    · split
      · rw [stageSummaryForClosedEpoch_epochLengthBlocks, stageSummaryForClosedEpoch_initialized]
        exact first
      · exact first
  · exact first

end Hooks

end Epochs

namespace Governance

section Hooks

variable (currentEpoch : EpochId) (blockNumber : UInt32)

theorem Sweep.toLeafStore_eq {state state' : State}
    (sweep : Sweep currentEpoch blockNumber state state') :
    state'.toLeafStore = state.toLeafStore := by
  cases sweep <;> rfl

theorem onInitialize_toLeafStore (state : State) :
    (onInitialize currentEpoch blockNumber state).toLeafStore = state.toLeafStore :=
  sweeps_relate (fun state state' => state'.toLeafStore = state.toLeafStore) (fun _ => rfl)
    (fun before after => after.trans before) (Sweep.toLeafStore_eq currentEpoch blockNumber)
    (onInitialize_sweeps currentEpoch blockNumber state)

end Hooks

end Governance

namespace Chain

structure Surroundings where
  context : UInt32 → Epochs.BlockContext
  totals : UInt32 → Epochs.BlockTotals

variable {Balances : Type} {blake2 : Bytes → Hash32} {currency : Currency Balances}
  {config : GenesisConfig Balances} {given : Surroundings} {chain chain' chain'' : Chain Balances}

theorem max_one_idem (length : UInt32) : max (max length 1) 1 = max length 1 := by
  simp only [UInt32.max_def]
  split <;> simp_all

structure Primed (config : GenesisConfig Balances) (chain : Chain Balances) : Prop where
  length : chain.epochs.epochLengthBlocks = max config.epochLengthBlocks 1
  ready : chain.number ≠ 0 → chain.epochs.initialized = true

theorem primed_of_reachable (reachable : (system blake2 currency config).Reachable chain) :
    Primed config chain := by
  refine reachable.invariant (Primed config) ?_ ?_
  · intro chain initial
    subst initial
    exact ⟨rfl, fun started => absurd rfl started⟩
  · intro chain chain' reached primed step
    obtain ⟨action, enabled, same⟩ := step
    subst same
    cases action with
    | openBlock context =>
        have started : chain.number + 1 ≠ 0 := by
          intro wrapped
          have count := congrArg UInt32.toNat wrapped
          have room := enabled.2
          rw [UInt32.toNat_add, UInt32.toNat_one, UInt32.toNat_zero] at count
          omega
        have settings :=
          Epochs.onInitialize_settings blake2 (epochsConfig blake2 chain.domainId) context
          (chain.transfers, chain.governance) chain.epochs started
        exact ⟨settings.1.trans primed.length, fun _ => settings.2⟩
    | transfers origin call =>
        simp only [apply, applyTransfers]
        split <;> exact ⟨primed.length, primed.ready⟩
    | governance origin call =>
        simp only [apply, applyGovernance]
        split <;> exact ⟨primed.length, primed.ready⟩
    | external => exact ⟨primed.length, primed.ready⟩
    | closeBlock totals =>
        simp only [apply, closeBlock, Epochs.onFinalize]
        split <;> exact ⟨primed.length, primed.ready⟩

inductive Idles (blake2 : Bytes → Hash32) (given : Surroundings) (chain : Chain Balances) :
    Chain Balances → Prop where
  | opens (idle : chain.inBlock = false) (room : chain.number.toNat + 1 < 2 ^ 32) :
      Idles blake2 given chain (chain.openBlock blake2 (given.context (chain.number + 1)))
  | closes (inBlock : chain.inBlock = true) :
      Idles blake2 given chain (chain.closeBlock (given.totals chain.number))

theorem reachable_of_idles (reachable : (system blake2 currency config).Reachable chain)
    (idles : ReflTransGen (Idles blake2 given) chain chain') :
    (system blake2 currency config).Reachable chain' := by
  induction idles with
  | refl => exact reachable
  | tail _ step reached =>
      cases step with
      | opens idle room => exact .next reached ⟨.openBlock _, ⟨idle, room⟩, rfl⟩
      | closes inBlock => exact .next reached ⟨.closeBlock _, inBlock, rfl⟩

structure Rested (chain chain' : Chain Balances) : Prop where
  balances : chain'.balances = chain.balances
  importer : chain'.transfers.importerAccount = chain.transfers.importerAccount
  imports : chain'.transfers.observedImportsById = chain.transfers.observedImportsById
  importIds : chain'.transfers.epochFinalizedImportIds = chain.transfers.epochFinalizedImportIds
  exportIds : chain'.transfers.epochExportIds = chain.transfers.epochExportIds
  leafStore : chain'.governance.toLeafStore = chain.governance.toLeafStore
  leaf : ∀ {id record}, chain.transfers.exportsById id = some record →
    ∃ record', chain'.transfers.exportsById id = some record' ∧ record'.leaf = record.leaf

theorem Rested.refl (chain : Chain Balances) : Rested chain chain :=
  ⟨rfl, rfl, rfl, rfl, rfl, rfl, fun stored => ⟨_, stored, rfl⟩⟩

theorem Rested.trans (before : Rested chain chain') (after : Rested chain' chain'') :
    Rested chain chain'' := by
  refine ⟨after.balances.trans before.balances, after.importer.trans before.importer,
    after.imports.trans before.imports, after.importIds.trans before.importIds,
    after.exportIds.trans before.exportIds, after.leafStore.trans before.leafStore, fun stored =>
      ?_⟩
  obtain ⟨record, kept, same⟩ := before.leaf stored
  obtain ⟨record', kept', same'⟩ := after.leaf kept
  exact ⟨record', kept', same'.trans same⟩

theorem Opened.rested (opened : Opened blake2 chain chain')
    (balances : chain'.balances = chain.balances) : Rested chain chain' := by
  cases opened with
  | within _ _ transfers governance =>
      exact ⟨balances, by rw [transfers], by rw [transfers], by rw [transfers], by rw [transfers],
        governance ▸ Governance.onInitialize_toLeafStore _ _ _, fun stored =>
          ⟨_, transfers ▸ stored, rfl⟩⟩
  | closed header _ _ _ transfers governance =>
      refine ⟨balances, by rw [transfers]; rfl, by rw [transfers]; rfl, by rw [transfers]; rfl,
        by rw [transfers]; rfl, governance ▸ Governance.onInitialize_toLeafStore _ _ _,
        fun {id record} stored => ?_⟩
      rw [transfers]
      change ∃ record', List.foldl Transfers.markExported chain.transfers.exportsById _ id = _ ∧ _
      rw [Transfers.foldl_markExported, stored]
      split
      · exact ⟨_, rfl, rfl⟩
      · exact ⟨_, rfl, rfl⟩

theorem Opened.le_epoch (opened : Opened blake2 chain chain')
    (room : chain.epochs.currentEpoch.toNat + 1 < 2 ^ 64) :
    chain.epochs.currentEpoch ≤ chain'.epochs.currentEpoch := by
  cases opened with
  | within epoch => exact epoch ▸ UInt64.le_refl _
  | closed header epoch =>
      rw [epoch, UInt64.le_iff_toNat_le, UInt64.toNat_succ room]
      exact Nat.le_succ _

theorem number_ne_zero (inBlock : chain.inBlock = true)
    (reachable : (system blake2 currency config).Reachable chain) : chain.number ≠ 0 := by
  intro none
  have started := (counted_of_reachable reachable).started inBlock
  rw [none] at started
  exact absurd started (Nat.lt_irrefl 0)

variable (blake2 given) in
def turn (chain : Chain Balances) : Chain Balances :=
  (chain.closeBlock (given.totals chain.number)).openBlock blake2 (given.context (chain.number + 1))

structure Fresh (chain : Chain Balances) : Prop where
  inBlock : chain.inBlock = true
  index : chain.extrinsicIndex = 0

section Turn

variable (given) (reachable : (system blake2 currency config).Reachable chain)
  (inBlock : chain.inBlock = true) (room : chain.number.toNat + 1 < 2 ^ 32)
include reachable inBlock room

omit reachable in
theorem idles_turn : ReflTransGen (Idles blake2 given) chain (chain.turn blake2 given) :=
  .tail (.single (.closes inBlock)) (.opens rfl room)

theorem turn_rested : Rested chain (chain.turn blake2 given) ∧
    chain.epochs.currentEpoch ≤ (chain.turn blake2 given).epochs.currentEpoch := by
  let closing := chain.closeBlock (given.totals chain.number)
  have closed : (system blake2 currency config).Reachable closing :=
    .next reachable ⟨.closeBlock _, inBlock, rfl⟩
  have counted := counted_of_reachable closed
  have opened : Opened blake2 closing (chain.turn blake2 given) :=
    (openBlock_opened blake2 _ counted.wellFormed).2
  have kept : Rested chain closing := ⟨rfl, rfl, rfl, rfl, rfl, rfl, fun stored => ⟨_, stored, rfl⟩⟩
  have same : closing.epochs.currentEpoch = chain.epochs.currentEpoch :=
    Epochs.onFinalize_currentEpoch _ _ _
  refine ⟨kept.trans (opened.rested rfl), ?_⟩
  rw [← same]
  exact opened.le_epoch (counted.epoch_room room)

theorem turn_epoch (last : chain.number % max config.epochLengthBlocks 1 = 0) :
    (chain.turn blake2 given).epochs.currentEpoch = chain.epochs.currentEpoch + 1 := by
  have started := number_ne_zero inBlock reachable
  have primed := primed_of_reachable reachable
  let totals := given.totals chain.number
  have closing : Epochs.onFinalize totals chain.number chain.epochs = { chain.epochs with
      pendingBlockObservation :=
        some ⟨chain.number, totals.stateRoot, totals.extrinsicCount, totals.allExtrinsicsLen,
          totals.eventCount⟩ } := if_neg started
  have later : 1 < chain.number + 1 := by
    have positive : chain.number.toNat ≠ 0 := fun none => started (UInt32.toNat_inj.mp none)
    rw [UInt32.lt_iff_toNat_lt, UInt32.toNat_add, UInt32.toNat_one]
    omega
  have boundary : (chain.number + 1 - 1) % max chain.epochs.epochLengthBlocks 1 = 0 := by
    rw [UInt32.add_sub_cancel, primed.length, max_one_idem]
    exact last
  simp only [turn, openBlock, closeBlock]
  generalize Epochs.onFinalize (given.totals chain.number) chain.number chain.epochs =
    epochs at closing
  have initialized : epochs.initialized = true := by
    rw [closing]
    exact primed.ready started
  obtain ⟨observation, pending⟩ :
      ∃ observation, epochs.pendingBlockObservation = some observation := by
    rw [closing]
    exact ⟨_, rfl⟩
  have sameLength : epochs.epochLengthBlocks = chain.epochs.epochLengthBlocks := by rw [closing]
  have sameEpoch : epochs.currentEpoch = chain.epochs.currentEpoch := by rw [closing]
  rw [Epochs.onInitialize_eq blake2 _ _ _ _ later initialized pending, sameLength,
    if_pos boundary, ← sameEpoch]
  rfl

end Turn

section Ahead

structure Ahead (blake2 : Bytes → Hash32) (given : Surroundings) (chain chain' : Chain Balances) :
    Prop where
  idles : ReflTransGen (Idles blake2 given) chain chain'
  fresh : Fresh chain'
  rested : Rested chain chain'
  epoch : chain.epochs.currentEpoch ≤ chain'.epochs.currentEpoch

variable (given) in
theorem ahead_turn (reachable : (system blake2 currency config).Reachable chain)
    (inBlock : chain.inBlock = true) (room : chain.number.toNat + 1 < 2 ^ 32) :
    Ahead blake2 given chain (chain.turn blake2 given) :=
  have kept := turn_rested given reachable inBlock room
  ⟨idles_turn given inBlock room, ⟨rfl, rfl⟩, kept.1, kept.2⟩

theorem Ahead.trans (before : Ahead blake2 given chain chain')
    (after : Ahead blake2 given chain' chain'') : Ahead blake2 given chain chain'' :=
  ⟨before.idles.trans after.idles, after.fresh, before.rested.trans after.rested,
    UInt64.le_trans before.epoch after.epoch⟩

variable (given) in
theorem ahead_block (reachable : (system blake2 currency config).Reachable chain)
    (room : chain.number.toNat + 1 < 2 ^ 32) :
    ∃ chain', Ahead blake2 given chain chain' ∧ chain'.number = chain.number + 1 := by
  cases inBlock : chain.inBlock with
  | true => exact ⟨_, ahead_turn given reachable inBlock room, rfl⟩
  | false =>
      have counted := counted_of_reachable reachable
      have opened :=
        (openBlock_opened blake2 (given.context (chain.number + 1)) counted.wellFormed).2
      exact ⟨chain.openBlock blake2 (given.context (chain.number + 1)),
        ⟨.single (.opens inBlock room), ⟨rfl, rfl⟩, opened.rested rfl,
          opened.le_epoch (counted.epoch_room room)⟩, rfl⟩

variable (given) in
theorem ahead_epoch_of_distance (distance : ℕ) :
    ∀ {chain : Chain Balances}, (system blake2 currency config).Reachable chain →
      chain.inBlock = true →
      (chain.number.toNat + distance) % (max config.epochLengthBlocks 1).toNat = 0 →
      chain.number.toNat + distance + 1 < 2 ^ 32 →
      ∃ chain', Ahead blake2 given chain chain' ∧ chain.epochs.currentEpoch <
        chain'.epochs.currentEpoch := by
  induction distance with
  | zero =>
      intro chain reachable inBlock last room
      refine ⟨_, ahead_turn given reachable inBlock room, ?_⟩
      rw [turn_epoch given reachable inBlock room, UInt64.lt_iff_toNat_lt,
        UInt64.toNat_succ ((counted_of_reachable reachable).epoch_room room)]
      · exact Nat.lt_succ_self _
      · exact UInt32.toNat_inj.mp (by rw [UInt32.toNat_mod]; exact last)
  | succ distance ih =>
      intro chain reachable inBlock last room
      have near : chain.number.toNat + 1 < 2 ^ 32 := by omega
      have next := ahead_turn given reachable inBlock near
      have number : (chain.turn blake2 given).number.toNat = chain.number.toNat + 1 :=
        UInt32.toNat_succ near
      obtain ⟨chain', later, passed⟩ :=
        ih (reachable_of_idles reachable next.idles) next.fresh.inBlock
        (by rw [number, Nat.add_right_comm]; exact last) (by omega)
      exact ⟨chain', next.trans later, UInt64.lt_of_le_of_lt next.epoch passed⟩

theorem exists_distance (number : ℕ) {length : ℕ} (positive : 0 < length) :
    ∃ distance < length, (number + distance) % length = 0 := by
  by_cases last : number % length = 0
  · exact ⟨0, positive, last⟩
  · have below := Nat.mod_lt number positive
    refine ⟨length - number % length, by omega, ?_⟩
    have whole : number + (length - number % length) = length * (number / length + 1) := by
      have split := Nat.div_add_mod number length
      rw [Nat.mul_add, Nat.mul_one]
      omega
    rw [whole, Nat.mul_mod_right]

variable (given) in
theorem ahead_epoch (reachable : (system blake2 currency config).Reachable chain)
    (inBlock : chain.inBlock = true)
    (room : chain.number.toNat + (max config.epochLengthBlocks 1).toNat < 2 ^ 32) :
    ∃ chain', Ahead blake2 given chain chain' ∧ chain.epochs.currentEpoch <
      chain'.epochs.currentEpoch := by
  have positive : 0 < (max config.epochLengthBlocks 1).toNat := by
    rw [UInt32.toNat_max_one]
    omega
  obtain ⟨distance, near, last⟩ := exists_distance chain.number.toNat positive
  exact ahead_epoch_of_distance given distance reachable inBlock last (by omega)

end Ahead

end Chain

end Ialp
