import Ialp.Pallets.GovernanceRun
import Ialp.Pallets.TransfersBooks
import Ialp.Runtime.Chain

/-!
Runs of a chain, seen from its pallets. A bound on the extrinsics a chain can have applied keeps the
sequence counters and the epoch counter away from their limits, so that every step of a chain is a
sequence of moves of the transfers pallet and of the governance pallet.
-/

namespace Ialp.Chain

open Scale Function Transition Relation

variable {Balances : Type} {blake2 : Bytes → Hash32} {currency : Currency Balances}
  {config : GenesisConfig Balances} {chain chain' : Chain Balances}

def ledger (chain : Chain Balances) : Transfers.Ledger Balances :=
  ⟨chain.epochs.currentEpoch, chain.transfers, chain.balances⟩

def chamber (chain : Chain Balances) : Governance.Chamber :=
  ⟨chain.epochs.currentEpoch, chain.governance⟩

/-- A bound on the number of extrinsics applied so far. -/
def issued (chain : Chain Balances) : ℕ :=
  if chain.inBlock then (chain.number.toNat - 1) * 2 ^ 32 + chain.extrinsicIndex.toNat
  else chain.number.toNat * 2 ^ 32

structure Counted (chain : Chain Balances) : Prop where
  wellFormed : chain.epochs.WellFormed
  started : chain.inBlock = true → 0 < chain.number.toNat
  epoch_le : chain.epochs.currentEpoch.toNat ≤ chain.number.toNat
  exports_le : chain.transfers.nextExportSequence.toNat ≤ chain.issued
  proposals_le : chain.governance.nextProposalSequence.toNat ≤ chain.issued

theorem Counted.room (counted : chain.Counted) (inBlock : chain.inBlock = true)
    (bound : chain.extrinsicIndex.toNat + 1 < 2 ^ 32) :
    chain.transfers.nextExportSequence.toNat + 1 < 2 ^ 64 ∧
      chain.governance.nextProposalSequence.toNat + 2 < 2 ^ 64 := by
  have exports := counted.exports_le
  have proposals := counted.proposals_le
  have started := counted.started inBlock
  have number := chain.number.toNat_lt
  rw [issued, if_pos inBlock] at exports proposals
  omega

section Opening

structure Commits (blake2 : Bytes → Hash32) (domainId : DomainId) (epochId : EpochId)
    (transfers : Transfers.State) (governance : Governance.State) (header : EpochSummaryHeader) :
    Prop where
  domain : header.domainId = domainId
  epoch : header.epochId = epochId
  exports : header.exportRoot = exportMerkleRoot blake2 header.domainId header.epochId
    header.startBlockHeight
    header.endBlockHeight (Transfers.canonicalEpochExports transfers epochId)
  imports : header.importRoot = importMerkleRoot blake2 header.domainId header.epochId
    header.startBlockHeight
    header.endBlockHeight (Transfers.canonicalEpochFinalizedImports blake2 transfers epochId)
  governance : header.governanceRoot = governanceMerkleRoot blake2 header.domainId header.epochId
    header.startBlockHeight header.endBlockHeight
      (Governance.canonicalEpochGovernanceLeaves governance epochId)

inductive Opened (blake2 : Bytes → Hash32) (chain chain' : Chain Balances) : Prop where
  | within (epoch : chain'.epochs.currentEpoch = chain.epochs.currentEpoch)
      (headers : chain'.epochs.summaryHeaders = chain.epochs.summaryHeaders)
      (transfers : chain'.transfers = chain.transfers)
      (governance : chain'.governance =
        Governance.onInitialize chain.epochs.currentEpoch (chain.number + 1) chain.governance)
  | closed (header : EpochSummaryHeader)
      (epoch : chain'.epochs.currentEpoch = chain.epochs.currentEpoch + 1)
      (headers : chain'.epochs.summaryHeaders =
        update chain.epochs.summaryHeaders chain.epochs.currentEpoch (some header))
      (commits : Commits blake2 chain.domainId chain.epochs.currentEpoch chain.transfers
        chain.governance header)
      (transfers : chain'.transfers =
        Transfers.commitEpoch blake2 chain.domainId chain.epochs.currentEpoch
        header.startBlockHeight header.endBlockHeight chain.transfers)
      (governance : chain'.governance =
        Governance.onInitialize (chain.epochs.currentEpoch + 1) (chain.number + 1) chain.governance)

variable (blake2) in
theorem openBlock_opened (context : Epochs.BlockContext) (wf : chain.epochs.WellFormed) :
    (chain.openBlock blake2 context).epochs.WellFormed ∧
      Opened blake2 chain (chain.openBlock blake2 context) := by
  obtain ⟨wf', progress⟩ :=
    Epochs.onInitialize_progress blake2 (epochsConfig blake2 chain.domainId) context
    (chain.number + 1) (chain.transfers, chain.governance) wf
  simp only [openBlock]
  generalize Epochs.onInitialize blake2 (epochsConfig blake2 chain.domainId)
    context (chain.number + 1)
    chain.epochs (chain.transfers, chain.governance) = result at wf' progress
  obtain ⟨epochs, rest⟩ := result
  refine ⟨wf', ?_⟩
  cases progress with
  | within epoch headers => exact .within epoch headers rfl (by rw [← epoch])
  | closed slot epoch headers =>
      refine .closed _ epoch headers ?_ rfl (by rw [← epoch])
      constructor <;> rfl

end Opening

section Steps

variable (blake2 currency)

/-- Everything one step of a chain can do. -/
inductive Effect (chain : Chain Balances) : Chain Balances → Prop where
  | opened {chain' : Chain Balances} (idle : chain.inBlock = false)
      (bound : chain.number.toNat + 1 < 2 ^ 32) (domain : chain'.domainId = chain.domainId)
      (number : chain'.number = chain.number + 1) (inBlock : chain'.inBlock = true)
      (index : chain'.extrinsicIndex = 0) (wf : chain'.epochs.WellFormed)
      (balances : chain'.balances = chain.balances) (opened : Opened blake2 chain chain') :
      Effect chain chain'
  | transferred {origin : Origin} {call : Transfers.Call} {transfers : Transfers.State}
      {balances : Balances} (inBlock : chain.inBlock = true)
      (bound : chain.extrinsicIndex.toNat + 1 < 2 ^ 32)
      (dispatched : Transfers.Dispatched blake2 currency chain.callContext chain.transfers
        chain.balances origin call transfers balances) :
      Effect chain { chain with transfers, balances, extrinsicIndex := chain.extrinsicIndex + 1 }
  | governed {origin : Origin} {call : Governance.Call} {governance : Governance.State}
      (inBlock : chain.inBlock = true) (bound : chain.extrinsicIndex.toNat + 1 < 2 ^ 32)
      (dispatched : Governance.dispatch blake2 currency chain.callContext origin call chain.balances
        chain.governance = .ok governance) :
      Effect chain { chain with governance, extrinsicIndex := chain.extrinsicIndex + 1 }
  | failed (inBlock : chain.inBlock = true) (bound : chain.extrinsicIndex.toNat + 1 < 2 ^ 32) :
      Effect chain { chain with extrinsicIndex := chain.extrinsicIndex + 1 }
  | external {balances : Balances} {extrinsicIndex : UInt32} (inBlock : chain.inBlock = true)
      (later : chain.extrinsicIndex ≤ extrinsicIndex)
      (held : ∀ account, currency.balanceOnHold balances account =
        currency.balanceOnHold chain.balances account) :
      Effect chain { chain with balances, extrinsicIndex }
  | closed (totals : Epochs.BlockTotals) (inBlock : chain.inBlock = true) :
      Effect chain { chain with
        inBlock := false
        epochs := Epochs.onFinalize totals chain.number chain.epochs }

variable {blake2 currency}

theorem effect_of_enabled {action : Action Balances} (wf : chain.epochs.WellFormed)
    (enabled : chain.Enabled currency action) :
    Effect blake2 currency chain (chain.apply blake2 currency action) := by
  cases action with
  | openBlock context =>
      obtain ⟨wf', opened⟩ := openBlock_opened blake2 context wf
      exact .opened enabled.1 enabled.2 rfl rfl rfl rfl wf' rfl opened
  | transfers origin call =>
      simp only [apply, applyTransfers]
      split
      · rename_i ok
        exact .transferred enabled.1 enabled.2 (Transfers.dispatched_of_ok ok)
      · exact .failed enabled.1 enabled.2
  | governance origin call =>
      simp only [apply, applyGovernance]
      split
      · rename_i ok
        exact .governed enabled.1 enabled.2 ok
      · exact .failed enabled.1 enabled.2
  | external balances extrinsicIndex => exact .external enabled.1 enabled.2.1 enabled.2.2
  | closeBlock totals => exact .closed totals enabled

variable (blake2) in
theorem openBlock_governance (context : Epochs.BlockContext) (wf : chain.epochs.WellFormed) :
    ((chain.openBlock blake2 context).epochs.currentEpoch = chain.epochs.currentEpoch ∨
      (chain.openBlock blake2 context).epochs.currentEpoch = chain.epochs.currentEpoch + 1) ∧
    (chain.openBlock blake2 context).governance = Governance.onInitialize
      (chain.openBlock blake2 context).epochs.currentEpoch (chain.number + 1) chain.governance := by
  obtain ⟨_, opened⟩ := openBlock_opened blake2 context wf
  cases opened with
  | within epoch _ _ governance => exact ⟨.inl epoch, epoch.symm ▸ governance⟩
  | closed _ epoch _ _ _ governance => exact ⟨.inr epoch, epoch.symm ▸ governance⟩

inductive Governed (blake2 : Bytes → Hash32) (currency : Currency Balances) (chain : Chain Balances)
    (action : Action Balances) (chain' : Chain Balances) : Prop where
  | kept (epoch : chain'.epochs.currentEpoch = chain.epochs.currentEpoch)
      (governance : chain'.governance = chain.governance)
  | opened (context : Epochs.BlockContext) (opening : action = .openBlock context)
      (epoch : chain'.epochs.currentEpoch = chain.epochs.currentEpoch ∨
        chain'.epochs.currentEpoch = chain.epochs.currentEpoch + 1)
      (governance : chain'.governance =
        Governance.onInitialize chain'.epochs.currentEpoch (chain.number + 1) chain.governance)
  | called (origin : Origin) (call : Governance.Call) (calling : action = .governance origin call)
      (epoch : chain'.epochs.currentEpoch = chain.epochs.currentEpoch)
      (ok : Governance.dispatch blake2 currency chain.callContext origin call
        chain.balances chain.governance =
        .ok chain'.governance)

variable (blake2 currency) in
theorem governed_apply (action : Action Balances) (wf : chain.epochs.WellFormed) :
    Governed blake2 currency chain action (chain.apply blake2 currency action) := by
  cases action with
  | openBlock context =>
      obtain ⟨epoch, governance⟩ := openBlock_governance blake2 context wf
      exact .opened context rfl epoch governance
  | transfers origin call =>
      simp only [apply, applyTransfers]
      split <;> exact .kept rfl rfl
  | governance origin call =>
      simp only [apply, applyGovernance]
      split
      · rename_i ok
        exact .called origin call rfl rfl ok
      · exact .kept rfl rfl
  | external balances extrinsicIndex => exact .kept rfl rfl
  | closeBlock totals => exact .kept (Epochs.onFinalize_currentEpoch _ _ _) rfl

theorem Counted.idle_room (counted : chain.Counted) (idle : chain.inBlock = false)
    (bound : chain.number.toNat + 1 < 2 ^ 32) :
    chain.governance.nextProposalSequence.toNat + 1 < 2 ^ 64 := by
  have proposals := counted.proposals_le
  rw [issued, if_neg (by simp [idle])] at proposals
  omega

theorem Counted.epoch_room (counted : chain.Counted) (bound : chain.number.toNat + 1 < 2 ^ 32) :
    chain.epochs.currentEpoch.toNat + 1 < 2 ^ 64 := by
  have epoch := counted.epoch_le
  omega

theorem Effect.domainId (effect : Effect blake2 currency chain chain') :
    chain'.domainId = chain.domainId := by
  cases effect with
  | opened _ _ domain => exact domain
  | transferred => rfl
  | governed => rfl
  | failed => rfl
  | external => rfl
  | closed => rfl

theorem Effect.ledger_moves (effect : Effect blake2 currency chain chain')
    (counted : chain.Counted) :
    ReflTransGen (Transfers.Move blake2 currency chain.domainId) chain.ledger chain'.ledger := by
  cases effect with
  | opened idle bound domain number inBlock index wf balances opened =>
      cases opened with
      | within epoch headers transfers governance =>
          rw [show chain'.ledger = chain.ledger by rw [ledger, epoch, transfers, balances]; rfl]
      | closed header epoch headers commits transfers governance =>
          apply ReflTransGen.single
          rw [show chain'.ledger = ⟨chain.epochs.currentEpoch + 1, _, chain.balances⟩ by
            rw [ledger, epoch, transfers, balances]]
          exact .closed _ _ (counted.epoch_room bound)
  | transferred inBlock bound dispatched =>
      exact .single (.called chain.callContext rfl rfl (counted.room inBlock bound).1 dispatched)
  | governed => exact .refl
  | failed => exact .refl
  | external _ _ held => exact .single (.external held)
  | closed totals => simp [ledger, ReflTransGen.refl]

theorem settles_moves (context : CallContext) (balances : Balances) {epoch : EpochId}
    {state state' : Governance.State} (current : context.currentEpoch = epoch)
    (room : state.nextProposalSequence.toNat + 1 < 2 ^ 64)
    (settles : Governance.Settles blake2 currency context balances state state') :
    ReflTransGen (Governance.Move blake2 currency context.domainId) ⟨epoch, state⟩
      ⟨epoch, state'⟩ := by
  induction settles with
  | refl => exact .refl
  | tail before touch moved =>
      apply moved.tail
      apply Governance.Move.touched rfl current _ touch
      exact lt_of_le_of_lt (Nat.add_le_add_right (Governance.Settles.sequence_le before) 1) room

variable (blake2 currency) in
theorem onInitialize_moves (domainId : DomainId) (balances : Balances)
    (epoch : EpochId) (number : UInt32) {state : Governance.State}
    (room : state.nextProposalSequence.toNat + 1 < 2 ^ 64) :
    ReflTransGen (Governance.Move blake2 currency domainId) ⟨epoch, state⟩
      ⟨epoch, Governance.onInitialize epoch number state⟩ :=
  let context : CallContext :=
    { domainId, currentEpoch := epoch, blockNumber := number, extrinsicIndex := 0 }
  settles_moves context balances rfl room (Governance.onInitialize_settles state)

theorem Effect.chamber_moves (effect : Effect blake2 currency chain chain')
    (counted : chain.Counted) :
    ReflTransGen (Governance.Move blake2 currency chain.domainId) chain.chamber chain'.chamber := by
  cases effect with
  | opened idle bound domain number inBlock index wf balances opened =>
      have room := counted.idle_room idle bound
      cases opened with
      | within epoch headers transfers governance =>
          rw [show chain'.chamber = ⟨chain.epochs.currentEpoch, _⟩ by rw [chamber,
            epoch, governance]]
          exact onInitialize_moves blake2 currency _ chain.balances _ _ room
      | closed header epoch headers commits transfers governance =>
          rw [show chain'.chamber = ⟨chain.epochs.currentEpoch + 1, _⟩ by rw [chamber,
            epoch, governance]]
          exact (ReflTransGen.single (.advanced (counted.epoch_room bound))).trans
            (onInitialize_moves blake2 currency _ chain.balances _ _ room)
  | transferred => exact .refl
  | governed inBlock bound ok =>
      have room := (counted.room inBlock bound).2
      obtain ⟨middle, touch, settles⟩ := Governance.touch_of_ok ok
      have next := touch.sequence_le
      simp only [Option.isSome_some, if_true] at next
      have first : chain.governance.nextProposalSequence.toNat + 1 < 2 ^ 64 := by omega
      exact (ReflTransGen.single (.touched rfl rfl first touch)).trans
        (settles_moves chain.callContext chain.balances rfl (by omega) settles)
  | failed => exact .refl
  | external => exact .refl
  | closed totals => simp [chamber, ReflTransGen.refl]

theorem Counted.extrinsic (counted : chain.Counted) (inBlock : chain.inBlock = true)
    {transfers : Transfers.State} {governance : Governance.State} {extrinsicIndex : UInt32}
    (balances : Balances) (exports : transfers.nextExportSequence.toNat +
      chain.extrinsicIndex.toNat ≤
      chain.transfers.nextExportSequence.toNat + extrinsicIndex.toNat)
    (proposals : governance.nextProposalSequence.toNat + chain.extrinsicIndex.toNat ≤
      chain.governance.nextProposalSequence.toNat + extrinsicIndex.toNat) :
    Counted { chain with transfers, governance, balances, extrinsicIndex } := by
  have exports' := counted.exports_le
  have proposals' := counted.proposals_le
  rw [issued, if_pos inBlock] at exports' proposals'
  constructor
  · exact counted.wellFormed
  · exact counted.started
  · exact counted.epoch_le
  · simp only [issued, inBlock, if_true]
    omega
  · simp only [issued, inBlock, if_true]
    omega

theorem Opened.epoch_le (opened : Opened blake2 chain chain')
    (room : chain.epochs.currentEpoch.toNat + 1 < 2 ^ 64) :
    chain'.epochs.currentEpoch.toNat ≤ chain.epochs.currentEpoch.toNat + 1 := by
  cases opened with
  | within epoch =>
      rw [epoch]
      exact Nat.le_succ _
  | closed header epoch =>
      rw [epoch, UInt64.toNat_succ room]

theorem Opened.exports (opened : Opened blake2 chain chain') :
    chain'.transfers.nextExportSequence = chain.transfers.nextExportSequence := by
  cases opened with
  | within _ _ transfers => rw [transfers]
  | closed _ _ _ _ transfers =>
      rw [transfers]
      rfl

theorem onInitialize_sequence (blake2 : Bytes → Hash32) (currency : Currency Balances)
    (context : CallContext) (balances : Balances) (state : Governance.State) :
    (Governance.onInitialize context.currentEpoch context.blockNumber
      state).nextProposalSequence.toNat ≤
      state.nextProposalSequence.toNat :=
  (Governance.onInitialize_settles state : Governance.Settles blake2 currency context
    balances _ _).sequence_le

theorem Opened.proposals (currency : Currency Balances) (opened : Opened blake2 chain chain') :
    chain'.governance.nextProposalSequence.toNat ≤ chain.governance.nextProposalSequence.toNat := by
  cases opened with
  | within _ _ _ governance =>
      rw [governance]
      exact onInitialize_sequence blake2 currency
        { chain.callContext with blockNumber := chain.number + 1 } chain.balances chain.governance
  | closed _ _ _ _ _ governance =>
      rw [governance]
      exact onInitialize_sequence blake2 currency
        { chain.callContext with
          blockNumber := chain.number + 1
          currentEpoch := chain.epochs.currentEpoch + 1 } chain.balances chain.governance

theorem issued_closed {count number index : ℕ} (bound : count ≤ (number - 1) * 2 ^ 32 + index)
    (small : index < 2 ^ 32) (started : 0 < number) : count ≤ number * 2 ^ 32 := by
  obtain ⟨previous, rfl⟩ := Nat.exists_eq_succ_of_ne_zero started.ne'
  omega

theorem Effect.counted (effect : Effect blake2 currency chain chain') (counted : chain.Counted) :
    chain'.Counted := by
  cases effect with
  | opened idle bound domain number inBlock index wf balances opened =>
      have number_eq := UInt32.toNat_succ bound
      have exports := counted.exports_le
      have proposals := counted.proposals_le
      have epoch := counted.epoch_le
      have epoch' := opened.epoch_le (counted.epoch_room bound)
      have proposals' := opened.proposals currency
      rw [issued, if_neg (by simp [idle])] at exports proposals
      constructor
      · exact wf
      · rw [number, number_eq]
        exact fun _ => Nat.succ_pos _
      · rw [number, number_eq]
        omega
      · rw [opened.exports, issued, if_pos inBlock, number, number_eq, index, Nat.add_sub_cancel,
          UInt32.toNat_zero, Nat.add_zero]
        exact exports
      · rw [issued, if_pos inBlock, number, number_eq, index, Nat.add_sub_cancel,
          UInt32.toNat_zero, Nat.add_zero]
        exact Nat.le_trans proposals' proposals
  | transferred inBlock bound dispatched =>
      have next := dispatched.sequence_le
      apply counted.extrinsic inBlock <;> rw [UInt32.toNat_succ bound] <;> omega
  | governed inBlock bound ok =>
      obtain ⟨middle, touch, settles⟩ := Governance.touch_of_ok ok
      have next := touch.sequence_le
      have settled := settles.sequence_le
      simp only [Option.isSome_some, if_true] at next
      apply counted.extrinsic inBlock <;> rw [UInt32.toNat_succ bound] <;> omega
  | failed inBlock bound =>
      apply counted.extrinsic inBlock <;> rw [UInt32.toNat_succ bound] <;> omega
  | external inBlock later held =>
      have later' := UInt32.le_iff_toNat_le.mp later
      apply counted.extrinsic inBlock <;> omega
  | closed totals inBlock =>
      have exports := counted.exports_le
      have proposals := counted.proposals_le
      have index := chain.extrinsicIndex.toNat_lt
      have started := counted.started inBlock
      rw [issued, if_pos inBlock] at exports proposals
      constructor
      · exact Epochs.onFinalize_wellFormed _ counted.wellFormed
      · exact fun absurd => by simp at absurd
      · rw [Epochs.onFinalize_currentEpoch]
        exact counted.epoch_le
      · exact issued_closed exports index started
      · exact issued_closed proposals index started

end Steps

section Reachable

theorem genesis_counted (config : GenesisConfig Balances) : (genesis config).Counted where
  wellFormed := Epochs.genesis_wellFormed _
  started := by simp [genesis]
  epoch_le := Nat.zero_le _
  exports_le := Nat.zero_le _
  proposals_le := Nat.zero_le _

theorem counted_of_reachable (reachable : (system blake2 currency config).Reachable chain) :
    chain.Counted := by
  apply reachable.invariant Counted
  · intro _ initial
    subst initial
    exact genesis_counted config
  · rintro _ _ _ counted ⟨action, enabled, rfl⟩
    exact (effect_of_enabled counted.wellFormed enabled).counted counted

theorem effect_of_step (reachable : (system blake2 currency config).Reachable chain)
    (step : (system blake2 currency config).step chain chain') :
    Effect blake2 currency chain chain' := by
  obtain ⟨action, enabled, rfl⟩ := step
  exact effect_of_enabled (counted_of_reachable reachable).wellFormed enabled

theorem domainId_of_reachable (reachable : (system blake2 currency config).Reachable chain) :
    chain.domainId = config.domainId := by
  apply reachable.invariant fun chain => chain.domainId = config.domainId
  · intro _ initial
    subst initial
    rfl
  · intro _ _ reached same step
    exact (effect_of_step reached step).domainId.trans same

theorem ledger_reachable (reachable : (system blake2 currency config).Reachable chain) :
    (Transfers.system blake2 currency config.domainId config.transfersImporter
      config.balances).Reachable
      chain.ledger := by
  apply reachable.project ledger
  · intro _ initial
    subst initial
    rfl
  · intro _ _ reached step
    rw [← domainId_of_reachable reached]
    exact (effect_of_step reached step).ledger_moves (counted_of_reachable reached)

theorem ledger_moves_of_steps (reachable : (system blake2 currency config).Reachable chain)
    (steps : ReflTransGen (system blake2 currency config).step chain chain') :
    ReflTransGen (Transfers.Move blake2 currency config.domainId) chain.ledger chain'.ledger := by
  induction steps with
  | refl => exact .refl
  | tail before step moves =>
      have reached := reachable.steps before
      rw [← domainId_of_reachable reached] at moves ⊢
      exact moves.trans ((effect_of_step reached step).ledger_moves (counted_of_reachable reached))

theorem chamber_reachable (reachable : (system blake2 currency config).Reachable chain) :
    (Governance.system blake2 currency config.domainId config.protocolVersion
      config.governanceImporter config.governanceVoters).Reachable chain.chamber := by
  apply reachable.project chamber
  · intro _ initial
    subst initial
    rfl
  · intro _ _ reached step
    rw [← domainId_of_reachable reached]
    exact (effect_of_step reached step).chamber_moves (counted_of_reachable reached)

end Reachable

section Scripts

variable (blake2 currency)

/-- A check of `Enabled` that can be evaluated; it accepts no external action. -/
def canApply (chain : Chain Balances) : Action Balances → Bool
  | .openBlock _ => !chain.inBlock && decide (chain.number.toNat + 1 < 2 ^ 32)
  | .transfers _ _ => chain.inBlock && decide (chain.extrinsicIndex.toNat + 1 < 2 ^ 32)
  | .governance _ _ => chain.inBlock && decide (chain.extrinsicIndex.toNat + 1 < 2 ^ 32)
  | .external _ _ => false
  | .closeBlock _ => chain.inBlock

def tryApply (chain : Chain Balances) (action : Action Balances) : Option (Chain Balances) :=
  if chain.canApply action then some (chain.apply blake2 currency action) else none

def runScript (chain : Chain Balances) (actions : List (Action Balances)) :
    Option (Chain Balances) :=
  actions.foldlM (tryApply blake2 currency) chain

variable {blake2 currency}

theorem enabled_of_canApply {action : Action Balances} (applicable : chain.canApply action = true) :
    chain.Enabled currency action := by
  cases action with
  | openBlock context => simpa [canApply, Enabled] using applicable
  | transfers origin call => simpa [canApply, Enabled] using applicable
  | governance origin call => simpa [canApply, Enabled] using applicable
  | external balances extrinsicIndex => exact absurd applicable Bool.false_ne_true
  | closeBlock totals => exact applicable

theorem tryApply_eq_some {action : Action Balances}
    (applied : chain.tryApply blake2 currency action = some chain') :
    chain.Enabled currency action ∧ chain' = chain.apply blake2 currency action := by
  obtain ⟨applicable, same⟩ := Option.ite_none_right_eq_some.mp applied
  exact ⟨enabled_of_canApply applicable, (Option.some.inj same).symm⟩

theorem steps_of_script {actions : List (Action Balances)}
    (ran : runScript blake2 currency chain actions = some chain') :
    ReflTransGen (system blake2 currency config).step chain chain' :=
  Transition.steps_of_script (fun action _ => fun applied => ⟨action, tryApply_eq_some applied⟩) ran

theorem reachable_of_script {actions : List (Action Balances)}
    (reachable : (system blake2 currency config).Reachable chain)
    (ran : runScript blake2 currency chain actions = some chain') :
    (system blake2 currency config).Reachable chain' :=
  reachable.steps (steps_of_script ran)

def opens : Action Balances := .openBlock { parentHash := emptyHash, validatorSetHash := emptyHash }

def closes : Action Balances :=
  .closeBlock {
    stateRoot := emptyHash, extrinsicCount := 1, allExtrinsicsLen := 100, eventCount := 1 }

end Scripts

end Ialp.Chain
