import Ialp.Pallets.Epochs
import Mathlib.Algebra.Order.Group.Nat
import Mathlib.Data.Nat.Basic

/-!
Runs of consecutive blocks under the epochs hooks. The extrinsics of a block may do anything to the
rest of the runtime; the pallet's own storage is written by its hooks only.
-/

namespace Ialp.Epochs

open Scale Function

structure Block (σ : Type) where
  context : BlockContext
  extrinsics : σ → σ
  totals : BlockTotals

structure Run (σ : Type) where
  number : UInt32
  epochs : State
  rest : σ

variable {σ : Type} (blake2 : Bytes → Hash32) (config : Config σ)

def runBlock (run : Run σ) (block : Block σ) : Run σ :=
  let number := run.number + 1
  let (epochs, rest) := onInitialize blake2 config block.context number run.epochs run.rest
  { number, epochs := onFinalize block.totals number epochs, rest := block.extrinsics rest }

def runBlocks (epochLengthBlocks : UInt32) (rest : σ) (blocks : List (Block σ)) : Run σ :=
  blocks.foldl (runBlock blake2 config) { number := 0, epochs := genesis epochLengthBlocks, rest }

def blockHashAt (blocks : List (Block σ)) (number : UInt32) : Hash32 :=
  ((blocks[number.toNat]?).map (·.context.parentHash)).getD emptyHash

def totalsAt (blocks : List (Block σ)) (number : UInt32) : BlockTotals :=
  ((blocks[number.toNat - 1]?).map (·.totals)).getD ⟨emptyHash, 0, 0, 0⟩

def txHashAt (blocks : List (Block σ)) (number : UInt32) : Hash32 :=
  txEnvelopeHash blake2 number (totalsAt blocks number).extrinsicCount
    (totalsAt blocks number).allExtrinsicsLen

def eventHashAt (blocks : List (Block σ)) (number : UInt32) : Hash32 :=
  eventEnvelopeHash blake2 number (totalsAt blocks number).eventCount

def numbersFrom (first count : Nat) : List UInt32 := (List.range' first count).map UInt32.ofNat

structure Accumulated (blocks : List (Block σ)) (epoch : EpochId) (first count : Nat)
    (accumulators : EpochAccumulators) : Prop where
  blockRoot : accumulators.blockRoot = seededFold blake2 blockRootLabel config.domainId epoch
    (blockHashAt blocks) (numbersFrom first count)
  txRoot : accumulators.txRoot = seededFold blake2 txRootLabel config.domainId epoch
    (txHashAt blake2 blocks) (numbersFrom first count)
  eventRoot : accumulators.eventRoot = seededFold blake2 eventRootLabel config.domainId epoch
    (eventHashAt blake2 blocks) (numbersFrom first count)
  blocksObserved : accumulators.blocksObserved.toNat = count

theorem seedAccumulators_accumulated (blocks : List (Block σ)) (epoch : EpochId) (first : Nat) :
    Accumulated blake2 config blocks epoch first 0 (seedAccumulators blake2 config epoch) :=
  ⟨rfl, rfl, rfl, rfl⟩

theorem numbersFrom_succ (first count : Nat) :
    numbersFrom first (count + 1) = numbersFrom first count ++ [UInt32.ofNat (first + count)] := by
  simp [numbersFrom, List.range'_concat]

theorem foldObservation_accumulated {blocks : List (Block σ)} {epoch : EpochId} {first count : Nat}
    {slot : SummarySlotRecord} {context : BlockContext} {observation : PendingBlockObservation}
    {number : UInt32} (accumulated : Accumulated blake2 config blocks epoch first
      count slot.accumulators)
    (next : number = UInt32.ofNat (first + count)) (bound : count + 1 < 2 ^ 32)
    (parent : context.parentHash = blockHashAt blocks number)
    (extrinsicCount : observation.extrinsicCount = (totalsAt blocks number).extrinsicCount)
    (allExtrinsicsLen : observation.allExtrinsicsLen = (totalsAt blocks number).allExtrinsicsLen)
    (eventCount : observation.eventCount = (totalsAt blocks number).eventCount) :
    Accumulated blake2 config blocks epoch first (count + 1)
      (foldObservationIntoSlot blake2 context slot number observation).accumulators where
  blockRoot := by
    rw [numbersFrom_succ, seededFold_snoc, ← next, ← accumulated.blockRoot, ← parent]
    rfl
  txRoot := by
    rw [numbersFrom_succ, seededFold_snoc, ← next, ← accumulated.txRoot, txHashAt, ← extrinsicCount,
      ← allExtrinsicsLen]
    rfl
  eventRoot := by
    rw [numbersFrom_succ, seededFold_snoc, ← next, ← accumulated.eventRoot,
      eventHashAt, ← eventCount]
    rfl
  blocksObserved := by
    change (saturatingAdd32 slot.accumulators.blocksObserved 1).toNat = count + 1
    rw [saturatingAdd32, accumulated.blocksObserved, UInt32.toNat_ofNat']
    change min (count + 1) (2 ^ 32 - 1) % 2 ^ 32 = count + 1
    omega

/-- What is on record for a closed epoch `e` of a run with epochs of `length` blocks. -/
structure ClosedEpoch (length : Nat) (blocks : List (Block σ)) (state : State) (e : EpochId)
    (header : EpochSummaryHeader) (slot : SummarySlotRecord) : Prop where
  headerStored : state.summaryHeaders e = some header
  slotStored : state.summarySlots e = some slot
  epochId : header.epochId = e
  domainId : header.domainId = config.domainId
  startHeight : header.startBlockHeight.toNat = e.toNat * length + 1
  endHeight : header.endBlockHeight.toNat = (e.toNat + 1) * length
  linked : if e = 0 then header.prevSummaryHash = emptyHash
    else ∃ previous, state.summaryHeaders (e - 1) = some previous ∧
      header.prevSummaryHash = previous.summaryHash
  summaryHash : header.summaryHash = header.computeSummaryHash blake2
  blockRoot : header.blockRoot = seededFold blake2 blockRootLabel config.domainId e
    (blockHashAt blocks) (numbersFrom (e.toNat * length + 1) length)
  txRoot : header.txRoot = seededFold blake2 txRootLabel config.domainId e
    (txHashAt blake2 blocks) (numbersFrom (e.toNat * length + 1) length)
  eventRoot : header.eventRoot = seededFold blake2 eventRootLabel config.domainId e
    (eventHashAt blake2 blocks) (numbersFrom (e.toNat * length + 1) length)
  slotStatus : slot.status = .staged
  slotHeader : slot.header = some header
  stagedAt : slot.stagedAtBlockNumber.map UInt32.toNat = some ((e.toNat + 1) * length + 1)
  observed : slot.accumulators.blocksObserved.toNat = length

/-- The storage of the pallet after block `n` of a run, for `n ≥ 1`. -/
structure Tiled (length : Nat) (blocks : List (Block σ)) (n : Nat) (state : State) : Prop where
  epochLength : state.epochLengthBlocks.toNat = length
  initialized : state.initialized = true
  pending : state.pendingBlockObservation = some
    { blockNumber := UInt32.ofNat n
      stateRoot := (totalsAt blocks (UInt32.ofNat n)).stateRoot
      extrinsicCount := (totalsAt blocks (UInt32.ofNat n)).extrinsicCount
      allExtrinsicsLen := (totalsAt blocks (UInt32.ofNat n)).allExtrinsicsLen
      eventCount := (totalsAt blocks (UInt32.ofNat n)).eventCount }
  currentEpoch : state.currentEpoch.toNat = (n - 1) / length
  currentEpochStart : state.currentEpochStart.toNat = state.currentEpoch.toNat * length + 1
  openSlot : ∃ slot, state.summarySlots state.currentEpoch = some slot ∧ slot.status = .reserved ∧
    Accumulated blake2 config blocks state.currentEpoch (state.currentEpoch.toNat * length + 1)
      (n - 1 - state.currentEpoch.toNat * length) slot.accumulators
  closed : ∀ e, e < state.currentEpoch → ∃ header slot,
    ClosedEpoch blake2 config length blocks state e header slot
  unclosed : ∀ e, state.currentEpoch ≤ e → state.summaryHeaders e = none
  summaryCount : state.summaryCount = state.currentEpoch
  latest : if state.currentEpoch = 0 then
      state.latestSummaryHeader = none ∧ state.latestSummaryHash = emptyHash
    else ∃ header, state.summaryHeaders (state.currentEpoch - 1) = some header ∧
      state.latestSummaryHeader = some header ∧ state.latestSummaryHash = header.summaryHash

section Steps

variable {blake2 config} {length : Nat} {blocks : List (Block σ)} {state : State}

theorem ClosedEpoch.congr {later : State} {e : EpochId} {header : EpochSummaryHeader}
    {slot : SummarySlotRecord}
    (closed : ClosedEpoch blake2 config length blocks state e header slot)
    (headers : ∀ e' ≤ e, later.summaryHeaders e' = state.summaryHeaders e')
    (slots : later.summarySlots e = state.summarySlots e) :
    ClosedEpoch blake2 config length blocks later e header slot := by
  refine { closed with headerStored := ?_, slotStored := ?_, linked := ?_ }
  · rw [headers e UInt64.le_rfl]
    exact closed.headerStored
  · rw [slots]
    exact closed.slotStored
  · have linked := closed.linked
    split at linked
    · rw [if_pos ‹_›]
      exact linked
    · rename_i positive
      rw [if_neg positive, headers (e - 1) (UInt64.le_of_lt (UInt64.pred_lt positive))]
      exact linked

section Step

variable {n : Nat} {block : Block σ} {rest : σ}

theorem ofNat_succ_sub_one (n : Nat) : UInt32.ofNat (n + 1) - 1 = UInt32.ofNat n := by
  rw [UInt32.ofNat_add]
  simp

theorem toNat_ofNat_of_lt {n : Nat} (bound : n < 2 ^ 32) : (UInt32.ofNat n).toNat = n := by
  rw [UInt32.toNat_ofNat', Nat.mod_eq_of_lt bound]

theorem Tiled.observe (tiled : Tiled blake2 config length blocks n state) (positive : 1 ≤ n)
    (bound : n + 1 < 2 ^ 32) (present : blocks[n]? = some block) :
    ∃ observation slot, state.pendingBlockObservation = some observation ∧
      (observeParent blake2 block.context (UInt32.ofNat (n + 1)) observation state).summarySlots
        state.currentEpoch = some slot ∧ slot.status = .reserved ∧
      Accumulated blake2 config blocks state.currentEpoch (state.currentEpoch.toNat * length + 1)
        (n - state.currentEpoch.toNat * length) slot.accumulators := by
  obtain ⟨slot, stored, reserved, accumulated⟩ := tiled.openSlot
  have below : state.currentEpoch.toNat * length ≤ n - 1 := by
    rw [tiled.currentEpoch]
    exact Nat.div_mul_le_self _ _
  have count : n - state.currentEpoch.toNat * length = n - 1 - state.currentEpoch.toNat *
      length + 1 := by omega
  refine ⟨_, _, tiled.pending, observeParent_slot blake2 _ _ _ stored, reserved, ?_⟩
  rw [count, ofNat_succ_sub_one]
  apply foldObservation_accumulated blake2 config accumulated
  · congr 1
    omega
  · omega
  · rw [blockHashAt, toNat_ofNat_of_lt (by omega), present]
    rfl
  · rfl
  · rfl
  · rfl

theorem onFinalize_succ {totals : BlockTotals} (bound : n + 1 < 2 ^ 32) :
    onFinalize totals (UInt32.ofNat (n + 1)) state = { state with
      pendingBlockObservation := some {
        blockNumber := UInt32.ofNat (n + 1)
        stateRoot := totals.stateRoot
        extrinsicCount := totals.extrinsicCount
        allExtrinsicsLen := totals.allExtrinsicsLen
        eventCount := totals.eventCount } } := by
  have nonzero : UInt32.ofNat (n + 1) ≠ 0 := by
    intro zero
    have := congrArg UInt32.toNat zero
    rw [toNat_ofNat_of_lt bound] at this
    simp at this
  exact if_neg nonzero

theorem totalsAt_succ (bound : n + 1 < 2 ^ 32) (present : blocks[n]? = some block) :
    totalsAt blocks (UInt32.ofNat (n + 1)) = block.totals := by
  rw [totalsAt, toNat_ofNat_of_lt bound, Nat.add_sub_cancel, present]
  rfl

theorem succ_div_of_pos (positive : 1 ≤ n) (length : Nat) :
    n / length = (n - 1) / length + if length ∣ n then 1 else 0 := by
  obtain ⟨m, rfl⟩ := Nat.exists_eq_add_of_le' positive
  exact Nat.succ_div

theorem Tiled.within (tiled : Tiled blake2 config length blocks n state) (positive : 1 ≤ n)
    (bound : n + 1 < 2 ^ 32) (present : blocks[n]? = some block) (inside : ¬ length ∣ n)
    {observation : PendingBlockObservation}
    (pending : state.pendingBlockObservation = some observation) :
    Tiled blake2 config length blocks (n + 1) (onFinalize block.totals (UInt32.ofNat (n + 1))
      (observeParent blake2 block.context (UInt32.ofNat (n + 1)) observation state)) := by
  obtain ⟨observation', slot, pending', stored, reserved, accumulated⟩ :=
    tiled.observe positive bound present
  obtain rfl : observation' = observation := by simpa [pending] using pending'.symm
  have same : n / length = (n - 1) / length := by
    have step := succ_div_of_pos positive length
    rwa [if_neg inside, Nat.add_zero] at step
  rw [onFinalize_succ bound]
  constructor
  · exact tiled.epochLength
  · exact tiled.initialized
  · simp only [totalsAt_succ bound present]
  · exact tiled.currentEpoch.trans same.symm
  · exact tiled.currentEpochStart
  · exact ⟨slot, stored, reserved, accumulated⟩
  · intro e before
    obtain ⟨header, closedSlot, closed⟩ := tiled.closed e before
    refine ⟨header, closedSlot, closed.congr (fun _ _ => rfl) ?_⟩
    exact update_of_ne (UInt64.ne_of_lt before) _ _
  · exact tiled.unclosed
  · exact tiled.summaryCount
  · exact tiled.latest

section Boundary

variable (tiled : Tiled blake2 config length blocks n state)
include tiled

theorem Tiled.ends (positive : 1 ≤ n) (last : length ∣ n) :
    n = (state.currentEpoch.toNat + 1) * length := by
  have next : n / length = state.currentEpoch.toNat + 1 := by
    rw [succ_div_of_pos positive length, if_pos last, tiled.currentEpoch]
  rw [← next, Nat.div_mul_cancel last]

theorem Tiled.epoch_room (lengthPos : 0 < length) (positive : 1 ≤ n) (bound : n + 1 < 2 ^ 32)
    (last : length ∣ n) : state.currentEpoch.toNat + 1 < 2 ^ 64 := by
  have ends := tiled.ends positive last
  have enough := Nat.le_mul_of_pos_right (state.currentEpoch.toNat + 1) lengthPos
  omega

theorem Tiled.linked (header : EpochSummaryHeader) :
    if state.currentEpoch = 0 then
      (if state.currentEpoch = 0 then emptyHash else state.latestSummaryHash) = emptyHash
    else ∃ previous, update state.summaryHeaders state.currentEpoch (some header)
    (state.currentEpoch - 1) =
        some previous ∧
      (if state.currentEpoch = 0 then emptyHash else state.latestSummaryHash) =
        previous.summaryHash := by
  have latest := tiled.latest
  split at latest
  · rename_i first
    rw [if_pos first]
    exact if_pos first
  · rename_i later
    obtain ⟨previous, found, _, hash⟩ := latest
    rw [if_neg later]
    have before := UInt64.ne_of_lt (UInt64.pred_lt later)
    exact ⟨previous, (update_of_ne before _ _).trans found, (if_neg later).trans hash⟩

end Boundary

theorem Tiled.boundary (tiled : Tiled blake2 config length blocks n state) (lengthPos : 0 < length)
    (positive : 1 ≤ n) (bound : n + 1 < 2 ^ 32) (present : blocks[n]? = some block)
    (last : length ∣ n) {observation : PendingBlockObservation}
    (pending : state.pendingBlockObservation = some observation) :
    Tiled blake2 config length blocks (n + 1) (onFinalize block.totals (UInt32.ofNat (n + 1))
      (stageSummaryForClosedEpoch blake2 config block.context state.currentEpoch (UInt32.ofNat n)
        (UInt32.ofNat (n + 1))
        (observeParent blake2 block.context (UInt32.ofNat (n + 1)) observation state) rest).1) := by
  obtain ⟨observation', slot, pending', stored, reserved, accumulated⟩ :=
    tiled.observe positive bound present
  obtain rfl : observation' = observation := by simpa [pending] using pending'.symm
  have ends := tiled.ends positive last
  have room := tiled.epoch_room lengthPos positive bound last
  have succ := UInt64.toNat_succ room
  have current := UInt64.lt_succ_self room
  have full : n - state.currentEpoch.toNat * length = length := by
    rw [ends, Nat.succ_mul]
    omega
  rw [full] at accumulated
  have opens : (UInt32.ofNat (n + 1)).toNat = (state.currentEpoch.toNat + 1) * length + 1 := by
    rw [toNat_ofNat_of_lt bound, ← ends]
  rw [stageSummary_reserved _ _ _ _ _ _ stored reserved, onFinalize_succ bound]
  constructor
  · exact tiled.epochLength
  · exact tiled.initialized
  · simp only [totalsAt_succ bound present]
  · change (state.currentEpoch + 1).toNat = n / length
    rw [succ, ends, Nat.mul_div_cancel _ lengthPos]
  · change (UInt32.ofNat (n + 1)).toNat = (state.currentEpoch + 1).toNat * length + 1
    rw [succ, opens]
  · refine ⟨_, update_self _ _ _, rfl, ?_⟩
    change Accumulated blake2 config blocks (state.currentEpoch + 1)
      ((state.currentEpoch + 1).toNat * length + 1) (n - (state.currentEpoch + 1).toNat * length) _
    rw [succ, ← ends, Nat.sub_self]
    exact seedAccumulators_accumulated blake2 config blocks _ _
  · intro e before
    rcases (UInt64.lt_succ_iff room).mp before with earlier | here
    · obtain ⟨header, closedSlot, closed⟩ := tiled.closed e earlier
      refine ⟨header, closedSlot, closed.congr ?_ ?_⟩
      · intro e' below
        exact update_of_ne (UInt64.ne_of_lt (UInt64.lt_of_le_of_lt below earlier)) _ _
      · exact (update_of_ne (UInt64.ne_of_lt before) _ _).trans
          ((update_of_ne (UInt64.ne_of_lt earlier) _ _).trans
          (update_of_ne (UInt64.ne_of_lt earlier) _ _))
    · subst here
      exact ⟨_, _, update_self _ _ _,
        (update_of_ne (UInt64.ne_of_lt current) _ _).trans (update_self _ _ _), rfl, rfl,
        tiled.currentEpochStart, (toNat_ofNat_of_lt (by omega)).trans ends, tiled.linked _, rfl,
        accumulated.blockRoot,
        accumulated.txRoot, accumulated.eventRoot, rfl, rfl, congrArg some opens,
        accumulated.blocksObserved⟩
  · intro e after
    have later := UInt64.lt_of_lt_of_le current after
    exact (update_of_ne (UInt64.ne_of_lt later).symm _ _).trans
      (tiled.unclosed e (UInt64.le_of_lt later))
  · exact congrArg (· + 1) tiled.summaryCount
  · have nonzero : state.currentEpoch + 1 ≠ 0 := by
      intro zero
      rw [zero] at succ
      exact absurd succ (Nat.succ_ne_zero _).symm
    have pred : state.currentEpoch + 1 - 1 = state.currentEpoch := by simp
    change if state.currentEpoch + 1 = 0 then _ else _
    rw [if_neg nonzero]
    refine ⟨_, ?_, rfl, rfl⟩
    change update _ _ _ (state.currentEpoch + 1 - 1) = _
    rw [pred]
    exact update_self _ _ _

/-- The hook of block `n + 1` observes block `n`, and closes the epoch if that was its last
block. -/
theorem Tiled.hook (tiled : Tiled blake2 config length blocks n state)
    (lengthPos : 0 < length) (positive : 1 ≤ n) (bound : n + 1 < 2 ^ 32)
    {observation : PendingBlockObservation}
    (pending : state.pendingBlockObservation = some observation) :
    (onInitialize blake2 config block.context (UInt32.ofNat (n + 1)) state rest).1 =
      if length ∣ n then
        (stageSummaryForClosedEpoch blake2 config block.context state.currentEpoch (UInt32.ofNat n)
          (UInt32.ofNat (n + 1))
          (observeParent blake2 block.context (UInt32.ofNat (n + 1)) observation state) rest).1
      else observeParent blake2 block.context (UInt32.ofNat (n + 1)) observation state := by
  have large : 1 < UInt32.ofNat (n + 1) := by
    rw [UInt32.lt_iff_toNat_lt, toNat_ofNat_of_lt bound]
    simp
    omega
  have multiple : UInt32.ofNat n % max state.epochLengthBlocks 1 = 0 ↔ length ∣ n := by
    rw [← UInt32.toNat_inj, UInt32.toNat_mod, UInt32.toNat_max_one, tiled.epochLength,
      toNat_ofNat_of_lt (by omega), max_eq_left lengthPos]
    exact (Nat.dvd_iff_mod_eq_zero ..).symm
  rw [onInitialize_eq blake2 config block.context _ rest large tiled.initialized pending,
    ofNat_succ_sub_one]
  simp only [multiple]
  split <;> rfl

theorem Tiled.step (tiled : Tiled blake2 config length blocks n state) (lengthPos : 0 < length)
    (positive : 1 ≤ n) (bound : n + 1 < 2 ^ 32) (present : blocks[n]? = some block) :
    let after := (onInitialize blake2 config block.context (UInt32.ofNat (n + 1)) state rest).1
    Tiled blake2 config length blocks (n + 1)
    (onFinalize block.totals (UInt32.ofNat (n + 1)) after) ∧
      ∀ e header, state.summaryHeaders e = some header → after.summaryHeaders e = some header := by
  intro after
  obtain ⟨observation, slot, pending, stored, reserved, _⟩ := tiled.observe positive bound present
  have hook : after = _ := tiled.hook lengthPos positive bound pending
  rw [hook]
  split
  · rename_i last
    refine ⟨tiled.boundary lengthPos positive bound present last pending, ?_⟩
    intro e header found
    rw [stageSummary_reserved _ _ _ _ _ _ stored reserved]
    have notOpen : e ≠ state.currentEpoch := by
      rintro rfl
      simp [tiled.unclosed _ UInt64.le_rfl] at found
    exact (update_of_ne notOpen _ _).trans found
  · rename_i inside
    exact ⟨tiled.within positive bound present inside pending, fun _ _ found => found⟩

def State.NoneAhead (state : State) : Prop :=
  ∀ e, state.currentEpoch < e → state.summarySlots e = none

theorem observeParent_noneAhead (ahead : state.NoneAhead) (context : BlockContext) (number : UInt32)
    (observation : PendingBlockObservation) :
    (observeParent blake2 context number observation state).NoneAhead := by
  intro e later
  exact (update_of_ne (UInt64.ne_of_lt later).symm _ _).trans (ahead e later)

theorem closedState_noneAhead (ahead : state.NoneAhead)
    (room : state.currentEpoch.toNat + 1 < 2 ^ 64) (endHeight opening : UInt32)
    (slot : SummarySlotRecord) (header : EpochSummaryHeader) :
    (closedState blake2 config state.currentEpoch endHeight opening slot header
      state).NoneAhead := by
  intro e later
  have current : state.currentEpoch < e := UInt64.lt_trans (UInt64.lt_succ_self room) later
  exact (update_of_ne (UInt64.ne_of_lt later).symm _ _).trans
    ((update_of_ne (UInt64.ne_of_lt current).symm _ _).trans (ahead e current))

theorem Tiled.step_noneAhead (tiled : Tiled blake2 config length blocks n state)
    (lengthPos : 0 < length) (positive : 1 ≤ n) (bound : n + 1 < 2 ^ 32)
    (present : blocks[n]? = some block) (ahead : state.NoneAhead) :
    (onInitialize blake2 config block.context (UInt32.ofNat (n + 1)) state rest).1.NoneAhead := by
  obtain ⟨observation, slot, pending, stored, reserved, _⟩ := tiled.observe positive bound present
  have observed :
      (observeParent blake2 block.context (UInt32.ofNat (n + 1)) observation state).NoneAhead :=
    observeParent_noneAhead ahead _ _ _
  rw [tiled.hook lengthPos positive bound pending]
  split
  · rename_i last
    rw [stageSummary_reserved _ _ _ _ _ _ stored reserved]
    exact closedState_noneAhead observed (tiled.epoch_room lengthPos positive bound last) _ _ _ _
  · exact observed

theorem tiled_first {epochLengthBlocks : UInt32} (present : blocks[0]? = some block) :
    Tiled blake2 config (max epochLengthBlocks 1).toNat blocks 1
      (onFinalize block.totals 1
        (onInitialize blake2 config block.context 1 (genesis epochLengthBlocks) rest).1) := by
  have zero : ∀ e : UInt64, ¬ e < 0 := fun e => by simp
  constructor
  · rfl
  · rfl
  · change some _ = some _
    rw [show UInt32.ofNat 1 = UInt32.ofNat (0 + 1) from rfl, totalsAt_succ (by decide) present]
    rfl
  · change 0 = (1 - 1) / _
    simp
  · change 1 = 0 * _ + 1
    simp
  · refine ⟨_, rfl, rfl, ?_⟩
    change Accumulated blake2 config blocks 0 (0 * _ + 1) (1 - 1 - 0 * _)
      (seedAccumulators blake2 config 0)
    simpa using seedAccumulators_accumulated blake2 config blocks 0 1
  · intro e before
    exact absurd before (zero e)
  · intro e _
    rfl
  · rfl
  · exact ⟨rfl, rfl⟩

end Step

end Steps

section Runs

variable (epochLengthBlocks : UInt32) (rest : σ) {blocks : List (Block σ)}

theorem runBlocks_snoc (front : List (Block σ)) (block : Block σ) :
    runBlocks blake2 config epochLengthBlocks rest (front ++ [block]) =
      runBlock blake2 config (runBlocks blake2 config epochLengthBlocks rest front) block := by
  simp [runBlocks]

theorem runBlocks_number (blocks : List (Block σ)) :
    (runBlocks blake2 config epochLengthBlocks rest blocks).number =
      UInt32.ofNat blocks.length := by
  induction blocks using List.reverseRecOn with
  | nil => rfl
  | append_singleton front block ih =>
      rw [runBlocks_snoc]
      change (runBlocks blake2 config epochLengthBlocks rest front).number + 1 = _
      rw [ih, List.length_append, List.length_singleton, UInt32.ofNat_add]
      rfl

theorem runBlocks_take_succ {n : Nat} {block : Block σ} (present : blocks[n]? = some block) :
    (runBlocks blake2 config epochLengthBlocks rest (blocks.take (n + 1))).epochs =
      onFinalize block.totals (UInt32.ofNat (n + 1))
        (onInitialize blake2 config block.context (UInt32.ofNat (n + 1))
          (runBlocks blake2 config epochLengthBlocks rest (blocks.take n)).epochs
          (runBlocks blake2 config epochLengthBlocks rest (blocks.take n)).rest).1 := by
  obtain ⟨bound, _⟩ := List.getElem?_eq_some_iff.mp present
  have number := runBlocks_number blake2 config epochLengthBlocks rest (blocks.take n)
  rw [List.take_add_one, present, Option.toList_some, runBlocks_snoc]
  simp only [runBlock]
  rw [number, List.length_take, min_eq_left (by omega), UInt32.ofNat_add]
  rfl

theorem length_pos (epochLengthBlocks : UInt32) : 0 < (max epochLengthBlocks 1).toNat := by
  rw [UInt32.toNat_max_one]
  omega

theorem runBlocks_tiled (bound : blocks.length < 2 ^ 32) {n : Nat} (positive : 1 ≤ n)
    (within : n ≤ blocks.length) :
    Tiled blake2 config (max epochLengthBlocks 1).toNat blocks n
      (runBlocks blake2 config epochLengthBlocks rest (blocks.take n)).epochs := by
  induction n, positive using Nat.le_induction with
  | base =>
      have present := List.getElem?_eq_getElem (show 0 < blocks.length by omega)
      rw [runBlocks_take_succ blake2 config epochLengthBlocks rest present]
      exact tiled_first present
  | succ n positive ih =>
      have present := List.getElem?_eq_getElem (show n < blocks.length by omega)
      rw [runBlocks_take_succ blake2 config epochLengthBlocks rest present]
      exact ((ih (by omega)).step (length_pos _) positive (by omega) present).1

theorem runBlocks_noneAhead (bound : blocks.length < 2 ^ 32) {n : Nat} (positive : 1 ≤ n)
    (within : n ≤ blocks.length) :
    (runBlocks blake2 config epochLengthBlocks rest (blocks.take n)).epochs.NoneAhead := by
  induction n, positive using Nat.le_induction with
  | base =>
      have present := List.getElem?_eq_getElem (show 0 < blocks.length by omega)
      rw [runBlocks_take_succ blake2 config epochLengthBlocks rest present]
      intro e later
      exact update_of_ne (UInt64.ne_of_lt later).symm _ _
  | succ n positive ih =>
      have present := List.getElem?_eq_getElem (show n < blocks.length by omega)
      have tiled := runBlocks_tiled blake2 config epochLengthBlocks rest bound positive (by omega)
      rw [runBlocks_take_succ blake2 config epochLengthBlocks rest present,
        onFinalize_succ (by omega)]
      exact tiled.step_noneAhead (length_pos _) positive (by omega) present (ih (by omega))

theorem runBlocks_header_kept (bound : blocks.length < 2 ^ 32) {n m : Nat}
    (positive : 1 ≤ n) (le : n ≤ m) (within : m ≤ blocks.length) {e : EpochId}
    {header : EpochSummaryHeader}
    (found : (runBlocks blake2 config epochLengthBlocks rest (blocks.take n)).epochs.summaryHeaders
      e = some header) :
    (runBlocks blake2 config epochLengthBlocks rest (blocks.take m)).epochs.summaryHeaders e =
      some header := by
  induction m, le using Nat.le_induction with
  | base => exact found
  | succ m le ih =>
      have present := List.getElem?_eq_getElem (show m < blocks.length by omega)
      have tiled := runBlocks_tiled blake2 config epochLengthBlocks rest bound (n := m)
        (by omega) (by omega)
      rw [runBlocks_take_succ blake2 config epochLengthBlocks rest present,
        onFinalize_succ (by omega)]
      exact (tiled.step (length_pos _) (by omega) (by omega) present).2 e header (ih (by omega))

end Runs

/-- Epoch summaries tile the chain and form a hash chain. After the `n` blocks of a run, `n ≥ 1`,
the current epoch is `(n - 1) / length`; each earlier epoch has its header and staged slot, linked
to the epoch before and folding exactly its own blocks; no other epoch has a header; and no
continuation of the run changes a header. Block numbers are `u32`, so that a run has fewer than `2 ^
32` blocks. -/
theorem epoch_summaries_tile (epochLengthBlocks : UInt32) (rest : σ) (blocks : List (Block σ))
    (nonempty : 1 ≤ blocks.length) (bound : blocks.length < 2 ^ 32) :
    let length := max epochLengthBlocks.toNat 1
    let state := (runBlocks blake2 config epochLengthBlocks rest blocks).epochs
    state.currentEpoch.toNat = (blocks.length - 1) / length ∧
    state.currentEpochStart.toNat = state.currentEpoch.toNat * length + 1 ∧
    (∀ e, e < state.currentEpoch → ∃ header slot,
      ClosedEpoch blake2 config length blocks state e header slot) ∧
    (∀ e, state.currentEpoch ≤ e → state.summaryHeaders e = none) ∧
    (∃ slot, state.summarySlots state.currentEpoch = some slot ∧ slot.status = .reserved) ∧
    state.summaryCount = state.currentEpoch ∧
    (if state.currentEpoch = 0 then
      state.latestSummaryHeader = none ∧ state.latestSummaryHash = emptyHash
    else ∃ header, state.summaryHeaders (state.currentEpoch - 1) = some header ∧
      state.latestSummaryHeader = some header ∧ state.latestSummaryHash = header.summaryHash) ∧
    (∀ later, (blocks ++ later).length < 2 ^ 32 → ∀ e header, state.summaryHeaders e = some header →
      (runBlocks blake2 config epochLengthBlocks rest (blocks ++ later)).epochs.summaryHeaders e =
        some header) := by
  intro length state
  have tiled := runBlocks_tiled blake2 config epochLengthBlocks rest bound nonempty (le_refl _)
  rw [List.take_length, UInt32.toNat_max_one] at tiled
  obtain ⟨slot, stored, reserved, _⟩ := tiled.openSlot
  refine ⟨tiled.currentEpoch, tiled.currentEpochStart, tiled.closed, tiled.unclosed,
    ⟨slot, stored, reserved⟩, tiled.summaryCount, tiled.latest, ?_⟩
  intro later laterBound e header found
  have kept := runBlocks_header_kept blake2 config epochLengthBlocks rest laterBound nonempty
    (show blocks.length ≤ (blocks ++ later).length by simp) (le_refl _) (by rwa [List.take_left])
  rwa [List.take_length] at kept

def sampleConfig : Config Unit where
  domainId := .earth
  commitEpochExports _ _ _ rest := (emptyHash, rest)
  commitEpochImports _ _ _ rest := (emptyHash, rest)
  commitEpochGovernance _ _ _ rest := (emptyHash, rest)

def sampleBlock : Block Unit where
  context := { parentHash := emptyHash, validatorSetHash := emptyHash }
  extrinsics rest := rest
  totals := { stateRoot := emptyHash, extrinsicCount := 1, allExtrinsicsLen := 10, eventCount := 2 }

/-- Three blocks with a configured epoch length of zero, which the pallet reads as one. -/
theorem epoch_summaries_tile_sample :
    (runBlocks sampleHash sampleConfig 0 ()
      (List.replicate 3 sampleBlock)).epochs.currentEpoch.toNat = 2 ∧
      ∃ header, (runBlocks sampleHash sampleConfig 0 ()
        (List.replicate 3 sampleBlock)).epochs.summaryHeaders 1 =
        some header ∧ header.endBlockHeight.toNat = 2 := by
  have tile := epoch_summaries_tile sampleHash sampleConfig 0 () (List.replicate 3 sampleBlock)
    (by decide) (by decide)
  have second :
      (runBlocks sampleHash sampleConfig 0 ()
        (List.replicate 3 sampleBlock)).epochs.currentEpoch.toNat =
    2 := tile.1
  refine ⟨second, ?_⟩
  obtain ⟨header, slot, closed⟩ := tile.2.2.1 1 (by rw [UInt64.lt_iff_toNat_lt, second]; decide)
  exact ⟨header, closed.headerStored, closed.endHeight⟩

end Ialp.Epochs
