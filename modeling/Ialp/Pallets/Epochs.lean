import Ialp.Types.Summary
import Mathlib.Logic.Function.Basic

/-!
The epochs pallet. It is generic in the rest of the runtime `σ`, which it reaches only through the
three commitment providers of its `Config`; the block's parent hash, the validator set hash and what
`on_finalize` observes of the block are inputs.
-/

namespace Ialp.Epochs

open Scale Function

inductive SummarySlotStatus where
  | reserved
  | staged
  deriving DecidableEq, Repr

structure PendingBlockObservation where
  blockNumber : UInt32
  stateRoot : Hash32
  extrinsicCount : UInt32
  allExtrinsicsLen : UInt32
  eventCount : UInt32
  deriving DecidableEq

structure EpochAccumulators where
  stateRoot : Hash32
  blockRoot : Hash32
  txRoot : Hash32
  eventRoot : Hash32
  blocksObserved : UInt32
  lastObservedBlock : UInt32
  deriving DecidableEq

structure SummarySlotRecord where
  epochId : EpochId
  startHeight : UInt32
  endHeight : Option UInt32
  reservedAtBlock : UInt32
  stagedAtBlockNumber : Option UInt32
  lastTouchedBlock : UInt32
  header : Option EpochSummaryHeader
  status : SummarySlotStatus
  accumulators : EpochAccumulators
  deriving DecidableEq

structure State where
  epochLengthBlocks : UInt32
  currentEpoch : EpochId
  currentEpochStart : UInt32
  summarySlots : EpochId → Option SummarySlotRecord
  summaryHeaders : EpochId → Option EpochSummaryHeader
  latestSummaryHeader : Option EpochSummaryHeader
  latestSummaryHash : Hash32
  summaryCount : UInt64
  pendingBlockObservation : Option PendingBlockObservation
  initialized : Bool

def genesis (epochLengthBlocks : UInt32) : State where
  epochLengthBlocks := max epochLengthBlocks 1
  currentEpoch := 0
  currentEpochStart := 1
  summarySlots _ := none
  summaryHeaders _ := none
  latestSummaryHeader := none
  latestSummaryHash := emptyHash
  summaryCount := 0
  pendingBlockObservation := none
  initialized := false

structure Config (σ : Type) where
  domainId : DomainId
  commitEpochExports : EpochId → UInt32 → UInt32 → σ → Hash32 × σ
  commitEpochImports : EpochId → UInt32 → UInt32 → σ → Hash32 × σ
  commitEpochGovernance : EpochId → UInt32 → UInt32 → σ → Hash32 × σ

structure BlockContext where
  parentHash : Hash32
  validatorSetHash : Hash32

structure BlockTotals where
  stateRoot : Hash32
  extrinsicCount : UInt32
  allExtrinsicsLen : UInt32
  eventCount : UInt32

variable {σ : Type} (blake2 : Bytes → Hash32) (config : Config σ)

def seedAccumulators (epochId : EpochId) : EpochAccumulators where
  stateRoot := emptyHash
  blockRoot := seedEpochAccumulator blake2 blockRootLabel config.domainId epochId
  txRoot := seedEpochAccumulator blake2 txRootLabel config.domainId epochId
  eventRoot := seedEpochAccumulator blake2 eventRootLabel config.domainId epochId
  blocksObserved := 0
  lastObservedBlock := 0

def reserveSlot (epochId : EpochId) (startHeight blockNumber : UInt32) (state : State) : State :=
  { state with
    summarySlots := update state.summarySlots epochId (some {
      epochId
      startHeight
      endHeight := none
      reservedAtBlock := blockNumber
      stagedAtBlockNumber := none
      lastTouchedBlock := blockNumber
      header := none
      status := .reserved
      accumulators := seedAccumulators blake2 config epochId }) }

def foldObservationIntoSlot (context : BlockContext) (slot : SummarySlotRecord)
    (blockNumber : UInt32) (observation : PendingBlockObservation) : SummarySlotRecord :=
  { slot with
    accumulators := {
      stateRoot := observation.stateRoot
      blockRoot := foldEpochAccumulator blake2 slot.accumulators.blockRoot
        blockNumber context.parentHash
      txRoot := foldEpochAccumulator blake2 slot.accumulators.txRoot blockNumber
        (txEnvelopeHash blake2 blockNumber observation.extrinsicCount observation.allExtrinsicsLen)
      eventRoot := foldEpochAccumulator blake2 slot.accumulators.eventRoot blockNumber
        (eventEnvelopeHash blake2 blockNumber observation.eventCount)
      blocksObserved := saturatingAdd32 slot.accumulators.blocksObserved 1
      lastObservedBlock := blockNumber } }

/-- Writes the header into its slot and into the header map; a missing or staged slot is left
alone. -/
def stageHeader (epochId : EpochId) (endHeight openingBlockNumber : UInt32)
    (header : SummarySlotRecord → EpochSummaryHeader) (state : State) : State :=
  match state.summarySlots epochId with
  | none => state
  | some slot =>
      if slot.status = .staged then state
      else
        { state with
          summarySlots := update state.summarySlots epochId (some { slot with
            endHeight := some endHeight
            stagedAtBlockNumber := some openingBlockNumber
            lastTouchedBlock := openingBlockNumber
            header := some (header slot)
            status := .staged })
          summaryHeaders := update state.summaryHeaders epochId (some (header slot))
          latestSummaryHeader := some (header slot)
          latestSummaryHash := (header slot).summaryHash
          summaryCount := state.summaryCount + 1 }

structure CommittedRoots where
  exportRoot : Hash32
  importRoot : Hash32
  governanceRoot : Hash32

/-- The providers' commitments for a closed epoch, in the order the hook asks for them. -/
def commitRoots (epochId : EpochId) (startHeight endHeight : UInt32) (rest : σ) :
    CommittedRoots × σ :=
  let (exportRoot, rest) := config.commitEpochExports epochId startHeight endHeight rest
  let (importRoot, rest) := config.commitEpochImports epochId startHeight endHeight rest
  let (governanceRoot, rest) := config.commitEpochGovernance epochId startHeight endHeight rest
  ({ exportRoot, importRoot, governanceRoot }, rest)

def closingHeader (context : BlockContext) (epochId : EpochId) (endHeight : UInt32) (state : State)
    (roots : CommittedRoots) (slot : SummarySlotRecord) : EpochSummaryHeader :=
  EpochSummaryHeader.fromHashInput blake2 {
    version := 1
    domainId := config.domainId
    epochId
    prevSummaryHash := if epochId = 0 then emptyHash else state.latestSummaryHash
    startBlockHeight := state.currentEpochStart
    endBlockHeight := endHeight
    stateRoot := slot.accumulators.stateRoot
    blockRoot := slot.accumulators.blockRoot
    txRoot := slot.accumulators.txRoot
    eventRoot := slot.accumulators.eventRoot
    exportRoot := roots.exportRoot
    importRoot := roots.importRoot
    governanceRoot := roots.governanceRoot
    validatorSetHash := context.validatorSetHash }

def stageSummaryForClosedEpoch (context : BlockContext) (epochId : EpochId)
    (endHeight openingBlockNumber : UInt32) (state : State) (rest : σ) : State × σ :=
  let (roots, rest) := commitRoots config epochId state.currentEpochStart endHeight rest
  let header := closingHeader blake2 config context epochId endHeight state roots
  let state := stageHeader epochId endHeight openingBlockNumber header state
  let nextEpoch := epochId + 1
  let state := { state with currentEpoch := nextEpoch, currentEpochStart := openingBlockNumber }
  (reserveSlot blake2 config nextEpoch openingBlockNumber openingBlockNumber state, rest)

def observeParent (context : BlockContext) (blockNumber : UInt32)
    (observation : PendingBlockObservation) (state : State) : State :=
  { state with
    pendingBlockObservation := none
    summarySlots := update state.summarySlots state.currentEpoch
      ((state.summarySlots state.currentEpoch).map fun slot =>
        { foldObservationIntoSlot blake2 context slot (blockNumber - 1) observation with
          lastTouchedBlock := blockNumber }) }

def applyParentBlockObservation (context : BlockContext) (blockNumber : UInt32)
    (state : State) (rest : σ) : State × σ :=
  let parentBlockNumber := blockNumber - 1
  match state.pendingBlockObservation with
  | none => (state, rest)
  | some observation =>
      let currentEpoch := state.currentEpoch
      let state := observeParent blake2 context blockNumber observation state
      let epochLength := max state.epochLengthBlocks 1
      if parentBlockNumber % epochLength = 0 then
        stageSummaryForClosedEpoch blake2 config context currentEpoch parentBlockNumber
          blockNumber state rest
      else (state, rest)

def reserveFirstSlot (blockNumber : UInt32) (state : State) : State :=
  if state.initialized then state
  else { reserveSlot blake2 config 0 1 blockNumber state with initialized := true }

def onInitialize (context : BlockContext) (blockNumber : UInt32) (state : State) (rest : σ) :
    State × σ :=
  if blockNumber = 0 then (state, rest)
  else
    let state := reserveFirstSlot blake2 config blockNumber state
    if 1 < blockNumber then applyParentBlockObservation blake2 config context blockNumber state rest
    else (state, rest)

def onFinalize (totals : BlockTotals) (blockNumber : UInt32) (state : State) : State :=
  if blockNumber = 0 then state
  else
    { state with
      pendingBlockObservation := some {
        blockNumber
        stateRoot := totals.stateRoot
        extrinsicCount := totals.extrinsicCount
        allExtrinsicsLen := totals.allExtrinsicsLen
        eventCount := totals.eventCount } }

section Hooks

variable (context : BlockContext) (number : UInt32) (rest : σ) {state : State}

/-- After the first block, `on_initialize` observes the parent block and closes the epoch it
ended. -/
theorem onInitialize_eq {observation : PendingBlockObservation} (large : 1 < number)
    (initialized : state.initialized = true)
    (pending : state.pendingBlockObservation = some observation) :
    onInitialize blake2 config context number state rest =
      if (number - 1) % max state.epochLengthBlocks 1 = 0 then
        stageSummaryForClosedEpoch blake2 config context state.currentEpoch (number - 1) number
          (observeParent blake2 context number observation state) rest
      else (observeParent blake2 context number observation state, rest) := by
  have nonzero : number ≠ 0 := by
    rintro rfl
    simp at large
  simp only [onInitialize, nonzero, if_false, reserveFirstSlot, initialized, if_true, large,
    applyParentBlockObservation, pending, observeParent]

theorem observeParent_slot (observation : PendingBlockObservation) {slot : SummarySlotRecord}
    (stored : state.summarySlots state.currentEpoch = some slot) :
    (observeParent blake2 context number observation state).summarySlots state.currentEpoch =
      some { foldObservationIntoSlot blake2 context slot (number - 1) observation with
        lastTouchedBlock := number } := by
  simp [observeParent, stored]

def stagedSlot (slot : SummarySlotRecord) (endHeight opening : UInt32)
    (header : EpochSummaryHeader) : SummarySlotRecord :=
  { slot with
    endHeight := some endHeight
    stagedAtBlockNumber := some opening
    lastTouchedBlock := opening
    header := some header
    status := .staged }

def closedState (epochId : EpochId) (endHeight opening : UInt32) (slot : SummarySlotRecord)
    (header : EpochSummaryHeader) (state : State) : State :=
  reserveSlot blake2 config (epochId + 1) opening opening
    { state with
      currentEpoch := epochId + 1
      currentEpochStart := opening
      summarySlots :=
        update state.summarySlots epochId (some (stagedSlot slot endHeight opening header))
      summaryHeaders := update state.summaryHeaders epochId (some header)
      latestSummaryHeader := some header
      latestSummaryHash := header.summaryHash
      summaryCount := state.summaryCount + 1 }

theorem stageSummary_reserved (endHeight : UInt32) {epochId : EpochId} {slot : SummarySlotRecord}
    (stored : state.summarySlots epochId = some slot) (reserved : slot.status = .reserved) :
    (stageSummaryForClosedEpoch blake2 config context epochId endHeight number state rest).1 =
      closedState blake2 config epochId endHeight number slot
        (closingHeader blake2 config context epochId endHeight state
          (commitRoots config epochId state.currentEpochStart endHeight rest).1 slot) state := by
  have unstaged : slot.status ≠ .staged := by simp [reserved]
  simp only [stageSummaryForClosedEpoch, stageHeader, stored, unstaged, if_false,
    closedState, stagedSlot]

/-- Between blocks, the current epoch's slot is reserved once the pallet has run. -/
structure State.WellFormed (state : State) : Prop where
  openSlot : state.initialized = true →
    ∃ slot, state.summarySlots state.currentEpoch = some slot ∧ slot.status = .reserved
  first : state.initialized = false → state.currentEpoch = 0

theorem genesis_wellFormed (epochLengthBlocks : UInt32) :
    (genesis epochLengthBlocks).WellFormed where
  openSlot := by simp [genesis]
  first := by simp [genesis]

theorem onFinalize_wellFormed {totals : BlockTotals} (wf : state.WellFormed) :
    (onFinalize totals number state).WellFormed := by
  unfold onFinalize
  split
  · exact wf
  · exact ⟨wf.openSlot, wf.first⟩

@[simp] theorem onFinalize_currentEpoch (totals : BlockTotals) (number : UInt32) (state : State) :
    (onFinalize totals number state).currentEpoch = state.currentEpoch := by
  unfold onFinalize
  split <;> rfl

@[simp] theorem onFinalize_summaryHeaders (totals : BlockTotals) (number : UInt32) (state : State) :
    (onFinalize totals number state).summaryHeaders = state.summaryHeaders := by
  unfold onFinalize
  split <;> rfl

/-- What `on_initialize` does for the rest of the runtime: nothing, or it closes the current epoch,
committing its roots into a new header. -/
inductive Progress (state : State) (state' : State) : σ → Prop where
  | within (sameEpoch : state'.currentEpoch = state.currentEpoch)
      (sameHeaders : state'.summaryHeaders = state.summaryHeaders) : Progress state state' rest
  | closed (slot : SummarySlotRecord) (nextEpoch : state'.currentEpoch = state.currentEpoch + 1)
      (headers : state'.summaryHeaders = update state.summaryHeaders state.currentEpoch
        (some (closingHeader blake2 config context state.currentEpoch (number - 1) state
          (commitRoots config state.currentEpoch state.currentEpochStart (number - 1) rest).1
            slot))) :
      Progress state state' (commitRoots config state.currentEpoch state.currentEpochStart
        (number - 1) rest).2

theorem Progress.of_agree {earlier state' : State} {rest' : σ}
    (progress : Progress blake2 config context number rest state state' rest')
    (sameEpoch : state.currentEpoch = earlier.currentEpoch)
    (sameStart : state.currentEpochStart = earlier.currentEpochStart)
    (sameHash : state.latestSummaryHash = earlier.latestSummaryHash)
    (sameHeaders : state.summaryHeaders = earlier.summaryHeaders) :
    Progress blake2 config context number rest earlier state' rest' := by
  cases progress with
  | within epoch headers => exact .within (epoch.trans sameEpoch) (headers.trans sameHeaders)
  | closed slot epoch headers =>
      rw [sameEpoch, sameStart]
      refine .closed slot (sameEpoch ▸ epoch) ?_
      rw [headers, sameHeaders, sameEpoch, sameStart, closingHeader, closingHeader,
        sameStart, sameHash]

theorem applyParentBlockObservation_progress (wf : state.WellFormed)
    (initialized : state.initialized = true) :
    let result := applyParentBlockObservation blake2 config context number state rest
    result.1.WellFormed ∧ Progress blake2 config context number rest state result.1 result.2 := by
  obtain ⟨slot, stored, reserved⟩ := wf.openSlot initialized
  simp only [applyParentBlockObservation]
  split
  · exact ⟨wf, .within rfl rfl⟩
  · rename_i observation _
    have folded := observeParent_slot blake2 context number observation stored
    generalize foldedSlot :
      ({ foldObservationIntoSlot blake2 context slot (number - 1) observation with
      lastTouchedBlock := number } : SummarySlotRecord) = slot' at folded
    have stillReserved : slot'.status = .reserved := foldedSlot ▸ reserved
    split
    · have staged := stageSummary_reserved blake2 config context number rest (number - 1)
        folded stillReserved
      constructor
      · rw [staged]
        refine ⟨fun _ => ⟨_, update_self _ _ _, rfl⟩, fun fresh => ?_⟩
        exact absurd (initialized.symm.trans fresh) (by decide)
      · apply Progress.closed slot'
        · rw [staged]
          rfl
        · rw [staged]
          rfl
    · refine ⟨⟨fun _ => ⟨_, folded, stillReserved⟩, fun fresh => ?_⟩, .within rfl rfl⟩
      exact absurd (initialized.symm.trans fresh) (by decide)

theorem onInitialize_progress (wf : state.WellFormed) :
    let result := onInitialize blake2 config context number state rest
    result.1.WellFormed ∧ Progress blake2 config context number rest state result.1 result.2 := by
  simp only [onInitialize]
  split
  · exact ⟨wf, .within rfl rfl⟩
  · cases initialized : state.initialized with
    | true =>
        have unchanged : reserveFirstSlot blake2 config number state = state := by
          simp [reserveFirstSlot, initialized]
        rw [unchanged]
        split
        · exact applyParentBlockObservation_progress blake2 config context number
            rest wf initialized
        · exact ⟨wf, .within rfl rfl⟩
    | false =>
        have reserved : reserveFirstSlot blake2 config number state =
            { reserveSlot blake2 config 0 1 number state with initialized := true } := by
          simp [reserveFirstSlot, initialized]
        have wf' : (reserveFirstSlot blake2 config number state).WellFormed := by
          rw [reserved]
          refine ⟨fun _ => ?_, by simp⟩
          simp [reserveSlot, wf.first initialized]
        split
        · have progress := applyParentBlockObservation_progress blake2 config
            context number rest wf' (by rw [reserved])
          rw [reserved] at progress ⊢
          exact ⟨progress.1, Progress.of_agree _ _ _ _ _ progress.2 rfl rfl rfl rfl⟩
        · rw [reserved] at wf' ⊢
          exact ⟨wf', .within rfl rfl⟩

end Hooks

end Ialp.Epochs
