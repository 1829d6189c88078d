import Ialp.Pallets.EpochTiling
import Ialp.Pallets.Frame

/-!
What the exporter reads of the summaries of its chain. A closed epoch has its header and a staged
slot; the current one has a slot that is only reserved, which the exporter takes for an
inconsistency.
-/

namespace Ialp.Services

open Epochs

structure StagedSummaryView where
  header : EpochSummaryHeader
  stagedAtBlockNumber : UInt32
  deriving DecidableEq

def summaryByEpoch (state : State) (epochId : EpochId) : Except String (Option StagedSummaryView) :=
  match state.summaryHeaders epochId, state.summarySlots epochId with
  | some header, some slot => do
      let staged ← okOr slot.stagedAtBlockNumber
        ("epoch " ++ toString epochId.toNat ++ " slot exists but is missing staged_at_block_number")
      return some { header, stagedAtBlockNumber := staged }
  | none, none => return none
  | _, _ => throw ("epoch " ++ toString epochId.toNat ++ " header/slot storage is inconsistent")

def latestStagedSummary (state : State) : Except String (Option StagedSummaryView) :=
  match state.latestSummaryHeader with
  | none => return none
  | some header => summaryByEpoch state header.epochId

/-- What the exporter is to see of an epoch: the header and the staging block of a closed one, and
nothing of another. -/
def ViewOf (state : State) (epochId : EpochId) : Prop :=
  (epochId < state.currentEpoch → ∃ header slot staged, state.summaryHeaders epochId = some header ∧
    state.summarySlots epochId = some slot ∧ slot.stagedAtBlockNumber = some staged ∧
    summaryByEpoch state epochId = .ok (some ⟨header, staged⟩)) ∧
  (state.currentEpoch ≤ epochId → summaryByEpoch state epochId = .ok none)

section Views

variable {σ : Type} {blake2 : Scale.Bytes → Hash32} {config : Config σ} {length : Nat}
  {blocks : List (Block σ)} {state : State} {e : EpochId} {header : EpochSummaryHeader}
  {slot : SummarySlotRecord} {n : Nat}

theorem summaryByEpoch_closed
    (closed : ClosedEpoch blake2 config length blocks state e header slot) :
    ∃ staged, slot.stagedAtBlockNumber = some staged ∧ summaryByEpoch state e =
      .ok (some ⟨header, staged⟩) := by
  obtain ⟨staged, stored, _⟩ := Option.map_eq_some_iff.mp closed.stagedAt
  refine ⟨staged, stored, ?_⟩
  simp only [summaryByEpoch, closed.headerStored, closed.slotStored, stored]
  rfl

theorem summaryByEpoch_current (tiled : Tiled blake2 config length blocks n state) :
    summaryByEpoch state state.currentEpoch =
      .error ("epoch " ++ toString state.currentEpoch.toNat ++
        " header/slot storage is inconsistent") := by
  obtain ⟨slot, stored, _⟩ := tiled.openSlot
  simp only [summaryByEpoch, tiled.unclosed _ UInt64.le_rfl, stored]
  rfl

theorem summaryByEpoch_ahead (tiled : Tiled blake2 config length blocks n state)
    (ahead : state.NoneAhead) (later : state.currentEpoch < e) :
    summaryByEpoch state e = .ok none := by
  simp only [summaryByEpoch, tiled.unclosed e (UInt64.le_of_lt later), ahead e later]
  rfl

/-- `latest_staged_summary` never fails: it is the view of the last closed epoch, if there is
one. -/
theorem latestStagedSummary_eq (tiled : Tiled blake2 config length blocks n state) :
    latestStagedSummary state =
      if state.currentEpoch = 0 then .ok none
        else summaryByEpoch state (state.currentEpoch - 1) := by
  have latest := tiled.latest
  split at latest
  · rename_i first
    rw [if_pos first, latestStagedSummary, latest.1]
    rfl
  · rename_i later
    obtain ⟨header, stored, isLatest, _⟩ := latest
    obtain ⟨header', slot, closed⟩ := tiled.closed _ (UInt64.pred_lt later)
    obtain rfl : header' = header := Option.some.inj (closed.headerStored.symm.trans stored)
    rw [if_neg later, latestStagedSummary, isLatest]
    exact congrArg (summaryByEpoch state) closed.epochId

end Views

/-- Over every state that blocks lead to, the exporter sees an epoch as it is, except for the
current one. -/
theorem summary_view_consistent {σ : Type} (blake2 : Scale.Bytes → Hash32) (config : Config σ)
    (epochLengthBlocks : UInt32) (rest : σ) (blocks : List (Block σ)) (nonempty : 1 ≤ blocks.length)
    (bound : blocks.length < 2 ^ 32) (epochId : EpochId) :
    let state := (runBlocks blake2 config epochLengthBlocks rest blocks).epochs
    ViewOf state epochId ↔ epochId ≠ state.currentEpoch := by
  intro state
  have tiled := runBlocks_tiled blake2 config epochLengthBlocks rest bound nonempty (le_refl _)
  have ahead := runBlocks_noneAhead blake2 config epochLengthBlocks rest bound nonempty (le_refl _)
  rw [List.take_length] at tiled ahead
  constructor
  · intro viewed same
    have none := viewed.2 (same ▸ UInt64.le_rfl)
    rw [same, summaryByEpoch_current tiled] at none
    cases none
  · intro other
    constructor
    · intro before
      obtain ⟨header, slot, closed⟩ := tiled.closed epochId before
      obtain ⟨staged, stored, viewed⟩ := summaryByEpoch_closed closed
      exact ⟨header, slot, staged, closed.headerStored, closed.slotStored, stored, viewed⟩
    · intro after
      exact summaryByEpoch_ahead tiled ahead (UInt64.lt_of_le_of_ne after (Ne.symm other))

theorem summary_view_consistent_sample :
    let state := (runBlocks sampleHash sampleConfig 1 () (List.replicate 3 sampleBlock)).epochs
    ViewOf state 1 ∧ ViewOf state 3 := by
  have consistent := summary_view_consistent sampleHash sampleConfig 1 ()
    (List.replicate 3 sampleBlock) (by decide) (by decide)
  exact ⟨(consistent 1).mpr (by decide +kernel), (consistent 3).mpr (by decide +kernel)⟩

/-- After the first block, asking for the epoch that has begun is an error. -/
theorem current_epoch_inconsistent :
    let state := (runBlocks sampleHash sampleConfig 1 () [sampleBlock]).epochs
    state.currentEpoch = 0 ∧
      summaryByEpoch state 0 = .error "epoch 0 header/slot storage is inconsistent" := by
  decide +kernel

end Ialp.Services
