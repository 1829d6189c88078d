import Ialp.Lib.HashChain
import Ialp.Pallets.EpochTiling

/-!
A summary hash stands for the whole history before it: two runs with a summary hash in common have
the same headers up to that epoch, over the same blocks, unless two of the strings hashed on the way
collide.
-/

namespace Ialp.Epochs

open Scale Function Hashing

section Strings

variable {σ : Type} (blake2 : Bytes → Hash32) (config : Config σ) (length : Nat)
  (blocks : List (Block σ))

def foldedParents (k : EpochId) : List Hash32 :=
  (numbersFrom (k.toNat * length + 1) length).map (blockHashAt blocks)

def link (accumulator : Hash32) (block : UInt32 × Hash32) : Bytes :=
  encode (accumulator, block.1, block.2)

def foldedBlocks (k : EpochId) : List (UInt32 × Hash32) :=
  (numbersFrom (k.toNat * length + 1) length).map fun number => (number, blockHashAt blocks number)

def epochStrings (state : State) (k : EpochId) : List Bytes :=
  match state.summaryHeaders k with
  | none => []
  | some header => encode header.hashInput ::
      HashChain.strings blake2 link (seedEpochAccumulator blake2 blockRootLabel config.domainId k)
        (foldedBlocks length blocks k)

def historyStrings (state : State) (e : EpochId) : List Bytes :=
  (List.range (e.toNat + 1)).flatMap fun k =>
    epochStrings blake2 config length blocks state (UInt64.ofNat k)

theorem link_injective (accumulator accumulator' : Hash32) (block block' : UInt32 × Hash32)
    (same : link accumulator block = link accumulator' block') :
    accumulator = accumulator' ∧ block = block' := by
  have parts := encode_injective same
  simp only [Prod.mk.injEq] at parts
  exact ⟨parts.1, Prod.ext parts.2.1 parts.2.2⟩

theorem blockRoot_eq_fold (k : EpochId) :
    seededFold blake2 blockRootLabel config.domainId k (blockHashAt blocks)
    (numbersFrom (k.toNat * length + 1) length) =
      HashChain.fold blake2 link (seedEpochAccumulator blake2 blockRootLabel config.domainId k)
        (foldedBlocks length blocks k) := by
  rw [seededFold, HashChain.fold, foldedBlocks, List.foldl_map]
  rfl

theorem epochStrings_subset {state : State} {k e : EpochId} (within : k ≤ e) :
    epochStrings blake2 config length blocks state k ⊆
      historyStrings blake2 config length blocks state e := by
  intro string member
  refine List.mem_flatMap.mpr ⟨k.toNat, ?_, ?_⟩
  · rw [List.mem_range]
    exact Nat.lt_succ_of_le (UInt64.le_iff_toNat_le.mp within)
  · rwa [UInt64.ofNat_toNat]

theorem historyStrings_subset {state : State} {k e : EpochId} (within : k ≤ e) :
    historyStrings blake2 config length blocks state k ⊆
      historyStrings blake2 config length blocks state e := by
  intro string member
  obtain ⟨index, bound, found⟩ := List.mem_flatMap.mp member
  refine List.mem_flatMap.mpr ⟨index, ?_, found⟩
  rw [List.mem_range] at bound ⊢
  have := UInt64.le_iff_toNat_le.mp within
  omega

end Strings

section Binding

variable {σ σ' : Type} {blake2 : Bytes → Hash32} {config : Config σ} {config' : Config σ'}
  {length length' : Nat} {blocks : List (Block σ)} {blocks' : List (Block σ')}
  {state state' : State} {e e' : EpochId} {header header' : EpochSummaryHeader}
  {slot slot' : SummarySlotRecord}

theorem ClosedEpoch.strings (closed : ClosedEpoch blake2 config length blocks state e header slot) :
    epochStrings blake2 config length blocks state e = encode header.hashInput ::
      HashChain.strings blake2 link (seedEpochAccumulator blake2 blockRootLabel config.domainId e)
        (foldedBlocks length blocks e) := by
  rw [epochStrings, closed.headerStored]

theorem ClosedEpoch.header_binds
    (closed : ClosedEpoch blake2 config length blocks state e header slot)
    (closed' : ClosedEpoch blake2 config' length' blocks' state' e' header' slot')
    (same : header.summaryHash = header'.summaryHash) :
    header = header' ∨ Collides blake2 (epochStrings blake2 config length blocks state e ++
      epochStrings blake2 config' length' blocks' state' e') := by
  have digests : blake2 (encode header.hashInput) = blake2 (encode header'.hashInput) :=
    closed.summaryHash.symm.trans (same.trans closed'.summaryHash)
  have first : encode header.hashInput ∈ epochStrings blake2 config length blocks state e ++
      epochStrings blake2 config' length' blocks' state' e' := by simp [closed.strings]
  have second : encode header'.hashInput ∈ epochStrings blake2 config length blocks state e ++
      epochStrings blake2 config' length' blocks' state' e' := by simp [closed'.strings]
  rcases eq_or_collides first second digests with strings | collides
  · left
    have inputs : header.toEpochSummaryHashInput = header'.toEpochSummaryHashInput :=
      encode_injective strings
    cases header
    cases header'
    cases inputs
    cases same
    rfl
  · exact .inr collides

theorem ClosedEpoch.length_eq (closed : ClosedEpoch blake2 config length blocks state e header slot)
    (closed' : ClosedEpoch blake2 config' length' blocks' state' e' header slot') :
    e = e' ∧ length = length' := by
  have epochs : e = e' := closed.epochId.symm.trans closed'.epochId
  subst epochs
  have ends : (e.toNat + 1) * length = (e.toNat + 1) * length' :=
    closed.endHeight.symm.trans closed'.endHeight
  exact ⟨rfl, Nat.eq_of_mul_eq_mul_left (Nat.succ_pos _) ends⟩

theorem ClosedEpoch.blocks_bind
    (closed : ClosedEpoch blake2 config length blocks state e header slot)
    (closed' : ClosedEpoch blake2 config' length blocks' state' e header slot') :
    foldedParents length blocks e = foldedParents length blocks' e ∨
      Collides blake2 (epochStrings blake2 config length blocks state e ++
        epochStrings blake2 config' length blocks' state' e) := by
  have roots := closed.blockRoot.symm.trans closed'.blockRoot
  rw [blockRoot_eq_fold, blockRoot_eq_fold] at roots
  have lengths : (foldedBlocks length blocks e).length =
      (foldedBlocks length blocks' e).length := by
    simp [foldedBlocks]
  rcases HashChain.fold_binds link_injective lengths roots with ⟨_, folded⟩ | collides
  · left
    have parents := congrArg (List.map Prod.snd) folded
    simpa [foldedBlocks, foldedParents] using parents
  · right
    apply collides.mono
    rw [closed.strings, closed'.strings]
    intro string member
    simp only [List.cons_append, List.mem_cons, List.mem_append] at member ⊢
    tauto

/-- The headers of the two runs agree from epoch 0 to `e`, and so do the blocks they fold. -/
def SharesHistory (length : Nat) (blocks : List (Block σ)) (state : State) (length' : Nat)
    (blocks' : List (Block σ')) (state' : State) (e : EpochId) : Prop :=
  ∀ k ≤ e, state.summaryHeaders k = state'.summaryHeaders k ∧
    foldedParents length blocks k = foldedParents length' blocks' k

theorem append_mono {first second larger larger' : List Bytes} (sub : first ⊆ larger)
    (sub' : second ⊆ larger') : first ++ second ⊆ larger ++ larger' :=
  List.append_subset.mpr ⟨List.subset_append_of_subset_left _ sub,
    List.subset_append_of_subset_right _ sub'⟩

theorem le_pred_or_eq {k : EpochId} (within : k ≤ e) (positive : e ≠ 0) : k ≤ e - 1 ∨ k = e := by
  rw [UInt64.le_iff_toNat_le] at within
  rw [UInt64.le_iff_toNat_le, UInt64.toNat_pred positive, ← UInt64.toNat_inj]
  omega

variable (closed : ∀ k, k < state.currentEpoch → ∃ header slot,
    ClosedEpoch blake2 config length blocks state k header slot)
  (closed' : ∀ k, k < state'.currentEpoch → ∃ header slot,
    ClosedEpoch blake2 config' length' blocks' state' k header slot)
include closed closed'

omit closed' in
theorem linked_of_closed (before : e < state.currentEpoch)
    (found : state.summaryHeaders e = some header) (positive : e ≠ 0) :
    ∃ previous, state.summaryHeaders (e - 1) = some previous ∧ header.prevSummaryHash =
      previous.summaryHash := by
  obtain ⟨stored, slot, record⟩ := closed e before
  obtain rfl := Option.some.inj (found.symm.trans record.headerStored)
  have linked := record.linked
  rwa [if_neg positive] at linked

theorem epoch_binds (before : e < state.currentEpoch) (before' : e' < state'.currentEpoch)
    (found : state.summaryHeaders e = some header)
    (found' : state'.summaryHeaders e' = some header')
    (same : header.summaryHash = header'.summaryHash) :
    (e = e' ∧ header = header' ∧ length = length' ∧
      foldedParents length blocks e = foldedParents length' blocks' e) ∨
    Collides blake2 (epochStrings blake2 config length blocks state e ++
      epochStrings blake2 config' length' blocks' state' e') := by
  obtain ⟨stored, slot, record⟩ := closed e before
  obtain ⟨stored', slot', record'⟩ := closed' e' before'
  obtain rfl := Option.some.inj (found.symm.trans record.headerStored)
  obtain rfl := Option.some.inj (found'.symm.trans record'.headerStored)
  rcases record.header_binds record' same with headers | collides
  · subst headers
    obtain ⟨rfl, rfl⟩ := record.length_eq record'
    rcases record.blocks_bind record' with parents | collides
    · exact .inl ⟨rfl, rfl, rfl, parents⟩
    · exact .inr collides
  · exact .inr collides

/-- A common summary hash gives a common history, by induction on the number of earlier epochs. -/
theorem history_binds (before : e < state.currentEpoch) (before' : e' < state'.currentEpoch)
    (found : state.summaryHeaders e = some header)
    (found' : state'.summaryHeaders e' = some header')
    (same : header.summaryHash = header'.summaryHash) :
    (e = e' ∧ SharesHistory length blocks state length' blocks' state' e) ∨
    Collides blake2 (historyStrings blake2 config length blocks state e ++
      historyStrings blake2 config' length' blocks' state' e') := by
  induction depth : e.toNat using Nat.strong_induction_on generalizing e e' header header' with
  | h depth ih =>
      rcases epoch_binds closed closed' before before' found found' same with
        ⟨rfl, rfl, rfl, parents⟩ | collides
      · have headers := found.trans found'.symm
        by_cases first : e = 0
        · subst first
          refine .inl ⟨rfl, fun k within => ?_⟩
          obtain rfl : k = 0 := UInt64.le_zero_iff.mp within
          exact ⟨headers, parents⟩
        · have pred := UInt64.toNat_pred first
          have earlier : e - 1 < e := by
            have positive : e.toNat ≠ 0 := fun zero => first (UInt64.toNat_inj.mp zero)
            rw [UInt64.lt_iff_toNat_lt, pred]
            omega
          -- both headers name the header before them
          obtain ⟨previous, link⟩ := linked_of_closed closed before found first
          obtain ⟨previous', link'⟩ := linked_of_closed closed' before' found' first
          rcases ih _ (by rw [← depth]; exact UInt64.lt_iff_toNat_lt.mp earlier)
              (UInt64.lt_trans earlier before) (UInt64.lt_trans earlier before') link.1 link'.1
              (link.2.symm.trans link'.2) rfl with ⟨_, shares⟩ | collides
          · refine .inl ⟨rfl, fun k within => ?_⟩
            rcases le_pred_or_eq within first with below | rfl
            · exact shares k below
            · exact ⟨headers, parents⟩
          · have sub := UInt64.le_of_lt earlier
            exact .inr (collides.mono
              (append_mono (historyStrings_subset _ _ _ _ sub) (historyStrings_subset _ _ _ _ sub)))
      · exact .inr (collides.mono (append_mono (epochStrings_subset _ _ _ _ UInt64.le_rfl)
          (epochStrings_subset _ _ _ _ UInt64.le_rfl)))

end Binding

section Runs

variable {σ σ' : Type} (blake2 : Bytes → Hash32) (config : Config σ) (config' : Config σ')

theorem runBlocks_closed (epochLengthBlocks : UInt32) (rest : σ) (blocks : List (Block σ))
    (bound : blocks.length < 2 ^ 32) :
    let state := (runBlocks blake2 config epochLengthBlocks rest blocks).epochs
    (∀ k, k < state.currentEpoch → ∃ header slot,
      ClosedEpoch blake2 config (max epochLengthBlocks.toNat 1) blocks state k header slot) ∧
    ∀ k header, state.summaryHeaders k = some header → k < state.currentEpoch := by
  intro state
  by_cases empty : blocks = []
  · subst empty
    refine ⟨fun k before => absurd before (by simp [state, runBlocks, genesis]),
      fun k header found => ?_⟩
    simp [state, runBlocks, genesis] at found
  · have tiled := runBlocks_tiled blake2 config epochLengthBlocks rest bound
      (List.length_pos_iff.mpr empty) (le_refl _)
    rw [List.take_length, UInt32.toNat_max_one] at tiled
    refine ⟨tiled.closed, fun k header found => ?_⟩
    by_contra later
    exact absurd ((tiled.unclosed k (UInt64.not_lt.mp later)).symm.trans found) (by simp)

/-- Two runs of the pallet, of any domains, epoch lengths, blocks and commitment providers, that
have a summary hash in common: it is of the same epoch, the headers of the two runs agree up to that
epoch, and so do the parent hashes of the blocks folded into their block roots; or two strings
hashed for these headers and block roots collide. -/
theorem summary_hash_binds_history (epochLengthBlocks epochLengthBlocks' : UInt32)
    (rest : σ) (rest' : σ') (blocks : List (Block σ)) (blocks' : List (Block σ'))
    (bound : blocks.length < 2 ^ 32) (bound' : blocks'.length < 2 ^ 32) (e e' : EpochId)
    (header header' : EpochSummaryHeader) : let length := max epochLengthBlocks.toNat 1
    let length' := max epochLengthBlocks'.toNat 1
    let state := (runBlocks blake2 config epochLengthBlocks rest blocks).epochs
    let state' := (runBlocks blake2 config' epochLengthBlocks' rest' blocks').epochs
    state.summaryHeaders e = some header → state'.summaryHeaders e' = some header' →
    header.summaryHash = header'.summaryHash →
    (e = e' ∧ SharesHistory length blocks state length' blocks' state' e) ∨
    Collides blake2 (historyStrings blake2 config length blocks state e ++
      historyStrings blake2 config' length' blocks' state' e') := by
  intro length length' state state' found found' same
  obtain ⟨closed, before⟩ := runBlocks_closed blake2 config epochLengthBlocks rest blocks bound
  obtain ⟨closed', before'⟩ :=
    runBlocks_closed blake2 config' epochLengthBlocks' rest' blocks' bound'
  exact history_binds closed closed' (before e header found)
    (before' e' header' found') found found' same

/-- Two runs of Earth's chain that differ after their third block share the summaries of epochs 0
and 1. -/
theorem summary_hash_binds_history_sample :
    let blocks := List.replicate 3 sampleBlock
    let blocks' := blocks ++ [{ sampleBlock with totals := ⟨emptyHash, 7, 70, 9⟩ }]
    let state := (runBlocks sampleHash sampleConfig 1 () blocks).epochs
    let state' := (runBlocks sampleHash sampleConfig 1 () blocks').epochs
    ∃ header header', state.summaryHeaders 1 = some header ∧
      state'.summaryHeaders 1 = some header' ∧
      header.summaryHash = header'.summaryHash ∧
      (((1 : EpochId) = 1 ∧ SharesHistory 1 blocks state 1 blocks' state' 1) ∨
        Collides sampleHash (historyStrings sampleHash sampleConfig 1 blocks state 1 ++
          historyStrings sampleHash sampleConfig 1 blocks' state' 1)) := by
  intro blocks blocks' state state'
  have evaluated : (state.summaryHeaders 1).isSome = true ∧ state.summaryHeaders 1 =
      state'.summaryHeaders 1 := by
    decide +kernel
  obtain ⟨header, found⟩ := Option.isSome_iff_exists.mp evaluated.1
  have found' := evaluated.2.symm.trans found
  exact ⟨header, header, found, found', rfl,
    summary_hash_binds_history sampleHash sampleConfig sampleConfig 1 1 () ()
    blocks blocks' (by decide) (by decide) 1 1 header header found found' rfl⟩

end Runs

end Ialp.Epochs
