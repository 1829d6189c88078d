import Ialp.Lib.MerkleBinding
import Ialp.Types.GovernanceInclusion
import Ialp.Types.Transfer

/-!
What the roots of a summary commit to. The leaves under a root are determined by it, every leaf has
a proof that is accepted, and an accepted proof has the length of the tree and starts at its
position. The root says nothing of the number of leaves a proof states.
-/

namespace Ialp

open Scale Hashing

namespace LeafFamily

variable {Leaf : Type} {family : LeafFamily Leaf} {blake2 : Bytes → Hash32} {domain : DomainId}
  {epoch : EpochId} {startHeight endHeight : UInt32} {leaves leaves' : List Leaf}

theorem merkleRoot_eq_rootOr (canonical : ∀ leaf ∈ leaves, family.Canonical blake2 leaf) :
    family.merkleRoot blake2 domain epoch startHeight endHeight leaves =
      Merkle.rootOr blake2 family.labels.nodePreimage
        (family.labels.emptyPreimage domain epoch startHeight endHeight)
        (((family.sortLeaves leaves).map family.preimage).map blake2) := by
  rw [merkleRoot, map_leafHash_sortLeaves canonical]
  rfl

theorem mem_of_same_root (apart : family.Apart) {strings : List Bytes}
    (free : ¬ Collides blake2 strings)
    (hashed : family.rootPreimages blake2 domain epoch startHeight endHeight leaves ⊆ strings)
    (hashed' : family.rootPreimages blake2 domain epoch startHeight endHeight leaves' ⊆ strings)
    (canonical : ∀ leaf ∈ leaves, family.Canonical blake2 leaf)
    (canonical' : ∀ leaf ∈ leaves', family.Canonical blake2 leaf)
    (same : family.merkleRoot blake2 domain epoch startHeight endHeight leaves =
      family.merkleRoot blake2 domain epoch startHeight endHeight leaves') {leaf : Leaf}
      (member : leaf ∈ leaves) :
    leaf ∈ leaves' := by
  rw [merkleRoot_eq_rootOr canonical, merkleRoot_eq_rootOr canonical'] at same
  have ofLeaf : ∀ string ∈ (family.sortLeaves leaves).map family.preimage ++
      (family.sortLeaves leaves').map family.preimage, ∃ leaf, family.preimage leaf = string := by
    intro string present
    rcases List.mem_append.mp present with present | present
    · obtain ⟨leaf, _, preimage⟩ := List.mem_map.mp present
      exact ⟨leaf, preimage⟩
    · obtain ⟨leaf, _, preimage⟩ := List.mem_map.mp present
      exact ⟨leaf, preimage⟩
  have sub := Merkle.leaves_subset family.labels.nodePreimage_injective free
    (fun string present a b => by
      obtain ⟨leaf, rfl⟩ := ofLeaf string present
      exact apart.leaf_ne_node leaf a b)
    (fun string present => by
      obtain ⟨leaf, rfl⟩ := ofLeaf string present
      exact apart.leaf_ne_empty leaf domain epoch startHeight endHeight)
    (fun a b => apart.node_ne_empty a b domain epoch startHeight endHeight) hashed hashed' same
  obtain ⟨other, present, preimage⟩ :=
    List.mem_map.mp (sub (List.mem_map_of_mem (mem_sortLeaves.mpr member)))
  have present := mem_sortLeaves.mp present
  exact apart.eq_of_preimage_eq (canonical' other present) (canonical leaf member) preimage ▸
    present

theorem perm_of_same_root (apart : family.Apart) (nodup : leaves.Nodup) (nodup' : leaves'.Nodup)
    (canonical : ∀ leaf ∈ leaves, family.Canonical blake2 leaf)
    (canonical' : ∀ leaf ∈ leaves', family.Canonical blake2 leaf)
    (same : family.merkleRoot blake2 domain epoch startHeight endHeight leaves =
      family.merkleRoot blake2 domain epoch startHeight endHeight leaves') :
    leaves.Perm leaves' ∨
      Collides blake2 (family.rootPreimages blake2 domain epoch startHeight endHeight leaves ++
        family.rootPreimages blake2 domain epoch startHeight endHeight leaves') := by
  by_cases collides : Collides blake2
    (family.rootPreimages blake2 domain epoch startHeight endHeight leaves ++
      family.rootPreimages blake2 domain epoch startHeight endHeight leaves')
  · exact .inr collides
  · left
    rw [List.perm_ext_iff_of_nodup nodup nodup']
    intro leaf
    constructor
    · exact mem_of_same_root apart collides (List.subset_append_left _ _)
        (List.subset_append_right _ _) canonical canonical' same
    · exact mem_of_same_root apart collides (List.subset_append_right _ _)
        (List.subset_append_left _ _) canonical' canonical same.symm

theorem position_of_verify (apart : family.Apart) (nonempty : leaves ≠ [])
    (canonical : ∀ leaf ∈ leaves, family.Canonical blake2 leaf) {proof : LeafInclusionProof Leaf}
    (accepted : family.verifyInclusionProof blake2
      (family.merkleRoot blake2 domain epoch startHeight endHeight leaves) proof = true) :
    (proof.siblings.length = Merkle.rounds leaves.length leaves.length ∧
        (family.sortLeaves leaves)[Merkle.position proof.siblings.length leaves.length
          proof.leafIndex.toNat]? = some proof.leaf) ∨
      Collides blake2 (family.rootPreimages blake2 domain epoch startHeight endHeight leaves ++
        family.replayPreimages blake2 proof) := by
  have proofHash := canonical_of_verify accepted
  rw [verifyInclusionProof_of_canonical proofHash, proofHash, merkleRoot_eq_rootOr canonical]
    at accepted
  by_cases collides : Collides blake2
    (family.rootPreimages blake2 domain epoch startHeight endHeight leaves ++
      family.replayPreimages blake2 proof)
  · exact .inr collides
  have filled : 0 < ((family.sortLeaves leaves).map family.preimage).length := by
    rw [List.length_map, sortLeaves, sortBy_length]
    exact List.length_pos_iff.mpr nonempty
  have apart' : ∀ string ∈ (family.sortLeaves leaves).map family.preimage,
      ∀ a b, string ≠ family.labels.nodePreimage a b := by
    intro string present a b
    obtain ⟨leaf, _, rfl⟩ := List.mem_map.mp present
    exact apart.leaf_ne_node leaf a b
  obtain ⟨height, start⟩ :=
    Merkle.path_position family.labels.nodePreimage_injective collides filled apart'
    (apart.leaf_ne_node proof.leaf) (List.Subset.refl _) accepted
  rw [List.length_map, sortLeaves, sortBy_length] at height start
  rw [List.getElem?_map, Option.map_eq_some_iff] at start
  obtain ⟨leaf, present, preimage⟩ := start
  have committed := canonical leaf (mem_sortBy.mp (List.mem_of_getElem? present))
  exact .inl ⟨height, apart.eq_of_preimage_eq committed proofHash preimage ▸ present⟩

theorem buildInclusionProof_siblings_length {wanted : Leaf → Bool} {proof : LeafInclusionProof Leaf}
    (built : family.buildInclusionProof blake2 leaves wanted = some proof) :
    proof.siblings.length = Merkle.rounds leaves.length leaves.length := by
  simp only [buildInclusionProof, Option.bind_eq_bind, Option.bind_eq_some_iff] at built
  obtain ⟨index, _, leaf, _, built⟩ := built
  cases built
  simp only [Merkle.siblings_length, List.length_map, sortLeaves, sortBy_length]

variable {Key : Type} [DecidableEq Key]

theorem buildInclusionProof_complete (key : Leaf → Key) (wanted : Key)
    (small : leaves.length < 2 ^ 32) (canonical : ∀ leaf ∈ leaves, family.Canonical blake2 leaf) :
    ((∃ leaf ∈ leaves, key leaf = wanted) → ∃ proof,
        family.buildInclusionProof blake2 leaves (fun leaf => key leaf = wanted) = some proof ∧
        key proof.leaf = wanted ∧
        family.verifyInclusionProof blake2
          (family.merkleRoot blake2 domain epoch startHeight endHeight leaves) proof = true) ∧
      ((∀ leaf ∈ leaves, key leaf ≠ wanted) →
        family.buildInclusionProof blake2 leaves (fun leaf => key leaf = wanted) = none) := by
  constructor
  · intro present
    obtain ⟨proof, built, _, holds, accepted⟩ :=
      buildInclusionProof_verified (fun leaf => key leaf = wanted)
      canonical small (by simpa using present)
    exact ⟨proof, built, of_decide_eq_true holds, accepted⟩
  · intro missing
    exact buildInclusionProof_eq_none fun leaf member => decide_eq_false (missing leaf member)

theorem verifyInclusionProof_position (apart : family.Apart) (nonempty : leaves ≠ [])
    (nodup : leaves.Nodup) (canonical : ∀ leaf ∈ leaves, family.Canonical blake2 leaf)
    (key : Leaf → Key) {proof : LeafInclusionProof Leaf}
    (accepted : family.verifyInclusionProof blake2
      (family.merkleRoot blake2 domain epoch startHeight endHeight leaves) proof = true) :
    ((∃ built, family.buildInclusionProof blake2 leaves (fun leaf => key leaf = key proof.leaf) =
      some built ∧
          proof.siblings.length = built.siblings.length) ∧
        (∀ place, (family.sortLeaves leaves)[place]? = some proof.leaf ↔
          place = Merkle.position proof.siblings.length leaves.length proof.leafIndex.toNat) ∧
        (proof.leafCount.toNat = leaves.length →
          Merkle.position proof.siblings.length leaves.length proof.leafIndex.toNat =
            proof.leafIndex.toNat)) ∨
      Collides blake2 (family.rootPreimages blake2 domain epoch startHeight endHeight leaves ++
        family.replayPreimages blake2 proof) := by
  rcases position_of_verify apart nonempty canonical accepted with ⟨height, start⟩ | collides
  · refine .inl ⟨?_, ?_, ?_⟩
    · obtain ⟨index, found⟩ : ∃ index,
          (family.sortLeaves leaves).findIdx? (fun leaf => key leaf = key proof.leaf) =
            some index := by
        rw [← Option.isSome_iff_exists, List.findIdx?_isSome, List.any_eq_true]
        exact ⟨proof.leaf, List.mem_of_getElem? start, by simp⟩
      obtain ⟨bound, _⟩ := List.findIdx?_eq_some_iff_getElem.mp found
      obtain ⟨built, some⟩ : ∃ built,
          family.buildInclusionProof blake2 leaves (fun leaf => key leaf = key proof.leaf) =
            some built := by
        simp [buildInclusionProof, found, List.getElem?_eq_getElem bound]
      exact ⟨built, some, height.trans (buildInclusionProof_siblings_length some).symm⟩
    · intro place
      have ordered : (family.sortLeaves leaves).Nodup :=
        (sortBy_perm family.ordering leaves).nodup_iff.mpr nodup
      constructor
      · intro found
        obtain ⟨bound, _⟩ := List.getElem?_eq_some_iff.mp found
        exact (List.getElem?_inj bound ordered).mp (found.trans start.symm)
      · intro same
        rw [same, start]
    · intro counted
      have inside : proof.leafIndex.toNat < leaves.length := counted ▸ index_lt_of_verify accepted
      rw [height]
      exact Merkle.position_of_lt (by omega) inside
  · exact .inr collides

end LeafFamily

/-- Every leaf of a list can be proved included, in each of the three families, whatever the order
of the list; for what is not in the list there is no proof. -/
theorem inclusion_complete (blake2 : Bytes → Hash32) (domain : DomainId) (epoch : EpochId)
    (startHeight endHeight : UInt32) :
    (∀ leaves : List ExportLeaf, leaves.length < 2 ^ 32 →
      (∀ leaf ∈ leaves, leaf.exportHash = leaf.computeExportHash blake2) → ∀ id : ExportId,
      ((∃ leaf ∈ leaves, leaf.exportId = id) → ∃ proof,
          buildExportInclusionProof blake2 leaves id = some proof ∧ proof.leaf.exportId = id ∧
          verifyExportInclusionProof blake2
            (exportMerkleRoot blake2 domain epoch startHeight endHeight leaves) proof = true) ∧
        ((∀ leaf ∈ leaves, leaf.exportId ≠ id) →
          buildExportInclusionProof blake2 leaves id = none)) ∧
    (∀ leaves : List FinalizedImportLeaf, leaves.length < 2 ^ 32 →
      (∀ leaf ∈ leaves, leaf.importHash = leaf.computeImportHash blake2) → ∀ id : ExportId,
      ((∃ leaf ∈ leaves, leaf.exportId = id) → ∃ proof,
          buildFinalizedImportInclusionProof blake2 leaves id = some proof ∧
            proof.leaf.exportId = id ∧
          verifyFinalizedImportInclusionProof blake2
            (importMerkleRoot blake2 domain epoch startHeight endHeight leaves) proof = true) ∧
        ((∀ leaf ∈ leaves, leaf.exportId ≠ id) →
          buildFinalizedImportInclusionProof blake2 leaves id = none)) ∧
    (∀ leaves : List GovernanceLeaf, leaves.length < 2 ^ 32 →
      (∀ leaf ∈ leaves, leaf.leafHash = leaf.computeLeafHash blake2) → ∀ leafHash : Hash32,
      ((∃ leaf ∈ leaves, leaf.leafHash = leafHash) → ∃ proof,
          buildGovernanceInclusionProof blake2 leaves leafHash = some proof ∧
            proof.leaf.leafHash = leafHash ∧
          verifyGovernanceInclusionProof blake2
            (governanceMerkleRoot blake2 domain epoch startHeight endHeight leaves) proof = true) ∧
        ((∀ leaf ∈ leaves, leaf.leafHash ≠ leafHash) →
          buildGovernanceInclusionProof blake2 leaves leafHash = none)) := by
  refine ⟨?_, ?_, ?_⟩
  · intro leaves small canonical id
    exact LeafFamily.buildInclusionProof_complete (fun leaf : ExportLeaf =>
      leaf.exportId) id small canonical
  · intro leaves small canonical id
    exact LeafFamily.buildInclusionProof_complete (fun leaf : FinalizedImportLeaf =>
      leaf.exportId) id small canonical
  · intro leaves small canonical leafHash
    have canonical : ∀ leaf ∈ leaves, governanceFamily.Canonical blake2 leaf :=
      fun leaf member => GovernanceLeaf.canonical_iff.mpr (canonical leaf member)
    exact LeafFamily.buildInclusionProof_complete GovernanceLeaf.leafHash leafHash small canonical

/-- Each family at three leaves out of order, with the key of the last and one that is missing. -/
theorem inclusion_complete_sample :
    ((∃ proof, buildExportInclusionProof sampleHash [sampleExportLeaf 2, sampleExportLeaf 0,
      sampleExportLeaf 1]
          (exportId sampleHash .earth 2) = some proof ∧
            proof.leaf.exportId = exportId sampleHash .earth 2 ∧
        verifyExportInclusionProof sampleHash (exportMerkleRoot sampleHash .earth 0 1 2
          [sampleExportLeaf 2, sampleExportLeaf 0, sampleExportLeaf 1]) proof = true) ∧
      buildExportInclusionProof sampleHash [sampleExportLeaf 2, sampleExportLeaf 0,
        sampleExportLeaf 1] (exportId sampleHash .earth 3) = none) ∧
    (∃ proof, buildFinalizedImportInclusionProof sampleHash
          [sampleFinalizedImportLeaf 2, sampleFinalizedImportLeaf 0, sampleFinalizedImportLeaf 1]
          (exportId sampleHash .earth 2) = some proof ∧
            proof.leaf.exportId = exportId sampleHash .earth 2 ∧
        verifyFinalizedImportInclusionProof sampleHash (importMerkleRoot sampleHash .moon 0 1 2
          [sampleFinalizedImportLeaf 2, sampleFinalizedImportLeaf 0, sampleFinalizedImportLeaf 1])
          proof = true) ∧
    ∃ proof, buildGovernanceInclusionProof sampleHash
          [sampleProposalLeaf sampleHash .moon, sampleProposalLeaf sampleHash .mars]
          (sampleProposalLeaf sampleHash .mars).leafHash = some proof ∧
        proof.leaf.leafHash = (sampleProposalLeaf sampleHash .mars).leafHash ∧
        verifyGovernanceInclusionProof sampleHash (governanceMerkleRoot sampleHash .earth 0 1 2
          [sampleProposalLeaf sampleHash .moon, sampleProposalLeaf sampleHash .mars]) proof =
          true := by
  have exports := (inclusion_complete sampleHash .earth 0 1 2).1
    [sampleExportLeaf 2, sampleExportLeaf 0, sampleExportLeaf 1] (by decide) (by decide +kernel)
  refine ⟨⟨(exports _).1 (by decide +kernel), (exports _).2 (by decide +kernel)⟩, ?_, ?_⟩
  · exact ((inclusion_complete sampleHash .moon 0 1 2).2.1 _ (by decide) (by decide +kernel) _).1
      (by decide +kernel)
  · exact ((inclusion_complete sampleHash .earth 0 1 2).2.2 _ (by decide) (by decide +kernel) _).1
      (by decide +kernel)

/-- What an accepted export or finalized-import proof says of the committed list: it has as many
siblings as the built one, and its leaf stands in the ordered list where the index leads in the
tree. That is the index itself when the stated count is the size of the list. -/
theorem inclusion_position (blake2 : Bytes → Hash32) (domain : DomainId) (epoch : EpochId)
    (startHeight endHeight : UInt32) :
    (∀ (leaves : List ExportLeaf) (proof : ExportInclusionProof), leaves ≠ [] →
      (∀ leaf ∈ leaves, leaf.exportHash = leaf.computeExportHash blake2) →
      (leaves.map fun leaf => leaf.exportId).Nodup →
      verifyExportInclusionProof blake2
        (exportMerkleRoot blake2 domain epoch startHeight endHeight leaves) proof = true →
      ((∃ built, buildExportInclusionProof blake2 leaves proof.leaf.exportId = some built ∧
            proof.siblings.length = built.siblings.length) ∧
          (∀ place, (sortExportLeaves leaves)[place]? = some proof.leaf ↔
            place = Merkle.position proof.siblings.length leaves.length proof.leafIndex.toNat) ∧
          (proof.leafCount.toNat = leaves.length →
            Merkle.position proof.siblings.length leaves.length proof.leafIndex.toNat =
              proof.leafIndex.toNat)) ∨
        Collides blake2 (exportFamily.rootPreimages blake2 domain epoch startHeight
          endHeight leaves ++
          exportFamily.replayPreimages blake2 proof)) ∧
    (∀ (leaves : List FinalizedImportLeaf) (proof : FinalizedImportInclusionProof), leaves ≠ [] →
      (∀ leaf ∈ leaves, leaf.importHash = leaf.computeImportHash blake2) →
      (leaves.map fun leaf => leaf.exportId).Nodup →
      verifyFinalizedImportInclusionProof blake2
        (importMerkleRoot blake2 domain epoch startHeight endHeight leaves) proof = true →
      ((∃ built, buildFinalizedImportInclusionProof blake2 leaves proof.leaf.exportId = some built ∧
            proof.siblings.length = built.siblings.length) ∧
          (∀ place, (sortFinalizedImportLeaves leaves)[place]? = some proof.leaf ↔
            place = Merkle.position proof.siblings.length leaves.length proof.leafIndex.toNat) ∧
          (proof.leafCount.toNat = leaves.length →
            Merkle.position proof.siblings.length leaves.length proof.leafIndex.toNat =
              proof.leafIndex.toNat)) ∨
        Collides blake2 (importFamily.rootPreimages blake2 domain epoch startHeight
          endHeight leaves ++
          importFamily.replayPreimages blake2 proof)) := by
  constructor
  · intro leaves proof nonempty canonical distinct accepted
    exact LeafFamily.verifyInclusionProof_position exportFamily_apart nonempty
      distinct.of_map canonical (fun leaf => leaf.exportId) accepted
  · intro leaves proof nonempty canonical distinct accepted
    exact LeafFamily.verifyInclusionProof_position importFamily_apart nonempty
      distinct.of_map canonical (fun leaf => leaf.exportId) accepted

/-- The proof of the last of three leaves, with its index moved to the copy of that leaf and the
count to match. -/
def movedExportProof : Option ExportInclusionProof :=
  (buildExportInclusionProof sampleHash [sampleExportLeaf 0, sampleExportLeaf 1, sampleExportLeaf 2]
    (exportId sampleHash .earth 2)).map fun proof => { proof with leafIndex := 3, leafCount := 4 }

/-- Index and count of an accepted proof can both be wrong, without any collision: the root is
reached through the copy that the odd level makes of its last leaf. -/
theorem export_position_moved :
    ∃ proof, movedExportProof = some proof ∧
      (∀ leaf ∈ [sampleExportLeaf 0, sampleExportLeaf 1, sampleExportLeaf 2],
        leaf.exportHash = leaf.computeExportHash sampleHash) ∧
      ([sampleExportLeaf 0, sampleExportLeaf 1, sampleExportLeaf 2].map fun leaf =>
        leaf.exportId).Nodup ∧
      verifyExportInclusionProof sampleHash (exportMerkleRoot sampleHash .earth 0 1 2
        [sampleExportLeaf 0, sampleExportLeaf 1, sampleExportLeaf 2]) proof = true ∧
      proof.leafCount.toNat ≠ [sampleExportLeaf 0, sampleExportLeaf 1, sampleExportLeaf 2].length ∧
      (sortExportLeaves [sampleExportLeaf 0, sampleExportLeaf 1,
        sampleExportLeaf 2])[proof.leafIndex.toNat]? ≠
        some proof.leaf ∧
      ¬ Collides sampleHash (exportFamily.rootPreimages sampleHash .earth 0 1 2
          [sampleExportLeaf 0, sampleExportLeaf 1, sampleExportLeaf 2] ++
          exportFamily.replayPreimages sampleHash proof) := by
  refine ⟨movedExportProof.get (by decide +kernel), by simp, ?_⟩
  decide +kernel

theorem inclusion_position_sample :
    (∃ proof, movedExportProof = some proof ∧
      (((∃ built, buildExportInclusionProof sampleHash
              [sampleExportLeaf 0, sampleExportLeaf 1, sampleExportLeaf 2] proof.leaf.exportId =
                some built ∧
            proof.siblings.length = built.siblings.length) ∧
          (∀ place, (sortExportLeaves [sampleExportLeaf 0, sampleExportLeaf 1,
            sampleExportLeaf 2])[place]? =
            some proof.leaf ↔ place =
              Merkle.position proof.siblings.length 3 proof.leafIndex.toNat) ∧
          (proof.leafCount.toNat = 3 →
            Merkle.position proof.siblings.length 3 proof.leafIndex.toNat =
              proof.leafIndex.toNat)) ∨
        Collides sampleHash (exportFamily.rootPreimages sampleHash .earth 0 1 2
          [sampleExportLeaf 0, sampleExportLeaf 1, sampleExportLeaf 2] ++
          exportFamily.replayPreimages sampleHash proof))) ∧
    (∃ proof, buildFinalizedImportInclusionProof sampleHash
        [sampleFinalizedImportLeaf 0, sampleFinalizedImportLeaf 1]
        (exportId sampleHash .earth 1) = some proof ∧
      (((∃ built, buildFinalizedImportInclusionProof sampleHash
              [sampleFinalizedImportLeaf 0, sampleFinalizedImportLeaf 1] proof.leaf.exportId =
                some built ∧
            proof.siblings.length = built.siblings.length) ∧
          (∀ place, (sortFinalizedImportLeaves
              [sampleFinalizedImportLeaf 0, sampleFinalizedImportLeaf 1])[place]? =
              some proof.leaf ↔
            place = Merkle.position proof.siblings.length 2 proof.leafIndex.toNat) ∧
          (proof.leafCount.toNat = 2 →
            Merkle.position proof.siblings.length 2 proof.leafIndex.toNat =
              proof.leafIndex.toNat)) ∨
        Collides sampleHash (importFamily.rootPreimages sampleHash .moon 0 1 2
          [sampleFinalizedImportLeaf 0, sampleFinalizedImportLeaf 1] ++
          importFamily.replayPreimages sampleHash proof))) := by
  constructor
  · refine ⟨movedExportProof.get (by decide +kernel), by simp, ?_⟩
    exact (inclusion_position sampleHash .earth 0 1 2).1
      [sampleExportLeaf 0, sampleExportLeaf 1, sampleExportLeaf 2] _ (by simp) (by decide +kernel)
      (by decide +kernel) (by decide +kernel)
  · refine ⟨(buildFinalizedImportInclusionProof sampleHash
      [sampleFinalizedImportLeaf 0, sampleFinalizedImportLeaf 1] (exportId sampleHash .earth 1)).get
      (by decide +kernel), by simp, ?_⟩
    exact (inclusion_position sampleHash .moon 0 1 2).2
      [sampleFinalizedImportLeaf 0, sampleFinalizedImportLeaf 1] _ (by simp) (by decide +kernel)
      (by decide +kernel) (by decide +kernel)

/-- The export root of a summary determines the set of exports under it, and the import root that of
the finalized imports, unless two of the strings hashed for the two roots collide. Ids are distinct,
so that a list cannot repeat the leaf that an odd level repeats. -/
theorem root_commits_to_one_set (blake2 : Bytes → Hash32) (domain : DomainId) (epoch : EpochId)
    (startHeight endHeight : UInt32) :
    (∀ leaves leaves' : List ExportLeaf,
      (∀ leaf ∈ leaves, leaf.exportHash = leaf.computeExportHash blake2) →
      (∀ leaf ∈ leaves', leaf.exportHash = leaf.computeExportHash blake2) →
      (leaves.map fun leaf => leaf.exportId).Nodup → (leaves'.map fun leaf => leaf.exportId).Nodup →
      exportMerkleRoot blake2 domain epoch startHeight endHeight leaves =
        exportMerkleRoot blake2 domain epoch startHeight endHeight leaves' →
      leaves.Perm leaves' ∨
        Collides blake2 (exportFamily.rootPreimages blake2 domain epoch startHeight
          endHeight leaves ++
          exportFamily.rootPreimages blake2 domain epoch startHeight endHeight leaves')) ∧
    (∀ leaves leaves' : List FinalizedImportLeaf,
      (∀ leaf ∈ leaves, leaf.importHash = leaf.computeImportHash blake2) →
      (∀ leaf ∈ leaves', leaf.importHash = leaf.computeImportHash blake2) →
      (leaves.map fun leaf => leaf.exportId).Nodup → (leaves'.map fun leaf => leaf.exportId).Nodup →
      importMerkleRoot blake2 domain epoch startHeight endHeight leaves =
        importMerkleRoot blake2 domain epoch startHeight endHeight leaves' →
      leaves.Perm leaves' ∨
        Collides blake2 (importFamily.rootPreimages blake2 domain epoch startHeight
          endHeight leaves ++
          importFamily.rootPreimages blake2 domain epoch startHeight endHeight leaves')) := by
  constructor
  · intro leaves leaves' canonical canonical' distinct distinct' same
    exact LeafFamily.perm_of_same_root exportFamily_apart distinct.of_map distinct'.of_map
      canonical canonical' same
  · intro leaves leaves' canonical canonical' distinct distinct' same
    exact LeafFamily.perm_of_same_root importFamily_apart distinct.of_map distinct'.of_map
      canonical canonical' same

theorem root_commits_to_one_set_sample :
    ([sampleExportLeaf 0, sampleExportLeaf 1, sampleExportLeaf 2].Perm
        [sampleExportLeaf 2, sampleExportLeaf 1, sampleExportLeaf 0] ∨
      Collides sampleHash (exportFamily.rootPreimages sampleHash .earth 0 1 2
          [sampleExportLeaf 0, sampleExportLeaf 1, sampleExportLeaf 2] ++
        exportFamily.rootPreimages sampleHash .earth 0 1 2
          [sampleExportLeaf 2, sampleExportLeaf 1, sampleExportLeaf 0])) ∧
    ([sampleFinalizedImportLeaf 0, sampleFinalizedImportLeaf 1].Perm
        [sampleFinalizedImportLeaf 1, sampleFinalizedImportLeaf 0] ∨
      Collides sampleHash (importFamily.rootPreimages sampleHash .moon 0 1 2
          [sampleFinalizedImportLeaf 0, sampleFinalizedImportLeaf 1] ++
        importFamily.rootPreimages sampleHash .moon 0 1 2
          [sampleFinalizedImportLeaf 1, sampleFinalizedImportLeaf 0])) :=
  ⟨(root_commits_to_one_set sampleHash .earth 0 1 2).1 _ _ (by decide +kernel) (by decide +kernel)
      (by decide +kernel) (by decide +kernel) (by decide +kernel),
    (root_commits_to_one_set sampleHash .moon 0 1 2).2 _ _ (by decide +kernel) (by decide +kernel)
      (by decide +kernel) (by decide +kernel) (by decide +kernel)⟩

end Ialp
