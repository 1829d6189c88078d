import Ialp.Types.Basic

/-!
Merkle commitments of a closed epoch. The export, finalized-import and governance families are
built the same way and differ in their labels, leaf hashes and orderings, so that the construction
is given once, for a family of leaves, with the two facts the rest of the development uses: an
accepted proof is about a committed leaf, and a built proof is accepted.
-/

namespace Ialp

open Scale Hashing

structure TreeLabels where
  nodeLabel : String
  emptyLabel : String

namespace TreeLabels

variable (labels : TreeLabels)

def nodePreimage (left right : Hash32) : Bytes := encode (labels.nodeLabel, left, right)

def emptyPreimage (domain : DomainId) (epoch : EpochId) (startHeight endHeight : UInt32) : Bytes :=
  encode (labels.emptyLabel, domain, epoch, startHeight, endHeight)

theorem nodePreimage_injective (a b c d : Hash32)
    (same : labels.nodePreimage a b = labels.nodePreimage c d) : a = c ∧ b = d := by
  have tails := List.append_cancel_left (show encode labels.nodeLabel ++ encode (a, b) =
    encode labels.nodeLabel ++ encode (c, d) from same)
  exact Prod.mk.inj (encode_injective tails)

theorem nodePreimage_length (left right : Hash32) :
    (labels.nodePreimage left right).length = (encode labels.nodeLabel).length + 64 := by
  change (encode labels.nodeLabel ++ encode (left, right)).length = _
  rw [List.length_append, length_encode]
  rfl

theorem emptyPreimage_length (domain : DomainId) (epoch : EpochId)
    (startHeight endHeight : UInt32) :
    (labels.emptyPreimage domain epoch startHeight endHeight).length =
      (encode labels.emptyLabel).length + 17 := by
  change (encode labels.emptyLabel ++ encode (domain, epoch, startHeight, endHeight)).length = _
  rw [List.length_append, length_encode]
  rfl

end TreeLabels

/-- The shape shared by `ExportInclusionProof`, `FinalizedImportInclusionProof` and
`GovernanceInclusionProof`. -/
structure LeafInclusionProof (Leaf : Type) where
  version : UInt16
  leaf : Leaf
  leafIndex : UInt32
  leafCount : UInt32
  siblings : List Hash32
  deriving DecidableEq

/-- What distinguishes one family of leaves from another. `preimage` is the byte string whose hash
is the canonical value of `leafHash`. -/
structure LeafFamily (Leaf : Type) where
  labels : TreeLabels
  proofVersion : UInt16
  leafHash : Leaf → Hash32
  preimage : Leaf → Bytes
  ordering : Leaf → Leaf → Ordering

namespace LeafFamily

variable {Leaf : Type} (family : LeafFamily Leaf) (blake2 : Bytes → Hash32)

def computeLeafHash (leaf : Leaf) : Hash32 := blake2 (family.preimage leaf)

def Canonical (leaf : Leaf) : Prop := family.leafHash leaf = family.computeLeafHash blake2 leaf

def sortLeaves (leaves : List Leaf) : List Leaf := sortBy family.ordering leaves

def merkleParentHash (left right : Hash32) : Hash32 :=
  blake2 (family.labels.nodePreimage left right)

def merkleEmptyRoot (domain : DomainId) (epoch : EpochId) (startHeight endHeight : UInt32) :
    Hash32 :=
  blake2 (family.labels.emptyPreimage domain epoch startHeight endHeight)

def merkleRoot (domain : DomainId) (epoch : EpochId) (startHeight endHeight : UInt32)
    (leaves : List Leaf) : Hash32 :=
  (Merkle.root? (family.merkleParentHash blake2)
    ((family.sortLeaves leaves).map family.leafHash)).getD
    (family.merkleEmptyRoot blake2 domain epoch startHeight endHeight)

def buildInclusionProof (leaves : List Leaf) (wanted : Leaf → Bool) :
    Option (LeafInclusionProof Leaf) := do
  let ordered := family.sortLeaves leaves
  let leafIndex ← ordered.findIdx? wanted
  let leaf ← ordered[leafIndex]?
  return {
    version := family.proofVersion
    leaf
    leafIndex := UInt32.ofNat leafIndex
    leafCount := UInt32.ofNat ordered.length
    siblings := Merkle.siblings (family.merkleParentHash blake2) ordered.length leafIndex
      (ordered.map family.leafHash) }

def verifyInclusionProof (root : Hash32) (proof : LeafInclusionProof Leaf) : Bool :=
  if family.leafHash proof.leaf ≠ family.computeLeafHash blake2 proof.leaf then false
  else Merkle.verify (family.merkleParentHash blake2) root (family.leafHash proof.leaf)
    proof.leafIndex.toNat proof.leafCount.toNat proof.siblings

def nodePreimages (leaves : List Leaf) : List Bytes :=
  Merkle.treeStrings blake2 family.labels.nodePreimage
    (((family.sortLeaves leaves).map family.preimage).map blake2)

def rootPreimages (domain : DomainId) (epoch : EpochId) (startHeight endHeight : UInt32)
    (leaves : List Leaf) : List Bytes :=
  (family.sortLeaves leaves).map family.preimage ++
    Merkle.rootStrings blake2 family.labels.nodePreimage
      (family.labels.emptyPreimage domain epoch startHeight endHeight)
      (((family.sortLeaves leaves).map family.preimage).map blake2)

def replayPreimages (proof : LeafInclusionProof Leaf) : List Bytes :=
  family.preimage proof.leaf :: Merkle.replayStrings blake2 family.labels.nodePreimage
    proof.leafIndex.toNat proof.leafCount.toNat (blake2 (family.preimage proof.leaf)) proof.siblings

variable {family blake2} {domain : DomainId} {epoch : EpochId} {startHeight endHeight : UInt32}
  {leaves : List Leaf}

@[simp] theorem mem_sortLeaves {leaf : Leaf} : leaf ∈ family.sortLeaves leaves ↔ leaf ∈ leaves :=
  mem_sortBy

theorem sortLeaves_sortLeaves [Std.TransCmp family.ordering] (leaves : List Leaf) :
    family.sortLeaves (family.sortLeaves leaves) = family.sortLeaves leaves :=
  sortBy_sortBy family.ordering leaves

theorem merkleRoot_sortLeaves [Std.TransCmp family.ordering] (leaves : List Leaf) :
    family.merkleRoot blake2 domain epoch startHeight endHeight (family.sortLeaves leaves) =
      family.merkleRoot blake2 domain epoch startHeight endHeight leaves := by
  rw [merkleRoot, sortLeaves_sortLeaves, merkleRoot]

theorem map_leafHash_sortLeaves (canonical : ∀ leaf ∈ leaves, family.Canonical blake2 leaf) :
    (family.sortLeaves leaves).map family.leafHash =
      ((family.sortLeaves leaves).map family.preimage).map blake2 := by
  rw [List.map_map]
  apply List.map_congr_left
  intro leaf member
  exact canonical leaf (mem_sortLeaves.mp member)

theorem canonical_of_verify {root : Hash32} {proof : LeafInclusionProof Leaf}
    (accepted : family.verifyInclusionProof blake2 root proof = true) :
    family.Canonical blake2 proof.leaf := by
  unfold verifyInclusionProof at accepted
  split at accepted
  · simp at accepted
  · rename_i hashed
    exact not_not.mp hashed

theorem verifyInclusionProof_of_canonical {root : Hash32} {proof : LeafInclusionProof Leaf}
    (canonical : family.Canonical blake2 proof.leaf) :
    family.verifyInclusionProof blake2 root proof =
      Merkle.verify (family.merkleParentHash blake2) root (family.leafHash proof.leaf)
        proof.leafIndex.toNat proof.leafCount.toNat proof.siblings :=
  if_neg (not_not_intro canonical)

theorem index_lt_of_verify {root : Hash32} {proof : LeafInclusionProof Leaf}
    (accepted : family.verifyInclusionProof blake2 root proof = true) :
    proof.leafIndex.toNat < proof.leafCount.toNat := by
  rw [verifyInclusionProof_of_canonical (canonical_of_verify accepted)] at accepted
  exact Merkle.index_lt_of_verify _ accepted

theorem verifyInclusionProof_cases (canonical : ∀ leaf ∈ leaves, family.Canonical blake2 leaf)
    (separated : ∀ leaf ∈ leaves, ∀ a b, family.preimage leaf ≠ family.labels.nodePreimage a b)
    {proof : LeafInclusionProof Leaf}
    (unmarked : family.preimage proof.leaf ≠
      family.labels.emptyPreimage domain epoch startHeight endHeight)
    (unmarkedNode : ∀ a b, family.labels.nodePreimage a b ≠
      family.labels.emptyPreimage domain epoch startHeight endHeight)
    (accepted : family.verifyInclusionProof blake2
      (family.merkleRoot blake2 domain epoch startHeight endHeight leaves) proof = true) :
    (∃ leaf ∈ leaves, family.preimage leaf = family.preimage proof.leaf) ∨
      family.preimage proof.leaf ∈ family.nodePreimages blake2 leaves ∨
      Collides blake2 (family.rootPreimages blake2 domain epoch startHeight endHeight leaves ++
        family.replayPreimages blake2 proof) := by
  have proofHash := canonical_of_verify accepted
  rw [verifyInclusionProof_of_canonical proofHash, proofHash, merkleRoot,
    map_leafHash_sortLeaves canonical] at accepted
  have apart : ∀ string ∈ (family.sortLeaves leaves).map family.preimage,
      ∀ a b, string ≠ family.labels.nodePreimage a b := by
    simpa using separated
  rcases Merkle.inclusion_sound family.labels.nodePreimage_injective apart unmarked
    unmarkedNode accepted with committed | interior | collides
  · left
    simpa using committed
  · exact .inr (.inl interior)
  · exact .inr (.inr collides)

variable (family) in
/-- The strings hashed for leaves, nodes and empty roots are told apart, and a leaf is determined by
its preimage and hash. -/
structure Apart : Prop where
  leaf_ne_node : ∀ leaf a b, family.preimage leaf ≠ family.labels.nodePreimage a b
  leaf_ne_empty : ∀ leaf domain epoch startHeight endHeight,
    family.preimage leaf ≠ family.labels.emptyPreimage domain epoch startHeight endHeight
  node_ne_empty : ∀ a b domain epoch startHeight endHeight,
    family.labels.nodePreimage a b ≠ family.labels.emptyPreimage domain epoch startHeight endHeight
  determined : ∀ a b, family.preimage a = family.preimage b →
    family.leafHash a = family.leafHash b → a = b

theorem apart_of_lengths {leafLength nodeLength emptyLength : Nat}
    (leaf_length : ∀ leaf, (family.preimage leaf).length = leafLength)
    (node_length : ∀ a b, (family.labels.nodePreimage a b).length = nodeLength)
    (empty_length : ∀ domain epoch startHeight endHeight,
      (family.labels.emptyPreimage domain epoch startHeight endHeight).length = emptyLength)
    (lengths : leafLength ≠ nodeLength ∧ leafLength ≠ emptyLength ∧ nodeLength ≠ emptyLength)
    (determined : ∀ a b, family.preimage a = family.preimage b →
      family.leafHash a = family.leafHash b → a = b) :
    family.Apart where
  leaf_ne_node leaf a b same :=
    lengths.1 (leaf_length leaf ▸ node_length a b ▸ congrArg List.length same)
  leaf_ne_empty leaf domain epoch startHeight endHeight same :=
    lengths.2.1 (leaf_length leaf ▸ empty_length domain epoch startHeight endHeight ▸
      congrArg List.length same)
  node_ne_empty a b domain epoch startHeight endHeight same :=
    lengths.2.2 (node_length a b ▸ empty_length domain epoch startHeight endHeight ▸
      congrArg List.length same)
  determined := determined

theorem Apart.eq_of_preimage_eq (apart : family.Apart) {a b : Leaf}
    (canonical : family.Canonical blake2 a) (canonical' : family.Canonical blake2 b)
    (same : family.preimage a = family.preimage b) : a = b := by
  apply apart.determined a b same
  rw [canonical, canonical', computeLeafHash, computeLeafHash, same]

theorem verifyInclusionProof_sound (apart : family.Apart)
    (canonical : ∀ leaf ∈ leaves, family.Canonical blake2 leaf) {proof : LeafInclusionProof Leaf}
    (accepted : family.verifyInclusionProof blake2
      (family.merkleRoot blake2 domain epoch startHeight endHeight leaves) proof = true) :
    proof.leaf ∈ leaves ∨
      Collides blake2 (family.rootPreimages blake2 domain epoch startHeight endHeight leaves ++
        family.replayPreimages blake2 proof) := by
  rcases verifyInclusionProof_cases canonical (fun leaf _ => apart.leaf_ne_node leaf)
    (apart.leaf_ne_empty proof.leaf _ _ _ _) (fun a b => apart.node_ne_empty a b _ _ _ _) accepted
    with ⟨leaf, member, same⟩ | interior | collides
  · left
    exact apart.eq_of_preimage_eq (canonical leaf member) (canonical_of_verify accepted) same ▸
      member
  · obtain ⟨a, b, shape⟩ := Merkle.treeStrings_eq_node interior
    exact absurd shape (apart.leaf_ne_node proof.leaf a b)
  · exact .inr collides

theorem buildInclusionProof_verified (wanted : Leaf → Bool)
    (canonical : ∀ leaf ∈ leaves, family.Canonical blake2 leaf) (small : leaves.length < 2 ^ 32)
    (present : ∃ leaf ∈ leaves, wanted leaf = true) :
    ∃ proof, family.buildInclusionProof blake2 leaves wanted = some proof ∧
      proof.leaf ∈ leaves ∧ wanted proof.leaf = true ∧
      family.verifyInclusionProof blake2
        (family.merkleRoot blake2 domain epoch startHeight endHeight leaves) proof = true := by
  obtain ⟨index, found⟩ : ∃ index, (family.sortLeaves leaves).findIdx? wanted = some index := by
    rw [← Option.isSome_iff_exists, List.findIdx?_isSome]
    simpa using present
  obtain ⟨bound, holds, _⟩ := List.findIdx?_eq_some_iff_getElem.mp found
  have size : (family.sortLeaves leaves).length < 2 ^ 32 := by
    rw [sortLeaves, sortBy_length]
    exact small
  generalize ordering : family.sortLeaves leaves = ordered at *
  have member : ordered[index] ∈ leaves := by
    have sorted : ordered[index] ∈ family.sortLeaves leaves := ordering ▸ List.getElem_mem bound
    exact mem_sortLeaves.mp sorted
  have atIndex : ordered[index]? = some ordered[index] := List.getElem?_eq_getElem bound
  have mapped : (ordered.map family.leafHash)[index]? = some (family.leafHash ordered[index]) := by
    simp [atIndex]
  obtain ⟨top, root, _⟩ := Merkle.root?_isSome (family.merkleParentHash blake2)
    (show 0 < (ordered.map family.leafHash).length by rw [List.length_map]; omega)
  have built : family.buildInclusionProof blake2 leaves wanted = some
      { version := family.proofVersion, leaf := ordered[index], leafIndex := UInt32.ofNat index,
        leafCount := UInt32.ofNat ordered.length
        siblings := Merkle.siblings (family.merkleParentHash blake2) ordered.length index
          (ordered.map family.leafHash) } := by
    simp [buildInclusionProof, ordering, found, atIndex]
  refine ⟨_, built, member, holds, ?_⟩
  have accepted := Merkle.verify_siblings (family.merkleParentHash blake2) mapped root
  rw [List.length_map] at accepted
  rw [verifyInclusionProof_of_canonical (canonical _ member), merkleRoot, ordering,
    root, Option.getD_some, UInt32.toNat_ofNat', UInt32.toNat_ofNat', Nat.mod_eq_of_lt size,
    Nat.mod_eq_of_lt (bound.trans size)]
  exact accepted

theorem buildInclusionProof_eq_none {wanted : Leaf → Bool}
    (missing : ∀ leaf ∈ leaves, wanted leaf = false) :
    family.buildInclusionProof blake2 leaves wanted = none := by
  have absent : (family.sortLeaves leaves).findIdx? wanted = none := by
    rw [List.findIdx?_eq_none_iff]
    intro leaf member
    exact missing leaf (mem_sortLeaves.mp member)
  simp [buildInclusionProof, absent]

variable (blake2) in
theorem commitment_of_perm [Std.TransCmp family.ordering] {leaves' : List Leaf}
    (perm : leaves.Perm leaves')
    (untied : ∀ a ∈ leaves, ∀ b ∈ leaves, family.ordering a b = .eq → a = b) :
    (∀ domain epoch startHeight endHeight,
        family.merkleRoot blake2 domain epoch startHeight endHeight leaves =
          family.merkleRoot blake2 domain epoch startHeight endHeight leaves') ∧
      ∀ wanted, family.buildInclusionProof blake2 leaves wanted =
        family.buildInclusionProof blake2 leaves' wanted := by
  have sorted : family.sortLeaves leaves = family.sortLeaves leaves' :=
    sortBy_eq_of_perm family.ordering perm untied
  constructor
  · intro domain epoch startHeight endHeight
    rw [merkleRoot, merkleRoot, sorted]
  · intro wanted
    rw [buildInclusionProof, buildInclusionProof, sorted]

end LeafFamily

end Ialp
