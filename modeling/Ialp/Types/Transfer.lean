import Ialp.Types.Inclusion

namespace Ialp

open Scale Hashing

inductive ExportStatus where
  | localFinal
  | exported
  | remoteFinalized
  deriving DecidableEq, Repr

inductive ImportObservationStatus where
  | remoteObserved
  | remoteFinalized
  deriving DecidableEq, Repr

structure ExportLeafHashInput where
  version : UInt16
  exportId : ExportId
  sourceDomain : DomainId
  targetDomain : DomainId
  sender : AccountIdBytes
  recipient : AccountIdBytes
  amount : U128
  sourceEpochId : EpochId
  sourceBlockHeight : UInt32
  extrinsicIndex : UInt32
  deriving DecidableEq

namespace ExportLeafHashInput

instance : FixedEncode ExportLeafHashInput :=
  FixedEncode.comap
    (fun input => (input.version, input.exportId, input.sourceDomain,
      input.targetDomain, input.sender, input.recipient, input.amount, input.sourceEpochId,
      input.sourceBlockHeight, input.extrinsicIndex))
    (by
      rintro ⟨⟩ ⟨⟩ same
      simpa using same)

def exportHash (blake2 : Bytes → Hash32) (input : ExportLeafHashInput) : Hash32 :=
  blake2 (encode input)

end ExportLeafHashInput

structure ExportLeaf extends ExportLeafHashInput where
  exportHash : Hash32
  deriving DecidableEq

namespace ExportLeaf

variable (blake2 : Bytes → Hash32)

def fromHashInput (input : ExportLeafHashInput) : ExportLeaf :=
  { input with exportHash := input.exportHash blake2 }

def hashInput (leaf : ExportLeaf) : ExportLeafHashInput := leaf.toExportLeafHashInput

def computeExportHash (leaf : ExportLeaf) : Hash32 := leaf.hashInput.exportHash blake2

def preimage (leaf : ExportLeaf) : Bytes := encode leaf.hashInput

theorem preimage_length (leaf : ExportLeaf) : leaf.preimage.length = 132 := by
  rw [preimage, length_encode]
  rfl

theorem eq_of_preimage_eq {a b : ExportLeaf} (same : a.preimage = b.preimage)
    (hash : a.exportHash = b.exportHash) : a = b := by
  have input : a.hashInput = b.hashInput := encode_injective same
  cases a
  cases b
  simp only [hashInput] at input hash
  rw [input, hash]

end ExportLeaf

structure ExportRecord where
  leaf : ExportLeaf
  status : ExportStatus
  completionSummaryHash : Option Hash32
  completionPackageHash : Option Hash32
  resolvedAtSourceBlockHeight : Option UInt32
  resolverAccount : Option AccountIdBytes
  deriving DecidableEq

structure ObservedImportClaim where
  version : UInt16
  exportId : ExportId
  sourceDomain : DomainId
  targetDomain : DomainId
  sourceEpochId : EpochId
  summaryHash : Hash32
  packageHash : Hash32
  recipient : AccountIdBytes
  amount : U128
  deriving DecidableEq

structure RemoteFinalizationClaim where
  version : UInt16
  exportId : ExportId
  sourceDomain : DomainId
  targetDomain : DomainId
  sourceEpochId : EpochId
  recipient : AccountIdBytes
  amount : U128
  completionSummaryHash : Hash32
  completionPackageHash : Hash32
  deriving DecidableEq

structure FinalizedImportLeafHashInput where
  version : UInt16
  exportId : ExportId
  sourceDomain : DomainId
  targetDomain : DomainId
  recipient : AccountIdBytes
  amount : U128
  sourceEpochId : EpochId
  summaryHash : Hash32
  packageHash : Hash32
  deriving DecidableEq

namespace FinalizedImportLeafHashInput

instance : FixedEncode FinalizedImportLeafHashInput :=
  FixedEncode.comap
    (fun input => (input.version, input.exportId, input.sourceDomain,
      input.targetDomain, input.recipient, input.amount, input.sourceEpochId, input.summaryHash,
      input.packageHash))
    (by
      rintro ⟨⟩ ⟨⟩ same
      simpa using same)

def importHash (blake2 : Bytes → Hash32) (input : FinalizedImportLeafHashInput) : Hash32 :=
  blake2 (encode input)

end FinalizedImportLeafHashInput

structure FinalizedImportLeaf extends FinalizedImportLeafHashInput where
  importHash : Hash32
  deriving DecidableEq

namespace FinalizedImportLeaf

variable (blake2 : Bytes → Hash32)

def fromHashInput (input : FinalizedImportLeafHashInput) : FinalizedImportLeaf :=
  { input with importHash := input.importHash blake2 }

def hashInput (leaf : FinalizedImportLeaf) : FinalizedImportLeafHashInput :=
  leaf.toFinalizedImportLeafHashInput

def computeImportHash (leaf : FinalizedImportLeaf) : Hash32 := leaf.hashInput.importHash blake2

def preimage (leaf : FinalizedImportLeaf) : Bytes := encode leaf.hashInput

theorem preimage_length (leaf : FinalizedImportLeaf) : leaf.preimage.length = 156 := by
  rw [preimage, length_encode]
  rfl

theorem eq_of_preimage_eq {a b : FinalizedImportLeaf} (same : a.preimage = b.preimage)
    (hash : a.importHash = b.importHash) : a = b := by
  have input : a.hashInput = b.hashInput := encode_injective same
  cases a
  cases b
  simp only [hashInput] at input hash
  rw [input, hash]

end FinalizedImportLeaf

structure ObservedImportRecord where
  version : UInt16
  exportId : ExportId
  sourceDomain : DomainId
  targetDomain : DomainId
  sourceEpochId : EpochId
  summaryHash : Hash32
  packageHash : Hash32
  recipient : AccountIdBytes
  amount : U128
  observedAtLocalBlockHeight : UInt32
  observerAccount : AccountIdBytes
  status : ImportObservationStatus
  finalizedAtLocalBlockHeight : Option UInt32
  finalizerAccount : Option AccountIdBytes
  deriving DecidableEq

namespace ObservedImportRecord

def fromClaim (claim : ObservedImportClaim) (observedAtLocalBlockHeight : UInt32)
    (observerAccount : AccountIdBytes) : ObservedImportRecord where
  version := claim.version
  exportId := claim.exportId
  sourceDomain := claim.sourceDomain
  targetDomain := claim.targetDomain
  sourceEpochId := claim.sourceEpochId
  summaryHash := claim.summaryHash
  packageHash := claim.packageHash
  recipient := claim.recipient
  amount := claim.amount
  observedAtLocalBlockHeight := observedAtLocalBlockHeight
  observerAccount := observerAccount
  status := .remoteObserved
  finalizedAtLocalBlockHeight := none
  finalizerAccount := none

def finalizedLeaf (blake2 : Bytes → Hash32) (record : ObservedImportRecord) :
    Option FinalizedImportLeaf :=
  if record.status ≠ .remoteFinalized then none
  else some (FinalizedImportLeaf.fromHashInput blake2 {
    version := 1
    exportId := record.exportId
    sourceDomain := record.sourceDomain
    targetDomain := record.targetDomain
    recipient := record.recipient
    amount := record.amount
    sourceEpochId := record.sourceEpochId
    summaryHash := record.summaryHash
    packageHash := record.packageHash })

end ObservedImportRecord

abbrev ExportInclusionProof := LeafInclusionProof ExportLeaf
abbrev FinalizedImportInclusionProof := LeafInclusionProof FinalizedImportLeaf

def exportLeafOrdering (left right : ExportLeaf) : Ordering :=
  (compare left.sourceBlockHeight right.sourceBlockHeight).then
    ((compare left.extrinsicIndex right.extrinsicIndex).then
      (compareBytes left.exportId right.exportId))

def finalizedImportLeafOrdering (left right : FinalizedImportLeaf) : Ordering :=
  compareBytes left.exportId right.exportId

instance : Std.TransCmp exportLeafOrdering :=
  inferInstanceAs (Std.TransCmp
    (compareLex (compareOn fun leaf : ExportLeaf => leaf.sourceBlockHeight)
      (compareLex (compareOn fun leaf : ExportLeaf => leaf.extrinsicIndex)
        (compareOn fun leaf : ExportLeaf => leaf.exportId.toList))))

instance : Std.TransCmp finalizedImportLeafOrdering :=
  inferInstanceAs (Std.TransCmp (compareOn fun leaf : FinalizedImportLeaf => leaf.exportId.toList))

def exportFamily : LeafFamily ExportLeaf where
  labels := {
    nodeLabel := "IALP:export-merkle-node:v1"
    emptyLabel := "IALP:export-merkle-empty:v1" }
  proofVersion := 1
  leafHash := (·.exportHash)
  preimage := ExportLeaf.preimage
  ordering := exportLeafOrdering

def importFamily : LeafFamily FinalizedImportLeaf where
  labels := {
    nodeLabel := "IALP:import-merkle-node:v1"
    emptyLabel := "IALP:import-merkle-empty:v1" }
  proofVersion := 1
  leafHash := (·.importHash)
  preimage := FinalizedImportLeaf.preimage
  ordering := finalizedImportLeafOrdering

instance : Std.TransCmp exportFamily.ordering := inferInstanceAs (Std.TransCmp exportLeafOrdering)

instance : Std.TransCmp importFamily.ordering :=
  inferInstanceAs (Std.TransCmp finalizedImportLeafOrdering)

def sortExportLeaves (leaves : List ExportLeaf) : List ExportLeaf := exportFamily.sortLeaves leaves

def sortFinalizedImportLeaves (leaves : List FinalizedImportLeaf) : List FinalizedImportLeaf :=
  importFamily.sortLeaves leaves

section Commitments

variable (blake2 : Bytes → Hash32)

def exportMerkleRoot (domain : DomainId) (epoch : EpochId) (startHeight endHeight : UInt32)
    (leaves : List ExportLeaf) : Hash32 :=
  exportFamily.merkleRoot blake2 domain epoch startHeight endHeight leaves

def buildExportInclusionProof (leaves : List ExportLeaf) (id : ExportId) :
    Option ExportInclusionProof :=
  exportFamily.buildInclusionProof blake2 leaves (·.exportId = id)

def verifyExportInclusionProof (exportRoot : Hash32) (proof : ExportInclusionProof) : Bool :=
  exportFamily.verifyInclusionProof blake2 exportRoot proof

def importMerkleRoot (domain : DomainId) (epoch : EpochId) (startHeight endHeight : UInt32)
    (leaves : List FinalizedImportLeaf) : Hash32 :=
  importFamily.merkleRoot blake2 domain epoch startHeight endHeight leaves

def buildFinalizedImportInclusionProof (leaves : List FinalizedImportLeaf) (id : ExportId) :
    Option FinalizedImportInclusionProof :=
  importFamily.buildInclusionProof blake2 leaves (·.exportId = id)

def verifyFinalizedImportInclusionProof (importRoot : Hash32)
    (proof : FinalizedImportInclusionProof) : Bool :=
  importFamily.verifyInclusionProof blake2 importRoot proof

end Commitments

theorem ObservedImportRecord.finalizedLeaf_eq_some {blake2 : Bytes → Hash32}
    {record : ObservedImportRecord} {leaf : FinalizedImportLeaf}
    (finalized : record.finalizedLeaf blake2 = some leaf) :
    record.status = .remoteFinalized ∧ importFamily.Canonical blake2 leaf ∧
      leaf.exportId = record.exportId ∧
      leaf.sourceDomain = record.sourceDomain ∧ leaf.targetDomain = record.targetDomain ∧
      leaf.recipient = record.recipient ∧ leaf.amount = record.amount := by
  unfold finalizedLeaf at finalized
  split at finalized
  · cases finalized
  · rename_i status
    cases finalized
    exact ⟨not_not.mp status, rfl, rfl, rfl, rfl, rfl, rfl⟩

theorem ObservedImportRecord.finalizedLeaf_sourceEpochId {blake2 : Bytes → Hash32}
    {record : ObservedImportRecord} {leaf : FinalizedImportLeaf}
    (finalized : record.finalizedLeaf blake2 = some leaf) :
    leaf.sourceEpochId = record.sourceEpochId := by
  unfold finalizedLeaf at finalized
  split at finalized
  · cases finalized
  · cases finalized
    rfl

section Soundness

-- Leaf, node and empty-root preimages of both families have pairwise different lengths.

theorem exportFamily_node_length (a b : Hash32) :
    (exportFamily.labels.nodePreimage a b).length = 91 := by
  rw [TreeLabels.nodePreimage_length]
  decide

theorem exportFamily_empty_length (domain : DomainId) (epoch : EpochId)
    (startHeight endHeight : UInt32) :
    (exportFamily.labels.emptyPreimage domain epoch startHeight endHeight).length = 45 := by
  rw [TreeLabels.emptyPreimage_length]
  decide

theorem importFamily_node_length (a b : Hash32) :
    (importFamily.labels.nodePreimage a b).length = 91 := by
  rw [TreeLabels.nodePreimage_length]
  decide

theorem importFamily_empty_length (domain : DomainId) (epoch : EpochId)
    (startHeight endHeight : UInt32) :
    (importFamily.labels.emptyPreimage domain epoch startHeight endHeight).length = 45 := by
  rw [TreeLabels.emptyPreimage_length]
  decide

theorem exportFamily_apart : exportFamily.Apart :=
  LeafFamily.apart_of_lengths ExportLeaf.preimage_length exportFamily_node_length
    exportFamily_empty_length (by decide) (fun _ _ => ExportLeaf.eq_of_preimage_eq)

theorem importFamily_apart : importFamily.Apart :=
  LeafFamily.apart_of_lengths FinalizedImportLeaf.preimage_length importFamily_node_length
    importFamily_empty_length (by decide) (fun _ _ => FinalizedImportLeaf.eq_of_preimage_eq)

variable {blake2 : Bytes → Hash32} {domain : DomainId} {epoch : EpochId}
  {startHeight endHeight : UInt32}

theorem exportProof_sound {leaves : List ExportLeaf} {proof : ExportInclusionProof}
    (canonical : ∀ leaf ∈ leaves, exportFamily.Canonical blake2 leaf)
    (accepted : verifyExportInclusionProof blake2
      (exportMerkleRoot blake2 domain epoch startHeight endHeight leaves) proof = true) :
    proof.leaf ∈ leaves ∨
      Collides blake2 (exportFamily.rootPreimages blake2 domain epoch startHeight
        endHeight leaves ++
        exportFamily.replayPreimages blake2 proof) :=
  LeafFamily.verifyInclusionProof_sound exportFamily_apart canonical accepted

theorem finalizedImportProof_sound {leaves : List FinalizedImportLeaf}
    {proof : FinalizedImportInclusionProof}
    (canonical : ∀ leaf ∈ leaves, importFamily.Canonical blake2 leaf)
    (accepted : verifyFinalizedImportInclusionProof blake2
      (importMerkleRoot blake2 domain epoch startHeight endHeight leaves) proof = true) :
    proof.leaf ∈ leaves ∨
      Collides blake2 (importFamily.rootPreimages blake2 domain epoch startHeight
        endHeight leaves ++
        importFamily.replayPreimages blake2 proof) :=
  LeafFamily.verifyInclusionProof_sound importFamily_apart canonical accepted

end Soundness

/-- An accepted export or finalized-import proof is about a leaf of the committed list, whatever its
index, count and siblings, unless two of the strings hashed for the root and the proof collide. -/
theorem transfer_inclusion_sound (blake2 : Bytes → Hash32) (domain : DomainId) (epoch : EpochId)
    (startHeight endHeight : UInt32) :
    (∀ (leaves : List ExportLeaf) (proof : ExportInclusionProof),
      (∀ leaf ∈ leaves, leaf.exportHash = leaf.computeExportHash blake2) →
      verifyExportInclusionProof blake2
        (exportMerkleRoot blake2 domain epoch startHeight endHeight leaves) proof = true →
      proof.leaf ∈ leaves ∨
        Collides blake2 (exportFamily.rootPreimages blake2 domain epoch startHeight
          endHeight leaves ++
          exportFamily.replayPreimages blake2 proof)) ∧
    (∀ (leaves : List FinalizedImportLeaf) (proof : FinalizedImportInclusionProof),
      (∀ leaf ∈ leaves, leaf.importHash = leaf.computeImportHash blake2) →
      verifyFinalizedImportInclusionProof blake2
        (importMerkleRoot blake2 domain epoch startHeight endHeight leaves) proof = true →
      proof.leaf ∈ leaves ∨
        Collides blake2 (importFamily.rootPreimages blake2 domain epoch startHeight
          endHeight leaves ++
          importFamily.replayPreimages blake2 proof)) := by
  constructor
  · intro leaves proof canonical accepted
    exact exportProof_sound canonical accepted
  · intro leaves proof canonical accepted
    exact finalizedImportProof_sound canonical accepted

def sampleExportLeaf (sequence : UInt64) : ExportLeaf :=
  ExportLeaf.fromHashInput sampleHash {
    version := 1, exportId := exportId sampleHash .earth sequence, sourceDomain := .earth
    targetDomain := .moon, sender := emptyHash, recipient := emptyHash, amount := 5
    sourceEpochId := 0, sourceBlockHeight := 1, extrinsicIndex := 1 }

def sampleFinalizedImportLeaf (sequence : UInt64) : FinalizedImportLeaf :=
  FinalizedImportLeaf.fromHashInput sampleHash {
    version := 1, exportId := exportId sampleHash .earth sequence, sourceDomain := .earth
    targetDomain := .moon, recipient := emptyHash, amount := 5, sourceEpochId := 0
    summaryHash := emptyHash, packageHash := emptyHash }

/-- Both parts at a list of three leaves, with the proof built for the last of them: its position is
the duplicated edge of the tree. -/
theorem transfer_inclusion_sound_sample :
    (∃ proof, buildExportInclusionProof sampleHash [sampleExportLeaf 0, sampleExportLeaf 1,
      sampleExportLeaf 2]
        (exportId sampleHash .earth 2) = some proof ∧
      (proof.leaf ∈ [sampleExportLeaf 0, sampleExportLeaf 1, sampleExportLeaf 2] ∨
        Collides sampleHash (exportFamily.rootPreimages sampleHash .earth 0 1 2
          [sampleExportLeaf 0, sampleExportLeaf 1, sampleExportLeaf 2] ++
          exportFamily.replayPreimages sampleHash proof))) ∧
    (∃ proof, buildFinalizedImportInclusionProof sampleHash
        [sampleFinalizedImportLeaf 0, sampleFinalizedImportLeaf 1]
        (exportId sampleHash .earth 1) = some proof ∧
      (proof.leaf ∈ [sampleFinalizedImportLeaf 0, sampleFinalizedImportLeaf 1] ∨
        Collides sampleHash (importFamily.rootPreimages sampleHash .moon 0 1 2
          [sampleFinalizedImportLeaf 0, sampleFinalizedImportLeaf 1] ++
          importFamily.replayPreimages sampleHash proof))) := by
  constructor
  · obtain ⟨proof, built⟩ : ∃ proof, buildExportInclusionProof sampleHash
        [sampleExportLeaf 0, sampleExportLeaf 1, sampleExportLeaf 2]
        (exportId sampleHash .earth 2) =
        some proof ∧ verifyExportInclusionProof sampleHash (exportMerkleRoot sampleHash .earth 0 1 2
          [sampleExportLeaf 0, sampleExportLeaf 1, sampleExportLeaf 2]) proof = true := by
      refine ⟨(buildExportInclusionProof sampleHash
        [sampleExportLeaf 0, sampleExportLeaf 1, sampleExportLeaf 2]
        (exportId sampleHash .earth 2)).get (by decide +kernel), by simp, by decide +kernel⟩
    exact ⟨proof, built.1, (transfer_inclusion_sound sampleHash .earth 0 1 2).1 _ proof
      (by decide +kernel) built.2⟩
  · obtain ⟨proof, built⟩ : ∃ proof, buildFinalizedImportInclusionProof sampleHash
        [sampleFinalizedImportLeaf 0, sampleFinalizedImportLeaf 1] (exportId sampleHash .earth 1) =
        some proof ∧ verifyFinalizedImportInclusionProof sampleHash
          (importMerkleRoot sampleHash .moon 0 1 2
          [sampleFinalizedImportLeaf 0, sampleFinalizedImportLeaf 1]) proof = true := by
      refine ⟨(buildFinalizedImportInclusionProof sampleHash
        [sampleFinalizedImportLeaf 0, sampleFinalizedImportLeaf 1]
        (exportId sampleHash .earth 1)).get (by decide +kernel), by simp, by decide +kernel⟩
    exact ⟨proof, built.1, (transfer_inclusion_sound sampleHash .moon 0 1 2).2 _ proof
      (by decide +kernel) built.2⟩

end Ialp
