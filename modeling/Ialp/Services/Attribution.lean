import Ialp.Services.Packaging

/-!
Who speaks in a package. The importer checks of every leaf but an acknowledgement that the domain of
the header states it; an acknowledgement names its domain itself, and nothing compares that name
with the header.
-/

namespace Ialp.Services

open Scale

section Attribution

structure Attributed (header : EpochSummaryHeader) (domain : DomainId)
    (items : VerifiedPackageItems) : Prop where
  exports : ∀ proof ∈ items.exportProofs, proof.leaf.sourceDomain = header.domainId ∧
    proof.leaf.sourceEpochId = header.epochId ∧ proof.leaf.targetDomain = domain
  imports : ∀ proof ∈ items.finalizedImportProofs, proof.leaf.targetDomain = header.domainId ∧
    proof.leaf.sourceDomain = domain
  proposals : ∀ proof ∈ items.governanceProofs, ∀ leaf, proof.leaf = .proposalV1 leaf →
    leaf.sourceDomain = header.domainId ∧ leaf.approvalEpoch = header.epochId ∧
      leaf.targetDomain = domain
  acks : ∀ proof ∈ items.governanceProofs, ∀ leaf, proof.leaf = .ackV1 leaf →
    leaf.acknowledgingDomain = header.domainId ∧ leaf.acknowledgedEpoch = header.epochId ∧
      leaf.targetDomain = domain

/-- Every acknowledgement that the proofs after the first decode to is made in the name of the
header's domain. -/
def AcksOwn (codec : PackageCodec) (package : CertifiedSummaryPackage) : Prop :=
  ∀ encoded ∈ package.inclusionProofs.drop 1, ∀ proof leaf,
    codec.proof.decode encoded = .ok (.governanceV1 proof) → proof.leaf = .ackV1 leaf →
      leaf.acknowledgingDomain = package.header.domainId

section Flow

variable {blake2 : Bytes → Hash32} {codec : PackageCodec} {package : CertifiedSummaryPackage}
  {domain : DomainId} {items : VerifiedPackageItems}

theorem mem_governanceProofs (ok : verifyPackageFlow blake2 codec package domain = .ok items)
    (proof : GovernanceInclusionProof) :
    proof ∈ items.governanceProofs ↔
      ∃ encoded ∈ package.inclusionProofs.drop 1,
        codec.proof.decode encoded = .ok (.governanceV1 proof) := by
  simp only [verifyPackageFlow, bind_eq_ok] at ok
  obtain ⟨_, _, _, _, _, _, governance, ballots, returned⟩ := ok
  cases returned
  simp only [mem_collectProofs ballots, selectGovernance_eq_some, exists_eq_right]

theorem attributed_iff_acks (checked : Checked blake2 package domain items) :
    Attributed package.header domain items ↔
      ∀ proof ∈ items.governanceProofs, ∀ leaf, proof.leaf = .ackV1 leaf →
        leaf.acknowledgingDomain = package.header.domainId := by
  constructor
  · intro attributed proof member leaf kind
    exact (attributed.acks proof member leaf kind).1
  · intro own
    constructor
    · intro proof member
      obtain ⟨_, source, target, _⟩ := checkExportProof_eq_ok.mp (checked.exports proof member)
      exact ⟨source.1, source.2, target⟩
    · intro proof member
      obtain ⟨_, target, source, _⟩ :=
        checkFinalizedImportProof_eq_ok.mp (checked.imports proof member)
      exact ⟨target, source⟩
    · intro proof member leaf kind
      obtain ⟨_, _, target, epoch, source⟩ :=
        checkGovernanceProof_eq_ok.mp (checked.governance proof member)
      rw [kind] at target epoch
      exact ⟨source leaf kind, epoch, target⟩
    · intro proof member leaf kind
      obtain ⟨_, _, target, epoch, _⟩ :=
        checkGovernanceProof_eq_ok.mp (checked.governance proof member)
      rw [kind] at target epoch
      exact ⟨own proof member leaf kind, epoch, target⟩

end Flow

/-- What `verify_package_flow` accepts is attributable to the header's domain exactly if the
acknowledgements in the package are made in its name. -/
theorem accepted_items_attributed (blake2 : Bytes → Hash32) (codec : PackageCodec)
    (package : CertifiedSummaryPackage) (domain : DomainId) (items : VerifiedPackageItems)
    (ok : verifyPackageFlow blake2 codec package domain = .ok items) :
    Attributed package.header domain items ↔ AcksOwn codec package := by
  rw [attributed_iff_acks (verifyPackageFlow_checked ok)]
  constructor
  · intro own encoded member proof leaf decoded kind
    exact own proof ((mem_governanceProofs ok proof).mpr ⟨encoded, member, decoded⟩) leaf kind
  · intro own proof member leaf kind
    obtain ⟨encoded, here, decoded⟩ := (mem_governanceProofs ok proof).mp member
    exact own encoded here proof leaf decoded kind

end Attribution

section Sample

def sampleAck (acknowledging : DomainId) : GovernanceAckLeaf :=
  GovernanceAckLeaf.fromHashInput sampleHash {
    version := 1, proposalId := emptyHash, sourceDomain := .earth, targetDomain := .earth
    acknowledgingDomain := acknowledging, targetDomains := [.moon, .mars], payloadHash := emptyHash
    newProtocolVersion := 2, activationEpoch := 9, acknowledgedEpoch := 3 }

def sampleAckItems (acknowledging : DomainId) : VerifiedPackageItems where
  exportProofs := []
  finalizedImportProofs := []
  governanceProofs := [
    { version := 1, leaf := .ackV1 (sampleAck acknowledging)
      leafIndex := 0, leafCount := 1, siblings := [] }]

def sampleAckHeader (acknowledging : DomainId) : EpochSummaryHeader :=
  EpochSummaryHeader.fromHashInput sampleHash {
    version := 1, domainId := .moon, epochId := 3, prevSummaryHash := emptyHash, startBlockHeight :=
      10
    endBlockHeight := 12, stateRoot := emptyHash, blockRoot := emptyHash, txRoot := emptyHash
    eventRoot := emptyHash, exportRoot := emptyHash, importRoot := emptyHash
    governanceRoot := governanceMerkleRoot sampleHash .moon 3 10 12
      [.ackV1 (sampleAck acknowledging)]
    validatorSetHash := emptyHash }

noncomputable def sampleAckPackage (acknowledging : DomainId) : CertifiedSummaryPackage :=
  packageOf sampleHash sampleCodec (sampleAckHeader acknowledging) sampleBundle
    (sampleAckItems acknowledging)

theorem sampleAckItems_checked (codec : PackageCodec) (acknowledging : DomainId) :
    Checked sampleHash (packageOf sampleHash codec (sampleAckHeader acknowledging) sampleBundle
      (sampleAckItems acknowledging)) .earth (sampleAckItems acknowledging) := by
  constructor
  · simp [sampleAckItems]
  · simp [sampleAckItems]
  · intro proof member
    obtain rfl := List.mem_singleton.mp member
    refine checkGovernanceProof_eq_ok.mpr ⟨?_, rfl, rfl, rfl, fun _ kind => nomatch kind⟩
    change verifyGovernanceInclusionProof sampleHash (sampleAckHeader acknowledging).governanceRoot
      _ = true
    cases acknowledging <;> decide +kernel

theorem sampleAckItems_nonempty (acknowledging : DomainId) :
    (sampleAckItems acknowledging).proofs ≠ [] := by
  simp [VerifiedPackageItems.proofs, sampleAckItems]

theorem sampleAckPackage_accepted (acknowledging : DomainId) :
    verifyPackageFlow sampleHash sampleCodec (sampleAckPackage acknowledging) .earth =
      .ok (sampleAckItems acknowledging) :=
  verifyPackageFlow_accepts (packageOf_inclusionProofs _ _ _ _ _)
    (sampleAckItems_nonempty acknowledging) (sampleAckItems_checked sampleCodec acknowledging)

theorem sampleAckPackage_acksOwn : AcksOwn sampleCodec (sampleAckPackage .moon) := by
  intro encoded member proof leaf decoded kind
  have returned : proof ∈ (sampleAckItems .moon).governanceProofs :=
    (mem_governanceProofs (sampleAckPackage_accepted .moon) proof).mpr ⟨encoded, member, decoded⟩
  obtain rfl := List.mem_singleton.mp returned
  cases kind
  rfl

theorem accepted_items_attributed_sample :
    verifyPackageFlow sampleHash sampleCodec (sampleAckPackage .moon) .earth =
      .ok (sampleAckItems .moon) ∧
      AcksOwn sampleCodec (sampleAckPackage .moon) ∧
      Attributed (sampleAckHeader .moon) .earth (sampleAckItems .moon) :=
  ⟨sampleAckPackage_accepted .moon, sampleAckPackage_acksOwn,
    (accepted_items_attributed sampleHash sampleCodec (sampleAckPackage .moon) .earth
      (sampleAckItems .moon) (sampleAckPackage_accepted .moon)).mpr sampleAckPackage_acksOwn⟩

/-- A package of Moon with an acknowledgement in the name of Mars is accepted. -/
theorem foreign_ack_accepted :
    verifyPackageFlow sampleHash sampleCodec (sampleAckPackage .mars) .earth =
      .ok (sampleAckItems .mars) ∧
      (sampleAckPackage .mars).header.domainId = .moon ∧
      ∃ proof ∈ (sampleAckItems .mars).governanceProofs, ∃ leaf, proof.leaf = .ackV1 leaf ∧
        leaf.acknowledgingDomain = .mars :=
  ⟨sampleAckPackage_accepted .mars, rfl, _, List.mem_singleton.mpr rfl, _, rfl, rfl⟩

end Sample

end Ialp.Services
