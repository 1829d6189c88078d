import Ialp.Types.Governance

/-!
What an accepted governance proof says. Leaf preimages carry no tag for their kind, so that proposal
leaves, acknowledgement leaves and interior nodes are told apart byte by byte; one pair cannot be.
-/

namespace Ialp

open Scale Hashing

namespace GovernanceLeaf

/-- The leaves a governance pallet commits: version one, and the target list it canonicalised. -/
structure Committed (blake2 : Bytes → Hash32) (leaf : GovernanceLeaf) : Prop where
  hashed : leaf.leafHash = leaf.computeLeafHash blake2
  versionOne : leaf.version = 1
  targeted : leaf.targetDomains ≠ []
  distinct : leaf.targetDomains.Nodup

theorem Committed.targetDomains_length {blake2 : Bytes → Hash32} {leaf : GovernanceLeaf}
    (committed : leaf.Committed blake2) :
    0 < leaf.targetDomains.length ∧ leaf.targetDomains.length ≤ 3 :=
  ⟨List.length_pos_iff.mpr committed.targeted, committed.distinct.length_le_card⟩

theorem proposal_preimage_length (leaf : GovernanceProposalLeaf) :
    145 ≤ (proposalV1 leaf).preimage.length := by
  have positive := compact_length_pos leaf.targetDomains.length
  rw [preimage, GovernanceProposalLeafHashInput.encode_length]
  simp only [GovernanceProposalLeaf.hashInput]
  omega

/-- An acknowledgement has a domain byte where a proposal with a short target list has its
length. -/
theorem ack_preimage_ne_proposal (ack : GovernanceAckLeaf) (proposal : GovernanceProposalLeaf)
    (targeted : 0 < proposal.targetDomains.length) (short : proposal.targetDomains.length ≤ 3) :
    (ackV1 ack).preimage ≠ (proposalV1 proposal).preimage := by
  intro same
  obtain ⟨_, same⟩ := encode_fixed_append same
  obtain ⟨_, same⟩ := encode_fixed_append same
  obtain ⟨_, same⟩ := encode_fixed_append same
  obtain ⟨_, same⟩ := encode_fixed_append same
  have heads := congrArg List.head? same
  change some ack.acknowledgingDomain.index =
    (compact proposal.targetDomains.length ++ _ ++ _).head? at heads
  obtain count | count | count :
      proposal.targetDomains.length = 1 ∨ proposal.targetDomains.length = 2 ∨
      proposal.targetDomains.length = 3 := by omega
  all_goals
    rw [count] at heads
    revert heads
    cases ack.acknowledgingDomain <;> simp [DomainId.index, compact]

theorem proposal_eq_of_preimage_eq {blake2 : Bytes → Hash32} {leaf other : GovernanceProposalLeaf}
    (hashed : leaf.leafHash = leaf.computeLeafHash blake2)
    (hashed' : other.leafHash = other.computeLeafHash blake2)
    (same : (proposalV1 leaf).preimage = (proposalV1 other).preimage) : leaf = other := by
  have input := GovernanceProposalLeafHashInput.encode_input_injective same
  cases leaf
  cases other
  simp_all [GovernanceProposalLeaf.computeLeafHash, GovernanceProposalLeaf.hashInput]

theorem ack_eq_of_preimage_eq {blake2 : Bytes → Hash32} {leaf other : GovernanceAckLeaf}
    (hashed : leaf.leafHash = leaf.computeLeafHash blake2)
    (hashed' : other.leafHash = other.computeLeafHash blake2)
    (same : (ackV1 leaf).preimage = (ackV1 other).preimage) : leaf = other := by
  have input := GovernanceAckLeafHashInput.encode_input_injective same
  cases leaf
  cases other
  simp_all [GovernanceAckLeaf.computeLeafHash, GovernanceAckLeaf.hashInput]

theorem eq_of_preimage_eq {blake2 : Bytes → Hash32} {leaf other : GovernanceLeaf}
    (committed : leaf.Committed blake2) (hashed : other.leafHash = other.computeLeafHash blake2)
    (same : leaf.preimage = other.preimage) : leaf = other := by
  have size := committed.targetDomains_length
  cases leaf with
  | proposalV1 leaf =>
      cases other with
      | proposalV1 other => rw [proposal_eq_of_preimage_eq committed.hashed hashed same]
      | ackV1 other => exact absurd same.symm (ack_preimage_ne_proposal other leaf size.1 size.2)
  | ackV1 leaf =>
      cases other with
      | proposalV1 other =>
          have long := proposal_preimage_length other
          rw [← same, preimage, GovernanceAckLeafHashInput.encode_length] at long
          have narrow := compact_length_mono size.2
          rw [show (compact 3).length = 1 by decide] at narrow
          simp only [targetDomains, GovernanceAckLeaf.hashInput] at long narrow size
          omega
      | ackV1 other => rw [ack_eq_of_preimage_eq committed.hashed hashed same]

def Short : GovernanceLeaf → Prop
  | proposalV1 leaf => 0 < leaf.targetDomains.length ∧ leaf.targetDomains.length ≤ 3
  | ackV1 _ => True

theorem eq_of_preimage_eq_of_short {blake2 : Bytes → Hash32} {leaf other : GovernanceLeaf}
    (short : leaf.Short) (short' : other.Short)
    (hashed : leaf.leafHash = leaf.computeLeafHash blake2)
    (hashed' : other.leafHash = other.computeLeafHash blake2)
    (same : leaf.preimage = other.preimage) : leaf = other := by
  cases leaf with
  | proposalV1 leaf =>
      cases other with
      | proposalV1 other => rw [proposal_eq_of_preimage_eq hashed hashed' same]
      | ackV1 other => exact absurd same.symm (ack_preimage_ne_proposal other leaf short.1 short.2)
  | ackV1 leaf =>
      cases other with
      | proposalV1 other =>
          exact absurd same (ack_preimage_ne_proposal leaf other short'.1 short'.2)
      | ackV1 other => rw [ack_eq_of_preimage_eq hashed hashed' same]

end GovernanceLeaf

section Separation

theorem governanceFamily_node_length (a b : Hash32) :
    (governanceFamily.labels.nodePreimage a b).length = 95 := by
  rw [TreeLabels.nodePreimage_length]
  decide

theorem governanceFamily_empty_length (domain : DomainId) (epoch : EpochId)
    (startHeight endHeight : UInt32) :
    (governanceFamily.labels.emptyPreimage domain epoch startHeight endHeight).length = 49 := by
  rw [TreeLabels.emptyPreimage_length]
  decide

theorem governanceFamily_node_ne_empty (a b : Hash32) (domain : DomainId) (epoch : EpochId)
    (startHeight endHeight : UInt32) :
    governanceFamily.labels.nodePreimage a b ≠
      governanceFamily.labels.emptyPreimage domain epoch startHeight endHeight := by
  intro same
  have length := congrArg List.length same
  rw [governanceFamily_node_length, governanceFamily_empty_length] at length
  omega

theorem committed_preimage_ne_node {blake2 : Bytes → Hash32} {leaf : GovernanceLeaf}
    (committed : leaf.Committed blake2) (a b : Hash32) :
    leaf.preimage ≠ governanceFamily.labels.nodePreimage a b := by
  intro same
  have length := congrArg List.length same
  rw [governanceFamily_node_length] at length
  have size := committed.targetDomains_length
  cases leaf with
  | proposalV1 leaf =>
      have long := GovernanceLeaf.proposal_preimage_length leaf
      omega
  | ackV1 leaf =>
      rw [GovernanceLeaf.preimage, GovernanceAckLeafHashInput.encode_length] at length
      have narrow := compact_length_mono size.2
      rw [show (compact 3).length = 1 by decide] at narrow
      simp only [GovernanceLeaf.targetDomains, GovernanceAckLeaf.hashInput] at length narrow size
      omega

theorem preimage_ne_empty (leaf : GovernanceLeaf) (domain : DomainId) (epoch : EpochId)
    (startHeight endHeight : UInt32) :
    leaf.preimage ≠ governanceFamily.labels.emptyPreimage domain epoch startHeight endHeight := by
  intro same
  have length := congrArg List.length same
  rw [governanceFamily_empty_length] at length
  cases leaf with
  | proposalV1 leaf =>
      have long := GovernanceLeaf.proposal_preimage_length leaf
      omega
  | ackV1 leaf =>
      rw [GovernanceLeaf.preimage, GovernanceAckLeafHashInput.encode_length] at length
      omega

/-- Only one kind of leaf can be read out of an interior node: an acknowledgement whose version is
the node label's first two bytes and which lists five targets. -/
theorem ack_of_preimage_eq_node {leaf : GovernanceLeaf} {a b : Hash32}
    (same : leaf.preimage = governanceFamily.labels.nodePreimage a b) :
    ∃ ack, leaf = .ackV1 ack ∧ ack.version = 0x4978 ∧ ack.targetDomains.length = 5 := by
  have length := congrArg List.length same
  rw [governanceFamily_node_length] at length
  cases leaf with
  | proposalV1 leaf =>
      have long := GovernanceLeaf.proposal_preimage_length leaf
      omega
  | ackV1 leaf =>
      refine ⟨leaf, rfl, ?_, ?_⟩
      · have heads := congrArg (List.take 2) same
        change leBytes 2 leaf.version.toNat = leBytes 2 0x4978 at heads
        exact UInt16.toNat_inj.mp (leBytes_injective 2 leaf.version.toNat_lt (by decide) heads)
      · rw [GovernanceLeaf.preimage, GovernanceAckLeafHashInput.encode_length] at length
        simp only [GovernanceAckLeaf.hashInput] at length
        have sum : (compact leaf.targetDomains.length).length + leaf.targetDomains.length = 6 := by
          omega
        have positive := compact_length_pos leaf.targetDomains.length
        have narrow := compact_length_mono (show leaf.targetDomains.length ≤ 5 by omega)
        rw [show (compact 5).length = 1 by decide] at narrow
        omega

end Separation

/-- What an accepted governance proof states: a committed leaf, or two of the strings hashed for the
root and the proof collide, or the proof's leaf is an acknowledgement of version `0x4978` with five
target domains whose preimage is an interior node of the committed tree. -/
theorem governance_inclusion_sound (blake2 : Bytes → Hash32) (domain : DomainId) (epoch : EpochId)
    (startHeight endHeight : UInt32) (leaves : List GovernanceLeaf)
    (proof : GovernanceInclusionProof) (committed : ∀ leaf ∈ leaves, leaf.Committed blake2)
    (accepted : verifyGovernanceInclusionProof blake2
      (governanceMerkleRoot blake2 domain epoch startHeight endHeight leaves) proof = true) :
    proof.leaf ∈ leaves ∨
      Collides blake2 (governanceFamily.rootPreimages blake2 domain epoch startHeight
        endHeight leaves ++
        governanceFamily.replayPreimages blake2 proof) ∨
      ∃ ack, proof.leaf = .ackV1 ack ∧ ack.version = 0x4978 ∧ ack.targetDomains.length = 5 ∧
        proof.leaf.preimage ∈ governanceFamily.nodePreimages blake2 leaves := by
  have canonical : ∀ leaf ∈ leaves, governanceFamily.Canonical blake2 leaf := by
    intro leaf member
    exact GovernanceLeaf.canonical_iff.mpr (committed leaf member).hashed
  rcases LeafFamily.verifyInclusionProof_cases canonical
    (fun leaf member => committed_preimage_ne_node (committed leaf member))
    (preimage_ne_empty proof.leaf domain epoch startHeight endHeight)
    (fun a b => governanceFamily_node_ne_empty a b domain epoch startHeight endHeight) accepted
    with ⟨leaf, member, same⟩ | interior | collides
  · left
    have hashed := GovernanceLeaf.canonical_iff.mp (LeafFamily.canonical_of_verify accepted)
    exact GovernanceLeaf.eq_of_preimage_eq (committed leaf member) hashed same ▸ member
  · obtain ⟨a, b, shape⟩ := Merkle.treeStrings_eq_node interior
    obtain ⟨ack, kind, version, targets⟩ := ack_of_preimage_eq_node shape
    exact .inr (.inr ⟨ack, kind, version, targets, interior⟩)
  · exact .inr (.inl collides)

def sampleProposalLeaf (blake2 : Bytes → Hash32) (targetDomain : DomainId) : GovernanceLeaf :=
  .proposalV1 (GovernanceProposalLeaf.fromHashInput blake2 {
    version := 1, proposalId := emptyHash, sourceDomain := .earth, targetDomain
    targetDomains := [.moon, .mars], proposer := emptyHash, payloadHash := emptyHash
    newProtocolVersion := 2, createdEpoch := 0, votingStartEpoch := 0, votingEndEpoch := 1
    approvalEpoch := 1, activationEpoch := 5 })

theorem sampleProposalLeaf_committed (blake2 : Bytes → Hash32) (targetDomain : DomainId) :
    (sampleProposalLeaf blake2 targetDomain).Committed blake2 :=
  ⟨rfl, rfl, by simp [sampleProposalLeaf, GovernanceLeaf.targetDomains,
    GovernanceProposalLeaf.fromHashInput], by simp [sampleProposalLeaf,
    GovernanceLeaf.targetDomains, GovernanceProposalLeaf.fromHashInput]⟩

def sampleGovernanceProof : GovernanceInclusionProof where
  version := 1
  leaf := sampleProposalLeaf sampleHash .mars
  leafIndex := 1
  leafCount := 2
  siblings := [(sampleProposalLeaf sampleHash .moon).leafHash]

theorem governance_inclusion_sound_sample :
    let leaves := [sampleProposalLeaf sampleHash .moon, sampleProposalLeaf sampleHash .mars]
    verifyGovernanceInclusionProof sampleHash (governanceMerkleRoot sampleHash .earth 1 1 2 leaves)
        sampleGovernanceProof = true ∧
      (sampleGovernanceProof.leaf ∈ leaves ∨
        Collides sampleHash (governanceFamily.rootPreimages sampleHash .earth 1 1 2 leaves ++
          governanceFamily.replayPreimages sampleHash sampleGovernanceProof) ∨
        ∃ ack, sampleGovernanceProof.leaf = .ackV1 ack ∧ ack.version = 0x4978 ∧
          ack.targetDomains.length = 5 ∧
          sampleGovernanceProof.leaf.preimage ∈
            governanceFamily.nodePreimages sampleHash leaves) := by
  intro leaves
  have accepted : verifyGovernanceInclusionProof sampleHash
      (governanceMerkleRoot sampleHash .earth 1 1 2 leaves) sampleGovernanceProof = true := by
    decide +kernel
  refine ⟨accepted, governance_inclusion_sound sampleHash .earth 1 1 2 leaves
    sampleGovernanceProof ?_ accepted⟩
  intro leaf member
  simp only [leaves, List.mem_cons, List.not_mem_nil, or_false] at member
  rcases member with rfl | rfl
  · exact sampleProposalLeaf_committed _ _
  · exact sampleProposalLeaf_committed _ _

section Confusion

-- A hash for which an interior node reads as an acknowledgement: bytes 3 to 11 are the three
-- domains, the compact length five and five targets; the length and one byte of the input keep it
-- injective here.
def confusingHash (bytes : Bytes) : Hash32 :=
  ⟨[0, 0, 0, 0, 0, 0, 20, 0, 0, 0, 0, 0, UInt8.ofNat bytes.length, bytes.getD 35 0] ++
    List.replicate 18 0, by simp⟩

def confusedLeaves : List GovernanceLeaf :=
  [sampleProposalLeaf confusingHash .moon, sampleProposalLeaf confusingHash .mars]

/-- The acknowledgement read out of the root node over `confusedLeaves`. -/
def confusedAckLeaf : GovernanceLeaf :=
  .ackV1 (GovernanceAckLeaf.fromHashInput confusingHash {
    version := 0x4978
    proposalId := ⟨"ALP:governance-merkle-node:v1".toUTF8.data.toList ++ [0, 0, 0], by decide⟩
    sourceDomain := .earth, targetDomain := .earth, acknowledgingDomain := .earth
    targetDomains := List.replicate 5 .earth
    payloadHash := ⟨[147, 1] ++ List.replicate 24 0 ++ [20] ++ List.replicate 5 0, by decide⟩
    newProtocolVersion := 0x293, activationEpoch := 0, acknowledgedEpoch := 0 })

def confusedProof : GovernanceInclusionProof where
  version := 1
  leaf := confusedAckLeaf
  leafIndex := 0
  leafCount := 1
  siblings := []

/-- The exception is real: over two committed leaves and without a collision, a proof of a leaf that
was never committed is accepted. -/
theorem governance_inclusion_confused :
    (∀ leaf ∈ confusedLeaves, leaf.Committed confusingHash) ∧
      verifyGovernanceInclusionProof confusingHash
        (governanceMerkleRoot confusingHash .earth 1 1 2 confusedLeaves) confusedProof = true ∧
      confusedProof.leaf ∉ confusedLeaves ∧
      ¬ Collides confusingHash
        (governanceFamily.rootPreimages confusingHash .earth 1 1 2 confusedLeaves ++
        governanceFamily.replayPreimages confusingHash confusedProof) := by
  refine ⟨?_, by decide +kernel, by decide +kernel, by decide +kernel⟩
  intro leaf member
  simp only [confusedLeaves, List.mem_cons, List.not_mem_nil, or_false] at member
  rcases member with rfl | rfl
  · exact sampleProposalLeaf_committed _ _
  · exact sampleProposalLeaf_committed _ _

end Confusion

end Ialp
