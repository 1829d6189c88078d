import Ialp.Types.Inclusion

namespace Ialp

open Scale Hashing

inductive GovernancePayload where
  | setProtocolVersion (newVersion : UInt32)
  deriving DecidableEq, Repr

namespace GovernancePayload

instance : Encode GovernancePayload where
  encode
    | setProtocolVersion newVersion => encode ((0 : UInt8), newVersion)

def payloadHash (blake2 : Bytes → Hash32) (payload : GovernancePayload) : Hash32 :=
  blake2 (encode ((1 : UInt16), payload))

def protocolVersion : GovernancePayload → UInt32
  | setProtocolVersion newVersion => newVersion

end GovernancePayload

inductive GovernanceVoteChoice where
  | yes
  | no
  | abstain
  deriving DecidableEq, Repr

inductive GovernanceProposalStatus where
  | created
  | voting
  | rejected
  | locallyFinalized
  | scheduled
  | activated
  deriving DecidableEq, Repr

structure GovernanceVote where
  version : UInt16
  proposalId : GovernanceProposalId
  voter : AccountIdBytes
  choice : GovernanceVoteChoice
  votingPower : U128
  castEpoch : EpochId
  castBlockHeight : UInt32
  deriving DecidableEq

structure GovernanceProposal where
  version : UInt16
  proposalId : GovernanceProposalId
  sourceDomain : DomainId
  targetDomains : List DomainId
  proposer : AccountIdBytes
  payload : GovernancePayload
  payloadHash : Hash32
  createdEpoch : EpochId
  votingStartEpoch : EpochId
  votingEndEpoch : EpochId
  approvalEpoch : Option EpochId
  activationEpoch : EpochId
  snapshotTotalVotingPower : U128
  quorumNumerator : UInt32
  quorumDenominator : UInt32
  yesVotingPower : U128
  noVotingPower : U128
  abstainVotingPower : U128
  status : GovernanceProposalStatus
  deriving DecidableEq

structure GovernanceAckRecord where
  version : UInt16
  proposalId : GovernanceProposalId
  sourceDomain : DomainId
  acknowledgingDomain : DomainId
  targetDomains : List DomainId
  activationEpoch : EpochId
  payloadHash : Hash32
  newProtocolVersion : UInt32
  acknowledgedEpoch : EpochId
  acknowledgedAtLocalBlockHeight : UInt32
  deriving DecidableEq

structure GovernanceActivationRecord where
  version : UInt16
  proposalId : GovernanceProposalId
  sourceDomain : DomainId
  targetDomains : List DomainId
  payloadHash : Hash32
  newProtocolVersion : UInt32
  activationEpoch : EpochId
  knownAckDomains : List DomainId
  scheduledAtEpoch : Option EpochId
  activatedAtEpoch : Option EpochId
  activatedAtLocalBlockHeight : Option UInt32
  status : GovernanceProposalStatus
  deriving DecidableEq

structure GovernanceProposalLeafHashInput where
  version : UInt16
  proposalId : GovernanceProposalId
  sourceDomain : DomainId
  targetDomain : DomainId
  targetDomains : List DomainId
  proposer : AccountIdBytes
  payloadHash : Hash32
  newProtocolVersion : UInt32
  createdEpoch : EpochId
  votingStartEpoch : EpochId
  votingEndEpoch : EpochId
  approvalEpoch : EpochId
  activationEpoch : EpochId
  deriving DecidableEq

namespace GovernanceProposalLeafHashInput

instance : Encode GovernanceProposalLeafHashInput where
  encode input := encode (input.version, input.proposalId, input.sourceDomain, input.targetDomain,
    input.targetDomains, input.proposer, input.payloadHash, input.newProtocolVersion,
    input.createdEpoch,
    input.votingStartEpoch, input.votingEndEpoch, input.approvalEpoch, input.activationEpoch)

def leafHash (blake2 : Bytes → Hash32) (input : GovernanceProposalLeafHashInput) : Hash32 :=
  blake2 (encode input)

theorem encode_length (input : GovernanceProposalLeafHashInput) :
    (encode input).length = 144 + (compact input.targetDomains.length).length +
      input.targetDomains.length := by
  change (encode input.version ++ (encode input.proposalId ++ (encode input.sourceDomain ++
    (encode input.targetDomain ++
      (encode input.targetDomains ++ encode (input.proposer, input.payloadHash,
        input.newProtocolVersion, input.createdEpoch, input.votingStartEpoch, input.votingEndEpoch,
      input.approvalEpoch, input.activationEpoch)))))).length = _
  simp only [List.length_append, encode_list_length, length_encode, width]
  omega

theorem encode_input_injective :
    Function.Injective (encode : GovernanceProposalLeafHashInput → Bytes) := by
  intro a b same
  obtain ⟨version, same⟩ := encode_fixed_append same
  obtain ⟨proposalId, same⟩ := encode_fixed_append same
  obtain ⟨sourceDomain, same⟩ := encode_fixed_append same
  obtain ⟨targetDomain, same⟩ := encode_fixed_append same
  obtain ⟨targetDomains, same⟩ := encode_list_append (by decide) same
    ((length_encode _).trans (length_encode _).symm)
  have rest := encode_injective same
  cases a
  cases b
  simp_all

end GovernanceProposalLeafHashInput

structure GovernanceProposalLeaf extends GovernanceProposalLeafHashInput where
  leafHash : Hash32
  deriving DecidableEq

namespace GovernanceProposalLeaf

variable (blake2 : Bytes → Hash32)

def fromHashInput (input : GovernanceProposalLeafHashInput) : GovernanceProposalLeaf :=
  { input with leafHash := input.leafHash blake2 }

def hashInput (leaf : GovernanceProposalLeaf) : GovernanceProposalLeafHashInput :=
  leaf.toGovernanceProposalLeafHashInput

def computeLeafHash (leaf : GovernanceProposalLeaf) : Hash32 := leaf.hashInput.leafHash blake2

end GovernanceProposalLeaf

structure GovernanceAckLeafHashInput where
  version : UInt16
  proposalId : GovernanceProposalId
  sourceDomain : DomainId
  targetDomain : DomainId
  acknowledgingDomain : DomainId
  targetDomains : List DomainId
  payloadHash : Hash32
  newProtocolVersion : UInt32
  activationEpoch : EpochId
  acknowledgedEpoch : EpochId
  deriving DecidableEq

namespace GovernanceAckLeafHashInput

instance : Encode GovernanceAckLeafHashInput where
  encode input := encode (input.version, input.proposalId, input.sourceDomain, input.targetDomain,
    input.acknowledgingDomain, input.targetDomains, input.payloadHash, input.newProtocolVersion,
    input.activationEpoch, input.acknowledgedEpoch)

def leafHash (blake2 : Bytes → Hash32) (input : GovernanceAckLeafHashInput) : Hash32 :=
  blake2 (encode input)

theorem encode_length (input : GovernanceAckLeafHashInput) :
    (encode input).length = 89 + (compact input.targetDomains.length).length +
      input.targetDomains.length := by
  change (encode input.version ++ (encode input.proposalId ++ (encode input.sourceDomain ++
    (encode input.targetDomain ++
      (encode input.acknowledgingDomain ++ (encode input.targetDomains ++
      encode (input.payloadHash, input.newProtocolVersion, input.activationEpoch,
        input.acknowledgedEpoch))))))).length = _
  simp only [List.length_append, encode_list_length, length_encode, width]
  omega

theorem encode_input_injective :
    Function.Injective (encode : GovernanceAckLeafHashInput → Bytes) := by
  intro a b same
  obtain ⟨version, same⟩ := encode_fixed_append same
  obtain ⟨proposalId, same⟩ := encode_fixed_append same
  obtain ⟨sourceDomain, same⟩ := encode_fixed_append same
  obtain ⟨targetDomain, same⟩ := encode_fixed_append same
  obtain ⟨acknowledgingDomain, same⟩ := encode_fixed_append same
  obtain ⟨targetDomains, same⟩ := encode_list_append (by decide) same
    ((length_encode _).trans (length_encode _).symm)
  have rest := encode_injective same
  cases a
  cases b
  simp_all

end GovernanceAckLeafHashInput

structure GovernanceAckLeaf extends GovernanceAckLeafHashInput where
  leafHash : Hash32
  deriving DecidableEq

namespace GovernanceAckLeaf

variable (blake2 : Bytes → Hash32)

def fromHashInput (input : GovernanceAckLeafHashInput) : GovernanceAckLeaf :=
  { input with leafHash := input.leafHash blake2 }

def hashInput (leaf : GovernanceAckLeaf) : GovernanceAckLeafHashInput :=
  leaf.toGovernanceAckLeafHashInput

def computeLeafHash (leaf : GovernanceAckLeaf) : Hash32 := leaf.hashInput.leafHash blake2

end GovernanceAckLeaf

structure ImportedGovernanceProposalClaim where
  version : UInt16
  leaf : GovernanceProposalLeaf
  summaryHash : Hash32
  packageHash : Hash32
  deriving DecidableEq

structure ImportedGovernanceAckClaim where
  version : UInt16
  leaf : GovernanceAckLeaf
  summaryHash : Hash32
  packageHash : Hash32
  deriving DecidableEq

inductive GovernanceLeaf where
  | proposalV1 (leaf : GovernanceProposalLeaf)
  | ackV1 (leaf : GovernanceAckLeaf)
  deriving DecidableEq

namespace GovernanceLeaf

def targetDomain : GovernanceLeaf → DomainId
  | proposalV1 leaf => leaf.targetDomain
  | ackV1 leaf => leaf.targetDomain

def proposalId : GovernanceLeaf → GovernanceProposalId
  | proposalV1 leaf => leaf.proposalId
  | ackV1 leaf => leaf.proposalId

def leafHash : GovernanceLeaf → Hash32
  | proposalV1 leaf => leaf.leafHash
  | ackV1 leaf => leaf.leafHash

/-- The byte string whose hash is the leaf's canonical `leaf_hash`. It does not name the leaf's
kind. -/
def preimage : GovernanceLeaf → Bytes
  | proposalV1 leaf => encode leaf.hashInput
  | ackV1 leaf => encode leaf.hashInput

def computeLeafHash (blake2 : Bytes → Hash32) : GovernanceLeaf → Hash32
  | proposalV1 leaf => leaf.computeLeafHash blake2
  | ackV1 leaf => leaf.computeLeafHash blake2

def orderingDomain : GovernanceLeaf → DomainId
  | proposalV1 leaf => leaf.sourceDomain
  | ackV1 leaf => leaf.acknowledgingDomain

def committedEpoch : GovernanceLeaf → EpochId
  | proposalV1 leaf => leaf.approvalEpoch
  | ackV1 leaf => leaf.acknowledgedEpoch

def kindOrder : GovernanceLeaf → UInt8
  | proposalV1 _ => 0
  | ackV1 _ => 1

def targetDomains : GovernanceLeaf → List DomainId
  | proposalV1 leaf => leaf.targetDomains
  | ackV1 leaf => leaf.targetDomains

def version : GovernanceLeaf → UInt16
  | proposalV1 leaf => leaf.version
  | ackV1 leaf => leaf.version

end GovernanceLeaf

abbrev GovernanceInclusionProof := LeafInclusionProof GovernanceLeaf

def governanceLeafOrdering (left right : GovernanceLeaf) : Ordering :=
  (compare left.targetDomain right.targetDomain).then
    ((compare left.kindOrder right.kindOrder).then
      ((compareBytes left.proposalId right.proposalId).then
        (compare left.orderingDomain right.orderingDomain)))

instance : Std.TransCmp governanceLeafOrdering :=
  inferInstanceAs (Std.TransCmp (compareLex (compareOn GovernanceLeaf.targetDomain)
    (compareLex (compareOn GovernanceLeaf.kindOrder)
      (compareLex (compareOn fun leaf : GovernanceLeaf => leaf.proposalId.toList)
        (compareOn GovernanceLeaf.orderingDomain)))))

def governanceFamily : LeafFamily GovernanceLeaf where
  labels :=
    { nodeLabel := "IALP:governance-merkle-node:v1",
      emptyLabel := "IALP:governance-merkle-empty:v1" }
  proofVersion := 1
  leafHash := GovernanceLeaf.leafHash
  preimage := GovernanceLeaf.preimage
  ordering := governanceLeafOrdering

instance : Std.TransCmp governanceFamily.ordering :=
  inferInstanceAs (Std.TransCmp governanceLeafOrdering)

def sortGovernanceLeaves (leaves : List GovernanceLeaf) : List GovernanceLeaf :=
  governanceFamily.sortLeaves leaves

section Commitments

variable (blake2 : Bytes → Hash32)

def governanceMerkleRoot (domain : DomainId) (epoch : EpochId) (startHeight endHeight : UInt32)
    (leaves : List GovernanceLeaf) : Hash32 :=
  governanceFamily.merkleRoot blake2 domain epoch startHeight endHeight leaves

def buildGovernanceInclusionProof (leaves : List GovernanceLeaf) (targetLeafHash : Hash32) :
    Option GovernanceInclusionProof :=
  governanceFamily.buildInclusionProof blake2 leaves (·.leafHash = targetLeafHash)

def verifyGovernanceInclusionProof (governanceRoot : Hash32) (proof : GovernanceInclusionProof) :
    Bool :=
  governanceFamily.verifyInclusionProof blake2 governanceRoot proof

end Commitments

theorem GovernanceLeaf.canonical_iff {blake2 : Bytes → Hash32} {leaf : GovernanceLeaf} :
    governanceFamily.Canonical blake2 leaf ↔ leaf.leafHash = leaf.computeLeafHash blake2 := by
  cases leaf <;> rfl

end Ialp
