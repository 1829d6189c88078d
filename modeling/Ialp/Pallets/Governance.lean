import Ialp.Pallets.Frame
import Ialp.Types.Governance

/-! The governance pallet: proposals, votes, acknowledgements, scheduling and activation. -/

namespace Ialp.Governance

open Scale Function

inductive Error where
  | badOrigin
  | noTargetDomains
  | duplicateTargetDomains
  | sameDomainTarget
  | invalidProtocolVersion
  | proposalMissing
  | proposalAlreadyExists
  | proposalNotVoting
  | votingClosed
  | votingStillOpen
  | duplicateVote
  | notEligibleVoter
  | zeroVotingPower
  | missingImporterAccount
  | unauthorizedImporter
  | wrongTargetDomain
  | wrongSourceDomain
  | duplicateImportedProposal
  | duplicateImportedAck
  | proposalNotKnown
  | proposalFactsMismatch
  | ackingDomainNotTargeted
  deriving DecidableEq, Repr

/-- The storage items that hold the leaves of each epoch. `hashed` is not stored by the code: it
records the byte strings of the leaves that were hashed. -/
structure LeafStore where
  epochGovernanceLeafIds : EpochId → List Hash32
  governanceLeavesById : Hash32 → Option GovernanceLeaf
  hashed : List Bytes

structure Queues where
  scheduledProposalIdsByEpoch : EpochId → List GovernanceProposalId
  readyActivationIds : List GovernanceProposalId

/-- The pallet's storage. `activations` is not stored by the code: it records, in order, the
proposals that were activated. -/
structure State extends LeafStore, Queues where
  protocolVersion : UInt32
  importerAccount : Option AccountId
  governanceVoters : List AccountId
  nextProposalSequence : UInt64
  proposalsById : GovernanceProposalId → Option GovernanceProposal
  votesByKey : GovernanceProposalId × AccountIdBytes → Option GovernanceVote
  proposalVotingPowerByVoter : GovernanceProposalId × AccountIdBytes → Option U128
  activationRecordsById : GovernanceProposalId → Option GovernanceActivationRecord
  ackRecordsByKey : GovernanceProposalId × DomainId → Option GovernanceAckRecord
  activations : List GovernanceProposalId

def genesis (protocolVersion : UInt32) (importerAccount : Option AccountId)
    (voters : List AccountId) : State where
  protocolVersion := max protocolVersion 1
  importerAccount := importerAccount
  governanceVoters := dedup (sortBy compareBytes voters)
  nextProposalSequence := 0
  proposalsById _ := none
  votesByKey _ := none
  proposalVotingPowerByVoter _ := none
  activationRecordsById _ := none
  ackRecordsByKey _ := none
  epochGovernanceLeafIds _ := []
  governanceLeavesById _ := none
  scheduledProposalIdsByEpoch _ := []
  readyActivationIds := []
  activations := []
  hashed := []

inductive Call where
  | createProposal (targetDomains : List DomainId) (newProtocolVersion : UInt32)
  | castVote (proposalId : GovernanceProposalId) (choice : GovernanceVoteChoice)
  | closeProposal (proposalId : GovernanceProposalId)
  | importVerifiedGovernanceProposal (claim : ImportedGovernanceProposalClaim)
  | importVerifiedGovernanceAck (claim : ImportedGovernanceAckClaim)

def sortDomains (domains : List DomainId) : List DomainId := sortBy compare domains

section Storage

variable (blake2 : Bytes → Hash32) (context : CallContext)

def insertProposal (proposal : GovernanceProposal) (state : State) : State :=
  { state with proposalsById := update state.proposalsById proposal.proposalId (some proposal) }

def insertActivation (record : GovernanceActivationRecord) (state : State) : State :=
  { state with
    activationRecordsById := update state.activationRecordsById record.proposalId (some record) }

def storeActivationRecord (proposal : GovernanceProposal) (knownAckDomains : List DomainId)
    (activatedAtBlockHeight : Option UInt32) (state : State) : State :=
  insertActivation {
    version := 1
    proposalId := proposal.proposalId
    sourceDomain := proposal.sourceDomain
    targetDomains := proposal.targetDomains
    payloadHash := proposal.payloadHash
    newProtocolVersion := proposal.payload.protocolVersion
    activationEpoch := proposal.activationEpoch
    knownAckDomains := dedup (sortDomains knownAckDomains)
    scheduledAtEpoch := none
    activatedAtEpoch := proposal.approvalEpoch.filter fun _ => proposal.status = .activated
    activatedAtLocalBlockHeight := activatedAtBlockHeight
    status := proposal.status } state

def canonicalizeTargetDomains (targetDomains : List DomainId) (sourceDomain : DomainId) :
    Except Error (List DomainId) := do
  ensure (targetDomains ≠ []) .noTargetDomains
  ensure (sourceDomain ∉ targetDomains) .sameDomainTarget
  let sorted := sortDomains targetDomains
  ensure ((dedup sorted).length = sorted.length) .duplicateTargetDomains
  return dedup sorted

def insertEpochLeaf (epochId : EpochId) (store : LeafStore) (leaf : GovernanceLeaf) :
    LeafStore where
  governanceLeavesById := update store.governanceLeavesById leaf.leafHash (some leaf)
  epochGovernanceLeafIds := update store.epochGovernanceLeafIds epochId
    (appendOnce leaf.leafHash (store.epochGovernanceLeafIds epochId))
  hashed := store.hashed ++ [leaf.preimage]

def insertEpochLeaves (epochId : EpochId) (leaves : List GovernanceLeaf) (state : State) : State :=
  { state with toLeafStore := leaves.foldl (insertEpochLeaf epochId) state.toLeafStore }

def outboundProposalLeaf (proposal : GovernanceProposal) (approvalEpoch : EpochId)
    (targetDomain : DomainId) : GovernanceLeaf :=
  .proposalV1 (GovernanceProposalLeaf.fromHashInput blake2 {
    version := 1
    proposalId := proposal.proposalId
    sourceDomain := proposal.sourceDomain
    targetDomain
    targetDomains := proposal.targetDomains
    proposer := proposal.proposer
    payloadHash := proposal.payloadHash
    newProtocolVersion := proposal.payload.protocolVersion
    createdEpoch := proposal.createdEpoch
    votingStartEpoch := proposal.votingStartEpoch
    votingEndEpoch := proposal.votingEndEpoch
    approvalEpoch
    activationEpoch := proposal.activationEpoch })

def insertOutboundProposalLeaves (proposal : GovernanceProposal)
    (approvalEpoch : EpochId) (state : State) : State :=
  let approvalEpoch := proposal.approvalEpoch.getD approvalEpoch
  insertEpochLeaves approvalEpoch
    (proposal.targetDomains.map (outboundProposalLeaf blake2 proposal approvalEpoch)) state

def localAckRecord (proposal : GovernanceProposal) : GovernanceAckRecord where
  version := 1
  proposalId := proposal.proposalId
  sourceDomain := proposal.sourceDomain
  acknowledgingDomain := context.domainId
  targetDomains := proposal.targetDomains
  activationEpoch := proposal.activationEpoch
  payloadHash := proposal.payloadHash
  newProtocolVersion := proposal.payload.protocolVersion
  acknowledgedEpoch := context.currentEpoch
  acknowledgedAtLocalBlockHeight := context.blockNumber

def fanoutAckLeaf (proposal : GovernanceProposal) (targetDomain : DomainId) : GovernanceLeaf :=
  .ackV1 (GovernanceAckLeaf.fromHashInput blake2 {
    version := 1
    proposalId := proposal.proposalId
    sourceDomain := proposal.sourceDomain
    targetDomain
    acknowledgingDomain := context.domainId
    targetDomains := proposal.targetDomains
    payloadHash := proposal.payloadHash
    newProtocolVersion := proposal.payload.protocolVersion
    activationEpoch := proposal.activationEpoch
    acknowledgedEpoch := context.currentEpoch })

def fanoutTargets (proposal : GovernanceProposal) : List DomainId :=
  (dedup (sortDomains (proposal.targetDomains ++ [proposal.sourceDomain]))).filter
    (· ≠ context.domainId)

def insertAckRecord (record : GovernanceAckRecord) (state : State) : State :=
  { state with
    ackRecordsByKey := update state.ackRecordsByKey (record.proposalId, record.acknowledgingDomain)
      (some record) }

def recordLocalAckAndFanout (proposal : GovernanceProposal) (state : State) : State :=
  insertEpochLeaves context.currentEpoch
    ((fanoutTargets context proposal).map (fanoutAckLeaf blake2 context proposal))
    (insertAckRecord (localAckRecord context proposal) state)

def hasFullAckSet (targetDomains knownAckDomains : List DomainId) : Bool :=
  targetDomains.all fun targetDomain => knownAckDomains.contains targetDomain

/-- The queue writes of a proposal that has just been scheduled. -/
def enqueue (proposalId : GovernanceProposalId) (currentEpoch activationEpoch : EpochId)
    (queues : Queues) : Queues :=
  if activationEpoch ≤ currentEpoch then
    { queues with readyActivationIds := appendOnce proposalId queues.readyActivationIds }
  else
    { queues with
      scheduledProposalIdsByEpoch := update queues.scheduledProposalIdsByEpoch activationEpoch
        (appendOnce proposalId (queues.scheduledProposalIdsByEpoch activationEpoch)) }

def schedule (proposalId : GovernanceProposalId) (currentEpoch : EpochId)
    (proposal : GovernanceProposal) (activation : GovernanceActivationRecord) (state : State) :
    State :=
  { state with
    proposalsById :=
      update state.proposalsById proposalId (some { proposal with status := .scheduled })
    activationRecordsById := update state.activationRecordsById proposalId (some { activation with
      status := .scheduled
      scheduledAtEpoch := some currentEpoch })
    toQueues := enqueue proposalId currentEpoch activation.activationEpoch state.toQueues }

def maybeScheduleActivation (proposalId : GovernanceProposalId)
    (currentEpoch : EpochId) (state : State) : State :=
  match state.proposalsById proposalId, state.activationRecordsById proposalId with
  | some proposal, some activation =>
      if proposal.status ≠ .locallyFinalized ∧ proposal.status ≠ .scheduled then state
      else if hasFullAckSet activation.targetDomains activation.knownAckDomains = false then state
      else if proposal.status = .scheduled then state
      else schedule proposalId currentEpoch proposal activation state
  | _, _ => state

def addKnownAckDomain (acknowledgingDomain : DomainId) (record : GovernanceActivationRecord) :
    GovernanceActivationRecord :=
  if acknowledgingDomain ∈ record.knownAckDomains then record
  else { record with
    knownAckDomains := dedup (sortDomains (record.knownAckDomains ++ [acknowledgingDomain])) }

def insertKnownAckDomain (proposalId : GovernanceProposalId) (acknowledgingDomain : DomainId)
    (state : State) : State :=
  { state with
    activationRecordsById := update state.activationRecordsById proposalId
      ((state.activationRecordsById proposalId).map (addKnownAckDomain acknowledgingDomain)) }

def noteKnownAckDomain (proposalId : GovernanceProposalId) (acknowledgingDomain : DomainId)
    (currentEpoch : EpochId) (state : State) : State :=
  maybeScheduleActivation proposalId currentEpoch
    (insertKnownAckDomain proposalId acknowledgingDomain state)

end Storage

section Calls

variable {Balances : Type} (blake2 : Bytes → Hash32) (currency : Currency Balances)
  (context : CallContext)

def newProposal (who : AccountId) (targetDomains : List DomainId) (newProtocolVersion : UInt32)
    (proposalId : GovernanceProposalId) (snapshotTotalVotingPower : U128) : GovernanceProposal where
  version := 1
  proposalId := proposalId
  sourceDomain := context.domainId
  targetDomains := targetDomains
  proposer := accountToBytes who
  payload := .setProtocolVersion newProtocolVersion
  payloadHash := (GovernancePayload.setProtocolVersion newProtocolVersion).payloadHash blake2
  createdEpoch := context.currentEpoch
  votingStartEpoch := context.currentEpoch
  votingEndEpoch := saturatingAdd64 context.currentEpoch 1
  approvalEpoch := none
  activationEpoch := 0
  snapshotTotalVotingPower := snapshotTotalVotingPower
  quorumNumerator := 1
  quorumDenominator := 2
  yesVotingPower := 0
  noVotingPower := 0
  abstainVotingPower := 0
  status := .voting

def snapshotVotingPowers (balances : Balances) (proposalId : GovernanceProposalId) (state : State) :
    GovernanceProposalId × AccountIdBytes → Option U128 :=
  state.governanceVoters.foldl
    (fun powers voter => update powers (proposalId, accountToBytes voter)
      (some (currency.balance balances voter)))
    state.proposalVotingPowerByVoter

def snapshotTotalVotingPower (balances : Balances) (state : State) : U128 :=
  state.governanceVoters.foldl (fun total voter =>
    saturatingAdd128 total (currency.balance balances voter)) 0

/-- The storage writes of `create_proposal` for the next sequence number. -/
def insertNewProposal (who : AccountId) (targetDomains : List DomainId)
    (newProtocolVersion : UInt32) (balances : Balances) (state : State) : State :=
  let proposalId := governanceProposalId blake2 context.domainId state.nextProposalSequence
  insertProposal (newProposal blake2 context who targetDomains newProtocolVersion proposalId
      (snapshotTotalVotingPower currency balances state)) {
    state with
    nextProposalSequence := saturatingAdd64 state.nextProposalSequence 1
    proposalVotingPowerByVoter := snapshotVotingPowers currency balances proposalId state }

def createProposal (origin : Origin) (targetDomains : List DomainId) (newProtocolVersion : UInt32)
    (balances : Balances) (state : State) : Except Error State := do
  let who ← ensureSigned .badOrigin origin
  let targetDomains ← canonicalizeTargetDomains targetDomains context.domainId
  ensure (0 < newProtocolVersion ∧ newProtocolVersion ≠ state.protocolVersion)
    .invalidProtocolVersion
  return insertNewProposal blake2 currency context who targetDomains
    newProtocolVersion balances state

def countVote (choice : GovernanceVoteChoice) (votingPower : U128) (proposal : GovernanceProposal) :
    GovernanceProposal :=
  match choice with
  | .yes => { proposal with yesVotingPower := saturatingAdd128 proposal.yesVotingPower votingPower }
  | .no => { proposal with noVotingPower := saturatingAdd128 proposal.noVotingPower votingPower }
  | .abstain =>
      { proposal with
        abstainVotingPower := saturatingAdd128 proposal.abstainVotingPower votingPower }

/-- The storage writes of `cast_vote`. -/
def insertVote (who : AccountId) (proposalId : GovernanceProposalId) (choice : GovernanceVoteChoice)
    (votingPower : U128) (proposal : GovernanceProposal) (state : State) : State :=
  { state with
    votesByKey := update state.votesByKey (proposalId, accountToBytes who) (some {
      version := 1
      proposalId
      voter := accountToBytes who
      choice
      votingPower
      castEpoch := context.currentEpoch
      castBlockHeight := context.blockNumber })
    proposalsById :=
      update state.proposalsById proposalId (some (countVote choice votingPower proposal)) }

def castVote (origin : Origin) (proposalId : GovernanceProposalId) (choice : GovernanceVoteChoice)
    (state : State) : Except Error State := do
  let who ← ensureSigned .badOrigin origin
  let voter := accountToBytes who
  let proposal ← okOr (state.proposalsById proposalId) .proposalMissing
  ensure (proposal.status = .voting) .proposalNotVoting
  ensure (context.currentEpoch < proposal.votingEndEpoch) .votingClosed
  ensure (state.votesByKey (proposalId, voter) = none) .duplicateVote
  let votingPower ← okOr (state.proposalVotingPowerByVoter (proposalId, voter)) .notEligibleVoter
  ensure (0 < votingPower) .zeroVotingPower
  return insertVote context who proposalId choice votingPower proposal state

def recordedVotingPower (proposal : GovernanceProposal) : U128 :=
  saturatingAdd128 (saturatingAdd128 proposal.yesVotingPower proposal.noVotingPower)
    proposal.abstainVotingPower

def quorumMet (proposal : GovernanceProposal) : Bool :=
  saturatingMul128 proposal.snapshotTotalVotingPower
    (BitVec.ofNat 128 proposal.quorumNumerator.toNat) ≤
    saturatingMul128 (recordedVotingPower proposal)
    (BitVec.ofNat 128 proposal.quorumDenominator.toNat)

def approved (proposal : GovernanceProposal) : Bool :=
  recordedVotingPower proposal < saturatingMul128 proposal.yesVotingPower 2

def approvedProposal (proposal : GovernanceProposal) : GovernanceProposal :=
  { proposal with
    approvalEpoch := some context.currentEpoch
    activationEpoch := saturatingAdd64 context.currentEpoch 4
    status := .locallyFinalized }

def reject (proposalId : GovernanceProposalId) (proposal : GovernanceProposal) (state : State) :
    State :=
  { state with
    proposalsById :=
      update state.proposalsById proposalId (some { proposal with status := .rejected }) }

/-- The storage writes of `close_proposal` for an approved proposal. -/
def finalizeLocally (proposalId : GovernanceProposalId) (proposal : GovernanceProposal)
    (state : State) : State :=
  let state := storeActivationRecord proposal [] none state
  let state := insertOutboundProposalLeaves blake2 proposal context.currentEpoch state
  { state with proposalsById := update state.proposalsById proposalId (some proposal) }

def closeProposal (origin : Origin) (proposalId : GovernanceProposalId) (state : State) :
    Except Error State := do
  let _ ← ensureSigned .badOrigin origin
  let proposal ← okOr (state.proposalsById proposalId) .proposalMissing
  ensure (proposal.status = .voting) .proposalNotVoting
  ensure (proposal.votingEndEpoch ≤ context.currentEpoch) .votingStillOpen
  if quorumMet proposal = false ∨ approved proposal = false then
    return reject proposalId proposal state
  else
    return finalizeLocally blake2 context proposalId (approvedProposal context proposal) state

def ensureImporter (origin : Origin) (state : State) : Except Error AccountId := do
  let who ← ensureSigned .badOrigin origin
  let configuredImporter ← okOr state.importerAccount .missingImporterAccount
  ensure (who = configuredImporter) .unauthorizedImporter
  return who

def importedProposal (leaf : GovernanceProposalLeaf) : GovernanceProposal where
  version := 1
  proposalId := leaf.proposalId
  sourceDomain := leaf.sourceDomain
  targetDomains := leaf.targetDomains
  proposer := leaf.proposer
  payload := .setProtocolVersion leaf.newProtocolVersion
  payloadHash := leaf.payloadHash
  createdEpoch := leaf.createdEpoch
  votingStartEpoch := leaf.votingStartEpoch
  votingEndEpoch := leaf.votingEndEpoch
  approvalEpoch := some leaf.approvalEpoch
  activationEpoch := leaf.activationEpoch
  snapshotTotalVotingPower := 0
  quorumNumerator := 1
  quorumDenominator := 2
  yesVotingPower := 0
  noVotingPower := 0
  abstainVotingPower := 0
  status := .locallyFinalized

/-- The storage writes of `import_verified_governance_proposal` before scheduling. -/
def insertImportedProposal (proposal : GovernanceProposal) (state : State) : State :=
  let state := insertProposal proposal state
  let state := storeActivationRecord proposal [context.domainId] none state
  recordLocalAckAndFanout blake2 context proposal state

def importVerifiedGovernanceProposal (origin : Origin) (claim : ImportedGovernanceProposalClaim)
    (state : State) : Except Error State := do
  let _ ← ensureImporter origin state
  let leaf := claim.leaf
  ensure (leaf.targetDomain = context.domainId) .wrongTargetDomain
  ensure (leaf.sourceDomain ≠ context.domainId) .wrongSourceDomain
  ensure (state.proposalsById leaf.proposalId = none) .duplicateImportedProposal
  ensure (context.domainId ∈ leaf.targetDomains) .wrongTargetDomain
  ensure ((GovernancePayload.setProtocolVersion leaf.newProtocolVersion).payloadHash blake2 =
    leaf.payloadHash) .proposalFactsMismatch
  return maybeScheduleActivation leaf.proposalId context.currentEpoch
    (insertImportedProposal blake2 context (importedProposal leaf) state)

def importedAckRecord (leaf : GovernanceAckLeaf) : GovernanceAckRecord where
  version := 1
  proposalId := leaf.proposalId
  sourceDomain := leaf.sourceDomain
  acknowledgingDomain := leaf.acknowledgingDomain
  targetDomains := leaf.targetDomains
  activationEpoch := leaf.activationEpoch
  payloadHash := leaf.payloadHash
  newProtocolVersion := leaf.newProtocolVersion
  acknowledgedEpoch := leaf.acknowledgedEpoch
  acknowledgedAtLocalBlockHeight := context.blockNumber

def importVerifiedGovernanceAck (origin : Origin) (claim : ImportedGovernanceAckClaim)
    (state : State) : Except Error State := do
  let _ ← ensureImporter origin state
  let leaf := claim.leaf
  ensure (leaf.targetDomain = context.domainId) .wrongTargetDomain
  ensure (leaf.acknowledgingDomain ≠ context.domainId) .wrongSourceDomain
  ensure (leaf.acknowledgingDomain ∈ leaf.targetDomains) .ackingDomainNotTargeted
  ensure (state.ackRecordsByKey (leaf.proposalId, leaf.acknowledgingDomain) = none)
    .duplicateImportedAck
  let proposal ← okOr (state.proposalsById leaf.proposalId) .proposalNotKnown
  ensure (proposal.sourceDomain = leaf.sourceDomain ∧ proposal.targetDomains = leaf.targetDomains ∧
    proposal.payloadHash = leaf.payloadHash ∧ proposal.payload.protocolVersion =
      leaf.newProtocolVersion ∧
    proposal.activationEpoch = leaf.activationEpoch) .proposalFactsMismatch
  return noteKnownAckDomain leaf.proposalId leaf.acknowledgingDomain context.currentEpoch
    (insertAckRecord (importedAckRecord context leaf) state)

def dispatch (origin : Origin) (call : Call) (balances : Balances) (state : State) :
    Except Error State :=
  match call with
  | .createProposal targetDomains newProtocolVersion =>
      createProposal blake2 currency context origin targetDomains newProtocolVersion balances state
  | .castVote proposalId choice => castVote context origin proposalId choice state
  | .closeProposal proposalId => closeProposal blake2 context origin proposalId state
  | .importVerifiedGovernanceProposal claim =>
      importVerifiedGovernanceProposal blake2 context origin claim state
  | .importVerifiedGovernanceAck claim => importVerifiedGovernanceAck context origin claim state

end Calls

section Activation

def activate (proposalId : GovernanceProposalId) (currentEpoch : EpochId) (blockHeight : UInt32)
    (proposal : GovernanceProposal) (activation : GovernanceActivationRecord) (state : State) :
    State :=
  { state with
    protocolVersion := proposal.payload.protocolVersion
    proposalsById :=
      update state.proposalsById proposalId (some { proposal with status := .activated })
    activationRecordsById := update state.activationRecordsById proposalId (some { activation with
      status := .activated
      activatedAtEpoch := some currentEpoch
      activatedAtLocalBlockHeight := some blockHeight })
    activations := state.activations ++ [proposalId] }

def tryActivateProposal (currentEpoch : EpochId) (blockHeight : UInt32) (state : State)
    (proposalId : GovernanceProposalId) : State × Bool :=
  match state.proposalsById proposalId, state.activationRecordsById proposalId with
  | some proposal, some activation =>
      if proposal.status ≠ .scheduled then (state, proposal.status = .activated)
      else if currentEpoch < activation.activationEpoch then (state, false)
      else if hasFullAckSet activation.targetDomains activation.knownAckDomains = false then
        (state, false)
      else (activate proposalId currentEpoch blockHeight proposal activation state, true)
  | _, _ => (state, true)

def activateEpochBucket (currentEpoch : EpochId) (blockHeight : UInt32) (state : State) : State :=
  (state.scheduledProposalIdsByEpoch currentEpoch).foldl
    (fun state proposalId => (tryActivateProposal currentEpoch blockHeight state proposalId).1)
      state

/-- The loop over the ready queue; the second component collects what stays queued. -/
def activateReadyLoop (currentEpoch : EpochId) (blockHeight : UInt32) :
    List GovernanceProposalId → State → State × List GovernanceProposalId
  | [], state => (state, [])
  | proposalId :: rest, state =>
      let (state, done) := tryActivateProposal currentEpoch blockHeight state proposalId
      let (state, remaining) := activateReadyLoop currentEpoch blockHeight rest state
      (state, if done then remaining else proposalId :: remaining)

def activateReadyQueue (currentEpoch : EpochId) (blockHeight : UInt32) (state : State) : State :=
  let (state, remaining) :=
    activateReadyLoop currentEpoch blockHeight state.readyActivationIds state
  { state with readyActivationIds := remaining }

def onInitialize (currentEpoch : EpochId) (blockNumber : UInt32) (state : State) : State :=
  if blockNumber = 0 then state
  else activateReadyQueue currentEpoch blockNumber
    (activateEpochBucket currentEpoch blockNumber state)

end Activation

section Commitments

variable (blake2 : Bytes → Hash32) (domainId : DomainId)

def canonicalEpochGovernanceLeaves (state : State) (epochId : EpochId) : List GovernanceLeaf :=
  sortGovernanceLeaves ((state.epochGovernanceLeafIds epochId).filterMap state.governanceLeavesById)

def commitEpochGovernance (epochId : EpochId) (startHeight endHeight : UInt32) (state : State) :
    Hash32 :=
  governanceMerkleRoot blake2 domainId epochId startHeight endHeight
    (canonicalEpochGovernanceLeaves state epochId)

end Commitments

end Ialp.Governance
