import Mathlib.Logic.Relation
import Ialp.Lib.Transition
import Ialp.Pallets.Governance

/-!
What calls and hooks of the governance pallet do, as elementary steps that each write one proposal.
A call is one step caused by it, possibly followed by scheduling; the hook at the opening of a block
is a sequence of activations.
-/

namespace Ialp.Governance

open Scale Function Transition Relation

section Steps

variable {Balances : Type} (blake2 : Bytes → Hash32) (currency : Currency Balances)
  (context : CallContext) (balances : Balances)

/-- An elementary step, with the checks it passed; its cause is the call that makes it, or none. -/
inductive Touch (state : State) : Option Call → State → Prop where
  | created (who : AccountId) (targetDomains canonical : List DomainId)
      (newProtocolVersion : UInt32)
      (canonicalized : canonicalizeTargetDomains targetDomains context.domainId = .ok canonical)
      (valid : 0 < newProtocolVersion ∧ newProtocolVersion ≠ state.protocolVersion) :
      Touch state (some (.createProposal targetDomains newProtocolVersion))
        (insertNewProposal blake2 currency context who canonical newProtocolVersion balances state)
  | voted (who : AccountId) (proposalId : GovernanceProposalId) (choice : GovernanceVoteChoice)
      (proposal : GovernanceProposal) (votingPower : U128)
      (found : state.proposalsById proposalId = some proposal) (voting : proposal.status = .voting)
      (early : context.currentEpoch < proposal.votingEndEpoch)
      (unvoted : state.votesByKey (proposalId, accountToBytes who) = none)
      (eligible : state.proposalVotingPowerByVoter (proposalId, accountToBytes who) =
        some votingPower)
      (positive : 0 < votingPower) :
      Touch state (some (.castVote proposalId choice))
        (insertVote context who proposalId choice votingPower proposal state)
  | rejected (proposalId : GovernanceProposalId) (proposal : GovernanceProposal)
      (found : state.proposalsById proposalId = some proposal) (voting : proposal.status = .voting)
      (ended : proposal.votingEndEpoch ≤ context.currentEpoch)
      (failed : quorumMet proposal = false ∨ approved proposal = false) :
      Touch state (some (.closeProposal proposalId)) (reject proposalId proposal state)
  | approved (proposalId : GovernanceProposalId) (proposal : GovernanceProposal)
      (found : state.proposalsById proposalId = some proposal) (voting : proposal.status = .voting)
      (ended : proposal.votingEndEpoch ≤ context.currentEpoch)
      (quorum : quorumMet proposal = true) (majority : approved proposal = true) :
      Touch state (some (.closeProposal proposalId))
        (finalizeLocally blake2 context proposalId (approvedProposal context proposal) state)
  | imported (claim : ImportedGovernanceProposalClaim)
      (targeted : claim.leaf.targetDomain = context.domainId)
      (foreign : claim.leaf.sourceDomain ≠ context.domainId)
      (unknown : state.proposalsById claim.leaf.proposalId = none)
      (listed : context.domainId ∈ claim.leaf.targetDomains)
      (payload : (GovernancePayload.setProtocolVersion claim.leaf.newProtocolVersion).payloadHash
        blake2 =
        claim.leaf.payloadHash) :
      Touch state (some (.importVerifiedGovernanceProposal claim))
        (insertImportedProposal blake2 context (importedProposal claim.leaf) state)
  | acknowledged (claim : ImportedGovernanceAckClaim) (proposal : GovernanceProposal)
      (targeted : claim.leaf.targetDomain = context.domainId)
      (foreign : claim.leaf.acknowledgingDomain ≠ context.domainId)
      (listed : claim.leaf.acknowledgingDomain ∈ claim.leaf.targetDomains)
      (fresh : state.ackRecordsByKey (claim.leaf.proposalId, claim.leaf.acknowledgingDomain) = none)
      (found : state.proposalsById claim.leaf.proposalId = some proposal)
      (facts : proposal.sourceDomain = claim.leaf.sourceDomain ∧
        proposal.targetDomains = claim.leaf.targetDomains ∧
          proposal.payloadHash = claim.leaf.payloadHash ∧
        proposal.payload.protocolVersion = claim.leaf.newProtocolVersion ∧
        proposal.activationEpoch = claim.leaf.activationEpoch) :
      Touch state (some (.importVerifiedGovernanceAck claim))
        (insertKnownAckDomain claim.leaf.proposalId claim.leaf.acknowledgingDomain
          (insertAckRecord (importedAckRecord context claim.leaf) state))
  | scheduled (proposalId : GovernanceProposalId) (proposal : GovernanceProposal)
      (activation : GovernanceActivationRecord)
      (found : state.proposalsById proposalId = some proposal)
      (recorded : state.activationRecordsById proposalId = some activation)
      (finalized : proposal.status = .locallyFinalized)
      (full : hasFullAckSet activation.targetDomains activation.knownAckDomains = true) :
      Touch state none (schedule proposalId context.currentEpoch proposal activation state)
  | activated (proposalId : GovernanceProposalId) (proposal : GovernanceProposal)
      (activation : GovernanceActivationRecord)
      (found : state.proposalsById proposalId = some proposal)
      (recorded : state.activationRecordsById proposalId = some activation)
      (scheduled : proposal.status = .scheduled)
      (due : activation.activationEpoch ≤ context.currentEpoch)
      (full : hasFullAckSet activation.targetDomains activation.knownAckDomains = true) :
      Touch state none
        (activate proposalId context.currentEpoch context.blockNumber proposal activation state)
  | dequeued (remaining : List GovernanceProposalId) (sub : remaining ⊆ state.readyActivationIds) :
      Touch state none { state with readyActivationIds := remaining }

def Settles : State → State → Prop := ReflTransGen fun state state' =>
  Touch blake2 currency context balances state none state'

variable {blake2 currency context balances} {state state' : State} {origin : Origin}

theorem ensureImporter_eq_ok {who : AccountId} :
    ensureImporter origin state = .ok who ↔ origin = .signed who ∧
      state.importerAccount = some who := by
  simp only [ensureImporter, bind_eq_ok, ensureSigned_eq_ok, okOr_eq_ok, ensure_eq_ok, exists_const]
  constructor
  · rintro ⟨signer, rfl, importer, configured, rfl, returned⟩
    cases returned
    exact ⟨rfl, configured⟩
  · rintro ⟨rfl, configured⟩
    exact ⟨who, rfl, who, configured, rfl, rfl⟩

theorem maybeScheduleActivation_settles (proposalId : GovernanceProposalId) (state : State) :
    Settles blake2 currency context balances state
      (maybeScheduleActivation proposalId context.currentEpoch state) := by
  unfold maybeScheduleActivation
  split
  · rename_i proposal activation found recorded
    split_ifs with open' full waiting
    · exact .refl
    · exact .refl
    · exact .refl
    · apply ReflTransGen.single
      apply Touch.scheduled proposalId proposal activation found recorded
      · by_contra other
        exact open' ⟨other, waiting⟩
      · simpa using full
  · exact .refl

/-- What a call leaves after the step it causes: that state, or the state with one proposal
considered for scheduling. -/
inductive Scheduling (currentEpoch : EpochId) (state : State) : State → Prop where
  | none : Scheduling currentEpoch state state
  | considered (proposalId : GovernanceProposalId) :
      Scheduling currentEpoch state (maybeScheduleActivation proposalId currentEpoch state)

theorem touch_scheduling_of_ok {call : Call}
    (ok : dispatch blake2 currency context origin call balances state = .ok state') :
    ∃ middle, Touch blake2 currency context balances state (some call) middle ∧
      Scheduling context.currentEpoch middle state' := by
  cases call with
  | createProposal targetDomains newProtocolVersion =>
      simp only [dispatch, createProposal, bind_eq_ok, ensureSigned_eq_ok, ensure_eq_ok,
        exists_const] at ok
      obtain ⟨who, rfl, canonical, canonicalized, valid, returned⟩ := ok
      cases returned
      exact ⟨_, .created who targetDomains canonical newProtocolVersion canonicalized valid, .none⟩
  | castVote proposalId choice =>
      simp only [dispatch, castVote, bind_eq_ok, ensureSigned_eq_ok, okOr_eq_ok, ensure_eq_ok,
        exists_const] at ok
      obtain ⟨who, rfl, proposal, found, voting, early, unvoted, votingPower, eligible,
          positive, returned⟩ := ok
      cases returned
      exact ⟨_, .voted who proposalId choice proposal votingPower found voting early unvoted
        eligible positive, .none⟩
  | closeProposal proposalId =>
      simp only [dispatch, closeProposal, bind_eq_ok, ensureSigned_eq_ok, okOr_eq_ok, ensure_eq_ok,
        exists_const] at ok
      obtain ⟨who, rfl, proposal, found, voting, ended, returned⟩ := ok
      split at returned
      · rename_i failed
        cases returned
        exact ⟨_, .rejected proposalId proposal found voting ended failed, .none⟩
      · rename_i passed
        cases returned
        simp only [not_or, Bool.not_eq_false] at passed
        exact ⟨_, .approved proposalId proposal found voting ended passed.1 passed.2, .none⟩
  | importVerifiedGovernanceProposal claim =>
      simp only [dispatch, importVerifiedGovernanceProposal, bind_eq_ok,
        ensureImporter_eq_ok, ensure_eq_ok, exists_const] at ok
      obtain ⟨who, ⟨rfl, importer⟩, targeted, foreign, unknown, listed, payload, returned⟩ := ok
      cases returned
      exact ⟨_, .imported claim targeted foreign unknown listed payload, .considered _⟩
  | importVerifiedGovernanceAck claim =>
      simp only [dispatch, importVerifiedGovernanceAck, bind_eq_ok,
        ensureImporter_eq_ok, okOr_eq_ok, ensure_eq_ok, exists_const] at ok
      obtain ⟨who, ⟨rfl, importer⟩, targeted, foreign, listed, fresh, proposal, found,
          facts, returned⟩ := ok
      cases returned
      exact ⟨_, .acknowledged claim proposal targeted foreign listed fresh found facts,
        .considered _⟩

/-- A successful call is one step it causes, then steps no call causes. -/
theorem touch_of_ok {call : Call}
    (ok : dispatch blake2 currency context origin call balances state = .ok state') :
    ∃ middle, Touch blake2 currency context balances state (some call) middle ∧
      Settles blake2 currency context balances middle state' := by
  obtain ⟨middle, touch, scheduling⟩ := touch_scheduling_of_ok ok
  refine ⟨middle, touch, ?_⟩
  cases scheduling with
  | none => exact .refl
  | considered proposalId => exact maybeScheduleActivation_settles proposalId middle

/-- What the hook does at a time: it activates a proposal that is due, or drops ids from the ready
queue. -/
inductive Sweep (currentEpoch : EpochId) (blockHeight : UInt32) (state : State) : State → Prop where
  | activated (proposalId : GovernanceProposalId) (proposal : GovernanceProposal)
      (activation : GovernanceActivationRecord)
      (found : state.proposalsById proposalId = some proposal)
      (recorded : state.activationRecordsById proposalId = some activation)
      (scheduled : proposal.status = .scheduled) (due : activation.activationEpoch ≤ currentEpoch)
      (full : hasFullAckSet activation.targetDomains activation.knownAckDomains = true) :
      Sweep currentEpoch blockHeight state
        (activate proposalId currentEpoch blockHeight proposal activation state)
  | dequeued (remaining : List GovernanceProposalId) (sub : remaining ⊆ state.readyActivationIds) :
      Sweep currentEpoch blockHeight state { state with readyActivationIds := remaining }

section Hook

variable (currentEpoch : EpochId) (blockHeight : UInt32)

theorem tryActivateProposal_sweeps (state : State) (proposalId : GovernanceProposalId) :
    ReflTransGen (Sweep currentEpoch blockHeight) state
      (tryActivateProposal currentEpoch blockHeight state proposalId).1 := by
  unfold tryActivateProposal
  split
  · rename_i proposal activation found recorded
    split_ifs with waiting early full
    · exact .refl
    · exact .refl
    · exact .refl
    · apply ReflTransGen.single
      exact .activated proposalId proposal activation found recorded (not_not.mp waiting)
        (UInt64.not_lt.mp early) (by simpa using full)
  · exact .refl

theorem foldl_tryActivateProposal_sweeps (ids : List GovernanceProposalId) (state : State) :
    ReflTransGen (Sweep currentEpoch blockHeight) state
      (ids.foldl (fun state id => (tryActivateProposal currentEpoch blockHeight state id).1)
        state) := by
  induction ids generalizing state with
  | nil => exact .refl
  | cons first rest ih =>
      exact (tryActivateProposal_sweeps currentEpoch blockHeight state first).trans (ih _)

theorem tryActivateProposal_ready (state : State) (proposalId : GovernanceProposalId) :
    (tryActivateProposal currentEpoch blockHeight state proposalId).1.readyActivationIds =
      state.readyActivationIds := by
  unfold tryActivateProposal
  split
  · split_ifs <;> rfl
  · rfl

theorem foldl_tryActivateProposal_ready (ids : List GovernanceProposalId) (state : State) :
    (ids.foldl (fun state id => (tryActivateProposal currentEpoch blockHeight state id).1)
      state).readyActivationIds =
      state.readyActivationIds := by
  induction ids generalizing state with
  | nil => rfl
  | cons first rest ih => exact (ih _).trans (tryActivateProposal_ready _ _ _ _)

theorem activateReadyLoop_state (ids : List GovernanceProposalId) (state : State) :
    (activateReadyLoop currentEpoch blockHeight ids state).1 =
      ids.foldl (fun state id => (tryActivateProposal currentEpoch blockHeight state id).1)
        state := by
  induction ids generalizing state with
  | nil => rfl
  | cons first rest ih => exact ih _

theorem activateReadyLoop_remaining (ids : List GovernanceProposalId) (state : State) :
    (activateReadyLoop currentEpoch blockHeight ids state).2 ⊆ ids := by
  induction ids generalizing state with
  | nil => exact List.Subset.refl _
  | cons first rest ih =>
      have sub := ih (tryActivateProposal currentEpoch blockHeight state first).1
      simp only [activateReadyLoop]
      split
      · exact List.subset_cons_of_subset _ sub
      · exact List.cons_subset_cons _ sub

theorem onInitialize_sweeps (state : State) :
    ReflTransGen (Sweep currentEpoch blockHeight) state
      (onInitialize currentEpoch blockHeight state) := by
  unfold onInitialize
  split
  · exact .refl
  · apply (foldl_tryActivateProposal_sweeps currentEpoch blockHeight _ state).trans
    simp only [activateReadyQueue, activateReadyLoop_state, activateEpochBucket]
    refine (foldl_tryActivateProposal_sweeps currentEpoch blockHeight _ _).tail (.dequeued _ ?_)
    simp only [foldl_tryActivateProposal_ready]
    exact activateReadyLoop_remaining currentEpoch blockHeight _ _

variable {currentEpoch blockHeight}

theorem sweeps_relate (relation : State → State → Prop) (refl : ∀ state, relation state state)
    (trans : ∀ {first second third}, relation first second → relation second third →
      relation first third)
    (step : ∀ {state state'}, Sweep currentEpoch blockHeight state state' → relation state state')
    (sweeps : ReflTransGen (Sweep currentEpoch blockHeight) state state') :
    relation state state' := by
  induction sweeps with
  | refl => exact refl state
  | tail _ last before => exact trans before (step last)

end Hook

theorem Sweep.touch (sweep : Sweep context.currentEpoch context.blockNumber state state') :
    Touch blake2 currency context balances state none state' := by
  cases sweep with
  | activated proposalId proposal activation found recorded scheduled due full =>
      exact .activated proposalId proposal activation found recorded scheduled due full
  | dequeued remaining sub => exact .dequeued remaining sub

theorem onInitialize_settles (state : State) :
    Settles blake2 currency context balances state
      (onInitialize context.currentEpoch context.blockNumber state) :=
  sweeps_relate (Settles blake2 currency context balances) (fun _ => .refl) .trans (fun sweep =>
    .single sweep.touch) (onInitialize_sweeps context.currentEpoch context.blockNumber state)

def Call.importedLeaf : Call → Option GovernanceLeaf
  | .importVerifiedGovernanceProposal claim => some (.proposalV1 claim.leaf)
  | .importVerifiedGovernanceAck claim => some (.ackV1 claim.leaf)
  | _ => none

theorem importer_of_ok {call : Call} {leaf : GovernanceLeaf}
    (imports : call.importedLeaf = some leaf)
    (ok : dispatch blake2 currency context origin call balances state = .ok state') :
    ∃ who, origin = .signed who ∧ state.importerAccount = some who := by
  cases call with
  | createProposal => cases imports
  | castVote => cases imports
  | closeProposal => cases imports
  | importVerifiedGovernanceProposal claim =>
      simp only [dispatch, importVerifiedGovernanceProposal, bind_eq_ok, ensureImporter_eq_ok] at ok
      obtain ⟨who, signed, _⟩ := ok
      exact ⟨who, signed⟩
  | importVerifiedGovernanceAck claim =>
      simp only [dispatch, importVerifiedGovernanceAck, bind_eq_ok, ensureImporter_eq_ok] at ok
      obtain ⟨who, signed, _⟩ := ok
      exact ⟨who, signed⟩

theorem Touch.sequence_le {cause : Option Call}
    (touch : Touch blake2 currency context balances state cause state') :
    state'.nextProposalSequence.toNat ≤ state.nextProposalSequence.toNat + if cause.isSome then 1
      else 0 := by
  cases touch with
  | created =>
      change (saturatingAdd64 _ 1).toNat ≤ _
      rw [toNat_saturatingAdd64]
      exact Nat.min_le_left _ _
  | voted => exact Nat.le_add_right _ _
  | rejected => exact Nat.le_add_right _ _
  | approved => exact Nat.le_add_right _ _
  | imported => exact Nat.le_add_right _ _
  | acknowledged => exact Nat.le_add_right _ _
  | scheduled => exact Nat.le_refl _
  | activated => exact Nat.le_refl _
  | dequeued => exact Nat.le_refl _

theorem Touch.le_sequence {cause : Option Call}
    (touch : Touch blake2 currency context balances state cause state') :
    state.nextProposalSequence ≤ state'.nextProposalSequence := by
  cases touch with
  | created => exact le_saturatingAdd64 _ 1
  | voted => exact UInt64.le_rfl
  | rejected => exact UInt64.le_rfl
  | approved => exact UInt64.le_rfl
  | imported => exact UInt64.le_rfl
  | acknowledged => exact UInt64.le_rfl
  | scheduled => exact UInt64.le_rfl
  | activated => exact UInt64.le_rfl
  | dequeued => exact UInt64.le_rfl

theorem Settles.sequence_le (settles : Settles blake2 currency context balances state state') :
    state'.nextProposalSequence.toNat ≤ state.nextProposalSequence.toNat := by
  induction settles with
  | refl => exact Nat.le_refl _
  | tail _ touch bound => exact Nat.le_trans touch.sequence_le bound

end Steps

end Ialp.Governance
