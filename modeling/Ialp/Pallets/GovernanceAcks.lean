import Ialp.Pallets.GovernanceRegistry

/-!
The acknowledgements of a proposal and the domains its activation record knows to have acknowledged
it. They are written by different routines, and agree as long as acknowledgements arrive for
proposals whose vote has passed and new proposals take unused ids.
-/

namespace Ialp.Governance

open Scale Function Transition Relation

section Acks

variable {Balances : Type} {blake2 : Bytes → Hash32} {currency : Currency Balances}
  {context : CallContext} {balances : Balances} {cause : Option Call} {state state' : State}
  {domainId : DomainId}

def Acked (state : State) (id : GovernanceProposalId) (domain : DomainId) : Prop :=
  ∃ record, state.ackRecordsByKey (id, domain) = some record

def Known (state : State) (id : GovernanceProposalId) (domain : DomainId) : Prop :=
  ∃ record, state.activationRecordsById id = some record ∧ domain ∈ record.knownAckDomains

def AcksKnown (state : State) : Prop := ∀ id domain, Acked state id domain ↔ Known state id domain

/-- What is asked of a call that succeeds: a new proposal takes an unused id, and an imported
acknowledgement is for a proposal whose vote has passed. -/
def Timely (blake2 : Bytes → Hash32) (domainId : DomainId) (state : State) : Call → Prop
  | .createProposal _ _ => state.proposalsById (state.nextProposalId blake2 domainId) = none
  | .importVerifiedGovernanceAck claim => ∀ proposal,
      state.proposalsById claim.leaf.proposalId = some proposal → Finalized proposal
  | _ => True

theorem not_known_of_unrecorded {id : GovernanceProposalId}
    (unrecorded : state.activationRecordsById id = none) (domain : DomainId) :
    ¬ Known state id domain := by
  intro ⟨record, recorded, _⟩
  exact absurd (unrecorded.symm.trans recorded) (by simp)

theorem acked_insert {key : GovernanceProposalId × DomainId} {written : GovernanceAckRecord}
    (updated : state'.ackRecordsByKey = update state.ackRecordsByKey key (some written))
    (id : GovernanceProposalId) (domain : DomainId) :
    Acked state' id domain ↔ (id, domain) = key ∨ Acked state id domain := by
  unfold Acked
  rw [updated]
  by_cases same : (id, domain) = key
  · simp [same]
  · simp [same]

theorem known_insert {id : GovernanceProposalId} {written : GovernanceActivationRecord}
    (updated : state'.activationRecordsById = update state.activationRecordsById id (some written))
    (other : GovernanceProposalId) (domain : DomainId) :
    Known state' other domain ↔
      if other = id then domain ∈ written.knownAckDomains else Known state other domain := by
  unfold Known
  rw [updated]
  by_cases same : other = id
  · simp [same]
  · simp [same]

theorem Touch.acksKnown (touch : Touch blake2 currency context balances state cause state')
    (timely : ∀ call, cause = some call → Timely blake2 context.domainId state call)
    (local' : VotingLocal context.domainId state) (recorded : Recorded state)
    (holds : AcksKnown state) : AcksKnown state' := by
  -- writing a record over one with the same known domains
  have rewritten : ∀ {id : GovernanceProposalId} {earlier written : GovernanceActivationRecord},
      state.activationRecordsById id = some earlier →
      state'.activationRecordsById = update state.activationRecordsById id (some written) →
      written.knownAckDomains = earlier.knownAckDomains →
      state'.ackRecordsByKey = state.ackRecordsByKey → AcksKnown state' := by
    intro id earlier written found updated same acks other domain
    rw [known_insert updated, same, Acked, acks]
    split
    · rename_i here
      subst here
      rw [← Acked, holds, Known, found]
      simp
    · exact holds other domain
  cases touch with
  | created => exact holds
  | voted => exact holds
  | rejected => exact holds
  | approved proposalId proposal found voting =>
      obtain ⟨rfl, _, _⟩ := local' _ _ found voting
      have unrecorded := recorded.of_undecided found (not_finalized_of_voting voting)
      intro other domain
      rw [known_insert rfl]
      change Acked state other domain ↔ _
      rw [holds]
      split
      · rename_i here
        subst here
        constructor
        · intro known
          exact absurd known (not_known_of_unrecorded unrecorded domain)
        · simp [sortDomains]
      · rfl
  | imported claim targeted foreign unknown =>
      have unrecorded := recorded.of_unknown unknown
      intro other domain
      have acked : Acked (insertImportedProposal blake2 context (importedProposal claim.leaf) state)
          other domain ↔
          (other, domain) = (claim.leaf.proposalId, context.domainId) ∨ Acked state other domain :=
        acked_insert rfl other domain
      have updated :
          (insertImportedProposal blake2 context (importedProposal claim.leaf)
            state).activationRecordsById =
        update state.activationRecordsById claim.leaf.proposalId (some _) := rfl
      refine acked.trans (Iff.trans ?_ (known_insert updated other domain).symm)
      rw [holds]
      split
      · rename_i here
        subst here
        simp [not_known_of_unrecorded unrecorded, sortDomains]
      · rename_i elsewhere
        simp [elsewhere]
  | acknowledged claim proposal targeted foreign listed unacknowledged found =>
      have finalized : Finalized proposal := timely _ rfl proposal found
      obtain ⟨record, stored⟩ := recorded.exists_of_finalized found finalized
      intro other domain
      have acked : Acked (insertKnownAckDomain claim.leaf.proposalId claim.leaf.acknowledgingDomain
          (insertAckRecord (importedAckRecord context claim.leaf) state)) other domain ↔
        (other, domain) = (claim.leaf.proposalId, claim.leaf.acknowledgingDomain) ∨
          Acked state other domain :=
        acked_insert rfl other domain
      have updated : (insertKnownAckDomain claim.leaf.proposalId claim.leaf.acknowledgingDomain
          (insertAckRecord (importedAckRecord context claim.leaf) state)).activationRecordsById =
          update state.activationRecordsById claim.leaf.proposalId
            (some (addKnownAckDomain claim.leaf.acknowledgingDomain record)) := by
        simp [insertKnownAckDomain, insertAckRecord, stored]
      refine acked.trans (Iff.trans ?_ (known_insert updated other domain).symm)
      rw [holds]
      split
      · rename_i here
        subst here
        rw [mem_addKnownAckDomain, Known, stored]
        simp [or_comm]
      · rename_i elsewhere
        simp [elsewhere]
  | scheduled proposalId proposal activation found recorded => exact rewritten recorded rfl rfl rfl
  | activated proposalId proposal activation found recorded => exact rewritten recorded rfl rfl rfl
  | dequeued => exact holds

structure AckBooks (domainId : DomainId) (state : State) : Prop where
  voting : VotingLocal domainId state
  recorded : Recorded state
  acks : AcksKnown state

theorem Touch.ackBooks (touch : Touch blake2 currency context balances state cause state')
    (domain : context.domainId = domainId)
    (timely : ∀ call, cause = some call → Timely blake2 domainId state call)
    (holds : AckBooks domainId state) : AckBooks domainId state' := by
  subst domain
  have fresh : FreshFor blake2 context.domainId state cause := fun _ _ created => timely _ created
  constructor
  · exact touch.votingLocal holds.voting
  · exact touch.recorded fresh holds.voting holds.recorded
  · exact touch.acksKnown timely holds.voting holds.recorded holds.acks

theorem ackBooks_of_reachable
    (reachable : (runs blake2 currency domainId (Timely blake2 domainId)).Reachable state) :
    AckBooks domainId state := by
  apply reachable.invariant (AckBooks domainId)
  · rintro _ ⟨protocolVersion, importerAccount, voters, rfl⟩
    constructor
    · simp [VotingLocal, genesis]
    · exact genesis_recorded _ _ _
    · simp [AcksKnown, Acked, Known, genesis]
  · intro state state' _ holds step
    exact Step.invariant _ (fun domain timely held touch => touch.ackBooks domain timely held) step
      holds

theorem acked_of_duplicate {origin : Origin} {claim : ImportedGovernanceAckClaim}
    (refused : importVerifiedGovernanceAck context origin claim state =
      .error .duplicateImportedAck) :
    Acked state claim.leaf.proposalId claim.leaf.acknowledgingDomain := by
  simp only [importVerifiedGovernanceAck, ensureImporter, bind_eq_error,
    ensure_eq_error, okOr_eq_error, ensureSigned_eq_error, reduceCtorEq, and_false, and_true,
    false_or, exists_const, or_false, pure,
    Except.pure] at refused
  obtain ⟨_, _, _, _, _, _, _, _, stored | ⟨_, _, _, impossible⟩⟩ := refused
  · exact Option.ne_none_iff_exists'.mp stored
  · exact impossible.elim

/-- In every state of a run whose new proposals take unused ids and whose imported acknowledgements
are for proposals whose vote has passed: the stored acknowledgements are those the activation
records know, and none is refused as a duplicate while the record still waits for it. -/
theorem acks_agree (reachable : (runs blake2 currency domainId (Timely blake2 domainId)).Reachable
    state) (id : GovernanceProposalId) (domain : DomainId) :
    (Acked state id domain ↔ Known state id domain) ∧
    ∀ context origin claim, claim.leaf.proposalId = id → claim.leaf.acknowledgingDomain = domain →
      ¬ Known state id domain →
      importVerifiedGovernanceAck context origin claim state ≠ .error .duplicateImportedAck := by
  have books := ackBooks_of_reachable reachable
  refine ⟨books.acks id domain, ?_⟩
  rintro context origin claim rfl rfl waiting refused
  exact waiting ((books.acks _ _).mp (acked_of_duplicate refused))

end Acks

section Sample

def sampleAckClaim (activationEpoch : EpochId) : ImportedGovernanceAckClaim where
  version := 1
  leaf := .fromHashInput sampleHash {
    version := 1
    proposalId := sampleId .earth
    sourceDomain := .earth
    targetDomain := .earth
    acknowledgingDomain := .moon
    targetDomains := [.moon]
    payloadHash := (GovernancePayload.setProtocolVersion 2).payloadHash sampleHash
    newProtocolVersion := 2
    activationEpoch
    acknowledgedEpoch := 2 }
  summaryHash := emptyHash
  packageHash := emptyHash

def timelyAllowed (state : State) : Call → Bool
  | .createProposal _ _ => state.proposalsById (state.nextProposalId sampleHash .earth) = none
  | .importVerifiedGovernanceAck claim =>
      (state.proposalsById claim.leaf.proposalId).all fun proposal => decide (Finalized proposal)
  | _ => true

theorem timely_of_allowed (state : State) (call : Call)
    (allowed : timelyAllowed state call = true) : Timely sampleHash .earth state call := by
  cases call with
  | createProposal =>
      have unused : state.proposalsById (state.nextProposalId sampleHash .earth) = none :=
        of_decide_eq_true allowed
      exact unused
  | castVote => exact trivial
  | closeProposal => exact trivial
  | importVerifiedGovernanceProposal claim => exact trivial
  | importVerifiedGovernanceAck claim =>
      intro proposal found
      simpa [timelyAllowed, found] using allowed

def approving : List Occasion :=
  [calls 0 (.castVote (sampleId .earth) .yes), calls 1 (.closeProposal (sampleId .earth))]

theorem acks_agree_sample :
    ∃ state, runScript sampleHash sampleCurrency .earth timelyAllowed () sampleGenesis
        (calls 0 (.createProposal [.moon] 2) :: approving ++
          [calls 2 (.importVerifiedGovernanceAck (sampleAckClaim 5))]) = some state ∧
      Acked state (sampleId .earth) .moon ∧
      (Acked state (sampleId .earth) .moon ↔ Known state (sampleId .earth) .moon) ∧
      ∀ context origin claim, claim.leaf.proposalId = sampleId .earth →
        claim.leaf.acknowledgingDomain = .moon →
        ¬ Known state (sampleId .earth) .moon →
        importVerifiedGovernanceAck context origin claim state ≠ .error .duplicateImportedAck := by
  have evaluated : ((runScript sampleHash sampleCurrency .earth timelyAllowed () sampleGenesis
      (calls 0 (.createProposal [.moon] 2) :: approving ++
        [calls 2 (.importVerifiedGovernanceAck (sampleAckClaim 5))])).map fun state =>
        (state.ackRecordsByKey (sampleId .earth, .moon)).isSome) = some true := by
    decide +kernel
  obtain ⟨state, ran, acked⟩ := Option.map_eq_some_iff.mp evaluated
  have started : (runs sampleHash sampleCurrency .earth (Timely sampleHash .earth)).Reachable
      sampleGenesis :=
    .start ⟨_, _, _, rfl⟩
  exact ⟨state, ran, Option.isSome_iff_exists.mp acked,
    acks_agree (started.steps (steps_of_script timely_of_allowed ran)) (sampleId .earth) .moon⟩

def refusal (result : Except Error State) : Option Error :=
  match result with
  | .ok _ => none
  | .error error => some error

theorem refusal_eq_some {result : Except Error State} {error : Error} :
    refusal result = some error ↔ result = .error error := by
  cases result <;> simp [refusal]

/-- The importer submits an acknowledgement of Moon's while Earth's proposal is under vote, when its
activation epoch is still zero. It is stored, no activation record exists, and once the proposal is
approved it waits for Moon while Moon's acknowledgement is refused as a duplicate. -/
theorem early_ack_forgotten :
    ∃ state state', (runs sampleHash sampleCurrency .earth fun _ _ => True).Reachable state ∧
      ReflTransGen (Step sampleHash sampleCurrency .earth fun _ _ => True) state state' ∧
      Acked state (sampleId .earth) .moon ∧ state.activationRecordsById (sampleId .earth) = none ∧
      (∃ record, state'.activationRecordsById (sampleId .earth) = some record ∧
        record.targetDomains = [.moon] ∧ record.knownAckDomains = []) ∧
      importVerifiedGovernanceAck ⟨.earth, 2, 3, 0⟩ (.signed emptyHash) (sampleAckClaim 5) state' =
        .error .duplicateImportedAck := by
  let run := runScript sampleHash sampleCurrency .earth (fun _ _ => true) ()
  let early := run sampleGenesis
    [calls 0 (.createProposal [.moon] 2), calls 0 (.importVerifiedGovernanceAck (sampleAckClaim 0))]
  let shows := fun (state state' : State) =>
    (state.ackRecordsByKey (sampleId .earth, .moon)).isSome &&
    (state.activationRecordsById (sampleId .earth)).isNone &&
    decide ((state'.activationRecordsById (sampleId .earth)).map (fun record =>
      (record.targetDomains, record.knownAckDomains)) = some ([.moon], [])) &&
    decide (refusal (importVerifiedGovernanceAck ⟨.earth, 2, 3, 0⟩ (.signed emptyHash)
      (sampleAckClaim 5) state') =
      some .duplicateImportedAck)
  have evaluated : (early.bind fun state => (run state approving).map (shows state)) =
      some true := by
    decide +kernel
  obtain ⟨state, ran, rest⟩ := Option.bind_eq_some_iff.mp evaluated
  obtain ⟨state', ran', shown⟩ := Option.map_eq_some_iff.mp rest
  simp only [shows, Bool.and_eq_true, decide_eq_true_eq] at shown
  obtain ⟨⟨⟨acked, unrecorded⟩, known⟩, refused⟩ := shown
  obtain ⟨record, recorded, listed⟩ := Option.map_eq_some_iff.mp known
  obtain ⟨targets, known⟩ := Prod.mk.inj listed
  refine ⟨state, state', ?_, ?_, Option.isSome_iff_exists.mp acked,
    Option.isNone_iff_eq_none.mp unrecorded, ⟨record, recorded, targets, known⟩, ?_⟩
  · exact Transition.System.Reachable.steps (.start ⟨_, _, _, rfl⟩)
      (steps_of_script (fun _ _ _ => trivial) ran)
  · exact steps_of_script (fun _ _ _ => trivial) ran'
  · exact refusal_eq_some.mp refused

end Sample

end Ialp.Governance
