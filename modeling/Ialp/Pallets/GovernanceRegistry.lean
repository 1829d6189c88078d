import Ialp.Pallets.GovernanceLifecycle

/-!
Runs of the governance pallet under arbitrary claims of its importer. What happens to an entry of
the proposal map, to its activation record and to the protocol version, as long as `create_proposal`
never meets an id that is in use.
-/

namespace Ialp.Governance

open Scale Function Transition Relation

section Steps

variable {Balances : Type} (blake2 : Bytes → Hash32) (currency : Currency Balances)
  (domainId : DomainId)

/-- What the runtime makes the pallet do: the hook at the opening of a block, or a call. A failed
call is rolled back. Calls that succeed are `admitted`. -/
inductive Step (admits : State → Call → Prop) (state : State) : State → Prop where
  | opened (context : CallContext) (balances : Balances) (domain : context.domainId = domainId) :
      Step admits state (onInitialize context.currentEpoch context.blockNumber state)
  | succeeded (context : CallContext) (balances : Balances) (domain : context.domainId = domainId)
      (origin : Origin) (call : Call) (state' : State) (admitted : admits state call)
      (ok : dispatch blake2 currency context origin call balances state = .ok state') :
      Step admits state state'
  | failed (context : CallContext) (balances : Balances) (domain : context.domainId = domainId)
      (origin : Origin) (call : Call) (error : Error)
      (refused : dispatch blake2 currency context origin call balances state = .error error) :
      Step admits state state

def runs (admits : State → Call → Prop) : System State where
  initial state := ∃ protocolVersion importerAccount voters,
    state = genesis protocolVersion importerAccount voters
  step := Step blake2 currency domainId admits

variable {blake2 currency domainId} {admits : State → Call → Prop} {state state' : State}

theorem Settles.invariant {context : CallContext} {balances : Balances} (property : State → Prop)
    (keeps : ∀ {state state'}, property state →
      Touch blake2 currency context balances state none state' →
      property state')
    (settles : Settles blake2 currency context balances state state') (holds : property state) :
    property state' := by
  induction settles with
  | refl => exact holds
  | tail _ touch held => exact keeps held touch

theorem Step.invariant (property : State → Prop)
    (keeps : ∀ {context : CallContext} {balances : Balances} {cause state state'},
      context.domainId = domainId →
      (∀ call, cause = some call → admits state call) → property state →
      Touch blake2 currency context balances state cause state' → property state')
    (step : Step blake2 currency domainId admits state state') (holds : property state) :
    property state' := by
  cases step with
  | opened context balances domain =>
      have settles : Settles blake2 currency context balances state _ := onInitialize_settles state
      exact settles.invariant property (fun held touch => keeps domain (by simp) held touch) holds
  | succeeded context balances domain origin call _ admitted ok =>
      obtain ⟨middle, touch, settles⟩ := touch_of_ok ok
      have caused : property middle := by
        apply keeps domain _ holds touch
        rintro _ ⟨⟩
        exact admitted
      exact settles.invariant property (fun held touch => keeps domain (by simp) held touch) caused
  | failed => exact holds

end Steps

section Facts

structure SameFacts (proposal proposal' : GovernanceProposal) :
    Prop extends SameTerms proposal proposal' where
  proposer : proposal'.proposer = proposal.proposer
  createdEpoch : proposal'.createdEpoch = proposal.createdEpoch
  votingStartEpoch : proposal'.votingStartEpoch = proposal.votingStartEpoch
  votingEndEpoch : proposal'.votingEndEpoch = proposal.votingEndEpoch

theorem SameFacts.refl (proposal : GovernanceProposal) : SameFacts proposal proposal :=
  ⟨.refl _, rfl, rfl, rfl, rfl⟩

theorem SameFacts.trans {first second third : GovernanceProposal} (before : SameFacts first second)
    (after : SameFacts second third) : SameFacts first third where
  proposalId := after.proposalId.trans before.proposalId
  sourceDomain := after.sourceDomain.trans before.sourceDomain
  targetDomains := after.targetDomains.trans before.targetDomains
  payload := after.payload.trans before.payload
  payloadHash := after.payloadHash.trans before.payloadHash
  proposer := after.proposer.trans before.proposer
  createdEpoch := after.createdEpoch.trans before.createdEpoch
  votingStartEpoch := after.votingStartEpoch.trans before.votingStartEpoch
  votingEndEpoch := after.votingEndEpoch.trans before.votingEndEpoch

inductive Succeeds : GovernanceProposalStatus → GovernanceProposalStatus → Prop where
  | rejected : Succeeds .voting .rejected
  | finalized : Succeeds .voting .locallyFinalized
  | scheduled : Succeeds .locallyFinalized .scheduled
  | activated : Succeeds .scheduled .activated

def Follows : GovernanceProposalStatus → GovernanceProposalStatus → Prop := ReflTransGen Succeeds

variable {context : CallContext} {proposal proposal' : GovernanceProposal}

theorem Advance.sameFacts (advance : Advance context proposal proposal') :
    SameFacts proposal proposal' := by
  refine ⟨advance.sameTerms, ?_, ?_, ?_, ?_⟩ <;>
    cases advance with
    | voted choice => cases choice <;> rfl
    | _ => rfl

theorem Advance.follows (advance : Advance context proposal proposal') :
    Follows proposal.status proposal'.status := by
  cases advance with
  | voted choice => cases choice <;> exact .refl
  | rejected voting => exact .single (voting ▸ .rejected)
  | approved voting => exact .single (voting ▸ .finalized)
  | scheduled finalized => exact .single (finalized ▸ .scheduled)
  | activated scheduled => exact .single (scheduled ▸ .activated)

end Facts

section Records

structure RecordMatches (proposal : GovernanceProposal) (record : GovernanceActivationRecord) : Prop
    extends RecordOf proposal record where
  status : record.status = proposal.status
  payloadHash : record.payloadHash = proposal.payloadHash
  newProtocolVersion : record.newProtocolVersion = proposal.payload.protocolVersion

inductive Agrees : Option GovernanceProposal → Option GovernanceActivationRecord → Prop where
  | unknown : Agrees none none
  | undecided (proposal : GovernanceProposal) (undecided : ¬ Finalized proposal) :
      Agrees (some proposal) none
  | decided (proposal : GovernanceProposal) (record : GovernanceActivationRecord)
      (finalized : Finalized proposal) (agree : RecordMatches proposal record) :
      Agrees (some proposal) (some record)

/-- There is an activation record exactly for the proposals whose vote has passed, and it
matches. -/
def Recorded (state : State) : Prop :=
  ∀ id, Agrees (state.proposalsById id) (state.activationRecordsById id)

namespace Recorded

variable {state : State} {id : GovernanceProposalId} {proposal : GovernanceProposal}
  {record : GovernanceActivationRecord}

theorem of_unknown (recorded : Recorded state) (unknown : state.proposalsById id = none) :
    state.activationRecordsById id = none := by
  have agrees := recorded id
  rw [unknown] at agrees
  generalize state.activationRecordsById id = record at agrees ⊢
  cases agrees with
  | unknown => rfl

theorem of_undecided (recorded : Recorded state) (stored : state.proposalsById id = some proposal)
    (undecided : ¬ Finalized proposal) : state.activationRecordsById id = none := by
  have agrees := recorded id
  rw [stored] at agrees
  generalize state.activationRecordsById id = record at agrees ⊢
  cases agrees with
  | undecided => rfl
  | decided _ _ finalized => exact absurd finalized undecided

theorem exists_of_finalized (recorded : Recorded state)
    (stored : state.proposalsById id = some proposal) (finalized : Finalized proposal) :
    ∃ record, state.activationRecordsById id = some record := by
  have agrees := recorded id
  rw [stored] at agrees
  generalize state.activationRecordsById id = record at agrees ⊢
  cases agrees with
  | undecided _ undecided => exact absurd finalized undecided
  | decided _ record => exact ⟨record, rfl⟩

theorem matches_of_some (recorded : Recorded state)
    (stored : state.proposalsById id = some proposal)
    (found : state.activationRecordsById id = some record) : RecordMatches proposal record := by
  have agrees := recorded id
  rw [stored, found] at agrees
  cases agrees with
  | decided _ _ _ agree => exact agree

/-- A step writes both maps under one id, or leaves one of them as it is. -/
theorem write {state' : State} {proposal : Option GovernanceProposal}
    {record : Option GovernanceActivationRecord} (recorded : Recorded state)
    (proposals : state'.proposalsById = update state.proposalsById id proposal)
    (records : state'.activationRecordsById = update state.activationRecordsById id record)
    (agrees : Agrees proposal record) : Recorded state' := by
  intro other
  rw [proposals, records]
  by_cases same : other = id
  · subst same
    rwa [update_self, update_self]
  · rw [update_of_ne same, update_of_ne same]
    exact recorded other

theorem write_undecided {state' : State} (recorded : Recorded state)
    (absent : state.activationRecordsById id = none)
    (proposals : state'.proposalsById = update state.proposalsById id (some proposal))
    (records : state'.activationRecordsById = state.activationRecordsById)
    (undecided : ¬ Finalized proposal) : Recorded state' := by
  refine recorded.write proposals (records.trans (update_eq_self id _).symm) ?_
  rw [absent]
  exact .undecided _ undecided

end Recorded

theorem addKnownAckDomain_matches {proposal : GovernanceProposal}
    {record : GovernanceActivationRecord} (domain : DomainId)
    (agree : RecordMatches proposal record) :
    RecordMatches proposal (addKnownAckDomain domain record) := by
  unfold addKnownAckDomain
  split
  · exact agree
  · exact ⟨⟨agree.targetDomains, agree.activationEpoch⟩, agree.status, agree.payloadHash,
      agree.newProtocolVersion⟩

theorem genesis_recorded (protocolVersion : UInt32) (importerAccount : Option AccountId)
    (voters : List AccountId) :
    Recorded (genesis protocolVersion importerAccount voters) := fun _ => .unknown

variable {Balances : Type} {blake2 : Bytes → Hash32} {currency : Currency Balances}
  {context : CallContext} {balances : Balances} {cause : Option Call} {state state' : State}

theorem Touch.recorded (touch : Touch blake2 currency context balances state cause state')
    (fresh : FreshFor blake2 context.domainId state cause)
    (local' : VotingLocal context.domainId state) (holds : Recorded state) : Recorded state' := by
  cases touch with
  | created who targetDomains canonical version canonicalized valid =>
      exact holds.write_undecided (holds.of_unknown (fresh _ _ rfl)) rfl rfl
        (not_finalized_of_voting rfl)
  | voted who proposalId choice proposal power found voting =>
      refine holds.write_undecided (holds.of_undecided found (not_finalized_of_voting voting))
        rfl rfl (not_finalized_of_voting ?_)
      cases choice <;> exact voting
  | rejected proposalId proposal found voting =>
      exact holds.write_undecided (holds.of_undecided found (not_finalized_of_voting voting))
        rfl rfl (by simp [Finalized])
  | approved proposalId proposal found voting =>
      obtain ⟨rfl, _, _⟩ := local' _ _ found voting
      exact holds.write rfl rfl (.decided _ _ (.inl rfl) ⟨⟨rfl, rfl⟩, rfl, rfl, rfl⟩)
  | imported claim =>
      exact holds.write rfl rfl (.decided _ _ (.inl rfl) ⟨⟨rfl, rfl⟩, rfl, rfl, rfl⟩)
  | acknowledged claim proposal targeted foreign listed unacknowledged found =>
      refine holds.write (update_eq_self claim.leaf.proposalId _).symm rfl ?_
      have agrees := holds claim.leaf.proposalId
      change Agrees (state.proposalsById _) ((state.activationRecordsById _).map _)
      generalize state.proposalsById claim.leaf.proposalId = stored at agrees ⊢
      generalize state.activationRecordsById claim.leaf.proposalId = record at agrees ⊢
      cases agrees with
      | unknown => exact .unknown
      | undecided _ undecided => exact .undecided _ undecided
      | decided _ _ finalized agree =>
          exact .decided _ _ finalized (addKnownAckDomain_matches _ agree)
  | scheduled proposalId proposal activation found recorded =>
      have agree := holds.matches_of_some found recorded
      exact holds.write rfl rfl (.decided _ _ (.inr (.inl rfl))
        ⟨⟨agree.targetDomains, agree.activationEpoch⟩, rfl, agree.payloadHash,
          agree.newProtocolVersion⟩)
  | activated proposalId proposal activation found recorded =>
      have agree := holds.matches_of_some found recorded
      exact holds.write rfl rfl (.decided _ _ (.inr (.inr rfl))
        ⟨⟨agree.targetDomains, agree.activationEpoch⟩, rfl, agree.payloadHash,
          agree.newProtocolVersion⟩)
  | dequeued => exact holds

end Records

section Versions

inductive VersionStep (state state' : State) : Prop where
  | same (version : state'.protocolVersion = state.protocolVersion)
  | activated (id : GovernanceProposalId) (proposal : GovernanceProposal)
      (stored : state.proposalsById id = some proposal) (scheduled : proposal.status = .scheduled)
      (written : state'.proposalsById id = some { proposal with status := .activated })
      (version : state'.protocolVersion = proposal.payload.protocolVersion)

/-- What the hook does: it activates scheduled proposals and touches no other entry. -/
structure Upgrades (state state' : State) : Prop where
  entries : ∀ id, state'.proposalsById id = state.proposalsById id ∨
    ∃ proposal, state.proposalsById id = some proposal ∧ proposal.status = .scheduled ∧
      state'.proposalsById id = some { proposal with status := .activated }
  version : VersionStep state state'

theorem Upgrades.refl (state : State) : Upgrades state state := ⟨fun _ => .inl rfl, .same rfl⟩

theorem Upgrades.trans {first second third : State} (before : Upgrades first second)
    (after : Upgrades second third) : Upgrades first third := by
  -- an activated entry is not scheduled, so the later part leaves it
  have settled : ∀ {id : GovernanceProposalId} {proposal : GovernanceProposal},
      second.proposalsById id = some { proposal with status := .activated } →
      third.proposalsById id = some { proposal with status := .activated } := by
    intro id proposal written
    rcases after.entries id with same | ⟨other, stored, scheduled, _⟩
    · exact same.trans written
    · obtain rfl : other = _ := Option.some.inj (stored.symm.trans written)
      cases scheduled
  constructor
  · intro id
    rcases before.entries id with same | ⟨proposal, stored, scheduled, written⟩
    · rw [← same]
      exact after.entries id
    · exact .inr ⟨proposal, stored, scheduled, settled written⟩
  · cases after.version with
    | same version =>
        cases before.version with
        | same version' => exact .same (version.trans version')
        | activated id proposal stored scheduled written version' =>
            exact .activated id proposal stored scheduled (settled written) (version.trans version')
    | activated id proposal stored scheduled written version =>
        rcases before.entries id with same | ⟨other, _, _, written'⟩
        · exact .activated id proposal (same.symm.trans stored) scheduled written version
        · obtain rfl : proposal = _ := Option.some.inj (stored.symm.trans written')
          cases scheduled

theorem Sweep.upgrades {currentEpoch : EpochId} {blockHeight : UInt32} {state state' : State}
    (sweep : Sweep currentEpoch blockHeight state state') : Upgrades state state' := by
  cases sweep with
  | activated proposalId proposal activation found recorded scheduled =>
      constructor
      · intro id
        by_cases same : id = proposalId
        · subst same
          exact .inr ⟨proposal, found, scheduled, update_self _ _ _⟩
        · exact .inl (update_of_ne same _ _)
      · exact .activated proposalId proposal found scheduled (update_self _ _ _) rfl
  | dequeued => exact ⟨fun _ => .inl rfl, .same rfl⟩

theorem onInitialize_upgrades (currentEpoch : EpochId) (blockNumber : UInt32) (state : State) :
    Upgrades state (onInitialize currentEpoch blockNumber state) :=
  sweeps_relate Upgrades .refl .trans Sweep.upgrades
    (onInitialize_sweeps currentEpoch blockNumber state)

theorem maybeScheduleActivation_protocolVersion (proposalId : GovernanceProposalId)
    (currentEpoch : EpochId) (state : State) :
    (maybeScheduleActivation proposalId currentEpoch state).protocolVersion =
      state.protocolVersion := by
  unfold maybeScheduleActivation
  split
  · split_ifs <;> rfl
  · rfl

variable {Balances : Type} {blake2 : Bytes → Hash32} {currency : Currency Balances}
  {context : CallContext} {balances : Balances} {state state' : State}
  {origin : Origin} {call : Call}

theorem dispatch_protocolVersion (ok : dispatch blake2 currency context origin call balances state =
    .ok state') : state'.protocolVersion = state.protocolVersion := by
  cases call with
  | createProposal targetDomains newProtocolVersion =>
      simp only [dispatch, createProposal, bind_eq_ok] at ok
      obtain ⟨_, _, _, _, _, _, returned⟩ := ok
      cases returned
      rfl
  | castVote proposalId choice =>
      simp only [dispatch, castVote, bind_eq_ok] at ok
      obtain ⟨_, _, _, _, _, _, _, _, _, _, _, _, _, _, returned⟩ := ok
      cases returned
      rfl
  | closeProposal proposalId =>
      simp only [dispatch, closeProposal, bind_eq_ok] at ok
      obtain ⟨_, _, _, _, _, _, _, _, returned⟩ := ok
      split at returned
      · cases returned
        rfl
      · cases returned
        rfl
  | importVerifiedGovernanceProposal claim =>
      simp only [dispatch, importVerifiedGovernanceProposal, bind_eq_ok] at ok
      obtain ⟨_, _, _, _, _, _, _, _, _, _, _, _, returned⟩ := ok
      cases returned
      exact maybeScheduleActivation_protocolVersion _ _ _
  | importVerifiedGovernanceAck claim =>
      simp only [dispatch, importVerifiedGovernanceAck, bind_eq_ok] at ok
      obtain ⟨_, _, _, _, _, _, _, _, _, _, _, _, _, _, returned⟩ := ok
      cases returned
      exact maybeScheduleActivation_protocolVersion _ _ _

theorem Step.versionStep {domainId : DomainId} {admits : State → Call → Prop}
    (step : Step blake2 currency domainId admits state state') : VersionStep state state' := by
  cases step with
  | opened context balances domain => exact (onInitialize_upgrades _ _ _).version
  | succeeded context balances domain origin call _ admitted ok =>
      exact .same (dispatch_protocolVersion ok)
  | failed => exact .same rfl

end Versions

section Lifecycle

variable {Balances : Type} {blake2 : Bytes → Hash32} {currency : Currency Balances}
  {context : CallContext} {balances : Balances} {cause : Option Call} {state state' : State}
  {domainId : DomainId}

/-- How an entry of the proposal map first appears: under vote if it was created here, past its vote
if it was imported (and possibly scheduled by the same call). -/
inductive Starts (domainId : DomainId) (proposal : GovernanceProposal) : Prop where
  | created (sourced : proposal.sourceDomain = domainId) (voting : proposal.status = .voting)
  | imported (foreign : proposal.sourceDomain ≠ domainId)
      (later : Follows .locallyFinalized proposal.status)

theorem Starts.advance {proposal proposal' : GovernanceProposal} (starts : Starts domainId proposal)
    (advance : Advance context proposal proposal') (passive : proposal.status ≠ .voting) :
    Starts domainId proposal' := by
  cases starts with
  | created sourced voting => exact absurd voting passive
  | imported foreign later =>
      exact .imported (advance.sameTerms.sourceDomain ▸ foreign) (later.trans advance.follows)

theorem Touch.advance_of_none (touch : Touch blake2 currency context balances state none state')
    {id : GovernanceProposalId} {proposal : GovernanceProposal}
    (stored : state'.proposalsById id = some proposal) :
    state.proposalsById id = some proposal ∨ ∃ earlier, state.proposalsById id = some earlier ∧
      earlier.status ≠ .voting ∧ Advance context earlier proposal := by
  cases touch with
  | scheduled proposalId earlier activation found recorded finalized =>
      rcases update_eq_some.mp stored with ⟨rfl, rfl⟩ | ⟨_, old⟩
      · exact .inr ⟨earlier, found, by simp [finalized], .scheduled finalized⟩
      · exact .inl old
  | activated proposalId earlier activation found recorded scheduled =>
      rcases update_eq_some.mp stored with ⟨rfl, rfl⟩ | ⟨_, old⟩
      · exact .inr ⟨earlier, found, by simp [scheduled], .activated scheduled⟩
      · exact .inl old
  | dequeued => exact .inl stored

theorem Step.starts {admits : State → Call → Prop}
    (step : Step blake2 currency domainId admits state state') {id : GovernanceProposalId}
    {proposal : GovernanceProposal} (unknown : state.proposalsById id = none)
    (stored : state'.proposalsById id = some proposal) : Starts domainId proposal := by
  have settled : ∀ {context : CallContext} {balances : Balances} {middle : State},
      Settles blake2 currency context balances middle state' →
      (∀ entry, middle.proposalsById id = some entry → Starts domainId entry) →
        Starts domainId proposal := by
    intro context balances middle settles started
    refine settles.invariant (fun state => ∀ entry, state.proposalsById id = some entry →
      Starts domainId entry) (fun held touch entry written => ?_) started proposal stored
    rcases touch.advance_of_none written with old | ⟨earlier, old, passive, advance⟩
    · exact held _ old
    · exact (held _ old).advance advance passive
  cases step with
  | opened context balances domain =>
      apply settled (onInitialize_settles state : Settles blake2 currency context balances state _)
      simp [unknown]
  | succeeded context balances domain origin call _ admitted ok =>
      obtain ⟨middle, touch, settles⟩ := touch_of_ok ok
      apply settled settles
      intro entry written
      cases touch.proposalOrigin written with
      | kept old => exact absurd (unknown.symm.trans old) (by simp)
      | advanced _ old => exact absurd (unknown.symm.trans old) (by simp)
      | created _ _ voting sourced => exact .created (sourced.trans domain) voting
      | imported claim _ _ _ foreign _ imported =>
          exact imported ▸ .imported (domain ▸ foreign) .refl
  | failed => exact absurd (unknown.symm.trans stored) (by simp)

/-- What is asked of a call that succeeds: a new proposal takes an unused id. -/
def FreshIds (blake2 : Bytes → Hash32) (domainId : DomainId) (state : State) : Call → Prop
  | .createProposal _ _ => state.proposalsById (state.nextProposalId blake2 domainId) = none
  | _ => True

structure Registry (domainId : DomainId) (state : State) : Prop where
  voting : VotingLocal domainId state
  recorded : Recorded state
  versioned : ∃ version, Versioned version state

theorem Touch.registry (touch : Touch blake2 currency context balances state cause state')
    (domain : context.domainId = domainId)
    (admitted : ∀ call, cause = some call → FreshIds blake2 domainId state call)
    (holds : Registry domainId state) : Registry domainId state' := by
  subst domain
  have fresh : FreshFor blake2 context.domainId state cause := fun _ _ created => admitted _ created
  obtain ⟨version, versioned⟩ := holds.versioned
  constructor
  · exact touch.votingLocal holds.voting
  · exact touch.recorded fresh holds.voting holds.recorded
  · exact ⟨version, touch.versioned fresh versioned⟩

theorem registry_of_reachable
    (reachable : (runs blake2 currency domainId (FreshIds blake2 domainId)).Reachable state) :
    Registry domainId state := by
  apply reachable.invariant (Registry domainId)
  · rintro _ ⟨protocolVersion, importerAccount, voters, rfl⟩
    constructor
    · simp [VotingLocal, genesis]
    · exact genesis_recorded _ _ _
    · refine ⟨max protocolVersion 1, ?_⟩
      constructor <;> simp [genesis]
  · intro state state' _ holds step
    exact Step.invariant _ (fun domain admitted held touch => touch.registry domain admitted held)
      step holds

theorem Step.entry_kept
    (step : Step blake2 currency domainId (FreshIds blake2 domainId) state state')
    (holds : Registry domainId state) {id : GovernanceProposalId} {proposal : GovernanceProposal}
    (stored : state.proposalsById id = some proposal) :
    ∃ proposal', state'.proposalsById id = some proposal' ∧ SameFacts proposal proposal' ∧
      Follows proposal.status proposal'.status := by
  have carried := Step.invariant (fun state => Registry domainId state ∧ ∃ proposal',
      state.proposalsById id = some proposal' ∧ SameFacts proposal proposal' ∧
      Follows proposal.status proposal'.status)
    (fun domain admitted held touch => ?_) step ⟨holds, proposal, stored, .refl _, .refl⟩
  · exact carried.2
  · obtain ⟨registry, current, found, facts, follows⟩ := held
    refine ⟨touch.registry domain admitted registry, ?_⟩
    subst domain
    rcases touch.proposal_kept (fun _ _ created => admitted _ created) found with
      kept | ⟨next, written, advance⟩
    · exact ⟨current, kept, facts, follows⟩
    · exact ⟨next, written, facts.trans advance.sameFacts, follows.trans advance.follows⟩

/-- In every state of a run whose proposals take unused ids: activation records are there exactly
for the proposals whose vote has passed, and match them; no proposal was activated twice; a step
changes the protocol version only by activating a scheduled proposal, and adds proposals under vote
or, if imported, past their vote; and from then on an entry keeps its facts while its status moves
forward. -/
theorem proposal_lifecycle
    (reachable : (runs blake2 currency domainId (FreshIds blake2 domainId)).Reachable state) :
    Recorded state ∧ state.activations.Nodup ∧
    (∀ state', Step blake2 currency domainId (FreshIds blake2 domainId) state state' →
      VersionStep state state' ∧ ∀ id proposal, state.proposalsById id = none →
        state'.proposalsById id = some proposal → Starts domainId proposal) ∧
    ∀ state', ReflTransGen (Step blake2 currency domainId (FreshIds blake2 domainId)) state state' →
      ∀ id proposal, state.proposalsById id = some proposal →
        ∃ proposal', state'.proposalsById id = some proposal' ∧ SameFacts proposal proposal' ∧
          Follows proposal.status proposal'.status := by
  have registry := registry_of_reachable reachable
  obtain ⟨_, versioned⟩ := registry.versioned
  refine ⟨registry.recorded, versioned.nodup, ?_, ?_⟩
  · intro state' step
    exact ⟨step.versionStep, fun id proposal unknown stored => step.starts unknown stored⟩
  · intro state' steps id proposal stored
    induction steps with
    | refl => exact ⟨proposal, stored, .refl _, .refl⟩
    | tail before step kept =>
        obtain ⟨middle, found, facts, follows⟩ := kept
        obtain ⟨proposal', stored', facts', follows'⟩ :=
          step.entry_kept (registry_of_reachable (reachable.steps before)) found
        exact ⟨proposal', stored', facts.trans facts', follows.trans follows'⟩

/-- What suffices for fresh ids, where ids do not collide: an imported proposal does not carry an id
of this domain, and fewer than `2 ^ 64` proposals are created. -/
def ForeignIds (blake2 : Bytes → Hash32) (domainId : DomainId) (state : State) : Call → Prop
  | .createProposal _ _ => state.nextProposalSequence.toNat + 1 < 2 ^ 64
  | .importVerifiedGovernanceProposal claim =>
      ∀ sequence, governanceProposalId blake2 domainId sequence ≠ claim.leaf.proposalId
  | _ => True

def Issued (blake2 : Bytes → Hash32) (domainId : DomainId) (state : State) : Prop :=
  ∀ sequence, state.proposalsById (governanceProposalId blake2 domainId sequence) ≠ none →
    sequence < state.nextProposalSequence

theorem Issued.fresh (issued : Issued blake2 domainId state) :
    state.proposalsById (state.nextProposalId blake2 domainId) = none := by
  by_contra used
  exact UInt64.lt_irrefl _ (issued _ used)

theorem Touch.issued (touch : Touch blake2 currency context balances state cause state')
    (injective : IdInjective blake2)
    (admitted : ∀ call, cause = some call → ForeignIds blake2 context.domainId state call)
    (holds : Issued blake2 context.domainId state) : Issued blake2 context.domainId state' := by
  intro sequence used
  obtain ⟨proposal, stored⟩ := Option.ne_none_iff_exists'.mp used
  have earlier : ∀ {entry},
      state.proposalsById (governanceProposalId blake2 context.domainId sequence) = some entry →
      sequence < state'.nextProposalSequence := by
    intro entry old
    exact UInt64.lt_of_lt_of_le (holds sequence (by simp [old])) touch.le_sequence
  have rewritten : ∀ {id : GovernanceProposalId} {entry written : GovernanceProposal},
      state.proposalsById id = some entry →
      state'.proposalsById = update state.proposalsById id (some written) →
        sequence < state'.nextProposalSequence := by
    intro id entry written found updated
    rcases update_eq_some.mp (updated ▸ stored) with ⟨same, _⟩ | ⟨_, old⟩
    · exact earlier (same ▸ found)
    · exact earlier old
  cases touch with
  | created who targetDomains canonical version canonicalized valid =>
      rcases update_eq_some.mp stored with ⟨same, _⟩ | ⟨_, old⟩
      · obtain rfl := (injective _ _ _ _ same).2
        exact lt_saturatingAdd64_one (admitted _ rfl)
      · exact earlier old
  | voted who proposalId choice proposal power found => exact rewritten found rfl
  | rejected proposalId proposal found => exact rewritten found rfl
  | approved proposalId proposal found => exact rewritten found rfl
  | imported claim =>
      rcases update_eq_some.mp stored with ⟨same, _⟩ | ⟨_, old⟩
      · exact absurd same (admitted _ rfl sequence)
      · exact earlier old
  | acknowledged => exact earlier stored
  | scheduled proposalId proposal activation found => exact rewritten found rfl
  | activated proposalId proposal activation found => exact rewritten found rfl
  | dequeued => exact earlier stored

theorem issued_of_reachable (injective : IdInjective blake2)
    (reachable : (runs blake2 currency domainId (ForeignIds blake2 domainId)).Reachable state) :
    Issued blake2 domainId state := by
  apply reachable.invariant (Issued blake2 domainId)
  · rintro _ ⟨protocolVersion, importerAccount, voters, rfl⟩
    simp [Issued, genesis]
  · intro state state' _ holds step
    refine Step.invariant _ (fun domain admitted held touch => ?_) step holds
    subst domain
    exact touch.issued injective admitted held

/-- A run whose imported proposals never carry an id of this domain is one whose proposals take
unused ids. -/
theorem reachable_of_foreignIds (injective : IdInjective blake2)
    (reachable : (runs blake2 currency domainId (ForeignIds blake2 domainId)).Reachable state) :
    (runs blake2 currency domainId (FreshIds blake2 domainId)).Reachable state := by
  induction reachable with
  | start initial => exact .start initial
  | @next state _ reached step fresh =>
      refine .next fresh ?_
      cases step with
      | opened context balances domain => exact .opened context balances domain
      | failed context balances domain origin call error refused =>
          exact .failed context balances domain origin call error refused
      | succeeded context balances domain origin call _ admitted ok =>
          refine .succeeded context balances domain origin call _ ?_ ok
          cases call with
          | createProposal => exact (issued_of_reachable injective reached).fresh
          | _ => trivial

end Lifecycle

section Scripts

variable {Balances : Type} (blake2 : Bytes → Hash32) (currency : Currency Balances)
  (domainId : DomainId)

inductive Occasion where
  | opened (currentEpoch : EpochId) (blockNumber : UInt32)
  | called (currentEpoch : EpochId) (blockNumber : UInt32) (origin : Origin) (call : Call)

def State.react (allowed : State → Call → Bool) (balances : Balances) (state : State) :
    Occasion → Option State
  | .opened currentEpoch blockNumber => some (onInitialize currentEpoch blockNumber state)
  | .called currentEpoch blockNumber origin call =>
      match dispatch blake2 currency ⟨domainId, currentEpoch, blockNumber, 0⟩ origin call
        balances state with
      | .ok state' => if allowed state call then some state' else none
      | .error _ => none

def runScript (allowed : State → Call → Bool) (balances : Balances) (state : State)
    (script : List Occasion) : Option State :=
  script.foldlM (State.react blake2 currency domainId allowed balances) state

variable {blake2 currency domainId} {admits : State → Call → Prop} {state state' : State}

theorem steps_of_script {allowed : State → Call → Bool}
    (sound : ∀ state call, allowed state call = true → admits state call) {balances : Balances}
    {script : List Occasion}
    (ran : runScript blake2 currency domainId allowed balances state script = some state') :
    ReflTransGen (Step blake2 currency domainId admits) state state' := by
  refine Transition.steps_of_script (fun occasion _ {before after} reacted => ?_) ran
  cases occasion with
  | opened currentEpoch blockNumber =>
      cases reacted
      exact .opened ⟨domainId, currentEpoch, blockNumber, 0⟩ balances rfl
  | called currentEpoch blockNumber origin call =>
      simp only [State.react] at reacted
      split at reacted
      · rename_i middle ok
        obtain ⟨admitted, same⟩ := Option.ite_none_right_eq_some.mp reacted
        cases same
        exact .succeeded _ balances rfl origin call after (sound _ _ admitted) ok
      · cases reacted

end Scripts

section Sample

def fixedCurrency {Balances : Type} (balance : Balances → AccountId → U128) :
    Currency Balances where
  balance
  balanceOnHold _ _ := 0
  hold _ _ _ := none
  burnHeld _ _ _ := none
  mintInto _ _ _ := none
  hold_exact := by simp
  burnHeld_exact := by simp
  mintInto_held := by simp

def sampleCurrency : Currency Unit := fixedCurrency fun _ _ => 10

def sampleGenesis : State := genesis 1 (some emptyHash) [emptyHash]

def sampleId (source : DomainId) : GovernanceProposalId := governanceProposalId sampleHash source 0

def sampleClaim (id : GovernanceProposalId) : ImportedGovernanceProposalClaim where
  version := 1
  leaf := .fromHashInput sampleHash {
    version := 1
    proposalId := id
    sourceDomain := .moon
    targetDomain := .earth
    targetDomains := [.earth]
    proposer := emptyHash
    payloadHash := (GovernancePayload.setProtocolVersion 5).payloadHash sampleHash
    newProtocolVersion := 5
    createdEpoch := 0
    votingStartEpoch := 0
    votingEndEpoch := 1
    approvalEpoch := 1
    activationEpoch := 5 }
  summaryHash := emptyHash
  packageHash := emptyHash

def calls (currentEpoch : EpochId) (call : Call) : Occasion :=
  .called currentEpoch 1 (.signed emptyHash) call

def freshAllowed (state : State) : Call → Bool
  | .createProposal _ _ => (state.proposalsById (state.nextProposalId sampleHash .earth)).isNone
  | _ => true

theorem freshIds_of_allowed (state : State) (call : Call)
    (allowed : freshAllowed state call = true) : FreshIds sampleHash .earth state call := by
  cases call with
  | createProposal => exact Option.isNone_iff_eq_none.mp allowed
  | _ => trivial

def sampleRun : Option State :=
  runScript sampleHash sampleCurrency .earth freshAllowed () sampleGenesis [
    calls 0 (.createProposal [.moon] 2), calls 0 (.castVote (sampleId .earth) .yes),
    calls 1 (.closeProposal (sampleId .earth)),
    calls 1 (.importVerifiedGovernanceProposal (sampleClaim (sampleId .moon))), .opened 5 2]

theorem proposal_lifecycle_sample :
    ∃ state, sampleRun = some state ∧ state.protocolVersion = 5 ∧
      state.activations = [sampleId .moon] ∧
      Recorded state ∧ state.activations.Nodup ∧
      (∀ state', Step sampleHash sampleCurrency .earth (FreshIds sampleHash .earth) state state' →
        VersionStep state state' ∧ ∀ id proposal, state.proposalsById id = none →
          state'.proposalsById id = some proposal → Starts .earth proposal) ∧
      ∀ state', ReflTransGen (Step sampleHash sampleCurrency .earth (FreshIds sampleHash .earth))
        state state' →
        ∀ id proposal, state.proposalsById id = some proposal →
          ∃ proposal', state'.proposalsById id = some proposal' ∧ SameFacts proposal proposal' ∧
            Follows proposal.status proposal'.status := by
  have evaluated : (sampleRun.map fun state => (state.protocolVersion, state.activations)) =
      some (5, [sampleId .moon]) := by
    decide +kernel
  obtain ⟨state, ran, shows⟩ := Option.map_eq_some_iff.mp evaluated
  obtain ⟨version, activations⟩ := Prod.mk.inj shows
  have started : (runs sampleHash sampleCurrency .earth (FreshIds sampleHash .earth)).Reachable
      sampleGenesis :=
    .start ⟨_, _, _, rfl⟩
  exact ⟨state, ran, version, activations, proposal_lifecycle
    (started.steps (steps_of_script freshIds_of_allowed ran))⟩

/-- The importer submits a proposal of Moon's under the id that Earth's next proposal will have;
creating that proposal then replaces the imported entry, which was scheduled, by one under vote. -/
theorem imported_proposal_overwritten :
    IdInjective sampleHash ∧ ∃ state state' proposal proposal',
      let room := fun (state : State) (_ : Call) => state.nextProposalSequence.toNat + 1 < 2 ^ 64
      (runs sampleHash sampleCurrency .earth room).Reachable state ∧
      ReflTransGen (Step sampleHash sampleCurrency .earth room) state state' ∧
      state.proposalsById (sampleId .earth) = some proposal ∧
      state'.proposalsById (sampleId .earth) = some proposal' ∧
      (proposal.sourceDomain, proposal.status) = (.moon, .scheduled) ∧
      (proposal'.sourceDomain, proposal'.status) = (.earth, .voting) := by
  let allowed := fun (state : State) (_ : Call) =>
    decide (state.nextProposalSequence.toNat + 1 < 2 ^ 64)
  have sound : ∀ state call, allowed state call = true →
      state.nextProposalSequence.toNat + 1 < 2 ^ 64 :=
    fun _ _ check => of_decide_eq_true check
  let importing := runScript sampleHash sampleCurrency .earth allowed () sampleGenesis
    [calls 0 (.importVerifiedGovernanceProposal (sampleClaim (sampleId .earth)))]
  let creating := fun state => runScript sampleHash sampleCurrency .earth allowed () state
    [calls 0 (.createProposal [.moon] 2)]
  let shows := fun (state : State) => (state.proposalsById (sampleId .earth)).map fun proposal =>
    (proposal.sourceDomain, proposal.status)
  have evaluated : (importing.bind fun state => (creating state).map fun state' =>
      (shows state, shows state')) =
      some (some (.moon, .scheduled), some (.earth, .voting)) := by
    decide +kernel
  obtain ⟨state, imported, created⟩ := Option.bind_eq_some_iff.mp evaluated
  obtain ⟨state', created, shown⟩ := Option.map_eq_some_iff.mp created
  obtain ⟨before, after⟩ := Prod.mk.inj shown
  obtain ⟨proposal, stored, facts⟩ := Option.map_eq_some_iff.mp before
  obtain ⟨proposal', stored', facts'⟩ := Option.map_eq_some_iff.mp after
  refine ⟨sampleHash_idInjective, state, state', proposal, proposal', ?_, ?_, stored,
    stored', facts, facts'⟩
  · exact Transition.System.Reachable.steps (.start ⟨_, _, _, rfl⟩) (steps_of_script sound imported)
  · exact steps_of_script sound created

end Sample

end Ialp.Governance
