import Ialp.Pallets.GovernanceRun

/-!
The life of a proposal on one domain: what a step can write to the entry of a proposal, to its
acknowledgements, to its activation record and to the leaves.
-/

namespace Ialp.Governance

open Scale Function

def Finalized (proposal : GovernanceProposal) : Prop :=
  proposal.status = .locallyFinalized ∨ proposal.status = .scheduled ∨ proposal.status = .activated

instance (proposal : GovernanceProposal) : Decidable (Finalized proposal) :=
  inferInstanceAs (Decidable (_ ∨ _ ∨ _))

theorem not_finalized_of_voting {proposal : GovernanceProposal}
    (voting : proposal.status = .voting) : ¬ Finalized proposal := by
  simp [Finalized, voting]

def Passed (proposal : GovernanceProposal) : Prop :=
  quorumMet proposal = true ∧ approved proposal = true

inductive Advance (context : CallContext) (proposal : GovernanceProposal) :
    GovernanceProposal → Prop where
  | voted (choice : GovernanceVoteChoice) (votingPower : U128)
      (voting : proposal.status = .voting) :
      Advance context proposal (countVote choice votingPower proposal)
  | rejected (voting : proposal.status = .voting) :
      Advance context proposal { proposal with status := .rejected }
  | approved (voting : proposal.status = .voting) (passed : Passed proposal) :
      Advance context proposal (approvedProposal context proposal)
  | scheduled (finalized : proposal.status = .locallyFinalized) :
      Advance context proposal { proposal with status := .scheduled }
  | activated (scheduled : proposal.status = .scheduled) :
      Advance context proposal { proposal with status := .activated }

section Advance

variable {context : CallContext} {proposal proposal' : GovernanceProposal}

structure SameTerms (proposal proposal' : GovernanceProposal) : Prop where
  proposalId : proposal'.proposalId = proposal.proposalId
  sourceDomain : proposal'.sourceDomain = proposal.sourceDomain
  targetDomains : proposal'.targetDomains = proposal.targetDomains
  payload : proposal'.payload = proposal.payload
  payloadHash : proposal'.payloadHash = proposal.payloadHash

theorem SameTerms.refl (proposal : GovernanceProposal) : SameTerms proposal proposal :=
  ⟨rfl, rfl, rfl, rfl, rfl⟩

theorem Advance.sameTerms (advance : Advance context proposal proposal') :
    SameTerms proposal proposal' := by
  cases advance with
  | voted choice => cases choice <;> exact ⟨rfl, rfl, rfl, rfl, rfl⟩
  | rejected => exact ⟨rfl, rfl, rfl, rfl, rfl⟩
  | approved => exact ⟨rfl, rfl, rfl, rfl, rfl⟩
  | scheduled => exact ⟨rfl, rfl, rfl, rfl, rfl⟩
  | activated => exact ⟨rfl, rfl, rfl, rfl, rfl⟩

/-- Once the vote has passed, the outcome and the activation epoch stay. -/
theorem Advance.finalized (advance : Advance context proposal proposal')
    (finalized : Finalized proposal) :
    Finalized proposal' ∧ proposal'.activationEpoch = proposal.activationEpoch ∧
      proposal'.approvalEpoch = proposal.approvalEpoch ∧ (Passed proposal → Passed proposal') := by
  cases advance with
  | voted _ _ voting => exact absurd finalized (not_finalized_of_voting voting)
  | rejected voting => exact absurd finalized (not_finalized_of_voting voting)
  | approved voting => exact absurd finalized (not_finalized_of_voting voting)
  | scheduled => exact ⟨.inr (.inl rfl), rfl, rfl, fun passed => passed⟩
  | activated => exact ⟨.inr (.inr rfl), rfl, rfl, fun passed => passed⟩

end Advance

section Touches

variable {Balances : Type} {blake2 : Bytes → Hash32} {currency : Currency Balances}
  {context : CallContext} {balances : Balances} {cause : Option Call} {state state' : State}

def State.nextProposalId (blake2 : Bytes → Hash32) (domainId : DomainId) (state : State) :
    GovernanceProposalId :=
  governanceProposalId blake2 domainId state.nextProposalSequence

def FreshFor (blake2 : Bytes → Hash32) (domainId : DomainId) (state : State) (cause : Option Call) :
    Prop :=
  ∀ targetDomains newProtocolVersion,
    cause = some (.createProposal targetDomains newProtocolVersion) →
    state.proposalsById (state.nextProposalId blake2 domainId) = none

inductive ProposalOrigin (blake2 : Bytes → Hash32) (context : CallContext) (cause : Option Call)
    (state state' : State) (id : GovernanceProposalId) (proposal : GovernanceProposal) : Prop where
  | kept (stored : state.proposalsById id = some proposal)
  | advanced (earlier : GovernanceProposal) (stored : state.proposalsById id = some earlier)
      (advance : Advance context earlier proposal)
  | created (issued : id = state.nextProposalId blake2 context.domainId)
      (keyed : proposal.proposalId = id) (voting : proposal.status = .voting)
      (sourced : proposal.sourceDomain = context.domainId)
      (targets : Targets context.domainId proposal.targetDomains)
      (sequence : state'.nextProposalSequence = saturatingAdd64 state.nextProposalSequence 1)
  | imported (claim : ImportedGovernanceProposalClaim)
      (caused : cause = some (.importVerifiedGovernanceProposal claim))
      (keyed : id = claim.leaf.proposalId) (unknown : state.proposalsById id = none)
      (foreign : claim.leaf.sourceDomain ≠ context.domainId)
      (listed : context.domainId ∈ claim.leaf.targetDomains)
      (written : proposal = importedProposal claim.leaf)
      (acknowledged : state'.ackRecordsByKey (id, context.domainId) =
        some (localAckRecord context proposal))

theorem Touch.proposalOrigin (touch : Touch blake2 currency context balances state cause state')
    {id : GovernanceProposalId} {proposal : GovernanceProposal}
    (stored : state'.proposalsById id = some proposal) :
    ProposalOrigin blake2 context cause state state' id proposal := by
  cases touch with
  | created who targetDomains canonical version canonicalized valid =>
      rcases update_eq_some.mp stored with ⟨rfl, rfl⟩ | ⟨_, old⟩
      · exact .created rfl rfl rfl rfl (canonicalizeTargetDomains_eq_ok canonicalized) rfl
      · exact .kept old
  | voted who proposalId choice earlier power found voting =>
      rcases update_eq_some.mp stored with ⟨rfl, rfl⟩ | ⟨_, old⟩
      · exact .advanced earlier found (.voted choice power voting)
      · exact .kept old
  | rejected proposalId earlier found voting =>
      rcases update_eq_some.mp stored with ⟨rfl, rfl⟩ | ⟨_, old⟩
      · exact .advanced earlier found (.rejected voting)
      · exact .kept old
  | approved proposalId earlier found voting ended quorum majority =>
      rcases update_eq_some.mp stored with ⟨rfl, rfl⟩ | ⟨_, old⟩
      · exact .advanced earlier found (.approved voting ⟨quorum, majority⟩)
      · exact .kept old
  | imported claim targeted foreign unknown listed payload =>
      rcases update_eq_some.mp stored with ⟨rfl, rfl⟩ | ⟨_, old⟩
      · exact .imported claim rfl rfl unknown foreign listed rfl (update_self _ _ _)
      · exact .kept old
  | acknowledged => exact .kept stored
  | scheduled proposalId earlier activation found recorded finalized =>
      rcases update_eq_some.mp stored with ⟨rfl, rfl⟩ | ⟨_, old⟩
      · exact .advanced earlier found (.scheduled finalized)
      · exact .kept old
  | activated proposalId earlier activation found recorded scheduled =>
      rcases update_eq_some.mp stored with ⟨rfl, rfl⟩ | ⟨_, old⟩
      · exact .advanced earlier found (.activated scheduled)
      · exact .kept old
  | dequeued => exact .kept stored

/-- An entry of the proposal map is kept or advanced, unless it is in the way of a new proposal. -/
theorem Touch.entry_kept (touch : Touch blake2 currency context balances state cause state')
    {id : GovernanceProposalId} {proposal : GovernanceProposal}
    (stored : state.proposalsById id = some proposal)
    (clear : ∀ targetDomains newProtocolVersion,
      cause = some (.createProposal targetDomains newProtocolVersion) →
      id ≠ state.nextProposalId blake2 context.domainId) :
    state'.proposalsById id = some proposal ∨
      ∃ proposal', state'.proposalsById id = some proposal' ∧
        Advance context proposal proposal' := by
  have write : ∀ {id' : GovernanceProposalId} {earlier written : GovernanceProposal},
      state.proposalsById id' = some earlier → Advance context earlier written →
      state'.proposalsById = update state.proposalsById id' (some written) →
      state'.proposalsById id = some proposal ∨
        ∃ proposal', state'.proposalsById id = some proposal' ∧
          Advance context proposal proposal' := by
    intro id' earlier written found advance updated
    rw [updated]
    by_cases same : id = id'
    · subst same
      obtain rfl : earlier = proposal := by simpa [found] using stored
      exact .inr ⟨written, update_self _ _ _, advance⟩
    · exact .inl ((update_of_ne same _ _).trans stored)
  cases touch with
  | created => exact .inl ((update_of_ne (clear _ _ rfl) _ _).trans stored)
  | voted who proposalId choice earlier power found voting =>
      exact write found (.voted choice power voting) rfl
  | rejected proposalId earlier found voting => exact write found (.rejected voting) rfl
  | approved proposalId earlier found voting ended quorum majority =>
      exact write found (.approved voting ⟨quorum, majority⟩) rfl
  | imported claim targeted foreign unknown =>
      left
      apply (update_of_ne _ _ _).trans stored
      rintro rfl
      exact absurd (unknown.symm.trans stored) (by simp)
  | acknowledged => exact .inl stored
  | scheduled proposalId earlier activation found recorded finalized =>
      exact write found (.scheduled finalized) rfl
  | activated proposalId earlier activation found recorded scheduled =>
      exact write found (.activated scheduled) rfl
  | dequeued => exact .inl stored

theorem Touch.proposal_kept (touch : Touch blake2 currency context balances state cause state')
    (fresh : FreshFor blake2 context.domainId state cause)
    {id : GovernanceProposalId} {proposal : GovernanceProposal}
    (stored : state.proposalsById id = some proposal) : state'.proposalsById id = some proposal ∨
      ∃ proposal', state'.proposalsById id = some proposal' ∧
        Advance context proposal proposal' := by
  apply touch.entry_kept stored
  rintro targetDomains newProtocolVersion created rfl
  exact absurd ((fresh _ _ created).symm.trans stored) (by simp)

theorem Touch.proposals_kept (touch : Touch blake2 currency context balances state cause state')
    {proposalId : GovernanceProposalId} (known : (state.proposalsById proposalId).isSome) :
    (state'.proposalsById proposalId).isSome := by
  cases touch with
  | created => exact isSome_update known
  | voted => exact isSome_update known
  | rejected => exact isSome_update known
  | approved => exact isSome_update known
  | imported => exact isSome_update known
  | acknowledged => exact known
  | scheduled => exact isSome_update known
  | activated => exact isSome_update known
  | dequeued => exact known

inductive AckOrigin (context : CallContext) (cause : Option Call) (state state' : State)
    (id : GovernanceProposalId) (domain : DomainId) (record : GovernanceAckRecord) : Prop where
  | kept (stored : state.ackRecordsByKey (id, domain) = some record)
  | own (claim : ImportedGovernanceProposalClaim) (keyed : id = claim.leaf.proposalId)
      (self : domain = context.domainId) (foreign : claim.leaf.sourceDomain ≠ context.domainId)
      (stored : state'.proposalsById id = some (importedProposal claim.leaf))
      (written : record = localAckRecord context (importedProposal claim.leaf))
  | imported (claim : ImportedGovernanceAckClaim)
      (caused : cause = some (.importVerifiedGovernanceAck claim))
      (keyed : id = claim.leaf.proposalId) (acknowledging : domain = claim.leaf.acknowledgingDomain)
      (other : domain ≠ context.domainId) (proposal : GovernanceProposal)
      (stored : state'.proposalsById id = some proposal)

theorem Touch.ackOrigin (touch : Touch blake2 currency context balances state cause state')
    {id : GovernanceProposalId} {domain : DomainId} {record : GovernanceAckRecord}
    (stored : state'.ackRecordsByKey (id, domain) = some record) :
    AckOrigin context cause state state' id domain record := by
  cases touch with
  | created => exact .kept stored
  | voted => exact .kept stored
  | rejected => exact .kept stored
  | approved => exact .kept stored
  | imported claim targeted foreign unknown listed payload =>
      rcases update_eq_some.mp stored with ⟨same, rfl⟩ | ⟨_, old⟩
      · obtain ⟨rfl, rfl⟩ := Prod.mk.inj same
        exact .own claim rfl rfl foreign (update_self _ _ _) rfl
      · exact .kept old
  | acknowledged claim proposal targeted foreign listed fresh found facts =>
      rcases update_eq_some.mp stored with ⟨same, rfl⟩ | ⟨_, old⟩
      · obtain ⟨rfl, rfl⟩ := Prod.mk.inj same
        exact .imported claim rfl rfl rfl foreign proposal found
      · exact .kept old
  | scheduled => exact .kept stored
  | activated => exact .kept stored
  | dequeued => exact .kept stored

theorem Touch.ack_kept (touch : Touch blake2 currency context balances state cause state')
    (unacknowledged : ∀ id, state.proposalsById id = none →
      state.ackRecordsByKey (id, context.domainId) = none)
    {key : GovernanceProposalId × DomainId} {record : GovernanceAckRecord}
    (stored : state.ackRecordsByKey key = some record) :
    state'.ackRecordsByKey key = some record := by
  have insert : ∀ {key' : GovernanceProposalId × DomainId} {written : GovernanceAckRecord},
      state.ackRecordsByKey key' = none →
        update state.ackRecordsByKey key' (some written) key = some record := by
    intro key' written empty
    apply (update_of_ne _ _ _).trans stored
    rintro rfl
    simp [empty] at stored
  cases touch with
  | created => exact stored
  | voted => exact stored
  | rejected => exact stored
  | approved => exact stored
  | imported claim targeted foreign unknown => exact insert (unacknowledged _ unknown)
  | acknowledged claim proposal targeted foreign listed fresh => exact insert fresh
  | scheduled => exact stored
  | activated => exact stored
  | dequeued => exact stored

/-- A leaf written by a step is about a proposal entry of the state it leaves. -/
inductive LeafOrigin (blake2 : Bytes → Hash32) (context : CallContext)
    (state state' : State) (hash : Hash32) (leaf : GovernanceLeaf) : Prop where
  | kept (stored : state.governanceLeavesById hash = some leaf)
  | outbound (proposal : GovernanceProposal) (target : DomainId) (finalized : Finalized proposal)
      (sourced : proposal.sourceDomain = context.domainId)
      (stored : state'.proposalsById proposal.proposalId = some proposal)
      (written : leaf = outboundProposalLeaf blake2 proposal context.currentEpoch target)
  | fanout (claim : ImportedGovernanceProposalClaim) (target : DomainId)
      (foreign : claim.leaf.sourceDomain ≠ context.domainId)
      (stored : state'.proposalsById claim.leaf.proposalId = some (importedProposal claim.leaf))
      (written : leaf = fanoutAckLeaf blake2 context (importedProposal claim.leaf) target)

theorem foldl_insertEpochLeaf_cases {epoch : EpochId} {leaves : List GovernanceLeaf}
    {store : LeafStore} {hash : Hash32} {leaf : GovernanceLeaf}
    (stored : (leaves.foldl (insertEpochLeaf epoch) store).governanceLeavesById hash = some leaf) :
    store.governanceLeavesById hash = some leaf ∨ leaf ∈ leaves := by
  induction leaves generalizing store with
  | nil => exact .inl stored
  | cons first rest ih =>
      rcases ih stored with written | later
      · rcases update_eq_some.mp written with ⟨_, rfl⟩ | ⟨_, old⟩
        · exact .inr List.mem_cons_self
        · exact .inl old
      · exact .inr (List.mem_cons_of_mem _ later)

theorem Touch.leafOrigin (touch : Touch blake2 currency context balances state cause state')
    (local' : VotingLocal context.domainId state) {hash : Hash32} {leaf : GovernanceLeaf}
    (stored : state'.governanceLeavesById hash = some leaf) :
    LeafOrigin blake2 context state state' hash leaf := by
  cases touch with
  | created => exact .kept stored
  | voted => exact .kept stored
  | rejected => exact .kept stored
  | approved proposalId proposal found voting =>
      obtain ⟨keyed, sourced, _⟩ := local' _ _ found voting
      rcases foldl_insertEpochLeaf_cases stored with old | written
      · exact .kept old
      · obtain ⟨target, _, rfl⟩ := List.mem_map.mp written
        refine .outbound (approvedProposal context proposal) target (.inl rfl) sourced ?_ rfl
        exact keyed ▸ update_self _ _ _
  | imported claim targeted foreign =>
      rcases foldl_insertEpochLeaf_cases stored with old | written
      · exact .kept old
      · obtain ⟨target, _, rfl⟩ := List.mem_map.mp written
        exact .fanout claim target foreign (update_self _ _ _) rfl
  | acknowledged => exact .kept stored
  | scheduled => exact .kept stored
  | activated => exact .kept stored
  | dequeued => exact .kept stored

structure RecordOf (proposal : GovernanceProposal) (record : GovernanceActivationRecord) :
    Prop where
  targetDomains : record.targetDomains = proposal.targetDomains
  activationEpoch : record.activationEpoch = proposal.activationEpoch

inductive RecordOrigin (context : CallContext) (cause : Option Call) (state state' : State)
    (id : GovernanceProposalId) (record : GovernanceActivationRecord) : Prop where
  | opened (proposal : GovernanceProposal) (finalized : Finalized proposal)
      (stored : state'.proposalsById id = some proposal) (recordOf : RecordOf proposal record)
      (known : ∀ domain ∈ record.knownAckDomains,
        domain = context.domainId ∧ proposal.sourceDomain ≠ context.domainId)
  | revised (earlier : GovernanceActivationRecord)
      (stored : state.activationRecordsById id = some earlier)
      (targetDomains : record.targetDomains = earlier.targetDomains)
      (activationEpoch : record.activationEpoch = earlier.activationEpoch)
      (known : ∀ domain ∈ record.knownAckDomains, domain ∈ earlier.knownAckDomains ∨
        ∃ claim : ImportedGovernanceAckClaim, cause = some (.importVerifiedGovernanceAck claim) ∧
          claim.leaf.proposalId = id ∧ claim.leaf.acknowledgingDomain = domain)

theorem mem_addKnownAckDomain {domain other : DomainId} {record : GovernanceActivationRecord} :
    other ∈ (addKnownAckDomain domain record).knownAckDomains ↔ other ∈ record.knownAckDomains ∨
      other = domain := by
  unfold addKnownAckDomain
  split
  · rename_i present
    constructor
    · exact .inl
    · rintro (old | rfl)
      · exact old
      · exact present
  · simp [sortDomains]

theorem addKnownAckDomain_terms (domain : DomainId) (record : GovernanceActivationRecord) :
    (addKnownAckDomain domain record).targetDomains = record.targetDomains ∧
      (addKnownAckDomain domain record).activationEpoch = record.activationEpoch ∧
      (addKnownAckDomain domain record).activatedAtEpoch = record.activatedAtEpoch := by
  unfold addKnownAckDomain
  split
  · exact ⟨rfl, rfl, rfl⟩
  · exact ⟨rfl, rfl, rfl⟩

theorem Touch.recordOrigin (touch : Touch blake2 currency context balances state cause state')
    (local' : VotingLocal context.domainId state) {id : GovernanceProposalId}
    {record : GovernanceActivationRecord} (stored : state'.activationRecordsById id = some record) :
    RecordOrigin context cause state state' id record := by
  have kept : state.activationRecordsById id = some record →
      RecordOrigin context cause state state' id record :=
    fun old => .revised record old rfl rfl fun domain known => .inl known
  cases touch with
  | created => exact kept stored
  | voted => exact kept stored
  | rejected => exact kept stored
  | approved proposalId proposal found voting =>
      obtain ⟨keyed, _, _⟩ := local' _ _ found voting
      rcases update_eq_some.mp stored with ⟨same, rfl⟩ | ⟨_, old⟩
      · obtain rfl : id = proposalId := same.trans keyed
        refine .opened (approvedProposal context proposal) (.inl rfl)
          (update_self _ _ _) ⟨rfl, rfl⟩ ?_
        simp [sortDomains]
      · exact kept old
  | imported claim targeted foreign =>
      rcases update_eq_some.mp stored with ⟨rfl, rfl⟩ | ⟨_, old⟩
      · refine .opened (importedProposal claim.leaf) (.inl rfl) (update_self _ _ _) ⟨rfl, rfl⟩ ?_
        intro domain known
        exact ⟨by simpa [sortDomains] using known, foreign⟩
      · exact kept old
  | acknowledged claim =>
      by_cases same : id = claim.leaf.proposalId
      · subst same
        have written := (update_self _ _ _).symm.trans stored
        obtain ⟨earlier, old, rfl⟩ := Option.map_eq_some_iff.mp written
        have terms := addKnownAckDomain_terms claim.leaf.acknowledgingDomain earlier
        refine .revised earlier old terms.1 terms.2.1 fun domain known => ?_
        rcases mem_addKnownAckDomain.mp known with known | rfl
        · exact .inl known
        · exact .inr ⟨claim, rfl, rfl, rfl⟩
      · exact kept ((update_of_ne same _ _).symm.trans stored)
  | scheduled proposalId proposal activation found recorded =>
      rcases update_eq_some.mp stored with ⟨rfl, rfl⟩ | ⟨_, old⟩
      · exact .revised activation recorded rfl rfl fun domain known => .inl known
      · exact kept old
  | activated proposalId proposal activation found recorded =>
      rcases update_eq_some.mp stored with ⟨rfl, rfl⟩ | ⟨_, old⟩
      · exact .revised activation recorded rfl rfl fun domain known => .inl known
      · exact kept old
  | dequeued => exact kept stored

structure Retains (earlier record : GovernanceActivationRecord) : Prop where
  targetDomains : record.targetDomains = earlier.targetDomains
  activationEpoch : record.activationEpoch = earlier.activationEpoch
  known : earlier.knownAckDomains ⊆ record.knownAckDomains

theorem Retains.refl (record : GovernanceActivationRecord) : Retains record record :=
  ⟨rfl, rfl, List.Subset.refl _⟩

theorem hasFullAckSet_iff {targetDomains knownAckDomains : List DomainId} :
    hasFullAckSet targetDomains knownAckDomains = true ↔ targetDomains ⊆ knownAckDomains := by
  simp [hasFullAckSet, List.subset_def]

theorem Retains.full {earlier record : GovernanceActivationRecord}
    (retains : Retains earlier record)
    (full : hasFullAckSet earlier.targetDomains earlier.knownAckDomains = true) :
    hasFullAckSet record.targetDomains record.knownAckDomains = true := by
  rw [hasFullAckSet_iff] at full ⊢
  rw [retains.targetDomains]
  exact List.Subset.trans full retains.known

theorem Touch.record_kept (touch : Touch blake2 currency context balances state cause state')
    (local' : VotingLocal context.domainId state) {id : GovernanceProposalId}
    {proposal : GovernanceProposal} {record : GovernanceActivationRecord}
    (found : state.proposalsById id = some proposal) (finalized : Finalized proposal)
    (stored : state.activationRecordsById id = some record) :
    ∃ record', state'.activationRecordsById id = some record' ∧ Retains record record' ∧
      (proposal.status = .activated → record'.activatedAtEpoch = record.activatedAtEpoch) := by
  cases touch with
  | created => exact ⟨record, stored, .refl _, fun _ => rfl⟩
  | voted => exact ⟨record, stored, .refl _, fun _ => rfl⟩
  | rejected => exact ⟨record, stored, .refl _, fun _ => rfl⟩
  | approved proposalId other found' voting =>
      obtain ⟨keyed, _, _⟩ := local' _ _ found' voting
      refine ⟨record, (update_of_ne ?_ _ _).trans stored, .refl _, fun _ => rfl⟩
      rintro rfl
      change state.proposalsById other.proposalId = _ at found
      rw [keyed, found', Option.some.injEq] at found
      simp [← found, Finalized, voting] at finalized
  | imported claim targeted foreign unknown =>
      refine ⟨record, (update_of_ne ?_ _ _).trans stored, .refl _, fun _ => rfl⟩
      rintro rfl
      exact absurd (unknown.symm.trans found) (by simp)
  | acknowledged claim =>
      by_cases same : id = claim.leaf.proposalId
      · subst same
        have terms := addKnownAckDomain_terms claim.leaf.acknowledgingDomain record
        refine ⟨addKnownAckDomain claim.leaf.acknowledgingDomain record, ?_,
          ⟨terms.1, terms.2.1, ?_⟩, fun _ => terms.2.2⟩
        · refine (update_self _ _ _).trans ?_
          exact congrArg (Option.map _) stored
        · exact fun domain known => mem_addKnownAckDomain.mpr (.inl known)
      · exact ⟨record, (update_of_ne same _ _).trans stored, .refl _, fun _ => rfl⟩
  | scheduled proposalId other activation found' recorded =>
      by_cases same : id = proposalId
      · subst same
        obtain rfl : activation = record := by simpa [recorded] using stored
        exact ⟨_, update_self _ _ _, ⟨rfl, rfl, List.Subset.refl _⟩, fun _ => rfl⟩
      · exact ⟨record, (update_of_ne same _ _).trans stored, .refl _, fun _ => rfl⟩
  | activated proposalId other activation found' recorded scheduled =>
      by_cases same : id = proposalId
      · subst same
        obtain rfl : activation = record := by simpa [recorded] using stored
        obtain rfl : other = proposal := by simpa [found'] using found
        refine ⟨_, update_self _ _ _, ⟨rfl, rfl, List.Subset.refl _⟩, fun active => ?_⟩
        simp [scheduled] at active
      · exact ⟨record, (update_of_ne same _ _).trans stored, .refl _, fun _ => rfl⟩
  | dequeued => exact ⟨record, stored, .refl _, fun _ => rfl⟩

/-- A proposal becomes scheduled or activated with a full set of acknowledgements, and is activated
when it is due. -/
theorem Touch.scheduling (touch : Touch blake2 currency context balances state cause state')
    {id : GovernanceProposalId} {proposal : GovernanceProposal}
    (stored : state'.proposalsById id = some proposal)
    (queued : proposal.status = .scheduled ∨ proposal.status = .activated) :
    state.proposalsById id = some proposal ∨
    ∃ earlier record record', state.proposalsById id = some earlier ∧
      Advance context earlier proposal ∧
      state.activationRecordsById id = some record ∧
      hasFullAckSet record.targetDomains record.knownAckDomains = true ∧
      state'.activationRecordsById id = some record' ∧ Retains record record' ∧
      (proposal.status = .activated → record'.activatedAtEpoch = some context.currentEpoch ∧
        record.activationEpoch ≤ context.currentEpoch) := by
  cases touch with
  | created who targetDomains canonical version canonicalized valid =>
      rcases update_eq_some.mp stored with ⟨rfl, rfl⟩ | ⟨_, old⟩
      · simp [newProposal] at queued
      · exact .inl old
  | voted who proposalId choice earlier power found voting =>
      rcases update_eq_some.mp stored with ⟨rfl, rfl⟩ | ⟨_, old⟩
      · cases choice <;> simp [countVote, voting] at queued
      · exact .inl old
  | rejected proposalId earlier found voting =>
      rcases update_eq_some.mp stored with ⟨rfl, rfl⟩ | ⟨_, old⟩
      · simp at queued
      · exact .inl old
  | approved proposalId earlier found voting =>
      rcases update_eq_some.mp stored with ⟨rfl, rfl⟩ | ⟨_, old⟩
      · simp [approvedProposal] at queued
      · exact .inl old
  | imported claim targeted foreign unknown =>
      rcases update_eq_some.mp stored with ⟨rfl, rfl⟩ | ⟨_, old⟩
      · simp [importedProposal] at queued
      · exact .inl old
  | acknowledged => exact .inl stored
  | scheduled proposalId earlier activation found recorded finalized full =>
      rcases update_eq_some.mp stored with ⟨rfl, rfl⟩ | ⟨_, old⟩
      · exact .inr ⟨earlier, activation, _, found, .scheduled finalized, recorded,
          full, update_self _ _ _, ⟨rfl, rfl, List.Subset.refl _⟩, by simp⟩
      · exact .inl old
  | activated proposalId earlier activation found recorded scheduled due full =>
      rcases update_eq_some.mp stored with ⟨rfl, rfl⟩ | ⟨_, old⟩
      · exact .inr ⟨earlier, activation, _, found, .activated scheduled, recorded,
          full, update_self _ _ _, ⟨rfl, rfl, List.Subset.refl _⟩, fun _ => ⟨rfl, due⟩⟩
      · exact .inl old
  | dequeued => exact .inl stored

inductive Versioning (state state' : State) : Prop where
  | kept (activations : state'.activations = state.activations)
      (version : state'.protocolVersion = state.protocolVersion)
      (settled : ∀ id proposal, state'.proposalsById id = some proposal →
        proposal.status = .activated →
        state.proposalsById id = some proposal)
  | activated (id : GovernanceProposalId) (proposal : GovernanceProposal)
      (stored : state.proposalsById id = some proposal) (scheduled : proposal.status = .scheduled)
      (activations : state'.activations = state.activations ++ [id])
      (version : state'.protocolVersion = proposal.payload.protocolVersion)
      (written : state'.proposalsById =
        update state.proposalsById id (some { proposal with status := .activated }))

theorem Touch.versioning (touch : Touch blake2 currency context balances state cause state') :
    Versioning state state' := by
  -- writing a proposal that is not activated
  have write : ∀ {id : GovernanceProposalId} {written : GovernanceProposal},
      written.status ≠ .activated →
      state'.proposalsById = update state.proposalsById id (some written) →
      ∀ id proposal, state'.proposalsById id = some proposal → proposal.status = .activated →
        state.proposalsById id = some proposal := by
    intro id written other updated id' proposal stored activated
    rcases update_eq_some.mp (updated ▸ stored) with ⟨_, rfl⟩ | ⟨_, old⟩
    · exact absurd activated other
    · exact old
  cases touch with
  | created => exact .kept rfl rfl (write (by simp [newProposal]) rfl)
  | voted who proposalId choice earlier power found voting =>
      exact .kept rfl rfl (write (by cases choice <;> simp [countVote, voting]) rfl)
  | rejected => exact .kept rfl rfl (write (by simp) rfl)
  | approved => exact .kept rfl rfl (write (by simp [approvedProposal]) rfl)
  | imported => exact .kept rfl rfl (write (by simp [importedProposal]) rfl)
  | acknowledged => exact .kept rfl rfl fun _ _ stored _ => stored
  | scheduled => exact .kept rfl rfl (write (by simp) rfl)
  | activated proposalId proposal activation found recorded scheduled =>
      exact .activated proposalId proposal found scheduled rfl rfl rfl
  | dequeued => exact .kept rfl rfl fun _ _ stored _ => stored

/-- The protocol version is that of the last activation, and the activations are the activated
proposals. -/
structure Versioned (version : UInt32) (state : State) : Prop where
  nodup : state.activations.Nodup
  activated : ∀ id, id ∈ state.activations ↔
    ∃ proposal, state.proposalsById id = some proposal ∧ proposal.status = .activated
  initial : state.activations = [] → state.protocolVersion = version
  last : ∀ id, state.activations.getLast? = some id →
    ∃ proposal, state.proposalsById id = some proposal ∧ proposal.payload.protocolVersion =
      state.protocolVersion

theorem Touch.versioned {version : UInt32}
    (touch : Touch blake2 currency context balances state cause state')
    (fresh : FreshFor blake2 context.domainId state cause) (holds : Versioned version state) :
    Versioned version state' := by
  have stays : ∀ {id : GovernanceProposalId} {proposal : GovernanceProposal},
      state.proposalsById id = some proposal → proposal.status = .activated →
      state'.proposalsById id = some proposal := by
    intro id proposal stored activated
    rcases touch.proposal_kept fresh stored with kept | ⟨_, _, advance⟩
    · exact kept
    · cases advance <;> simp_all
  cases touch.versioning with
  | kept activations same settled =>
      constructor
      · rw [activations]
        exact holds.nodup
      · intro id
        rw [activations, holds.activated]
        constructor
        · intro ⟨proposal, stored, active⟩
          exact ⟨proposal, stays stored active, active⟩
        · intro ⟨proposal, stored, active⟩
          exact ⟨proposal, settled _ _ stored active, active⟩
      · rw [activations, same]
        exact holds.initial
      · intro id last
        rw [activations] at last
        obtain ⟨proposal, stored, activated⟩ := (holds.activated id).mp (List.mem_of_getLast? last)
        obtain ⟨current, stored', version⟩ := holds.last id last
        obtain rfl : current = proposal := Option.some.inj (stored'.symm.trans stored)
        exact ⟨current, stays stored activated, same ▸ version⟩
  | activated id proposal stored scheduled activations version written =>
      have new : id ∉ state.activations := by
        intro member
        obtain ⟨other, stored', activated⟩ := (holds.activated id).mp member
        obtain rfl : other = proposal := Option.some.inj (stored'.symm.trans stored)
        simp [scheduled] at activated
      constructor
      · rw [activations]
        simpa using holds.nodup.concat new
      · intro id'
        rw [activations, List.mem_append, List.mem_singleton, holds.activated, written]
        by_cases same : id' = id
        · simp [same]
        · simp [same]
      · simp [activations]
      · intro id' last
        obtain rfl : id = id' := by simpa [activations] using last
        rw [written]
        exact ⟨_, update_self _ _ _, version.symm⟩

end Touches

end Ialp.Governance
