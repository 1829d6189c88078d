import Ialp.Pallets.GovernanceLifecycle

/-!
Which leaves can stand together in the store. A domain writes one proposal leaf per proposal and
target, when the vote on it passes, and one acknowledgement per imported proposal and target, so
that no two stored leaves tie in the order in which leaves are committed.
-/

namespace Ialp.Governance

open Scale Function Transition

section Order

theorem keys_of_tie {left right : GovernanceLeaf} (tie : governanceLeafOrdering left right = .eq) :
    left.kindOrder = right.kindOrder ∧ left.proposalId = right.proposalId ∧
      left.targetDomain = right.targetDomain := by
  simp only [governanceLeafOrdering, Ordering.then_eq_eq] at tie
  obtain ⟨target, kind, proposal, _⟩ := tie
  exact ⟨Std.LawfulEqOrd.eq_of_compare kind, compareBytes_eq proposal,
    Std.LawfulEqOrd.eq_of_compare target⟩

end Order

section Touches

variable {Balances : Type} {blake2 : Bytes → Hash32} {currency : Currency Balances}
  {context : CallContext} {balances : Balances} {cause : Option Call} {state state' : State}

theorem Touch.new_leaf (touch : Touch blake2 currency context balances state cause state')
    (local' : VotingLocal context.domainId state) {hash : Hash32} {leaf : GovernanceLeaf}
    (stored : state'.governanceLeavesById hash = some leaf)
    (new : state.governanceLeavesById hash ≠ some leaf) : (leaf.kindOrder = 0 ∧
        ∃ proposal, state.proposalsById leaf.proposalId = some proposal ∧
          proposal.status = .voting) ∨
      (leaf.kindOrder = 1 ∧ state.proposalsById leaf.proposalId = none) := by
  cases touch with
  | created => exact absurd stored new
  | voted => exact absurd stored new
  | rejected => exact absurd stored new
  | approved proposalId proposal found voting =>
      obtain ⟨target, _, rfl⟩ :=
        List.mem_map.mp ((foldl_insertEpochLeaf_cases stored).resolve_left new)
      have keyed : proposal.proposalId = proposalId := (local' _ _ found voting).1
      exact .inl ⟨rfl, proposal, (congrArg state.proposalsById keyed).trans found, voting⟩
  | imported claim targeted foreign unknown =>
      obtain ⟨target, _, rfl⟩ :=
        List.mem_map.mp ((foldl_insertEpochLeaf_cases stored).resolve_left new)
      exact .inr ⟨rfl, unknown⟩
  | acknowledged => exact absurd stored new
  | scheduled => exact absurd stored new
  | activated => exact absurd stored new
  | dequeued => exact absurd stored new

theorem Advance.voting {proposal proposal' : GovernanceProposal}
    (advance : Advance context proposal proposal') (voting : proposal'.status = .voting) :
    proposal.status = .voting := by
  cases advance with
  | voted choice power open' => exact open'
  | rejected => cases voting
  | approved => cases voting
  | scheduled => cases voting
  | activated => cases voting

def OwnIds (blake2 : Bytes → Hash32) (domainId : DomainId) : Prop :=
  ∀ m n, governanceProposalId blake2 domainId m = governanceProposalId blake2 domainId n → m = n

def Numbered (blake2 : Bytes → Hash32) (domainId : DomainId) (state : State)
    (id : GovernanceProposalId) : Prop :=
  ∃ sequence < state.nextProposalSequence, governanceProposalId blake2 domainId sequence = id

theorem Numbered.ne_next {id : GovernanceProposalId} {domainId : DomainId}
    (own : OwnIds blake2 domainId) (issued : Numbered blake2 domainId state id) :
    id ≠ state.nextProposalId blake2 domainId := by
  obtain ⟨sequence, below, rfl⟩ := issued
  intro same
  exact UInt64.ne_of_lt below (own _ _ same)

theorem Touch.numbered (touch : Touch blake2 currency context balances state cause state')
    {domainId : DomainId} {id : GovernanceProposalId} (issued : Numbered blake2 domainId state id) :
    Numbered blake2 domainId state' id := by
  obtain ⟨sequence, below, named⟩ := issued
  exact ⟨sequence, UInt64.lt_of_lt_of_le below touch.le_sequence, named⟩

/-- What the entries under vote and the stored leaves say about each other. -/
structure Emissions (blake2 : Bytes → Hash32) (domainId : DomainId) (state : State) : Prop where
  voting : ∀ {id proposal}, state.proposalsById id = some proposal → proposal.status = .voting →
    Numbered blake2 domainId state id
  proposals : ∀ {hash leaf}, state.governanceLeavesById hash = some (.proposalV1 leaf) →
    Numbered blake2 domainId state leaf.proposalId ∧
      ∃ proposal, state.proposalsById leaf.proposalId = some proposal ∧ proposal.status ≠ .voting
  acks : ∀ {hash leaf}, state.governanceLeavesById hash = some (.ackV1 leaf) →
    (state.proposalsById leaf.proposalId).isSome
  single : ∀ {hash hash' leaf leaf'}, state.governanceLeavesById hash = some leaf →
    state.governanceLeavesById hash' = some leaf' → leaf.kindOrder = leaf'.kindOrder →
    leaf.proposalId = leaf'.proposalId → leaf.targetDomain = leaf'.targetDomain → leaf = leaf'

theorem genesis_emissions {domainId : DomainId} (protocolVersion : UInt32)
    (importerAccount : Option AccountId) (voters : List AccountId) :
    Emissions blake2 domainId (genesis protocolVersion importerAccount voters) := by
  constructor <;> simp [genesis]

theorem Emissions.new_leaf_apart (holds : Emissions blake2 context.domainId state)
    (touch : Touch blake2 currency context balances state cause state')
    (local' : VotingLocal context.domainId state) {hash hash' : Hash32} {old new : GovernanceLeaf}
    (before : state.governanceLeavesById hash = some old)
    (stored : state'.governanceLeavesById hash' = some new)
    (absent : state.governanceLeavesById hash' ≠ some new) (kind : old.kindOrder = new.kindOrder)
    (named : old.proposalId = new.proposalId) : False := by
  rcases touch.new_leaf local' stored absent with
    ⟨proposalKind, proposal, found, voting⟩ | ⟨ackKind, unknown⟩
  · cases old with
    | proposalV1 leaf =>
        obtain ⟨_, closed, found', settled⟩ := holds.proposals before
        change leaf.proposalId = _ at named
        rw [named, found] at found'
        cases found'
        exact settled voting
    | ackV1 leaf => cases kind.trans proposalKind
  · cases old with
    | proposalV1 leaf => cases kind.trans ackKind
    | ackV1 leaf =>
        have missing : state.proposalsById leaf.proposalId = none :=
          (congrArg state.proposalsById named).trans unknown
        have known := holds.acks before
        rw [missing] at known
        cases known

theorem Touch.new_leaves_single (touch : Touch blake2 currency context balances state cause state')
    (local' : VotingLocal context.domainId state) {hash hash' : Hash32}
    {leaf leaf' : GovernanceLeaf} (stored : state'.governanceLeavesById hash = some leaf)
    (absent : state.governanceLeavesById hash ≠ some leaf)
    (stored' : state'.governanceLeavesById hash' = some leaf')
    (absent' : state.governanceLeavesById hash' ≠ some leaf')
    (kind : leaf.kindOrder = leaf'.kindOrder) (named : leaf.proposalId = leaf'.proposalId)
    (targeted : leaf.targetDomain = leaf'.targetDomain) : leaf = leaf' := by
  cases touch.leafOrigin local' stored with
  | kept old => exact absurd old absent
  | outbound proposal target _ _ entry written =>
      cases touch.leafOrigin local' stored' with
      | kept old => exact absurd old absent'
      | outbound proposal' target' _ _ entry' written' =>
          subst written written'
          have sameId : proposal.proposalId = proposal'.proposalId := named
          rw [sameId] at entry
          cases entry.symm.trans entry'
          cases (show target = target' from targeted)
          rfl
      | fanout claim target' _ _ written' =>
          subst written written'
          cases kind
  | fanout claim target _ entry written =>
      cases touch.leafOrigin local' stored' with
      | kept old => exact absurd old absent'
      | outbound proposal' target' _ _ _ written' =>
          subst written written'
          cases kind
      | fanout claim' target' _ entry' written' =>
          subst written written'
          have sameId : claim.leaf.proposalId = claim'.leaf.proposalId := named
          rw [sameId, entry', Option.some.injEq] at entry
          cases (show target = target' from targeted)
          rw [entry]

theorem Touch.emissions (touch : Touch blake2 currency context balances state cause state')
    (own : OwnIds blake2 context.domainId) (room : state.nextProposalSequence.toNat + 1 < 2 ^ 64)
    (local' : VotingLocal context.domainId state)
    (holds : Emissions blake2 context.domainId state) :
    Emissions blake2 context.domainId state' := by
  constructor
  · intro id proposal stored voting
    cases touch.proposalOrigin stored with
    | kept old => exact touch.numbered (holds.voting old voting)
    | advanced earlier old advance =>
        exact touch.numbered (holds.voting old (advance.voting voting))
    | created issued _ _ _ _ sequence =>
        refine ⟨state.nextProposalSequence, ?_, issued.symm⟩
        rw [sequence]
        exact lt_saturatingAdd64_one room
    | imported claim _ _ _ _ _ written => subst written; cases voting
  · intro hash leaf stored
    cases touch.leafOrigin local' stored with
    | kept old =>
        obtain ⟨issued, proposal, found, settled⟩ := holds.proposals old
        refine ⟨touch.numbered issued, ?_⟩
        rcases touch.entry_kept found (fun _ _ _ => issued.ne_next own) with
          kept | ⟨proposal', kept, advance⟩
        · exact ⟨proposal, kept, settled⟩
        · exact ⟨proposal', kept, fun voting => settled (advance.voting voting)⟩
    | outbound proposal target finalized sourced entry written =>
        cases written
        refine ⟨?_, proposal, entry, fun voting => not_finalized_of_voting voting finalized⟩
        by_cases old : state.governanceLeavesById hash = state'.governanceLeavesById hash
        · exact touch.numbered (holds.proposals (old.trans stored)).1
        · rcases touch.new_leaf local' stored (stored ▸ old) with
            ⟨_, earlier, found, voting⟩ | ⟨kind, _⟩
          · exact touch.numbered (holds.voting found voting)
          · cases kind
    | fanout claim target _ _ written => cases written
  · intro hash leaf stored
    cases touch.leafOrigin local' stored with
    | kept old => exact touch.proposals_kept (holds.acks old)
    | outbound proposal target _ _ _ written => cases written
    | fanout claim target _ entry written =>
        cases written
        exact (Option.isSome_iff_exists.mpr ⟨_, entry⟩ :
          (state'.proposalsById claim.leaf.proposalId).isSome)
  · intro hash hash' leaf leaf' stored stored' kind named targeted
    by_cases old : state.governanceLeavesById hash = some leaf
    · by_cases old' : state.governanceLeavesById hash' = some leaf'
      · exact holds.single old old' kind named targeted
      · exact (holds.new_leaf_apart touch local' old stored' old' kind named).elim
    · by_cases old' : state.governanceLeavesById hash' = some leaf'
      · exact (holds.new_leaf_apart touch local' old' stored old kind.symm named.symm).elim
      · exact touch.new_leaves_single local' stored old stored' old' kind named targeted

end Touches

section Runs

variable {Balances : Type} {blake2 : Bytes → Hash32} {currency : Currency Balances}
  {domainId : DomainId} {protocolVersion : UInt32} {importerAccount : Option AccountId}
  {voters : List AccountId} {chamber : Chamber}

theorem emissions_of_reachable (own : OwnIds blake2 domainId)
    (reachable : (system blake2 currency domainId protocolVersion importerAccount voters).Reachable
      chamber) :
    Emissions blake2 domainId chamber.state := by
  apply reachable.invariant fun chamber => Emissions blake2 domainId chamber.state
  · intro _ initial
    subst initial
    exact genesis_emissions protocolVersion importerAccount voters
  · intro _ _ reached holds move
    cases move with
    | touched domain epoch room touch =>
        subst domain
        exact touch.emissions own room (votingLocal_of_reachable reached) holds
    | advanced => exact holds

def epochGovernanceLeaves (state : State) (epochId : EpochId) : List GovernanceLeaf :=
  (state.epochGovernanceLeafIds epochId).filterMap state.governanceLeavesById

theorem epochGovernanceLeaves_untied (own : OwnIds blake2 domainId)
    (reachable : (system blake2 currency domainId protocolVersion importerAccount voters).Reachable
      chamber)
    (epochId : EpochId) {left right : GovernanceLeaf}
    (present : left ∈ epochGovernanceLeaves chamber.state epochId)
    (present' : right ∈ epochGovernanceLeaves chamber.state epochId)
    (tie : governanceLeafOrdering left right = .eq) : left = right := by
  obtain ⟨hash, _, stored⟩ := List.mem_filterMap.mp present
  obtain ⟨hash', _, stored'⟩ := List.mem_filterMap.mp present'
  obtain ⟨kind, named, targeted⟩ := keys_of_tie tie
  exact (emissions_of_reachable own reachable).single stored stored' kind named targeted

end Runs

end Ialp.Governance
