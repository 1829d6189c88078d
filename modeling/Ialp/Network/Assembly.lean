import Ialp.Network.Network
import Ialp.Pallets.GovernanceLifecycle

/-!
The governance pallets of all domains together. Importers submit only leaves that some domain has
written; under that discipline, what a domain knows about a proposal agrees with its source, and an
acknowledgement is only known where the acknowledging domain has imported the proposal.
-/

namespace Ialp.Governance

open Scale Function Transition Relation

abbrev Assembly := DomainId → State

namespace Assembly

def Stored (assembly : Assembly) (leaf : GovernanceLeaf) : Prop :=
  ∃ domain hash, (assembly domain).governanceLeavesById hash = some leaf

def Honest (assembly : Assembly) (cause : Option Call) : Prop :=
  ∀ leaf, cause.bind Call.importedLeaf = some leaf → assembly.Stored leaf

theorem honest_none (assembly : Assembly) : assembly.Honest none := by
  intro leaf imports
  cases imports

section System

variable {Balances : Type} (blake2 : Bytes → Hash32) (currency : Currency Balances)

/-- A step of the pallet of one domain, while it has proposal sequence numbers left. -/
inductive Step (assembly assembly' : Assembly) : Prop where
  | touched (context : CallContext) (balances : Balances) {cause : Option Call}
      (room : (assembly context.domainId).nextProposalSequence.toNat + 1 < 2 ^ 64)
      (honest : assembly.Honest cause)
      (touch : Touch blake2 currency context balances (assembly context.domainId) cause
        (assembly' context.domainId))
      (others : ∀ domain, domain ≠ context.domainId → assembly' domain = assembly domain)

def system (versions : DomainId → UInt32) : System Assembly where
  initial assembly := ∀ domain, ∃ importerAccount voters,
    assembly domain = genesis (versions domain) importerAccount voters
  step := Step blake2 currency

end System

def Imported (assembly : Assembly) (domain : DomainId) (id : GovernanceProposalId) : Prop :=
  ∃ proposal, (assembly domain).proposalsById id = some proposal ∧ proposal.sourceDomain ≠ domain

structure SameDecision (proposal source : GovernanceProposal) : Prop where
  targetDomains : proposal.targetDomains = source.targetDomains
  payload : proposal.payload = source.payload
  payloadHash : proposal.payloadHash = source.payloadHash
  activationEpoch : proposal.activationEpoch = source.activationEpoch

structure Acknowledges (record : GovernanceAckRecord) (proposal : GovernanceProposal) : Prop where
  targetDomains : record.targetDomains = proposal.targetDomains
  payloadHash : record.payloadHash = proposal.payloadHash
  newProtocolVersion : record.newProtocolVersion = proposal.payload.protocolVersion
  activationEpoch : record.activationEpoch = proposal.activationEpoch

theorem Acknowledges.carry {record : GovernanceAckRecord} {proposal source : GovernanceProposal}
    (states : Acknowledges record proposal) (same : SameDecision proposal source) :
    Acknowledges record source where
  targetDomains := states.targetDomains.trans same.targetDomains
  payloadHash := states.payloadHash.trans same.payloadHash
  newProtocolVersion := states.newProtocolVersion.trans (congrArg _ same.payload)
  activationEpoch := states.activationEpoch.trans same.activationEpoch

structure ImportedFrom (assembly : Assembly) (domain : DomainId) (id : GovernanceProposalId)
    (proposal : GovernanceProposal) : Prop where
  finalized : Finalized proposal
  listed : domain ∈ proposal.targetDomains
  origin : ∃ source, (assembly proposal.sourceDomain).proposalsById id = some source ∧
    source.sourceDomain = proposal.sourceDomain ∧ Finalized source ∧ SameDecision proposal source
  acknowledged : ∃ record, (assembly domain).ackRecordsByKey (id, domain) = some record ∧
    Acknowledges record proposal

structure LeafOf (leaf : GovernanceProposalLeaf) (proposal : GovernanceProposal) : Prop where
  sourceDomain : leaf.sourceDomain = proposal.sourceDomain
  targetDomains : leaf.targetDomains = proposal.targetDomains
  payloadHash : leaf.payloadHash = proposal.payloadHash
  newProtocolVersion : leaf.newProtocolVersion = proposal.payload.protocolVersion
  activationEpoch : leaf.activationEpoch = proposal.activationEpoch

theorem LeafOf.carry {leaf : GovernanceProposalLeaf} {proposal proposal' : GovernanceProposal}
    (states : LeafOf leaf proposal) (terms : SameTerms proposal proposal')
    (epoch : proposal'.activationEpoch = proposal.activationEpoch) : LeafOf leaf proposal' where
  sourceDomain := states.sourceDomain.trans terms.sourceDomain.symm
  targetDomains := states.targetDomains.trans terms.targetDomains.symm
  payloadHash := states.payloadHash.trans terms.payloadHash.symm
  newProtocolVersion := by rw [terms.payload, states.newProtocolVersion]
  activationEpoch := states.activationEpoch.trans epoch.symm

structure ProposalsAccord (blake2 : Bytes → Hash32) (assembly : Assembly) : Prop where
  voting : ∀ domain, VotingLocal domain (assembly domain)
  keyed : ∀ {domain id proposal}, (assembly domain).proposalsById id = some proposal →
    proposal.proposalId = id
  issued : ∀ {domain id proposal}, (assembly domain).proposalsById id = some proposal →
    proposal.sourceDomain = domain →
    ∃ sequence < (assembly domain).nextProposalSequence,
      governanceProposalId blake2 domain sequence = id
  passed : ∀ {domain id proposal}, (assembly domain).proposalsById id = some proposal →
    proposal.sourceDomain = domain → Finalized proposal → Passed proposal ∧
      proposal.approvalEpoch.isSome = true
  imported : ∀ {domain id proposal}, (assembly domain).proposalsById id = some proposal →
    proposal.sourceDomain ≠ domain → assembly.ImportedFrom domain id proposal

structure LeavesAccord (assembly : Assembly) : Prop where
  outbound : ∀ {domain hash leaf}, (assembly domain).governanceLeavesById hash =
    some (.proposalV1 leaf) →
    ∃ proposal, (assembly domain).proposalsById leaf.proposalId = some proposal ∧
      proposal.sourceDomain = domain ∧ Finalized proposal ∧ LeafOf leaf proposal
  fanout : ∀ {domain hash leaf}, (assembly domain).governanceLeavesById hash = some (.ackV1 leaf) →
    leaf.acknowledgingDomain = domain ∧ assembly.Imported domain leaf.proposalId

/-- A domain known to have acknowledged a proposal has imported it, and every target has when it is
scheduled. -/
structure ActivationsAccord (assembly : Assembly) : Prop where
  acks : ∀ {domain id other record}, (assembly domain).ackRecordsByKey (id, other) = some record →
    (∃ proposal, (assembly domain).proposalsById id = some proposal) ∧ assembly.Imported other id
  records : ∀ {domain id record}, (assembly domain).activationRecordsById id = some record →
    ∃ proposal, (assembly domain).proposalsById id = some proposal ∧ Finalized proposal ∧
      RecordOf proposal record ∧ ∀ other ∈ record.knownAckDomains, assembly.Imported other id
  queued : ∀ {domain id proposal}, (assembly domain).proposalsById id = some proposal →
    proposal.status = .scheduled ∨ proposal.status = .activated →
    ∃ record, (assembly domain).activationRecordsById id = some record ∧
      hasFullAckSet record.targetDomains record.knownAckDomains = true ∧
      (proposal.status = .activated → ∃ e, record.activatedAtEpoch = some e ∧
        proposal.activationEpoch ≤ e)

structure Accord (blake2 : Bytes → Hash32) (assembly : Assembly) : Prop extends
  ProposalsAccord blake2 assembly, LeavesAccord assembly, ActivationsAccord assembly

variable {blake2 : Bytes → Hash32} {assembly assembly' : Assembly}

structure Continues (assembly assembly' : Assembly) : Prop where
  proposal : ∀ {domain id proposal}, (assembly domain).proposalsById id = some proposal →
    ∃ proposal', (assembly' domain).proposalsById id = some proposal' ∧
      SameTerms proposal proposal' ∧
      (Finalized proposal → Finalized proposal' ∧ proposal'.activationEpoch =
        proposal.activationEpoch)
  ack : ∀ {domain key record}, (assembly domain).ackRecordsByKey key = some record →
    (assembly' domain).ackRecordsByKey key = some record

namespace Continues

theorem imported (continues : Continues assembly assembly') {domain : DomainId}
    {id : GovernanceProposalId} (imported : assembly.Imported domain id) :
    assembly'.Imported domain id := by
  obtain ⟨proposal, stored, foreign⟩ := imported
  obtain ⟨proposal', stored', terms, _⟩ := continues.proposal stored
  exact ⟨proposal', stored', terms.sourceDomain ▸ foreign⟩

theorem importedFrom (continues : Continues assembly assembly') {domain : DomainId}
    {id : GovernanceProposalId} {proposal proposal' : GovernanceProposal}
    (imported : assembly.ImportedFrom domain id proposal) (terms : SameTerms proposal proposal')
    (finalized : Finalized proposal')
    (epoch : proposal'.activationEpoch = proposal.activationEpoch) :
    assembly'.ImportedFrom domain id proposal' := by
  obtain ⟨source, stored, sourced, sourceFinalized, same⟩ := imported.origin
  obtain ⟨source', stored', sourceTerms, outcome⟩ := continues.proposal stored
  obtain ⟨finalized', epoch'⟩ := outcome sourceFinalized
  obtain ⟨record, acknowledged, states⟩ := imported.acknowledged
  constructor
  · exact finalized
  · rw [terms.targetDomains]
    exact imported.listed
  · rw [terms.sourceDomain]
    refine ⟨source', stored', sourceTerms.sourceDomain.trans sourced, finalized', ?_⟩
    constructor
    · rw [terms.targetDomains, sourceTerms.targetDomains, same.targetDomains]
    · rw [terms.payload, sourceTerms.payload, same.payload]
    · rw [terms.payloadHash, sourceTerms.payloadHash, same.payloadHash]
    · rw [epoch, epoch', same.activationEpoch]
  · refine ⟨record, continues.ack acknowledged, ?_⟩
    constructor
    · rw [terms.targetDomains, states.targetDomains]
    · rw [terms.payloadHash, states.payloadHash]
    · rw [terms.payload, states.newProtocolVersion]
    · rw [epoch, states.activationEpoch]

end Continues

theorem Accord.source (accord : Accord blake2 assembly) {domain : DomainId}
    {id : GovernanceProposalId} {proposal : GovernanceProposal}
    (stored : (assembly domain).proposalsById id = some proposal) (finalized : Finalized proposal) :
    ∃ source, (assembly proposal.sourceDomain).proposalsById id = some source ∧
      source.sourceDomain = proposal.sourceDomain ∧ Finalized source ∧
        SameDecision proposal source := by
  by_cases own : proposal.sourceDomain = domain
  · subst own
    exact ⟨proposal, stored, rfl, finalized, rfl, rfl, rfl, rfl⟩
  · exact (accord.imported stored own).origin

section Fresh

variable (injective : IdInjective blake2)
include injective

theorem Accord.source_unique (accord : Accord blake2 assembly) {domain other : DomainId}
    {id : GovernanceProposalId} {proposal proposal' : GovernanceProposal}
    (stored : (assembly domain).proposalsById id = some proposal)
    (own : proposal.sourceDomain = domain)
    (stored' : (assembly other).proposalsById id = some proposal')
    (own' : proposal'.sourceDomain = other) : domain = other := by
  obtain ⟨sequence, _, issued⟩ := accord.issued stored own
  obtain ⟨sequence', _, issued'⟩ := accord.issued stored' own'
  exact (injective _ _ _ _ (issued.trans issued'.symm)).1

theorem Accord.copy (accord : Accord blake2 assembly) {domain target : DomainId}
    {id : GovernanceProposalId} {source : GovernanceProposal}
    (imported : assembly.Imported target id)
    (found : (assembly domain).proposalsById id = some source)
    (sourced : source.sourceDomain = domain) :
    ∃ copy record, (assembly target).proposalsById id = some copy ∧ copy.sourceDomain = domain ∧
      copy.sourceDomain ≠ target ∧ Finalized copy ∧ SameDecision copy source ∧
      (assembly target).ackRecordsByKey (id, target) = some record ∧
        Acknowledges record source := by
  obtain ⟨copy, stored, foreign⟩ := imported
  have facts := accord.imported stored foreign
  obtain ⟨origin, found', sourced', _, same⟩ := facts.origin
  obtain ⟨record, acknowledged, states⟩ := facts.acknowledged
  have home : copy.sourceDomain = domain :=
    accord.source_unique injective found' sourced' found sourced
  rw [home] at found'
  obtain rfl : origin = source := Option.some.inj (found'.symm.trans found)
  exact ⟨copy, record, stored, home, foreign, facts.finalized, same,
    acknowledged, states.carry same⟩

theorem Accord.fresh (accord : Accord blake2 assembly) (domain : DomainId) :
    (assembly domain).proposalsById ((assembly domain).nextProposalId blake2 domain) = none := by
  by_contra used
  obtain ⟨proposal, stored⟩ := Option.ne_none_iff_exists'.mp used
  by_cases own : proposal.sourceDomain = domain
  · obtain ⟨sequence, bound, issued⟩ := accord.issued stored own
    have same := (injective _ _ _ _ issued).2
    exact absurd bound (same ▸ UInt64.lt_irrefl _)
  · obtain ⟨source, sourceStored, sourced, _⟩ := (accord.imported stored own).origin
    obtain ⟨sequence, _, issued⟩ := accord.issued sourceStored sourced
    exact own (injective _ _ _ _ issued).1

end Fresh

theorem Accord.passed_of_advance (accord : Accord blake2 assembly) {context : CallContext}
    {id : GovernanceProposalId} {earlier proposal : GovernanceProposal}
    (stored : (assembly context.domainId).proposalsById id = some earlier)
    (advance : Advance context earlier proposal)
    (sourced : proposal.sourceDomain = context.domainId) (finalized : Finalized proposal) :
    Passed proposal ∧ proposal.approvalEpoch.isSome = true := by
  have local' : earlier.sourceDomain = context.domainId := advance.sameTerms.sourceDomain ▸ sourced
  -- only the approval takes a proposal from the vote to its outcome
  cases advance with
  | voted choice power voting => cases choice <;> simp [countVote, Finalized, voting] at finalized
  | rejected voting => simp [Finalized] at finalized
  | approved voting passed => exact ⟨passed, rfl⟩
  | scheduled before =>
      have passed := accord.passed stored local' (.inl before)
      exact passed
  | activated before =>
      have passed := accord.passed stored local' (.inr (.inl before))
      exact passed

theorem Accord.importedFrom_of_claim (accord : Accord blake2 assembly)
    {context : CallContext} {state' : State} (self : assembly' context.domainId = state')
    {claim : ImportedGovernanceProposalClaim} (continues : Continues assembly assembly')
    (stored : assembly.Stored (.proposalV1 claim.leaf))
    (listed : context.domainId ∈ claim.leaf.targetDomains)
    (acknowledged : state'.ackRecordsByKey (claim.leaf.proposalId, context.domainId) =
      some (localAckRecord context (importedProposal claim.leaf))) :
    assembly'.ImportedFrom context.domainId claim.leaf.proposalId
      (importedProposal claim.leaf) := by
  obtain ⟨domain, hash, written⟩ := stored
  obtain ⟨source, found, sourced, finalized, states⟩ := accord.outbound written
  obtain ⟨source', found', terms, outcome⟩ := continues.proposal found
  obtain ⟨finalized', epoch⟩ := outcome finalized
  have home : claim.leaf.sourceDomain = domain := states.sourceDomain.trans sourced
  constructor
  · exact .inl rfl
  · exact listed
  · refine ⟨source', ?_, ?_, finalized', ?_⟩
    · change (assembly' claim.leaf.sourceDomain).proposalsById _ = _
      exact home ▸ found'
    · exact terms.sourceDomain.trans states.sourceDomain.symm
    · constructor
      · exact states.targetDomains.trans terms.targetDomains.symm
      · calc GovernancePayload.setProtocolVersion claim.leaf.newProtocolVersion
            = .setProtocolVersion source.payload.protocolVersion := by
              rw [states.newProtocolVersion]
          _ = source.payload := by cases source.payload; rfl
          _ = source'.payload := terms.payload.symm
      · exact states.payloadHash.trans terms.payloadHash.symm
      · exact states.activationEpoch.trans epoch.symm
  · exact ⟨_, self ▸ acknowledged, rfl, rfl, rfl, rfl⟩

theorem Accord.imported_of_ack (accord : Accord blake2 assembly) {leaf : GovernanceAckLeaf}
    (stored : assembly.Stored (.ackV1 leaf)) :
    assembly.Imported leaf.acknowledgingDomain leaf.proposalId := by
  obtain ⟨domain, hash, written⟩ := stored
  obtain ⟨rfl, imported⟩ := accord.fanout written
  exact imported

section Touched

variable {Balances : Type} {currency : Currency Balances} {context : CallContext}
  {balances : Balances} {cause : Option Call} {state' : State} (accord : Accord blake2 assembly)
  (touch : Touch blake2 currency context balances (assembly context.domainId) cause state')
  (self : assembly' context.domainId = state')
  (others : ∀ domain, domain ≠ context.domainId → assembly' domain = assembly domain)
include accord touch self others

theorem continues_of_touch (injective : IdInjective blake2) : Continues assembly assembly' := by
  constructor
  · intro domain id proposal stored
    by_cases here : domain = context.domainId
    · subst here
      rcases touch.proposal_kept (fun _ _ _ => accord.fresh injective _) stored with
        kept | ⟨proposal', written, advance⟩
      · exact ⟨proposal, self ▸ kept, .refl _, fun finalized => ⟨finalized, rfl⟩⟩
      · refine ⟨proposal', self ▸ written, advance.sameTerms, fun finalized => ?_⟩
        have outcome := advance.finalized finalized
        exact ⟨outcome.1, outcome.2.1⟩
    · rw [others domain here]
      exact ⟨proposal, stored, .refl _, fun finalized => ⟨finalized, rfl⟩⟩
  · intro domain key record stored
    by_cases here : domain = context.domainId
    · subst here
      rw [self]
      apply touch.ack_kept _ stored
      intro id unknown
      by_contra known
      obtain ⟨record, acknowledged⟩ := Option.ne_none_iff_exists'.mp known
      obtain ⟨⟨proposal, found⟩, _⟩ := accord.acks acknowledged
      exact absurd (unknown.symm.trans found) (by simp)
    · rw [others domain here]
      exact stored

theorem proposalsAccord_of_touch (continues : Continues assembly assembly')
    (room : (assembly context.domainId).nextProposalSequence.toNat + 1 < 2 ^ 64)
    (honest : assembly.Honest cause) : ProposalsAccord blake2 assembly' := by
  have later : ∀ domain, (assembly domain).nextProposalSequence ≤
      (assembly' domain).nextProposalSequence := by
    intro domain
    by_cases here : domain = context.domainId
    · subst here
      exact self ▸ touch.le_sequence
    · exact others domain here ▸ UInt64.le_rfl
  constructor
  case voting =>
    intro domain
    by_cases here : domain = context.domainId
    · subst here
      exact self ▸ touch.votingLocal (accord.voting _)
    · exact others domain here ▸ accord.voting domain
  case keyed =>
    intro domain id proposal stored
    by_cases here : domain = context.domainId
    · subst here
      cases touch.proposalOrigin (self ▸ stored) with
      | kept old => exact accord.keyed old
      | advanced earlier old advance => exact advance.sameTerms.proposalId.trans (accord.keyed old)
      | created issued keyed => exact keyed
      | imported claim caused keyed unknown foreign listed written => rw [keyed, written]; rfl
    · exact accord.keyed (others domain here ▸ stored)
  case issued =>
    intro domain id proposal stored sourced
    have old : ∀ {earlier}, (assembly domain).proposalsById id = some earlier →
        earlier.sourceDomain = domain →
        ∃ sequence < (assembly' domain).nextProposalSequence,
          governanceProposalId blake2 domain sequence = id := by
      intro earlier old sourced
      obtain ⟨sequence, bound, issued⟩ := accord.issued old sourced
      exact ⟨sequence, UInt64.lt_of_lt_of_le bound (later domain), issued⟩
    by_cases here : domain = context.domainId
    · subst here
      cases touch.proposalOrigin (self ▸ stored) with
      | kept kept => exact old kept sourced
      | advanced earlier kept advance => exact old kept (advance.sameTerms.sourceDomain ▸ sourced)
      | created issued keyed voting local' targets sequence =>
          refine ⟨_, ?_, issued.symm⟩
          rw [self, sequence]
          exact lt_saturatingAdd64_one room
      | imported claim caused keyed unknown foreign listed written =>
          rw [written] at sourced
          exact absurd sourced foreign
    · exact old (others domain here ▸ stored) sourced
  case passed =>
    intro domain id proposal stored sourced finalized
    by_cases here : domain = context.domainId
    · subst here
      cases touch.proposalOrigin (self ▸ stored) with
      | kept old => exact accord.passed old sourced finalized
      | advanced earlier old advance => exact accord.passed_of_advance old advance sourced finalized
      | created issued keyed voting => exact absurd finalized (not_finalized_of_voting voting)
      | imported claim caused keyed unknown foreign listed written =>
          rw [written] at sourced
          exact absurd sourced foreign
    · exact accord.passed (others domain here ▸ stored) sourced finalized
  case imported =>
    intro domain id proposal stored foreign
    have kept : (assembly domain).proposalsById id = some proposal →
        assembly'.ImportedFrom domain id proposal := fun old =>
      have imported := accord.imported old foreign
      continues.importedFrom imported (.refl _) imported.finalized rfl
    by_cases here : domain = context.domainId
    · subst here
      cases touch.proposalOrigin (self ▸ stored) with
      | kept old => exact kept old
      | advanced earlier old advance =>
          have imported := accord.imported old (advance.sameTerms.sourceDomain ▸ foreign)
          have outcome := advance.finalized imported.finalized
          exact continues.importedFrom imported advance.sameTerms outcome.1 outcome.2.1
      | created issued keyed voting sourced => exact absurd sourced foreign
      | imported claim caused keyed unknown foreign listed written acknowledged =>
          subst caused keyed written
          exact accord.importedFrom_of_claim self continues (honest _ rfl) listed acknowledged
    · exact kept (others domain here ▸ stored)

theorem leavesAccord_of_touch (continues : Continues assembly assembly') :
    LeavesAccord assembly' := by
  constructor
  case outbound =>
    intro domain hash leaf stored
    have kept : (assembly domain).governanceLeavesById hash = some (.proposalV1 leaf) →
        ∃ proposal, (assembly' domain).proposalsById leaf.proposalId = some proposal ∧
          proposal.sourceDomain = domain ∧ Finalized proposal ∧ LeafOf leaf proposal := by
      intro old
      obtain ⟨proposal, found, sourced, finalized, states⟩ := accord.outbound old
      obtain ⟨proposal', found', terms, outcome⟩ := continues.proposal found
      obtain ⟨finalized', epoch'⟩ := outcome finalized
      exact ⟨proposal', found', terms.sourceDomain.trans sourced, finalized',
        states.carry terms epoch'⟩
    by_cases here : domain = context.domainId
    · subst here
      cases touch.leafOrigin (accord.voting _) (self ▸ stored) with
      | kept old => exact kept old
      | outbound proposal target finalized sourced found written =>
          cases written
          exact ⟨proposal, self ▸ found, sourced, finalized, rfl, rfl, rfl, rfl, rfl⟩
      | fanout claim target foreign found written => cases written
    · exact kept (others domain here ▸ stored)
  case fanout =>
    intro domain hash leaf stored
    have kept : (assembly domain).governanceLeavesById hash = some (.ackV1 leaf) →
        leaf.acknowledgingDomain = domain ∧ assembly'.Imported domain leaf.proposalId := fun old =>
      have fact := accord.fanout old
      ⟨fact.1, continues.imported fact.2⟩
    by_cases here : domain = context.domainId
    · subst here
      cases touch.leafOrigin (accord.voting _) (self ▸ stored) with
      | kept old => exact kept old
      | outbound proposal target finalized sourced found written => cases written
      | fanout claim target foreign found written =>
          cases written
          exact ⟨rfl, importedProposal claim.leaf, self ▸ found, foreign⟩
    · exact kept (others domain here ▸ stored)

theorem activationsAccord_of_touch (continues : Continues assembly assembly')
    (honest : assembly.Honest cause) : ActivationsAccord assembly' := by
  constructor
  case acks =>
    intro domain id other record stored
    have kept : (assembly domain).ackRecordsByKey (id, other) = some record →
        (∃ proposal, (assembly' domain).proposalsById id = some proposal) ∧
          assembly'.Imported other id := by
      intro old
      obtain ⟨⟨proposal, found⟩, imported⟩ := accord.acks old
      obtain ⟨proposal', found', _⟩ := continues.proposal found
      exact ⟨⟨proposal', found'⟩, continues.imported imported⟩
    by_cases here : domain = context.domainId
    · subst here
      cases touch.ackOrigin (self ▸ stored) with
      | kept old => exact kept old
      | own claim keyed other foreign found written =>
          subst other
          exact ⟨⟨_, self ▸ found⟩, _, self ▸ found, foreign⟩
      | imported claim caused keyed acknowledging other proposal found =>
          subst caused keyed acknowledging
          exact ⟨⟨proposal, self ▸ found⟩,
            continues.imported (accord.imported_of_ack (honest _ rfl))⟩
    · exact kept (others domain here ▸ stored)
  case records =>
    intro domain id record stored
    have kept : ∀ {earlier}, (assembly domain).activationRecordsById id = some earlier →
        record.targetDomains = earlier.targetDomains →
          record.activationEpoch = earlier.activationEpoch →
        (∀ other ∈ record.knownAckDomains, other ∈ earlier.knownAckDomains ∨
          assembly.Imported other id) →
        ∃ proposal, (assembly' domain).proposalsById id = some proposal ∧ Finalized proposal ∧
          RecordOf proposal record ∧ ∀ other ∈ record.knownAckDomains,
            assembly'.Imported other id := by
      intro earlier old targets epoch known
      obtain ⟨proposal, found, finalized, recordOf, imported⟩ := accord.records old
      obtain ⟨proposal', found', terms, outcome⟩ := continues.proposal found
      obtain ⟨finalized', epoch'⟩ := outcome finalized
      refine ⟨proposal', found', finalized', ⟨?_, ?_⟩, fun other member => continues.imported ?_⟩
      · rw [targets, recordOf.targetDomains, terms.targetDomains]
      · rw [epoch, recordOf.activationEpoch, epoch']
      · exact (known other member).elim (imported other) fun fact => fact
    by_cases here : domain = context.domainId
    · subst here
      cases touch.recordOrigin (accord.voting _) (self ▸ stored) with
      | opened proposal finalized found recordOf known =>
          refine ⟨proposal, self ▸ found, finalized, recordOf, fun other member => ?_⟩
          obtain ⟨rfl, foreign⟩ := known other member
          exact ⟨proposal, self ▸ found, foreign⟩
      | revised earlier old targets epoch known =>
          apply kept old targets epoch
          intro other member
          rcases known other member with before | ⟨claim, rfl, rfl, rfl⟩
          · exact .inl before
          · exact .inr (accord.imported_of_ack (honest _ rfl))
    · exact kept (others domain here ▸ stored) rfl rfl fun other member => .inl member
  case queued =>
    intro domain id proposal stored queued
    by_cases here : domain = context.domainId
    · subst here
      rw [self] at stored ⊢
      rcases touch.scheduling stored queued with
        old | ⟨earlier, record, record', old, advance, recorded, full, recorded', retains, active⟩
      · obtain ⟨record, recorded, full, active⟩ := accord.queued old queued
        obtain ⟨record', recorded', retains, same⟩ :=
          touch.record_kept (accord.voting _) old (.inr queued) recorded
        refine ⟨record', recorded', retains.full full, fun activated => ?_⟩
        rw [same activated]
        exact active activated
      · refine ⟨record', recorded', retains.full full, fun activated => ?_⟩
        obtain ⟨source, found, finalized, recordOf, _⟩ := accord.records recorded
        obtain rfl : source = earlier := Option.some.inj (found.symm.trans old)
        obtain ⟨stamped, due⟩ := active activated
        refine ⟨_, stamped, ?_⟩
        rw [(advance.finalized finalized).2.1, ← recordOf.activationEpoch]
        exact due
    · rw [others domain here] at stored ⊢
      exact accord.queued stored queued

theorem accord_of_touch (injective : IdInjective blake2)
    (room : (assembly context.domainId).nextProposalSequence.toNat + 1 < 2 ^ 64)
    (honest : assembly.Honest cause) : Accord blake2 assembly' := by
  have continues := continues_of_touch accord touch self others injective
  constructor
  · exact proposalsAccord_of_touch accord touch self others continues room honest
  · exact leavesAccord_of_touch accord touch self others continues
  · exact activationsAccord_of_touch accord touch self others continues honest

end Touched

section Runs

variable {Balances : Type} {currency : Currency Balances} {versions : DomainId → UInt32}

theorem initial_accord (initial : (system blake2 currency versions).initial assembly) :
    Accord blake2 assembly := by
  choose importerAccount voters started using initial
  obtain rfl := funext started
  constructor
  · constructor <;> simp [VotingLocal, genesis]
  · constructor <;> simp [genesis]
  · constructor <;> simp [genesis]

theorem accord_of_reachable (injective : IdInjective blake2)
    (reachable : (system blake2 currency versions).Reachable assembly) :
    Accord blake2 assembly := by
  apply reachable.invariant (Accord blake2)
  · intro assembly initial
    exact initial_accord initial
  · intro assembly assembly' _ accord step
    cases step with
    | touched context balances room honest touch others =>
        exact accord_of_touch accord touch rfl others injective room honest

theorem versioned_of_reachable (injective : IdInjective blake2)
    (reachable : (system blake2 currency versions).Reachable assembly) (domain : DomainId) :
    Versioned (max (versions domain) 1) (assembly domain) := by
  apply reachable.invariant fun assembly => Versioned (max (versions domain) 1) (assembly domain)
  · intro assembly initial
    obtain ⟨importerAccount, voters, started⟩ := initial domain
    rw [started]
    constructor <;> simp [genesis]
  · intro assembly assembly' reached holds step
    cases step with
    | touched context balances room honest touch others =>
        by_cases here : domain = context.domainId
        · subst here
          exact touch.versioned (fun _ _ _ =>
            (accord_of_reachable injective reached).fresh injective _) holds
        · rw [others domain here]
          exact holds

end Runs

end Assembly

end Ialp.Governance
