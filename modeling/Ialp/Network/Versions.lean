import Ialp.Network.Activation

/-!
Agreement on the protocol version. A domain's version is that of the proposal it activated last. The
order of activation follows the order in which acknowledgements arrive, so that domains with the
same activated proposals can differ; they agree when they activated the same proposal last.
-/

namespace Ialp.Network

open Scale Function Transition Relation Governance

section Agreement

variable {Balances : Type}

def Activated (network : Network Balances) (domain : DomainId) (id : GovernanceProposalId) : Prop :=
  ∃ proposal, (network.chains domain).governance.proposalsById id = some proposal ∧
    proposal.status = .activated

variable {blake2 : Bytes → Hash32} {currency : Currency Balances}
  {config : DomainId → GenesisConfig Balances} {network : Network Balances}

theorem payload_agrees (injective : IdInjective blake2)
    (reachable : (system blake2 currency governancePermits config).Reachable network)
    {domain other : DomainId} {id : GovernanceProposalId} {proposal proposal' : GovernanceProposal}
    (stored : (network.chains domain).governance.proposalsById id = some proposal)
    (finalized : Finalized proposal)
    (stored' : (network.chains other).governance.proposalsById id = some proposal')
    (finalized' : Finalized proposal') : proposal.payload = proposal'.payload := by
  have accord := Assembly.accord_of_reachable injective (assembly_reachable reachable)
  obtain ⟨source, found, sourced, _, same⟩ := accord.source stored finalized
  obtain ⟨source', found', sourced', _, same'⟩ := accord.source stored' finalized'
  have home := accord.source_unique injective found sourced found' sourced'
  rw [home] at found
  obtain rfl : source = source' := Option.some.inj (found.symm.trans found')
  exact same.payload.trans same'.payload.symm

theorem activated_iff (injective : IdInjective blake2)
    (reachable : (system blake2 currency governancePermits config).Reachable network)
    {domain : DomainId} {id : GovernanceProposalId} :
    network.Activated domain id ↔ id ∈ (network.chains domain).governance.activations :=
  ((Assembly.versioned_of_reachable injective (assembly_reachable reachable) domain).activated
    id).symm

/-- Two domains with one genesis version that have activated the same proposals, and the same one
last if any, have the same protocol version. -/
theorem protocol_version_agreement (injective : IdInjective blake2)
    (reachable : (system blake2 currency governancePermits config).Reachable network)
    {domain other : DomainId}
    (sameGenesis : (config domain).protocolVersion = (config other).protocolVersion)
    (sameActivated : ∀ id, network.Activated domain id ↔ network.Activated other id)
    (sameLast : ∀ id, (network.chains domain).governance.activations.getLast? = some id →
      (network.chains other).governance.activations.getLast? = some id) :
    (network.chains domain).governance.protocolVersion =
      (network.chains other).governance.protocolVersion := by
  have versioned := fun domain =>
    Assembly.versioned_of_reachable injective (assembly_reachable reachable) domain
  cases last : (network.chains domain).governance.activations.getLast? with
  | none =>
      have empty := List.getLast?_eq_none_iff.mp last
      have empty' : (network.chains other).governance.activations = [] := by
        apply List.eq_nil_iff_forall_not_mem.mpr
        intro id member
        have activated := (sameActivated id).mpr ((activated_iff injective reachable).mpr member)
        rw [activated_iff injective reachable, empty] at activated
        exact List.not_mem_nil activated
      calc (network.chains domain).governance.protocolVersion
          = max (config domain).protocolVersion 1 := (versioned domain).initial empty
        _ = max (config other).protocolVersion 1 := by rw [sameGenesis]
        _ = (network.chains other).governance.protocolVersion :=
          ((versioned other).initial empty').symm
  | some id =>
      have finalized : ∀ {domain proposal},
          (network.chains domain).governance.activations.getLast? = some id →
          (network.chains domain).governance.proposalsById id = some proposal →
            Finalized proposal := by
        intro domain proposal last stored
        obtain ⟨entry, stored', activated⟩ :=
          (activated_iff injective reachable).mpr (List.mem_of_getLast? last)
        obtain rfl : entry = proposal := Option.some.inj (stored'.symm.trans stored)
        exact .inr (.inr activated)
      obtain ⟨proposal, stored, version⟩ := (versioned domain).last id last
      obtain ⟨proposal', stored', version'⟩ := (versioned other).last id (sameLast id last)
      have payload := payload_agrees injective reachable stored (finalized last stored) stored'
        (finalized (sameLast id last) stored')
      calc (network.chains domain).governance.protocolVersion
          = proposal.payload.protocolVersion := version.symm
        _ = proposal'.payload.protocolVersion := by rw [payload]
        _ = (network.chains other).governance.protocolVersion := version'

end Agreement

section Samples

def outcome (network : Network (AccountId → Chain.Purse)) :
    List GovernanceProposalId × List GovernanceProposalId × UInt32 × UInt32 :=
  ((network.chains .moon).governance.activations, (network.chains .mars).governance.activations,
    (network.chains .moon).governance.protocolVersion,
    (network.chains .mars).governance.protocolVersion)

theorem outcome_aligned :
    (runUpgrade [firstId, secondId]).map outcome =
      some ([firstId, secondId], [firstId, secondId], 3, 3) := by
  decide +kernel

theorem outcome_crossed :
    (runUpgrade [secondId, firstId]).map outcome =
      some ([firstId, secondId], [secondId, firstId], 3, 2) := by
  decide +kernel

theorem protocol_version_agreement_sample :
    ∃ network, runUpgrade [firstId, secondId] = some network ∧
      (network.chains .moon).governance.activations = [firstId, secondId] ∧
      (network.chains .moon).governance.protocolVersion =
        (network.chains .mars).governance.protocolVersion := by
  obtain ⟨network, ran, values⟩ := Option.map_eq_some_iff.mp outcome_aligned
  simp only [outcome, Prod.mk.injEq] at values
  obtain ⟨moon, mars, _⟩ := values
  have reachable := upgrade_reachable ran
  refine ⟨network, ran, moon, ?_⟩
  apply protocol_version_agreement sampleHash_idInjective reachable
  · rfl
  · intro id
    rw [activated_iff sampleHash_idInjective reachable,
      activated_iff sampleHash_idInjective reachable, moon, mars]
  · rw [moon, mars]
    exact fun id last => last

/-- Moon and Mars start from one version and activate the same two proposals, in orders that depend
on when acknowledgements arrived, and end at versions 3 and 2. -/
theorem protocol_version_diverges :
    ∃ network, (system sampleHash Chain.sampleCurrency governancePermits sampleConfig).Reachable
      network ∧
      (sampleConfig .moon).protocolVersion = (sampleConfig .mars).protocolVersion ∧
      (∀ id, network.Activated .moon id ↔ network.Activated .mars id) ∧
      (network.chains .moon).governance.protocolVersion = 3 ∧
      (network.chains .mars).governance.protocolVersion = 2 := by
  obtain ⟨network, ran, values⟩ := Option.map_eq_some_iff.mp outcome_crossed
  simp only [outcome, Prod.mk.injEq] at values
  obtain ⟨moon, mars, version, version'⟩ := values
  have reachable := upgrade_reachable ran
  refine ⟨network, reachable, rfl, fun id => ?_, version, version'⟩
  rw [activated_iff sampleHash_idInjective reachable,
    activated_iff sampleHash_idInjective reachable, moon, mars]
  simp [or_comm]

end Samples

end Ialp.Network
