import Ialp.Network.Assembly

/-!
Governance across the network. Importers submit only leaves that a chain has committed; a proposal
is then activated nowhere before every target has imported and acknowledged what its source
approved.
-/

namespace Ialp.Network

open Scale Function Transition Relation Governance

section Honest

variable {Balances : Type}

def Committed (network : Network Balances) (leaf : GovernanceLeaf) : Prop :=
  ∃ source epoch, epoch < (network.chains source).epochs.currentEpoch ∧
    leaf ∈ canonicalEpochGovernanceLeaves (network.chains source).governance epoch

/-- An importer only submits committed leaves. Other actions, and calls of others, are not
restricted. -/
def governancePermits (network : Network Balances) (domain : DomainId)
    (action : Chain.Action Balances) (_ : List Bytes) : Prop :=
  ∀ who call leaf, action = .governance (.signed who) call →
    (network.chains domain).governance.importerAccount = some who → call.importedLeaf = some leaf →
    network.Committed leaf

def assembly (network : Network Balances) : Assembly :=
  fun domain => (network.chains domain).governance

theorem Committed.stored {network : Network Balances} {leaf : GovernanceLeaf}
    (committed : network.Committed leaf) : network.assembly.Stored leaf := by
  obtain ⟨source, epoch, _, member⟩ := committed
  simp only [canonicalEpochGovernanceLeaves, sortGovernanceLeaves, LeafFamily.mem_sortLeaves,
    List.mem_filterMap] at member
  obtain ⟨hash, _, stored⟩ := member
  exact ⟨source, hash, stored⟩

end Honest

section Projection

variable {Balances : Type} {blake2 : Bytes → Hash32} {currency : Currency Balances}
  {config : DomainId → GenesisConfig Balances} {network : Network Balances}

theorem settles_steps {assembly : Assembly} (context : CallContext) (balances : Balances)
    {state' : Governance.State}
    (room : (assembly context.domainId).nextProposalSequence.toNat + 1 < 2 ^ 64)
    (settles : Settles blake2 currency context balances (assembly context.domainId) state') :
    ReflTransGen (Assembly.Step blake2 currency) assembly
      (update assembly context.domainId state') := by
  induction settles with
  | refl => rw [update_eq_self]
  | @tail middle after before touch steps =>
      have room' : middle.nextProposalSequence.toNat + 1 < 2 ^ 64 :=
        lt_of_le_of_lt (Nat.add_le_add_right (Settles.sequence_le before) 1) room
      apply steps.tail
      refine .touched context balances ?_ (Assembly.honest_none _) ?_ ?_
      · rwa [update_self]
      · rwa [update_self, update_self]
      · intro domain other
        rw [update_of_ne other, update_of_ne other]

theorem dispatched_steps {assembly : Assembly} {domain : DomainId} {context : CallContext}
    {balances : Balances} {origin : Origin} {call : Call} {state' : Governance.State}
    (here : context.domainId = domain)
    (room : (assembly domain).nextProposalSequence.toNat + 2 < 2 ^ 64)
    (honest : assembly.Honest (some call))
    (ok : dispatch blake2 currency context origin call balances (assembly domain) = .ok state') :
    ReflTransGen (Assembly.Step blake2 currency) assembly (update assembly domain state') := by
  subst here
  obtain ⟨middle, touch, settles⟩ := touch_of_ok ok
  have counted : middle.nextProposalSequence.toNat ≤ _ + 1 := touch.sequence_le
  have first : Assembly.Step blake2 currency assembly
      (update assembly context.domainId middle) := by
    refine .touched context balances (by omega) honest ?_ fun domain other => update_of_ne other _ _
    rwa [update_self]
  have self : update assembly context.domainId middle context.domainId = middle := update_self _ _ _
  have rest := settles_steps context balances (by rw [self]; omega) (self.symm ▸ settles)
  rw [update_idem] at rest
  exact (ReflTransGen.single first).trans rest

theorem assembly_act (domain : DomainId) (action : Chain.Action Balances) (strings : List Bytes) :
    (network.act blake2 currency domain action strings).assembly =
      update network.assembly domain
        ((network.chains domain).apply blake2 currency action).governance := by
  funext other
  by_cases same : other = domain
  · subst same
    simp [assembly, act]
  · simp [assembly, act, same]

theorem assembly_reachable
    (reachable : (system blake2 currency governancePermits config).Reachable network) :
    (Assembly.system blake2 currency fun domain => (config domain).protocolVersion).Reachable
      network.assembly := by
  apply reachable.project assembly
  · rintro _ rfl domain
    exact ⟨_, _, rfl⟩
  · rintro network _ reached ⟨domain, action, strings, enabled, permitted, rfl⟩
    have running := chain_reachable reached domain
    have counted := Chain.counted_of_reachable running
    have here : (network.chains domain).domainId = domain := Chain.domainId_of_reachable running
    rw [assembly_act]
    cases Chain.governed_apply blake2 currency action counted.wellFormed with
    | kept _ same =>
        rw [same, show (network.chains domain).governance = network.assembly domain from rfl,
          update_eq_self]
    | opened context opening _ hooked =>
        subst opening
        rw [hooked]
        exact settles_steps ⟨domain, _, (network.chains domain).number + 1, 0⟩
          (network.chains domain).balances
          (counted.idle_room enabled.1 enabled.2) (onInitialize_settles _)
    | called origin call calling _ ok =>
        subst calling
        have honest : network.assembly.Honest (some call) := by
          intro leaf imports
          obtain ⟨who, rfl, importer⟩ := importer_of_ok imports ok
          exact (permitted who call leaf rfl importer imports).stored
        exact dispatched_steps here (counted.room enabled.1 enabled.2).2 honest ok

end Projection

section Safety

variable {Balances : Type} {blake2 : Bytes → Hash32} {currency : Currency Balances}
  {config : DomainId → GenesisConfig Balances} {network : Network Balances}

/-- The source's own entry passed its vote, and every target has imported it, as the source decided
it, and holds its own acknowledgement of that decision. -/
structure Ratified (network : Network Balances) (id : GovernanceProposalId)
    (source : GovernanceProposal) : Prop where
  stored : (network.chains source.sourceDomain).governance.proposalsById id = some source
  finalized : Finalized source
  passed : Passed source
  approved : source.approvalEpoch.isSome = true
  imported : ∀ target ∈ source.targetDomains, ∃ copy record,
    (network.chains target).governance.proposalsById id = some copy ∧
    copy.sourceDomain = source.sourceDomain ∧ copy.sourceDomain ≠ target ∧ Finalized copy ∧
    Assembly.SameDecision copy source ∧
    (network.chains target).governance.ackRecordsByKey (id, target) = some record ∧
    Assembly.Acknowledges record source

/-- In a network whose importers submit only committed leaves: where a proposal is activated, its
source has approved it and every target has imported and acknowledged what the source decided; and
the activation was not before its epoch. -/
theorem governance_activation_safe (injective : IdInjective blake2)
    (reachable : (system blake2 currency governancePermits config).Reachable network)
    {domain : DomainId} {id : GovernanceProposalId} {proposal : GovernanceProposal}
    (stored : (network.chains domain).governance.proposalsById id = some proposal)
    (activated : proposal.status = .activated) :
    (∃ source, source.sourceDomain = proposal.sourceDomain ∧ Assembly.SameDecision proposal source ∧
      network.Ratified id source) ∧
    ∃ record epoch, (network.chains domain).governance.activationRecordsById id = some record ∧
      record.activatedAtEpoch = some epoch ∧ proposal.activationEpoch ≤ epoch := by
  have accord := Assembly.accord_of_reachable injective (assembly_reachable reachable)
  obtain ⟨source, found, sourced, finalized, same⟩ := accord.source stored (.inr (.inr activated))
  obtain ⟨passed, approved⟩ := accord.passed found sourced finalized
  obtain ⟨record, recorded, full, active⟩ := accord.queued stored (.inr activated)
  obtain ⟨epoch, stamped, due⟩ := active activated
  rw [← sourced] at found
  refine ⟨⟨source, sourced, same, found, finalized, passed, approved, fun target listed => ?_⟩,
    record, epoch, recorded, stamped, due⟩
  obtain ⟨entry, stored', _, recordOf, known⟩ := accord.records recorded
  obtain rfl : entry = proposal := Option.some.inj (stored'.symm.trans stored)
  have acknowledged : target ∈ record.knownAckDomains := by
    apply hasFullAckSet_iff.mp full
    rw [recordOf.targetDomains, same.targetDomains]
    exact listed
  exact accord.copy injective (known target acknowledged) found rfl

end Safety

section Sample

variable {Balances : Type}

def governanceAllowed (network : Network Balances) (_ : DomainId) (action : Chain.Action Balances)
    (_ : List Bytes) : Bool :=
  match action with
  | .governance _ call =>
      match call.importedLeaf with
      | some leaf =>
          decide (leaf.committedEpoch < (network.chains leaf.orderingDomain).epochs.currentEpoch) &&
            decide (leaf ∈ canonicalEpochGovernanceLeaves
              (network.chains leaf.orderingDomain).governance leaf.committedEpoch)
      | none => true
  | _ => true

theorem permits_of_allowed (network : Network Balances) (domain : DomainId)
    (action : Chain.Action Balances) (strings : List Bytes)
    (allowed : network.governanceAllowed domain action strings = true) :
    network.governancePermits domain action strings := by
  rintro who call leaf rfl _ imports
  simp only [governanceAllowed, imports, Bool.and_eq_true, decide_eq_true_eq] at allowed
  exact ⟨_, _, allowed.1, allowed.2⟩

def calls (domain : DomainId) (call : Governance.Call) : Turn (AccountId → Chain.Purse) :=
  (domain, fun _ => (.governance (.signed emptyHash) call, []))

def delivers (source : DomainId) (epoch : EpochId) (id : GovernanceProposalId) (target : DomainId) :
    Turn (AccountId → Chain.Purse) :=
  (target, fun network =>
    match (canonicalEpochGovernanceLeaves (network.chains source).governance epoch).find?
        fun leaf => leaf.proposalId = id ∧ leaf.targetDomain = target with
    | some (.proposalV1 leaf) =>
        (.governance (.signed emptyHash) (.importVerifiedGovernanceProposal {
          version := 1, leaf, summaryHash := emptyHash, packageHash := emptyHash }), [])
    | some (.ackV1 leaf) =>
        (.governance (.signed emptyHash) (.importVerifiedGovernanceAck {
          version := 1, leaf, summaryHash := emptyHash, packageHash := emptyHash }), [])
    | none => (.external (network.chains target).balances 0, []))

def firstId : GovernanceProposalId := governanceProposalId sampleHash .earth 0

def secondId : GovernanceProposalId := governanceProposalId sampleHash .earth 1

def nextBlock (domain : DomainId) : List (Turn (AccountId → Chain.Purse)) :=
  [closes domain, opens domain]

/-- Earth approves versions 2 and 3 for Moon and Mars in one epoch. Moon learns of the
acknowledgements of Mars in that order, Mars of those of Moon in the order given; both then reach
the activation epoch. -/
def upgradeScript (order : List GovernanceProposalId) : List (Turn (AccountId → Chain.Purse)) :=
  [opens .earth, calls .earth (.createProposal [.moon, .mars] 2),
    calls .earth (.createProposal [.moon, .mars] 3), calls .earth (.castVote firstId .yes),
    calls .earth (.castVote secondId .yes)] ++ nextBlock .earth ++
  [calls .earth (.closeProposal firstId), calls .earth (.closeProposal secondId)] ++
    nextBlock .earth ++
  [opens .moon, delivers .earth 1 firstId .moon, delivers .earth 1 secondId .moon] ++
    nextBlock .moon ++
  [opens .mars, delivers .earth 1 firstId .mars, delivers .earth 1 secondId .mars] ++
    nextBlock .mars ++
  [delivers .mars 0 firstId .moon, delivers .mars 0 secondId .moon] ++
  order.map (fun id => delivers .moon 0 id .mars) ++
  nextBlock .moon ++ nextBlock .moon ++ nextBlock .moon ++ nextBlock .moon ++
  nextBlock .mars ++ nextBlock .mars ++ nextBlock .mars ++ nextBlock .mars

def runUpgrade (order : List GovernanceProposalId) : Option (Network (AccountId → Chain.Purse)) :=
  runScript sampleHash Chain.sampleCurrency governanceAllowed (genesis sampleConfig)
    (upgradeScript order)

theorem upgrade_reachable {order : List GovernanceProposalId}
    {network : Network (AccountId → Chain.Purse)} (ran : runUpgrade order = some network) :
    (system sampleHash Chain.sampleCurrency governancePermits sampleConfig).Reachable network :=
  reachable_of_script (fun _ _ _ => permits_of_allowed _ _ _ _) (.start rfl) ran

theorem governance_activation_safe_sample :
    ∃ network proposal, runUpgrade [firstId, secondId] = some network ∧
      (network.chains .moon).governance.proposalsById firstId = some proposal ∧
        proposal.status = .activated ∧
      (∃ source, source.sourceDomain = proposal.sourceDomain ∧
        Assembly.SameDecision proposal source ∧
        network.Ratified firstId source) ∧
      ∃ record epoch, (network.chains .moon).governance.activationRecordsById firstId =
        some record ∧
        record.activatedAtEpoch = some epoch ∧ proposal.activationEpoch ≤ epoch := by
  have evaluated : ((runUpgrade [firstId, secondId]).bind fun network =>
      ((network.chains .moon).governance.proposalsById firstId).map GovernanceProposal.status) =
        some .activated := by
    decide +kernel
  obtain ⟨network, ran, found⟩ := Option.bind_eq_some_iff.mp evaluated
  obtain ⟨proposal, stored, activated⟩ := Option.map_eq_some_iff.mp found
  exact ⟨network, proposal, ran, stored, activated,
    governance_activation_safe sampleHash_idInjective (upgrade_reachable ran) stored activated⟩

end Sample

end Ialp.Network
