import Ialp.Network.Activation
import Ialp.Network.Conservation
import Ialp.Runtime.ScheduledProposals
import Ialp.Services.Submissions

/-!
Importers that act on packages. An importer knows nothing of the other chains: it acts on packages
whose header a chain has stored and whose proofs it has checked. Unless two of the strings that were
hashed collide, this keeps the network to the discipline that its safety rests on.
-/

namespace Ialp

open Scale Function Transition Relation Hashing Services

namespace Governance

variable {Balances : Type} {blake2 : Bytes → Hash32} {currency : Currency Balances}
  {context : CallContext} {balances : Balances} {state state' : State} {cause : Option Call}

def Named (targetDomains : List DomainId) : Prop := targetDomains ≠ [] ∧ targetDomains.Nodup

/-- Proposals name targets, each once, and leaves are of the form in which proofs can tell them
apart. -/
structure Targeted (blake2 : Bytes → Hash32) (state : State) : Prop where
  proposals : ∀ {id proposal}, state.proposalsById id = some proposal → Named proposal.targetDomains
  leaves : ∀ {hash leaf}, state.governanceLeavesById hash = some leaf → leaf.Committed blake2

theorem genesis_targeted (protocolVersion : UInt32) (importerAccount : Option AccountId)
    (voters : List AccountId) :
    Targeted blake2 (genesis protocolVersion importerAccount voters) := by
  constructor
  · intro id proposal stored
    cases stored
  · intro hash leaf stored
    cases stored

theorem Touch.targeted (touch : Touch blake2 currency context balances state cause state')
    (voting : VotingLocal context.domainId state)
    (imports : ∀ leaf, cause.bind Call.importedLeaf = some leaf → Named leaf.targetDomains)
    (holds : Targeted blake2 state) : Targeted blake2 state' := by
  have proposals : ∀ {id proposal}, state'.proposalsById id = some proposal →
      Named proposal.targetDomains := by
    intro id proposal stored
    cases touch.proposalOrigin stored with
    | kept before => exact holds.proposals before
    | advanced earlier before advance =>
        rw [advance.sameTerms.targetDomains]
        exact holds.proposals before
    | created _ _ _ _ targets => exact ⟨targets.1, targets.2.2⟩
    | imported claim caused _ _ _ _ written =>
        rw [written]
        exact imports (.proposalV1 claim.leaf) (by rw [caused]; rfl)
  refine ⟨proposals, fun {hash leaf} stored => ?_⟩
  cases touch.leafOrigin voting stored with
  | kept before => exact holds.leaves before
  | outbound proposal target _ _ entry written =>
      have named := proposals entry
      rw [written]
      exact ⟨rfl, rfl, named.1, named.2⟩
  | fanout claim target _ entry written =>
      have named := proposals entry
      rw [written]
      exact ⟨rfl, rfl, named.1, named.2⟩

theorem Settles.targeted (settles : Settles blake2 currency context balances state state')
    (voting : VotingLocal context.domainId state) (holds : Targeted blake2 state) :
    VotingLocal context.domainId state' ∧ Targeted blake2 state' := by
  induction settles with
  | refl => exact ⟨voting, holds⟩
  | tail _ touch held =>
      refine ⟨touch.votingLocal held.1, touch.targeted held.1 (fun leaf imports => ?_) held.2⟩
      cases imports

theorem ack_refused (holds : Targeted blake2 state) {claim : ImportedGovernanceAckClaim}
    {origin : Origin} (many : 3 < claim.leaf.targetDomains.length)
    (ok : dispatch blake2 currency context origin (.importVerifiedGovernanceAck claim) balances
      state = .ok state') :
    False := by
  obtain ⟨middle, touch, _⟩ := touch_of_ok ok
  cases touch with
  | acknowledged claim proposal targeted foreign listed fresh found facts =>
      have few := (holds.proposals found).2.length_le_card
      rw [facts.2.1] at few
      exact absurd (Nat.lt_of_lt_of_le many few) (by decide)

end Governance

namespace Chain

variable {Balances : Type} {blake2 : Bytes → Hash32} {currency : Currency Balances}
  {config : GenesisConfig Balances} {chain chain' : Chain Balances}

theorem targeted_apply (reachable : (system blake2 currency config).Reachable chain)
    (action : Action Balances)
    (imports : ∀ origin call state' leaf, action = .governance origin call →
      Governance.dispatch blake2 currency chain.callContext origin call chain.balances
        chain.governance = .ok state' →
      call.importedLeaf = some leaf → Governance.Named leaf.targetDomains)
    (holds : Governance.Targeted blake2 chain.governance) :
    Governance.Targeted blake2 (chain.apply blake2 currency action).governance := by
  have voting := votingLocal_of_reachable reachable
  cases governed_apply blake2 currency action (counted_of_reachable reachable).wellFormed with
  | kept _ same =>
      rw [same]
      exact holds
  | opened context _ _ hooked =>
      rw [hooked]
      have settles : Governance.Settles blake2 currency
          ⟨chain.domainId, (chain.apply blake2 currency action).epochs.currentEpoch,
            chain.number + 1, 0⟩
          chain.balances chain.governance _ := Governance.onInitialize_settles chain.governance
      exact (settles.targeted voting holds).2
  | called origin call calling _ ok =>
      obtain ⟨middle, touch, settles⟩ := Governance.touch_of_ok ok
      have named := touch.targeted voting (fun leaf => imports origin call _ leaf calling ok) holds
      exact (settles.targeted (touch.votingLocal voting) named).2

def governanceStrings (blake2 : Bytes → Hash32) (chain : Chain Balances) : List Bytes :=
  (List.range chain.epochs.currentEpoch.toNat).flatMap fun n =>
    (chain.epochs.summaryHeaders (UInt64.ofNat n)).toList.flatMap fun header =>
      governanceFamily.rootPreimages blake2 header.domainId header.epochId header.startBlockHeight
        header.endBlockHeight (Governance.canonicalEpochGovernanceLeaves
          chain.governance (UInt64.ofNat n))

theorem mem_governanceStrings {string : Bytes} :
    string ∈ chain.governanceStrings blake2 ↔ ∃ e header, e < chain.epochs.currentEpoch ∧
      chain.epochs.summaryHeaders e = some header ∧
      string ∈ governanceFamily.rootPreimages blake2 header.domainId header.epochId
        header.startBlockHeight
        header.endBlockHeight (Governance.canonicalEpochGovernanceLeaves chain.governance e) := by
  simp only [governanceStrings, List.mem_flatMap, List.mem_range, Option.mem_toList]
  constructor
  · rintro ⟨n, below, header, stored, member⟩
    have fits : n < 2 ^ 64 := Nat.lt_trans below chain.epochs.currentEpoch.toNat_lt
    refine ⟨UInt64.ofNat n, header, ?_, stored, member⟩
    rw [UInt64.lt_iff_toNat_lt, UInt64.toNat_ofNat_of_lt' fits]
    exact below
  · rintro ⟨e, header, past, stored, member⟩
    refine ⟨e.toNat, UInt64.lt_iff_toNat_lt.mp past, header, ?_, ?_⟩
    · rwa [UInt64.ofNat_toNat]
    · rwa [UInt64.ofNat_toNat]

theorem header_kept (reachable : (system blake2 currency config).Reachable chain)
    (step : (system blake2 currency config).step chain chain') (free : ¬ Collides blake2 chain.log)
    {e : EpochId} {header : EpochSummaryHeader}
    (stored : chain.epochs.summaryHeaders e = some header) :
    chain'.epochs.summaryHeaders e = some header := by
  have past := (closedEpochs_of_reachable reachable free).past stored
  rcases (effect_of_step reachable step).headers with ⟨_, headers⟩ | ⟨_, _, headers, _⟩
  · rw [headers, stored]
  · rw [headers, update_of_ne (UInt64.ne_of_lt past), stored]

theorem currentEpoch_le (reachable : (system blake2 currency config).Reachable chain)
    (step : (system blake2 currency config).step chain chain') :
    chain.epochs.currentEpoch ≤ chain'.epochs.currentEpoch := by
  rcases (effect_of_step reachable step).headers with ⟨same, _⟩ | ⟨_, next, _, _, _, _, _, bound⟩
  · exact UInt64.le_of_eq same.symm
  · rw [next]
    exact UInt64.le_of_lt (UInt64.lt_succ_self ((counted_of_reachable reachable).epoch_room bound))

theorem governanceStrings_subset (reachable : (system blake2 currency config).Reachable chain)
    (step : (system blake2 currency config).step chain chain')
    (free : ¬ Collides blake2 chain'.log) :
    chain.governanceStrings blake2 ⊆ chain'.governanceStrings blake2 := by
  have free' : ¬ Collides blake2 chain.log :=
    fun collides => free (collides.mono (log_subset reachable step))
  intro string member
  obtain ⟨e, header, past, stored, member⟩ := mem_governanceStrings.mp member
  rw [← (leaves_kept reachable step free past).2] at member
  exact mem_governanceStrings.mpr ⟨e, header,
    UInt64.lt_of_lt_of_le past (currentEpoch_le reachable step),
    header_kept reachable step free' stored, member⟩

end Chain

namespace Services

def VerifiedPackageItems.strings (blake2 : Bytes → Hash32) (items : VerifiedPackageItems) :
    List Bytes :=
  items.exportProofs.flatMap (exportFamily.replayPreimages blake2) ++
    items.finalizedImportProofs.flatMap (importFamily.replayPreimages blake2) ++
    items.governanceProofs.flatMap (governanceFamily.replayPreimages blake2)

variable {blake2 : Bytes → Hash32} {items : VerifiedPackageItems}

theorem VerifiedPackageItems.export_strings {proof : ExportInclusionProof}
    (listed : proof ∈ items.exportProofs) :
    exportFamily.replayPreimages blake2 proof ⊆ items.strings blake2 := by
  intro string member
  exact List.mem_append_left _
    (List.mem_append_left _ (List.mem_flatMap.mpr ⟨proof, listed, member⟩))

theorem VerifiedPackageItems.import_strings {proof : FinalizedImportInclusionProof}
    (listed : proof ∈ items.finalizedImportProofs) :
    importFamily.replayPreimages blake2 proof ⊆ items.strings blake2 := by
  intro string member
  exact List.mem_append_left _
    (List.mem_append_right _ (List.mem_flatMap.mpr ⟨proof, listed, member⟩))

theorem VerifiedPackageItems.governance_strings {proof : GovernanceInclusionProof}
    (listed : proof ∈ items.governanceProofs) :
    governanceFamily.replayPreimages blake2 proof ⊆ items.strings blake2 := by
  intro string member
  exact List.mem_append_right _ (List.mem_flatMap.mpr ⟨proof, listed, member⟩)

def RuntimeCall.Ordinary : RuntimeCall → Prop
  | transfers call =>
      ∃ targetDomain recipient amount,
        call = .createCrossDomainTransfer targetDomain recipient amount
  | governance call => call.importedLeaf = none

end Services

namespace Chain

variable {Balances : Type}

def Imports (chain : Chain Balances) (action : Action Balances) : RuntimeCall → Prop
  | .transfers call =>
      ∃ who, action = .transfers (.signed who) call ∧ chain.transfers.importerAccount = some who
  | .governance call =>
      ∃ who, action = .governance (.signed who) call ∧ chain.governance.importerAccount = some who

end Chain

namespace Network

section Discipline

variable {Balances : Type} (blake2 : Bytes → Hash32) (codec : PackageCodec)

def honestPermits (network : Network Balances) (domain : DomainId) (action : Chain.Action Balances)
    (strings : List Bytes) : Prop :=
  network.transferPermits blake2 codec domain action strings ∧
    network.governancePermits domain action strings

def Warranted (network : Network Balances) (domain : DomainId) (runtimeCall : RuntimeCall)
    (strings : List Bytes) : Prop :=
  ∃ package items, network.Certified package ∧
    verifyPackageFlow blake2 codec package domain = .ok items ∧
    Submission package items runtimeCall ∧ items.strings blake2 ⊆ strings

def packagePermits (network : Network Balances) (domain : DomainId) (action : Chain.Action Balances)
    (strings : List Bytes) : Prop :=
  ∀ runtimeCall, (network.chains domain).Imports action runtimeCall →
    runtimeCall.Ordinary ∨ network.Warranted blake2 codec domain runtimeCall strings

/-- All that was hashed, with the strings of the governance roots. -/
def recorded (network : Network Balances) : List Bytes :=
  network.hashed ++
    [DomainId.earth, .moon, .mars].flatMap fun domain =>
      (network.chains domain).governanceStrings blake2

theorem governanceStrings_subset_recorded (network : Network Balances) (domain : DomainId) :
    (network.chains domain).governanceStrings blake2 ⊆ network.recorded blake2 := by
  intro string member
  refine List.mem_append_right _ (List.mem_flatMap.mpr ⟨domain, ?_, member⟩)
  cases domain <;> decide

theorem recorded_subset {chains : DomainId → Chain Balances} {checked checked' : List Bytes}
    (sub : checked ⊆ checked') : (⟨chains, checked⟩ : Network Balances).recorded blake2 ⊆
      (⟨chains, checked'⟩ : Network Balances).recorded blake2 := by
  intro string member
  simp only [recorded, hashed, List.append_assoc, List.mem_append] at member ⊢
  exact member.imp_right (Or.imp_left (@sub string))

end Discipline

variable {Balances : Type} {blake2 : Bytes → Hash32} {currency : Currency Balances}
  {codec : PackageCodec} {config : DomainId → GenesisConfig Balances} {network : Network Balances}
  {permits permits' : Network Balances → DomainId → Chain.Action Balances → List Bytes → Prop}

theorem reachable_mono (laxer : ∀ network domain action strings,
    permits network domain action strings →
      permits' network domain action strings)
    (reachable : (system blake2 currency permits config).Reachable network) :
    (system blake2 currency permits' config).Reachable network := by
  refine reachable.mono id fun step => ?_
  obtain ⟨domain, action, strings, enabled, permitted, same⟩ := step
  exact ⟨domain, action, strings, enabled, laxer _ _ _ _ permitted, same⟩

section Act

variable {domain : DomainId} {action : Chain.Action Balances}

theorem chains_act {strings : Chain Balances → List Bytes} (checked : List Bytes)
    (grown : strings (network.chains domain) ⊆
      strings ((network.chains domain).apply blake2 currency action))
    (domains : List DomainId) :
    (domains.flatMap fun domain => strings (network.chains domain)) ⊆
      domains.flatMap fun other =>
        strings ((network.act blake2 currency domain action checked).chains other) := by
  intro string member
  obtain ⟨other, listed, here⟩ := List.mem_flatMap.mp member
  refine List.mem_flatMap.mpr ⟨other, listed, ?_⟩
  by_cases same : other = domain
  · subst same
    simpa [act] using grown here
  · simpa [act, same] using here

variable {genesisConfig : GenesisConfig Balances} {strings : List Bytes}
  (running : (Chain.system blake2 currency genesisConfig).Reachable (network.chains domain))
  (enabled : (network.chains domain).Enabled currency action)
include running enabled

theorem recorded_act (free : ¬ Collides blake2
    ((network.act blake2 currency domain action strings).recorded blake2)) :
    network.recorded blake2 ++ strings ⊆
      (network.act blake2 currency domain action strings).recorded blake2 := by
  have step : (Chain.system blake2 currency genesisConfig).step (network.chains domain)
      ((network.chains domain).apply blake2 currency action) := ⟨action, enabled, rfl⟩
  have free' : ¬ Collides blake2 ((network.chains domain).apply blake2 currency action).log := by
    have logged := log_subset_hashed (network.act blake2 currency domain action strings) domain
    rw [show (network.act blake2 currency domain action strings).chains domain =
      _ from update_self _ _ _] at logged
    exact fun collides => free (collides.mono (List.subset_append_of_subset_left _ logged))
  intro string member
  simp only [recorded, hashed, List.append_assoc, List.mem_append] at member ⊢
  rcases member with logged | checked | rooted | new
  · exact .inl (chains_act strings (Chain.log_subset running step) _ logged)
  · exact .inr (.inl (List.mem_append_left _ checked))
  · exact .inr (.inr (chains_act strings (Chain.governanceStrings_subset running step free') _
      rooted))
  · exact .inr (.inl (List.mem_append_right _ new))

end Act

section Proofs

variable {package : CertifiedSummaryPackage} {items : VerifiedPackageItems} {domain : DomainId}
  {strings : List Bytes} (reachable : (system blake2 currency permits config).Reachable network)
  (free : ¬ Collides blake2 (network.recorded blake2 ++ strings))
  (certified : network.Certified package)
  (accepted : verifyPackageFlow blake2 codec package domain = .ok items)
include reachable free certified accepted

theorem leaf_of_proof (targeted : ∀ domain,
    Governance.Targeted blake2 (network.chains domain).governance)
    {proof : GovernanceInclusionProof} (listed : proof ∈ items.governanceProofs)
    (logged : governanceFamily.replayPreimages blake2 proof ⊆ strings) :
    network.Committed proof.leaf ∨ ∃ ack, proof.leaf = .ackV1 ack ∧
      ack.targetDomains.length = 5 := by
  have check := (verifyPackageFlow_checked accepted).governance proof listed
  obtain ⟨verified, hashed, _⟩ := checkGovernanceProof_eq_ok.mp check
  obtain ⟨source, epoch, stored⟩ := certified
  have running := chain_reachable reachable source
  have unbroken : ¬ Collides blake2 (network.chains source).log := free_chain free
    (List.subset_append_of_subset_left _ (List.subset_append_left _ _)) source
  have closed := Chain.closedEpochs_of_reachable running unbroken
  have commits := closed.commits stored
  have past := closed.past stored
  let leaves := Governance.canonicalEpochGovernanceLeaves (network.chains source).governance epoch
  have committed : ∀ leaf ∈ leaves, leaf.Committed blake2 := by
    intro leaf member
    obtain ⟨hash, _, found⟩ := List.mem_filterMap.mp (LeafFamily.mem_sortLeaves.mp member)
    exact (targeted source).leaves found
  have rooted : governanceFamily.rootPreimages blake2 package.header.domainId package.header.epochId
      package.header.startBlockHeight package.header.endBlockHeight leaves ⊆
        network.recorded blake2 := by
    intro string member
    exact governanceStrings_subset_recorded blake2 network source
      (Chain.mem_governanceStrings.mpr ⟨epoch, package.header, past, stored, member⟩)
  rw [commits.governance] at verified
  rcases LeafFamily.verifyInclusionProof_cases
      (fun leaf member => GovernanceLeaf.canonical_iff.mpr (committed leaf member).hashed)
      (fun leaf member => committed_preimage_ne_node (committed leaf member))
      (preimage_ne_empty proof.leaf _ _ _ _)
      (fun a b => governanceFamily_node_ne_empty a b _ _ _ _) verified with
        ⟨leaf, member, same⟩ | interior | collides
  · rw [GovernanceLeaf.eq_of_preimage_eq (committed leaf member) hashed same] at member
    exact .inl ⟨source, epoch, past, member⟩
  · obtain ⟨a, b, shape⟩ := Merkle.treeStrings_eq_node interior
    obtain ⟨ack, kind, _, targets⟩ := ack_of_preimage_eq_node shape
    exact .inr ⟨ack, kind, targets⟩
  · exact absurd (collides.mono (List.append_subset.mpr ⟨List.subset_append_of_subset_left _ rooted,
      List.subset_append_of_subset_right _ logged⟩)) free

end Proofs

section Step

variable {domain : DomainId} {action : Chain.Action Balances} {strings : List Bytes}
  (reachable : (system blake2 currency permits config).Reachable network)
  (free : ¬ Collides blake2 (network.recorded blake2 ++ strings))
  (targeted : ∀ domain, Governance.Targeted blake2 (network.chains domain).governance)
  (permitted : network.packagePermits blake2 codec domain action strings)

include permitted in
theorem transferPermits_of_package :
    network.transferPermits blake2 codec domain action strings := by
  intro who call acting importer
  rcases permitted (.transfers call) ⟨who, acting, importer⟩ with
    ordinary | ⟨package, items, certified, accepted, submission, logged⟩
  · exact .inl ordinary
  · refine .inr ⟨package, items, certified, accepted, ?_⟩
    cases submission with
    | observe proof listed =>
        exact .observe proof listed
          (List.Subset.trans (VerifiedPackageItems.export_strings listed) logged)
    | finalize proof listed => exact .finalize proof listed
    | complete proof listed =>
        exact .acknowledge proof listed
          (List.Subset.trans (VerifiedPackageItems.import_strings listed) logged)

include reachable free targeted permitted

theorem governance_of_package {who : AccountId} {call : Governance.Call} {leaf : GovernanceLeaf}
    (acting : action = .governance (.signed who) call)
    (importer : (network.chains domain).governance.importerAccount = some who)
    (imports : call.importedLeaf = some leaf) : network.Committed leaf ∨ ∀ context balances state',
      Governance.dispatch blake2 currency context (.signed who) call
      balances (network.chains domain).governance ≠ .ok state' := by
  rcases permitted (.governance call) ⟨who, acting, importer⟩ with
    ordinary | ⟨package, items, certified, accepted, submission, logged⟩
  · cases ordinary.symm.trans imports
  · cases submission with
    | propose proof leaf' listed kind =>
        cases imports
        rcases leaf_of_proof reachable free certified accepted targeted listed
            (List.Subset.trans (VerifiedPackageItems.governance_strings listed) logged) with
              committed | ⟨_, ack, _⟩
        · exact .inl (kind ▸ committed)
        · cases kind.symm.trans ack
    | acknowledge proof leaf' listed kind =>
        cases imports
        rcases leaf_of_proof reachable free certified accepted targeted listed
            (List.Subset.trans (VerifiedPackageItems.governance_strings listed) logged) with
              committed | ⟨ack, same, five⟩
        · exact .inl (kind ▸ committed)
        · cases kind.symm.trans same
          refine .inr fun context balances state' ok =>
            Governance.ack_refused (targeted domain) ?_ ok
          rw [five]
          decide

theorem targeted_act (acted : DomainId) :
    Governance.Targeted blake2
      ((network.act blake2 currency domain action strings).chains acted).governance := by
  by_cases same : acted = domain
  · subst same
    have applied : (network.act blake2 currency acted action strings).chains acted =
        (network.chains acted).apply blake2 currency action := update_self _ _ _
    rw [applied]
    refine Chain.targeted_apply (chain_reachable reachable acted) action ?_ (targeted acted)
    intro origin call state' leaf acting ok imports
    obtain ⟨who, signed, importer⟩ := Governance.importer_of_ok imports ok
    subst signed
    rcases governance_of_package reachable free targeted permitted acting importer imports with
      committed | refused
    · obtain ⟨source, hash, stored⟩ := committed.stored
      have form := (targeted source).leaves stored
      exact ⟨form.targeted, form.distinct⟩
    · exact absurd ok (refused _ _ _)
  · have kept : (network.act blake2 currency domain action strings).chains acted =
        network.chains acted :=
      update_of_ne same _ _
    rw [kept]
    exact targeted acted

/-- A step of importers that act on packages is one of honest importers. A call that is refused only
takes an index, as other extrinsics do. -/
theorem honest_act (enabled : (network.chains domain).Enabled currency action) :
    (system blake2 currency (honestPermits blake2 codec) config).step network
      (network.act blake2 currency domain action strings) := by
  have transfers := transferPermits_of_package permitted
  by_cases honest : network.governancePermits domain action strings
  · exact ⟨domain, action, strings, enabled, ⟨transfers, honest⟩, rfl⟩
  · simp only [governancePermits, not_forall] at honest
    obtain ⟨who, call, leaf, acting, importer, imports, uncommitted⟩ := honest
    have refused :=
      (governance_of_package reachable free targeted permitted acting importer imports).resolve_left
      uncommitted
    subst acting
    let chain := network.chains domain
    have skipped : chain.apply blake2 currency (.governance (.signed who) call) =
        chain.apply blake2 currency (.external chain.balances (chain.extrinsicIndex + 1)) := by
      simp only [Chain.apply, Chain.applyGovernance]
      split
      · rename_i ok
        exact absurd ok (refused _ _ _)
      · rfl
    have next : chain.extrinsicIndex ≤ chain.extrinsicIndex + 1 := by
      rw [UInt32.le_iff_toNat_le, UInt32.toNat_add]
      have bound := enabled.2
      have one : (1 : UInt32).toNat = 1 := rfl
      rw [one, Nat.mod_eq_of_lt bound]
      exact Nat.le_succ _
    refine ⟨domain, .external chain.balances (chain.extrinsicIndex + 1), strings,
      ⟨enabled.1, next, fun _ => rfl⟩, ⟨fun _ _ other => ?_, fun _ _ _ other => ?_⟩, ?_⟩
    · cases other
    · cases other
    · simp only [act]
      rw [skipped]

end Step

/-- Importers that act on packages are honest: every run of theirs in which no two of the strings
that were hashed collide is a run of importers that only submit what a chain has recorded, as a
certified header commits to it. -/
theorem packages_refine (blake2 : Bytes → Hash32) (currency : Currency Balances)
    (codec : PackageCodec) (config : DomainId → GenesisConfig Balances) (network : Network Balances)
    (reachable : (system blake2 currency (packagePermits blake2 codec) config).Reachable network)
    (free : ¬ Collides blake2 (network.recorded blake2)) :
    (system blake2 currency (honestPermits blake2 codec) config).Reachable network := by
  have held :=
    reachable.guarded_invariant (fun network => ¬ Collides blake2 (network.recorded blake2))
    (fun network => (system blake2 currency (honestPermits blake2 codec) config).Reachable network ∧
      ∀ domain, Governance.Targeted blake2 (network.chains domain).governance) ?_ ?_ ?_ free
  · exact held.1
  · intro before after reached step free collides
    obtain ⟨domain, action, strings, enabled, _, same⟩ := step
    subst same
    have kept := recorded_act (chain_reachable reached domain) enabled free
    exact free (collides.mono (List.Subset.trans (List.subset_append_left _ _) kept))
  · intro network initial
    have start := initial
    subst start
    exact ⟨.start initial, fun domain => Governance.genesis_targeted _ _ _⟩
  · intro before after reached free held step
    obtain ⟨domain, action, strings, enabled, permitted, same⟩ := step
    subst same
    have free' : ¬ Collides blake2 (before.recorded blake2 ++ strings) := fun collides =>
      free (collides.mono (recorded_act (chain_reachable reached domain) enabled free))
    exact ⟨.next held.1 (honest_act reached free' held.2 permitted enabled),
      targeted_act reached free' held.2 permitted⟩

end Network

end Ialp
