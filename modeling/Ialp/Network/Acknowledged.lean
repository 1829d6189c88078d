import Ialp.Network.Deployed

/-!
What an acknowledged package means in the deployed network. An importer files its records under the
export alone, whether it was imported or completed here. No export is both: the import of an export
names the chain that issued it. So a package that an importer has acknowledged has had all its
effects, and what it imported was paid out once.
-/

namespace Ialp

open Scale Function Transition Relation Hashing Services

namespace Network

variable {Balances : Type} {blake2 : Bytes → Hash32} {currency : Currency Balances}
  {codec : PackageCodec} {config : DomainId → GenesisConfig Balances}
  {network network' : Network Balances}

section Sources

theorem source_apply {chain : Chain Balances} {action : Chain.Action Balances} {id : ExportId}
    (wf : chain.epochs.WellFormed) {record : ObservedImportRecord}
    (stored : (chain.apply blake2 currency action).transfers.observedImportsById id = some record) :
    (∃ before, chain.transfers.observedImportsById id = some before ∧
      before.sourceDomain = record.sourceDomain ∧
      before.sourceEpochId = record.sourceEpochId) ∨
    ∃ claim, ImporterCalls chain action (.observeVerifiedImport claim) ∧ claim.exportId = id ∧
      claim.sourceDomain = record.sourceDomain ∧ claim.sourceEpochId = record.sourceEpochId := by
  rcases transfers_apply blake2 currency action wf with
    same | ⟨_, _, closed⟩ | ⟨_, _, _, called, dispatched⟩
  · rw [same] at stored
    exact .inl ⟨record, stored, rfl, rfl⟩
  · rw [closed] at stored
    exact .inl ⟨record, stored, rfl, rfl⟩
  · generalize (chain.apply blake2 currency action).transfers = after at stored dispatched
    cases dispatched with
    | created => exact .inl ⟨record, stored, rfl, rfl⟩
    | observed who claim importer =>
        rcases update_eq_some.mp stored with ⟨here, written⟩ | ⟨_, kept⟩
        · subst here written
          exact .inr ⟨claim, ⟨who, called, importer⟩, rfl, rfl, rfl⟩
        · exact .inl ⟨record, kept, rfl, rfl⟩
    | finalized who _ before _ _ found =>
        rcases update_eq_some.mp stored with ⟨here, written⟩ | ⟨_, kept⟩
        · subst here written
          exact .inl ⟨before, found, rfl, rfl⟩
        · exact .inl ⟨record, kept, rfl, rfl⟩
    | acknowledged => exact .inl ⟨record, stored, rfl, rfl⟩

/-- The chain that an import record names as its source has issued the export, in the epoch that the
record names. -/
def Sourced (network : Network Balances) : Prop :=
  ∀ {target id record}, (network.chains target).transfers.observedImportsById id = some record →
    ∃ entry, (network.chains record.sourceDomain).transfers.exportsById id = some entry ∧
      entry.leaf.sourceEpochId = record.sourceEpochId

theorem sourced_act {domain : DomainId} {action : Chain.Action Balances} {strings : List Bytes}
    (reachable : (system blake2 currency (transferPermits blake2 codec) config).Reachable network)
    (permitted : transferPermits blake2 codec network domain action strings)
    (enabled : (network.chains domain).Enabled currency action)
    (free : ¬ Collides blake2 (network.act blake2 currency domain action strings).hashed)
    (holds : network.Sourced) : (network.act blake2 currency domain action strings).Sourced := by
  have free' : ¬ Collides blake2 (network.hashed ++ strings) := fun collides =>
    free (collides.mono (hashed_act reachable enabled))
  have keeps := keeps_act reachable enabled free
  have later : ∀ {source id entry} {epochId : EpochId},
      (network.chains source).transfers.exportsById id = some entry →
        entry.leaf.sourceEpochId = epochId →
      ∃ entry', ((network.act blake2 currency domain action strings).chains
        source).transfers.exportsById id =
        some entry' ∧ entry'.leaf.sourceEpochId = epochId := by
    intro source id entry epochId found epoch
    obtain ⟨entry', kept, same⟩ := (keeps source).leaf found
    exact ⟨entry', kept, same ▸ epoch⟩
  intro target id record stored
  by_cases same : target = domain
  · subst same
    simp only [act, update_self] at stored
    rcases source_apply (Chain.counted_of_reachable (chain_reachable reachable target)).wellFormed
      stored with
      ⟨before, found, source, epoch⟩ | ⟨claim, ⟨who, called, importer⟩, here, source, epoch⟩
    · rw [← source, ← epoch]
      obtain ⟨entry, issued, named⟩ := holds found
      exact later issued named
    · rcases permitted who _ called importer with
        ⟨_, _, _, other⟩ | ⟨package, items, certified, accepted, submits⟩
      · cases other
      · cases submits with
        | observe proof listed logged =>
            obtain ⟨_, entry, issued, leaf⟩ :=
              export_of_proof reachable free' certified accepted listed logged
            rw [← source, ← epoch, ← here]
            exact later issued (by rw [leaf]; rfl)
  · simp only [act, update_of_ne same] at stored
    obtain ⟨entry, issued, named⟩ := holds stored
    exact later issued named

theorem sourced_of_reachable
    (reachable : (system blake2 currency (transferPermits blake2 codec) config).Reachable network)
    (free : ¬ Collides blake2 network.hashed) : network.Sourced := by
  apply reachable.guarded_invariant (fun network => ¬ Collides blake2 network.hashed) Sourced
  · intro before after reached step free collides
    obtain ⟨domain, action, strings, enabled, _, same⟩ := step
    subst same
    exact free (collides.mono
      (List.Subset.trans (List.subset_append_left _ _) (hashed_act reached enabled)))
  · intro start initial
    subst initial
    intro target id record stored
    cases stored
  · intro before after reached free holds step
    obtain ⟨domain, action, strings, enabled, permitted, same⟩ := step
    subst same
    exact sourced_act reached permitted enabled free holds
  · exact free

end Sources

section Families

def family (network : Network Balances) (domain : DomainId) (id : ExportId) : Direction :=
  if ((network.chains domain).transfers.exportsById id).isSome then .settlement else .forward

variable {package : CertifiedSummaryPackage} {items : VerifiedPackageItems} {domain : DomainId}
  {strings : List Bytes}
  (reachable : (system blake2 currency (transferPermits blake2 codec) config).Reachable network)
  (free : ¬ Collides blake2 (network.hashed ++ strings)) (certified : network.Certified package)
  (accepted : verifyPackageFlow blake2 codec package domain = .ok items)
include reachable free certified accepted

theorem issued_of_proof {proof : FinalizedImportInclusionProof}
    (listed : proof ∈ items.finalizedImportProofs)
    (logged : importFamily.replayPreimages blake2 proof ⊆ strings) :
    ∃ entry, (network.chains domain).transfers.exportsById proof.leaf.exportId = some entry := by
  have check := (verifyPackageFlow_checked accepted).imports proof listed
  obtain ⟨_, _, sourced, verified⟩ := checkFinalizedImportProof_eq_ok.mp check
  obtain ⟨committed, rooted⟩ := committed_of_certified reachable free certified
  rw [committed.imports.root] at verified
  have member : proof.leaf ∈ Transfers.canonicalEpochFinalizedImports blake2
      (network.chains package.header.domainId).transfers package.header.epochId := by
    apply (finalizedImportProof_sound committed.imports.canonical verified).resolve_right
    intro collides
    apply free (collides.mono
      (List.append_subset.mpr ⟨?_, List.subset_append_of_subset_right _ logged⟩))
    exact (List.append_subset.mp rooted).2
  obtain ⟨id, _, found⟩ := List.mem_filterMap.mp (LeafFamily.mem_sortLeaves.mp member)
  obtain ⟨record, stored, finalized⟩ := Option.bind_eq_some_iff.mp found
  obtain ⟨_, _, keyed, source, _⟩ := ObservedImportRecord.finalizedLeaf_eq_some finalized
  have imports := Transfers.imports_of_reachable
    (Chain.ledger_reachable (chain_reachable reachable package.header.domainId))
  obtain ⟨entry, issued, _⟩ := sourced_of_reachable reachable
    (fun collides => free (collides.mono (List.subset_append_left _ _))) stored
  rw [← source, sourced] at issued
  rw [keyed, imports.keyed stored]
  exact ⟨entry, issued⟩

theorem follows_of_certified (logged : items.strings blake2 ⊆ strings)
    (keeps : ∀ domain, Keeps (network.chains domain).transfers (network'.chains domain).transfers)
    (unique : ∀ {source source' id entry entry'},
      (network'.chains source).transfers.exportsById id = some entry →
      (network'.chains source').transfers.exportsById id = some entry' → source = source') :
    items.Follows (network'.family domain) := by
  constructor
  · intro proof listed
    obtain ⟨targeted, record, issued, same⟩ :=
      export_of_proof reachable free certified accepted listed
      (List.Subset.trans (VerifiedPackageItems.export_strings listed) logged)
    obtain ⟨later, kept, _⟩ := (keeps _).leaf issued
    have running := chain_reachable reachable proof.leaf.sourceDomain
    have exports := exports_of_chain running (free_chain free (List.subset_append_left _ _) _)
    rw [family, if_neg]
    intro here
    obtain ⟨entry, own⟩ := Option.isSome_iff_exists.mp here
    have source := unique kept own
    have foreign := (exports.entry issued).targeted
    rw [same, targeted] at foreign
    exact foreign source.symm
  · intro proof listed
    obtain ⟨entry, issued⟩ := issued_of_proof reachable free certified accepted listed
      (List.Subset.trans (VerifiedPackageItems.import_strings listed) logged)
    obtain ⟨later, kept, _⟩ := (keeps domain).leaf issued
    rw [family, if_pos (Option.isSome_iff_exists.mpr ⟨later, kept⟩)]

end Families

theorem Keeps.trans {first second third : Transfers.State} (before : Keeps first second)
    (after : Keeps second third) : Keeps first third := by
  constructor
  · intro id record stored
    obtain ⟨record', stored', same⟩ := before.leaf stored
    obtain ⟨record'', stored'', same'⟩ := after.leaf stored'
    exact ⟨record'', stored'', same'.trans same⟩
  · intro id record stored final
    exact after.finalized (before.finalized stored final) final

end Network

namespace World

variable {Balances Header Justification Authority : Type}
  {setting : Setting Balances Header Justification Authority}
  {config : DomainId → GenesisConfig Balances}
  {world world' last : World Balances Justification setting.primitives.headers}

theorem transfers_of_reachable (reachable : (system setting config).Reachable world)
    (free : ¬ Collides setting.blake2 (world.network.recorded setting.blake2)) :
    ∃ log ⊆ world.network.checked, (Network.system setting.blake2 setting.currency
      (Network.transferPermits setting.blake2 setting.codec) config).Reachable
      ⟨world.network.chains, log⟩ := by
  obtain ⟨log, logged, reached⟩ := honest_of_reachable reachable free
  exact ⟨log, logged, Network.reachable_mono (fun _ _ _ _ permitted => permitted.1) reached⟩

theorem keeps_step (reachable : (system setting config).Reachable world)
    (step : world.Step setting True world')
    (free : ¬ Collides setting.blake2 (world'.network.recorded setting.blake2))
    (domain : DomainId) : Network.Keeps (world.network.chains domain).transfers
      (world'.network.chains domain).transfers := by
  have earlier := free_of_step reachable step free
  cases step with
  | act acting action enabled =>
      obtain ⟨log, logged, reached⟩ := transfers_of_reachable reachable earlier
      have sub : log ++ [] ⊆ world.network.checked ++ [] := by simpa using logged
      exact Network.keeps_act reached enabled (free_of_log free sub) domain
  | finalize | justify | serve | submit => exact .refl _

section Runs

variable (reachable : (system setting config).Reachable world)
  (steps : ReflTransGen (system setting config).step world last)
  (free : ¬ Collides setting.blake2 (last.network.recorded setting.blake2))
include reachable steps free

theorem free_of_steps : ¬ Collides setting.blake2 (world.network.recorded setting.blake2) := by
  induction steps with
  | refl => exact free
  | tail before step ih => exact ih (free_of_step (reachable.steps before) step free)

theorem keeps_of_steps (domain : DomainId) :
    Network.Keeps (world.network.chains domain).transfers
      (last.network.chains domain).transfers := by
  induction steps with
  | refl => exact .refl _
  | @tail middle after before step ih =>
      have reached := reachable.steps before
      exact (ih (free_of_step reached step free)).trans (keeps_step reached step free domain)

end Runs

theorem source_unique (reachable : (system setting config).Reachable world)
    (free : ¬ Collides setting.blake2 (world.network.recorded setting.blake2))
    {source source' : DomainId} {id : ExportId} {entry entry' : ExportRecord}
    (stored : (world.network.chains source).transfers.exportsById id = some entry)
    (stored' : (world.network.chains source').transfers.exportsById id = some entry') :
    source = source' := by
  obtain ⟨log, logged, reached⟩ := transfers_of_reachable reachable free
  exact Network.source_unique reached (free_of_log free logged) stored stored'

theorem sorted_of_admitted (reachable : (system setting config).Reachable world) {domain : DomainId}
    {deployment : Deployment}
    (step : (world.Step setting True) (world.served setting domain deployment))
    (steps : ReflTransGen (system setting config).step (world.served setting domain deployment)
      last)
    (free : ¬ Collides setting.blake2 (last.network.recorded setting.blake2))
    {event : ImporterEvent} (admitted : world.Admits setting (world.importers domain) event) :
    (world.importers domain).Sorted setting.blake2 setting.codec (certified setting) domain
      (last.network.family domain) event := by
  cases event with
  | start now =>
      intro identity queue payload package items ready stored checked
      have unbroken := free_of_steps (.next reachable step) steps free
      have earlier := free_of_step reachable step unbroken
      obtain ⟨final, diligent, _⟩ := packaged_of_reachable reachable earlier
      obtain ⟨log, logged, reached⟩ := transfers_of_reachable reachable earlier
      obtain ⟨certified, accepted⟩ := final.certified_of_started admitted ready stored checked
      have hashed : hashedNext setting (world.importers domain) = items.strings setting.blake2 :=
        hashedNext_eq ready stored ((diligent.importers domain).verified.own.symm ▸ checked)
      have apart : ¬ Collides setting.blake2
          ((⟨world.network.chains, log⟩ : Network Balances).hashed ++
            items.strings setting.blake2) := by
        intro collides
        refine unbroken (collides.mono (List.append_subset.mpr ⟨?_, ?_⟩))
        · exact hashed_subset (List.subset_append_of_subset_left _ logged)
        · rw [← hashed]
          exact List.subset_append_of_subset_left _
            (List.subset_append_of_subset_right _ (List.subset_append_right _ _))
      exact Network.follows_of_certified reached apart certified accepted (List.Subset.refl _)
        (keeps_of_steps reachable (.head step steps) free)
        (source_unique (reachable.steps (.head step steps)) free)
  | receive | tick | contact | answer | install | restart => trivial

theorem nodeView_step (reachable : (system setting config).Reachable world)
    (step : world.Step setting True world')
    (free : ¬ Collides setting.blake2 (world'.network.recorded setting.blake2))
    (domain : DomainId) :
    (world.network.chains domain).nodeView ≤ (world'.network.chains domain).nodeView := by
  cases step with
  | act acting action enabled =>
      by_cases same : domain = acting
      · subst same
        have unbroken := Network.free_chain free (List.subset_append_left _ _) domain
        simp only [acted, Network.act, update_self] at unbroken ⊢
        exact Chain.nodeView_le (chain_reachable reachable domain) ⟨action, enabled, rfl⟩ unbroken
      · simp only [acted, Network.act, update_of_ne same]
        exact le_rfl
  | finalize | justify | serve | submit => exact le_rfl

/-- What an importer has on record is true, with every export on the side where it is at the end of
the run, and the iteration under way ends with the effect of its proof. -/
def Honored (world last : World Balances Justification setting.primitives.headers)
    (domain : DomainId) : Prop :=
  (world.importers domain).Truthful setting.blake2 setting.codec (certified setting) domain
      (last.network.family domain) (world.network.chains domain).nodeView ∧
    (world.deployment domain).Sound

theorem Honored.step (reachable : (system setting config).Reachable world)
    (step : world.Step setting True world')
    (steps : ReflTransGen (system setting config).step world' last)
    (free : ¬ Collides setting.blake2 (last.network.recorded setting.blake2))
    (honored : ∀ domain, world.Honored last domain) (domain : DomainId) :
    world'.Honored last domain := by
  obtain ⟨truthful, sound⟩ := honored domain
  have grown := nodeView_step reachable step (free_of_steps (.next reachable step) steps free)
    domain
  have stepped := step
  cases step with
  | act acting action enabled =>
      exact Deployment.truthful_step (.progress _ fun _ => grown) truthful sound
  | serve acting deployment served same =>
      by_cases here : domain = acting
      · subst here
        have sorted :=
          served.mono (fun event admitted =>
            sorted_of_admitted reachable stepped steps free admitted) id
        have kept := Deployment.truthful_step sorted truthful sound
        have after : (world.served setting domain deployment).deployment domain = deployment := by
          simp only [World.deployment, World.served, update_self, ← same]
        rw [Honored, after]
        change (update world.importers domain _ domain).Truthful _ _ _ _ _
          (world.network.chains domain).nodeView ∧ _
        rw [update_self, ← same]
        exact kept
      · have after : (world.served setting acting deployment).deployment domain =
          world.deployment domain := by
          simp only [World.deployment, World.served, update_of_ne here]
        rw [Honored, after]
        change (update world.importers acting _ domain).Truthful _ _ _ _ _
          (world.network.chains domain).nodeView ∧ _
        rw [update_of_ne here]
        exact ⟨truthful, sound⟩
  | finalize | justify | submit => exact ⟨truthful, sound⟩

theorem honored_of_reachable (reachable : (system setting config).Reachable world) :
    ∀ last, ReflTransGen (system setting config).step world last →
      ¬ Collides setting.blake2 (last.network.recorded setting.blake2) → ∀ domain,
        world.Honored last domain := by
  refine reachable.invariant (fun world => ∀ last,
    ReflTransGen (system setting config).step world last →
    ¬ Collides setting.blake2 (last.network.recorded setting.blake2) → ∀ domain,
      world.Honored last domain) ?_ ?_
  · intro world initial last _ _ domain
    refine ⟨?_, fun job stage outcomes later importing => ?_⟩
    · rw [initial.importers]
      exact Importer.truthful_initial _
    · change (world.importers domain).processor = _ at importing
      rw [initial.importers] at importing
      cases importing
  · intro world world' reached honored step last steps free domain
    exact Honored.step reached step steps free (honored last (.head step steps) free) domain

section Payments

variable (reachable : (system setting config).Reachable world)
  (free : ¬ Collides setting.blake2 (world.network.recorded setting.blake2))
include reachable free

theorem paid_once {domain : DomainId} {id : ExportId} (paid : world.network.Paid domain id) :
    ∃ source record, (world.network.chains source).transfers.exportsById id = some record ∧
      record.leaf.targetDomain = domain ∧
      (id, record.leaf.recipient, record.leaf.amount) ∈
        (world.network.chains domain).transfers.mints ∧
      (world.network.minted domain).count id = 1 := by
  obtain ⟨log, logged, reached⟩ := transfers_of_reachable reachable free
  have apart := free_of_log free logged
  obtain ⟨observed, stored, final⟩ := paid
  obtain ⟨source, record, issued, targeted, _⟩ :=
    (Network.settled_of_reachable reached apart).imported stored
  have once := Network.exactlyOnce_of_export reached apart issued
  have minted : id ∈ world.network.minted domain :=
    (Network.mem_minted_iff reached apart).mpr ⟨observed, stored, final⟩
  obtain ⟨⟨id', recipient, amount⟩, member, same⟩ := List.mem_map.mp minted
  obtain rfl : id' = id := same
  obtain ⟨_, sameRecipient, sameAmount⟩ := once.minted_as member
  refine ⟨source, record, issued, targeted, sameRecipient ▸ sameAmount ▸ member, ?_⟩
  have atMost : (world.network.minted domain).count id' ≤ 1 := targeted ▸ once.minted_once
  exact Nat.le_antisymm atMost (List.count_pos_iff.mpr minted)

theorem resolved_paid {domain : DomainId} {id : ExportId}
    (resolved : (world.network.chains domain).nodeView.ExportFinalized id) :
    ∃ record, (world.network.chains domain).transfers.exportsById id = some record ∧
      record.status = .remoteFinalized ∧ world.network.Paid record.leaf.targetDomain id := by
  obtain ⟨log, logged, reached⟩ := transfers_of_reachable reachable free
  obtain ⟨record, stored, final⟩ := resolved
  have settled := Network.settled_of_reachable reached (free_of_log free logged)
  exact ⟨record, stored, final, settled.resolved stored final⟩

/-- The effects of a package's proofs. Each export it proves was recorded by its source for this
domain and has been paid out here exactly once, as recorded; each export it completes is resolved
here and was paid out on its target; and its governance leaves are imported. -/
structure Effected (world : World Balances Justification setting.primitives.headers)
    (domain : DomainId) (items : VerifiedPackageItems) : Prop where
  exports : ∀ proof ∈ items.exportProofs, ∃ source entry,
    (world.network.chains source).transfers.exportsById proof.leaf.exportId = some entry ∧
    entry.leaf.targetDomain = domain ∧
    (proof.leaf.exportId, entry.leaf.recipient, entry.leaf.amount) ∈
      (world.network.chains domain).transfers.mints ∧
    (world.network.minted domain).count proof.leaf.exportId = 1
  completions : ∀ proof ∈ items.finalizedImportProofs, ∃ entry,
    (world.network.chains domain).transfers.exportsById proof.leaf.exportId = some entry ∧
    entry.status = .remoteFinalized ∧ world.network.Paid entry.leaf.targetDomain proof.leaf.exportId
  governance : ∀ proof ∈ items.governanceProofs,
    (world.network.chains domain).nodeView.Imported proof.leaf

def Fulfilled (setting : Setting Balances Header Justification Authority)
    (world : World Balances Justification setting.primitives.headers) (domain : DomainId)
    (identity : PackageIdentity) : Prop :=
  ∃ payload package items, (world.importers domain).store.payloads identity = some payload ∧
    checkPackage setting.blake2 setting.codec (certified setting) domain payload =
      .ok (package, items) ∧
    identity = packageIdentity domain package ∧ world.Effected domain items

def Vouches (setting : Setting Balances Header Justification Authority)
    (world : World Balances Justification setting.primitives.headers) (domain : DomainId)
    (identity : PackageIdentity) : Prop :=
  Vouched setting.blake2 setting.codec (certified setting) domain
    (world.network.chains domain).nodeView (world.importers domain).store.payloads identity

theorem Vouches.fulfilled {domain : DomainId} {identity : PackageIdentity}
    (vouches : world.Vouches setting domain identity) :
    world.Fulfilled setting domain identity := by
  obtain ⟨payload, package, items, stored, checked, applied⟩ := vouches
  obtain ⟨_, diligent, _⟩ := packaged_of_reachable reachable free
  obtain ⟨labelled, decoded, _, named⟩ :=
    (diligent.importers domain).verified.labelled identity payload stored
  have same : labelled = package :=
    Except.ok.inj (decoded.symm.trans (checkPackage_eq_ok.mp checked).1)
  subst same
  exact ⟨payload, labelled, items, stored, checked, named,
    fun proof listed => paid_once reachable free (applied.exports proof listed),
    fun proof listed => resolved_paid reachable free (applied.completions proof listed),
    applied.governance⟩

theorem vouches_of_record {domain : DomainId} {identity : PackageIdentity} {record : PackageRecord}
    (known : (world.importers domain).store.packages identity = some record ∨
      (world.importers domain).memory.package identity = some record) (acknowledged :
      record.state.Acknowledges) :
    world.Vouches setting domain identity := by
  have truthful := (honored_of_reachable reachable world .refl free domain).1
  rcases known with filed | indexed
  · exact (truthful.files.packages identity record filed).2 acknowledged
  · have label : record.toPackageIdentity = identity := Keyed.key_of_lookup indexed
    rw [← label]
    exact truthful.memory.packages record (List.mem_of_find?_eq_some indexed) acknowledged

end Payments

end World

/-- In the deployed network, whatever relays deliver and whenever services restart: a package that
an importer has acknowledged, in its file or in the index that the relay is answered from, is
stored, has passed all checks, and has had all its effects. -/
theorem acknowledged_paid {Balances Header Justification Authority : Type}
    (setting : Setting Balances Header Justification Authority)
    (config : DomainId → GenesisConfig Balances)
    (world : World Balances Justification setting.primitives.headers)
    (reachable : (World.system setting config).Reachable world)
    (free : ¬ Collides setting.blake2 (world.network.recorded setting.blake2)) (domain : DomainId)
    (identity : PackageIdentity) (record : PackageRecord)
    (known : (world.importers domain).store.packages identity = some record ∨
      (world.importers domain).memory.package identity = some record)
    (acknowledged : record.state.Acknowledges) : world.Fulfilled setting domain identity :=
  (World.vouches_of_record reachable free known acknowledged).fulfilled reachable free

theorem acknowledged_paid_sample :
    ∃ world record, (World.system World.sampleSetting Network.sampleConfig).Reachable world ∧
      (world.importers .moon).store.packages World.earthIdentity = some record ∧
        record.state = .ackedVerified ∧
      world.Fulfilled World.sampleSetting .moon World.earthIdentity := by
  obtain ⟨world, stands⟩ := World.attained_done
  have free := World.importedChains_facts.2.1
  rw [← stands.network] at free
  have importer : world.importers .moon = World.moonDone :=
    congrArg Deployment.importer stands.deployment
  obtain ⟨record, filed, state⟩ := World.moonDone_acknowledged
  rw [← importer] at filed
  refine ⟨world, record, stands.reachable, filed, state, ?_⟩
  apply acknowledged_paid World.sampleSetting Network.sampleConfig world stands.reachable free .moon
    World.earthIdentity record (.inl filed)
  rw [state]
  trivial

end Ialp
