import Ialp.Network.Network
import Ialp.Services.ImporterNode
import Ialp.Services.Packaging

/-!
Settlement across the network. Importers submit only what proofs in certified packages say; imports
then repeat what a source has recorded, and an export is resolved only after its target has
finalized it.
-/

namespace Ialp.Network

open Scale Function Transition Relation Hashing Services

section Honest

variable {Balances : Type} (blake2 : Bytes → Hash32)

def Certified (network : Network Balances) (package : CertifiedSummaryPackage) : Prop :=
  ∃ source epoch, (network.chains source).epochs.summaryHeaders epoch = some package.header

/-- The calls that the importer makes for the proofs of a package, and the strings it hashed to
check the proof. -/
inductive Submits (package : CertifiedSummaryPackage) (items : VerifiedPackageItems)
    (strings : List Bytes) : Transfers.Call → Prop where
  | observe (proof : ExportInclusionProof) (listed : proof ∈ items.exportProofs)
      (logged : exportFamily.replayPreimages blake2 proof ⊆ strings) :
      Submits package items strings
        (.observeVerifiedImport (observedImportClaim package (exportItem proof)))
  | finalize (proof : ExportInclusionProof) (listed : proof ∈ items.exportProofs) :
      Submits package items strings (.finalizeVerifiedImport proof.leaf.exportId)
  | acknowledge (proof : FinalizedImportInclusionProof)
      (listed : proof ∈ items.finalizedImportProofs)
      (logged : importFamily.replayPreimages blake2 proof ⊆ strings) :
      Submits package items strings
        (.acknowledgeRemoteFinalization (remoteFinalizationClaim package (completionItem proof)))

/-- The importer's account makes transfers like any other, and otherwise only submits what an
accepted package proves. Other actions, and calls of others, are not restricted. -/
def transferPermits (codec : PackageCodec) (network : Network Balances) (domain : DomainId)
    (action : Chain.Action Balances) (strings : List Bytes) : Prop :=
  ∀ who call, action = .transfers (.signed who) call →
    (network.chains domain).transfers.importerAccount = some who →
    (∃ targetDomain recipient amount,
      call = .createCrossDomainTransfer targetDomain recipient amount) ∨
    ∃ package items, network.Certified package ∧
      verifyPackageFlow blake2 codec package domain = .ok items ∧
      Submits blake2 package items strings call

def hashed (network : Network Balances) : List Bytes :=
  [DomainId.earth, .moon, .mars].flatMap (fun domain => (network.chains domain).log) ++
    network.checked

theorem log_subset_hashed (network : Network Balances) (domain : DomainId) :
    (network.chains domain).log ⊆ network.hashed := by
  intro string member
  refine List.mem_append_left _ (List.mem_flatMap.mpr ⟨domain, ?_, member⟩)
  cases domain <;> decide

end Honest

section Steps

variable {Balances : Type} {blake2 : Bytes → Hash32} {currency : Currency Balances}

variable (blake2 currency) in
theorem transfers_apply {chain : Chain Balances} (action : Chain.Action Balances)
    (wf : chain.epochs.WellFormed) :
    (chain.apply blake2 currency action).transfers = chain.transfers ∨
    (∃ startHeight endHeight, (chain.apply blake2 currency action).transfers =
      Transfers.commitEpoch blake2 chain.domainId chain.epochs.currentEpoch startHeight
        endHeight chain.transfers) ∨
    ∃ origin call balances, action = .transfers origin call ∧
      Transfers.Dispatched blake2 currency chain.callContext chain.transfers
        chain.balances origin call (chain.apply blake2 currency action).transfers balances := by
  cases action with
  | openBlock context =>
      obtain ⟨_, opened⟩ := Chain.openBlock_opened blake2 context wf
      cases opened with
      | within _ _ transfers => exact .inl transfers
      | closed _ _ _ _ transfers => exact .inr (.inl ⟨_, _, transfers⟩)
  | transfers origin call =>
      simp only [Chain.apply, Chain.applyTransfers]
      split
      · rename_i ok
        exact .inr (.inr ⟨origin, call, _, rfl, Transfers.dispatched_of_ok ok⟩)
      · exact .inl rfl
  | governance origin call =>
      left
      simp only [Chain.apply, Chain.applyGovernance]
      split <;> rfl
  | external balances extrinsicIndex => exact .inl rfl
  | closeBlock totals => exact .inl rfl

structure Keeps (state state' : Transfers.State) : Prop where
  leaf : ∀ {id record}, state.exportsById id = some record →
    ∃ record', state'.exportsById id = some record' ∧ record'.leaf = record.leaf
  finalized : ∀ {id record}, state.observedImportsById id = some record →
    record.status = .remoteFinalized →
    state'.observedImportsById id = some record

theorem Keeps.refl (state : Transfers.State) : Keeps state state :=
  ⟨fun stored => ⟨_, stored, rfl⟩, fun stored _ => stored⟩

variable {config : DomainId → GenesisConfig Balances} {network : Network Balances}
  {codec : PackageCodec}
  {permits : Network Balances → DomainId → Chain.Action Balances → List Bytes → Prop}

section Act

variable {domain : DomainId} {action : Chain.Action Balances} {strings : List Bytes}
  (reachable : (system blake2 currency permits config).Reachable network)
  (enabled : (network.chains domain).Enabled currency action)
include reachable enabled

theorem hashed_act : network.hashed ++ strings ⊆
    (network.act blake2 currency domain action strings).hashed := by
  have grown := Chain.log_subset (chain_reachable reachable domain) ⟨action, enabled, rfl⟩
  have logs : ∀ other, (network.chains other).log ⊆
      ((network.act blake2 currency domain action strings).chains other).log := by
    intro other
    by_cases same : other = domain
    · subst same
      simpa [act] using grown
    · simp [act, same]
  intro string member
  simp only [hashed, List.append_assoc, List.mem_append] at member
  rcases member with logged | checked
  · obtain ⟨other, _, here⟩ := List.mem_flatMap.mp logged
    exact log_subset_hashed _ other (logs other here)
  · exact List.mem_append_right _ (List.mem_append.mpr checked)

theorem keeps_act (free : ¬ Collides blake2
    (network.act blake2 currency domain action strings).hashed) (other : DomainId) :
    Keeps (network.chains other).transfers
      ((network.act blake2 currency domain action strings).chains other).transfers := by
  by_cases same : other = domain
  · subst same
    have running := chain_reachable reachable other
    have step : (Chain.system blake2 currency { config other with domainId := other }).step
      (network.chains other)
        ((network.chains other).apply blake2 currency action) := ⟨action, enabled, rfl⟩
    have effect := Chain.effect_of_step running step
    have here : (network.chains other).domainId = other := Chain.domainId_of_reachable running
    have moves : ReflTransGen (Transfers.Move blake2 currency other) (network.chains other).ledger
        ((network.chains other).apply blake2 currency action).ledger := by
      have moved := effect.ledger_moves (Chain.counted_of_reachable running)
      rwa [here] at moved
    have logged : ¬ Collides blake2 ((network.chains other).apply blake2 currency action).log := by
      intro collides
      refine free (collides.mono ?_)
      have sub := log_subset_hashed (network.act blake2 currency other action strings) other
      simpa [act] using sub
    have distinct := Chain.idsDistinct_of_free (.next running step) logged
    have kept : Keeps (network.chains other).transfers
        ((network.chains other).apply blake2 currency action).transfers :=
      ⟨Transfers.moves_leaf_kept (Chain.ledger_reachable running) moves distinct,
        Transfers.moves_finalizedImport_kept moves⟩
    simpa [act] using kept
  · have unchanged : (network.act blake2 currency domain action strings).chains other =
        network.chains other :=
      update_of_ne same _ _
    rw [unchanged]
    exact .refl _

end Act

section Apply

variable {chain : Chain Balances} {action : Chain.Action Balances} {id : ExportId}

def ImporterCalls (chain : Chain Balances) (action : Chain.Action Balances)
    (call : Transfers.Call) : Prop :=
  ∃ who, action = .transfers (.signed who) call ∧ chain.transfers.importerAccount = some who

theorem imported_apply (wf : chain.epochs.WellFormed) {record : ObservedImportRecord}
    (stored : (chain.apply blake2 currency action).transfers.observedImportsById id = some record) :
    (∃ before, chain.transfers.observedImportsById id = some before ∧
      before.recipient = record.recipient ∧
      before.amount = record.amount) ∨
    ∃ claim, ImporterCalls chain action (.observeVerifiedImport claim) ∧ claim.exportId = id ∧
      claim.recipient = record.recipient ∧ claim.amount = record.amount := by
  rcases transfers_apply blake2 currency action wf with
    same | ⟨_, _, closed⟩ | ⟨_, _, _, called, dispatched⟩
  · rw [same] at stored
    exact .inl ⟨record, stored, rfl, rfl⟩
  · rw [closed] at stored
    exact .inl ⟨record, stored, rfl, rfl⟩
  · generalize (chain.apply blake2 currency action).transfers = after at stored dispatched
    cases dispatched with
    | created => exact .inl ⟨record, stored, rfl, rfl⟩
    | observed who claim importer =>
        rcases update_eq_some.mp stored with ⟨here, written⟩ | ⟨_, kept⟩
        · subst here written
          exact .inr ⟨claim, ⟨who, called, importer⟩, rfl, rfl, rfl⟩
        · exact .inl ⟨record, kept, rfl, rfl⟩
    | finalized who _ before _ _ found =>
        rcases update_eq_some.mp stored with ⟨here, written⟩ | ⟨_, kept⟩
        · subst here written
          exact .inl ⟨before, found, rfl, rfl⟩
        · exact .inl ⟨record, kept, rfl, rfl⟩
    | acknowledged => exact .inl ⟨record, stored, rfl, rfl⟩

theorem resolved_apply (wf : chain.epochs.WellFormed)
    (exports : Transfers.ExportsInvariant blake2 chain.domainId
      chain.epochs.currentEpoch chain.transfers)
    {record : ExportRecord}
    (stored : (chain.apply blake2 currency action).transfers.exportsById id = some record)
    (final : record.status = .remoteFinalized) :
    (∃ before, chain.transfers.exportsById id = some before ∧ before.status = .remoteFinalized ∧
      before.leaf = record.leaf) ∨
    ∃ claim, ImporterCalls chain action (.acknowledgeRemoteFinalization claim) ∧
      claim.exportId = id ∧
      claim.targetDomain = record.leaf.targetDomain := by
  rcases transfers_apply blake2 currency action wf with
    same | ⟨_, _, closed⟩ | ⟨_, _, _, called, dispatched⟩
  · rw [same] at stored
    exact .inl ⟨record, stored, final, rfl⟩
  · rw [closed, Transfers.commitEpoch_exportsById exports] at stored
    obtain ⟨before, found, written⟩ := Option.map_eq_some_iff.mp stored
    subst written
    -- an export of the closing epoch is left exported, and any other as it was
    by_cases current : before.leaf.sourceEpochId = chain.epochs.currentEpoch
    · simp [Transfers.committedRecord, current, Transfers.exportedRecord] at final
    · rw [Transfers.committedRecord, if_neg current] at final ⊢
      exact .inl ⟨before, found, final, rfl⟩
  · generalize (chain.apply blake2 currency action).transfers = after at stored dispatched
    cases dispatched with
    | created =>
        rcases update_eq_some.mp stored with ⟨_, written⟩ | ⟨_, kept⟩
        · subst written
          cases final
        · exact .inl ⟨record, kept, final, rfl⟩
    | observed => exact .inl ⟨record, stored, final, rfl⟩
    | finalized => exact .inl ⟨record, stored, final, rfl⟩
    | acknowledged who claim before _ importer _ _ _ target =>
        rcases update_eq_some.mp stored with ⟨here, written⟩ | ⟨_, kept⟩
        · subst here written
          exact .inr ⟨claim, ⟨who, called, importer⟩, rfl, target.symm⟩
        · exact .inl ⟨record, kept, final, rfl⟩

end Apply

theorem free_chain {strings : List Bytes} (free : ¬ Collides blake2 strings)
    (logged : network.hashed ⊆ strings) (domain : DomainId) :
    ¬ Collides blake2 (network.chains domain).log := by
  intro collides
  exact free (collides.mono (List.Subset.trans (log_subset_hashed network domain) logged))

section Proofs

variable {package : CertifiedSummaryPackage} {items : VerifiedPackageItems} {domain : DomainId}
  {strings : List Bytes} (reachable : (system blake2 currency permits config).Reachable network)
  (free : ¬ Collides blake2 (network.hashed ++ strings)) (certified : network.Certified package)
include reachable free certified

theorem committed_of_certified :
    EpochCommitted blake2 package.header
      (committedLeaves blake2 (network.chains package.header.domainId) package.header.epochId) ∧
    Chain.rootStrings blake2 (network.chains package.header.domainId).transfers package.header ⊆
      network.hashed ++ strings := by
  obtain ⟨source, epoch, stored⟩ := certified
  have running := chain_reachable reachable source
  have unbroken := free_chain free (List.subset_append_left _ _) source
  have closed := Chain.closedEpochs_of_reachable running unbroken
  have commits := closed.commits stored
  have here : package.header.domainId = source :=
    commits.domain.trans (Chain.domainId_of_reachable running)
  have logged : Chain.rootStrings blake2 (network.chains source).transfers package.header ⊆
      (network.chains source).log := List.subset_append_of_subset_left _ (closed.logged stored)
  rw [here, commits.epoch]
  exact ⟨epochCommitted_of_reachable running unbroken stored,
    List.subset_append_of_subset_left _
      (List.Subset.trans logged (log_subset_hashed network source))⟩

variable (accepted : verifyPackageFlow blake2 codec package domain = .ok items)
include accepted

theorem export_of_proof {proof : ExportInclusionProof} (listed : proof ∈ items.exportProofs)
    (logged : exportFamily.replayPreimages blake2 proof ⊆ strings) :
    proof.leaf.targetDomain = domain ∧ ∃ record,
      (network.chains proof.leaf.sourceDomain).transfers.exportsById proof.leaf.exportId =
        some record ∧
      record.leaf = proof.leaf := by
  have check := (verifyPackageFlow_checked accepted).exports proof listed
  obtain ⟨_, ⟨sourced, _⟩, targeted, verified⟩ := checkExportProof_eq_ok.mp check
  obtain ⟨committed, rooted⟩ := committed_of_certified reachable free certified
  rw [committed.exports.root] at verified
  have member : proof.leaf ∈ Transfers.canonicalEpochExports
      (network.chains package.header.domainId).transfers package.header.epochId := by
    apply (exportProof_sound committed.exports.canonical verified).resolve_right
    intro collides
    apply free (collides.mono
      (List.append_subset.mpr ⟨?_, List.subset_append_of_subset_right _ logged⟩))
    exact (List.append_subset.mp rooted).1
  have exports := exports_of_chain (chain_reachable reachable package.header.domainId)
    (free_chain free (List.subset_append_left _ _) _)
  obtain ⟨record, stored, same, _⟩ := (Transfers.mem_canonicalEpochExports exports).mp member
  rw [sourced]
  exact ⟨targeted, record, stored, same⟩

theorem import_of_proof {proof : FinalizedImportInclusionProof}
    (listed : proof ∈ items.finalizedImportProofs)
    (logged : importFamily.replayPreimages blake2 proof ⊆ strings) :
    ∃ record, (network.chains proof.leaf.targetDomain).transfers.observedImportsById
      proof.leaf.exportId =
      some record ∧ record.status = .remoteFinalized := by
  have check := (verifyPackageFlow_checked accepted).imports proof listed
  obtain ⟨_, targeted, _, verified⟩ := checkFinalizedImportProof_eq_ok.mp check
  obtain ⟨committed, rooted⟩ := committed_of_certified reachable free certified
  rw [committed.imports.root] at verified
  have member : proof.leaf ∈ Transfers.canonicalEpochFinalizedImports blake2
      (network.chains package.header.domainId).transfers package.header.epochId := by
    apply (finalizedImportProof_sound committed.imports.canonical verified).resolve_right
    intro collides
    apply free (collides.mono
      (List.append_subset.mpr ⟨?_, List.subset_append_of_subset_right _ logged⟩))
    exact (List.append_subset.mp rooted).2
  have imports := Transfers.imports_of_reachable
    (Chain.ledger_reachable (chain_reachable reachable package.header.domainId))
  obtain ⟨id, _, found⟩ := List.mem_filterMap.mp (LeafFamily.mem_sortLeaves.mp member)
  obtain ⟨record, stored, finalized⟩ := Option.bind_eq_some_iff.mp found
  obtain ⟨status, _, keyed, _⟩ := ObservedImportRecord.finalizedLeaf_eq_some finalized
  have same : proof.leaf.exportId = id := keyed.trans (imports.keyed stored)
  rw [targeted, same]
  exact ⟨record, stored, status⟩

end Proofs

end Steps

section Settled

variable {Balances : Type} {blake2 : Bytes → Hash32} {currency : Currency Balances}
  {codec : PackageCodec} {config : DomainId → GenesisConfig Balances}
  {network network' : Network Balances}

def Announced (network : Network Balances) (target : DomainId) (id : ExportId)
    (recipient : AccountIdBytes) (amount : U128) : Prop :=
  ∃ source record, (network.chains source).transfers.exportsById id = some record ∧
    record.leaf.targetDomain = target ∧ record.leaf.recipient = recipient ∧
      record.leaf.amount = amount

def Paid (network : Network Balances) (target : DomainId) (id : ExportId) : Prop :=
  ∃ record, (network.chains target).transfers.observedImportsById id = some record ∧
    record.status = .remoteFinalized

theorem Announced.keep {target : DomainId} {id : ExportId}
    {recipient : AccountIdBytes} {amount : U128}
    (announced : network.Announced target id recipient amount)
    (keeps : ∀ domain, Keeps (network.chains domain).transfers (network'.chains domain).transfers) :
    network'.Announced target id recipient amount := by
  obtain ⟨source, record, stored, facts⟩ := announced
  obtain ⟨record', stored', same⟩ := (keeps source).leaf stored
  rw [← same] at facts
  exact ⟨source, record', stored', facts⟩

theorem Paid.keep {target : DomainId} {id : ExportId} (paid : network.Paid target id)
    (keeps : ∀ domain, Keeps (network.chains domain).transfers (network'.chains domain).transfers) :
    network'.Paid target id := by
  obtain ⟨record, stored, final⟩ := paid
  exact ⟨record, (keeps target).finalized stored final, final⟩

/-- Imports repeat what an export announced, and exports are resolved after they were paid. -/
structure Settled (network : Network Balances) : Prop where
  imported : ∀ {target id record},
    (network.chains target).transfers.observedImportsById id = some record →
    network.Announced target id record.recipient record.amount
  resolved : ∀ {source id record}, (network.chains source).transfers.exportsById id = some record →
    record.status = .remoteFinalized → network.Paid record.leaf.targetDomain id

theorem genesis_settled (config : DomainId → GenesisConfig Balances) :
    (genesis config).Settled := by
  constructor
  · intro target id record stored
    cases stored
  · intro source id record stored
    cases stored

section Step

variable {domain : DomainId} {action : Chain.Action Balances} {strings : List Bytes}
  (reachable : (system blake2 currency (transferPermits blake2 codec) config).Reachable network)
  (free : ¬ Collides blake2 (network.hashed ++ strings))
  (permitted : transferPermits blake2 codec network domain action strings)
include reachable free permitted

theorem announced_of_permitted {claim : ObservedImportClaim}
    (called : ImporterCalls (network.chains domain) action (.observeVerifiedImport claim)) :
    network.Announced domain claim.exportId claim.recipient claim.amount := by
  obtain ⟨who, called, importer⟩ := called
  rcases permitted who _ called importer with
    ⟨_, _, _, other⟩ | ⟨package, items, certified, accepted, submits⟩
  · cases other
  · cases submits with
    | observe proof listed logged =>
        obtain ⟨targeted, record, stored, same⟩ :=
          export_of_proof reachable free certified accepted listed logged
        rw [← same] at targeted
        refine ⟨proof.leaf.sourceDomain, record, stored, targeted, ?_, ?_⟩
        · rw [same]
          rfl
        · rw [same]
          rfl

theorem paid_of_permitted {claim : RemoteFinalizationClaim}
    (called : ImporterCalls (network.chains domain) action (.acknowledgeRemoteFinalization claim)) :
    network.Paid claim.targetDomain claim.exportId := by
  obtain ⟨who, called, importer⟩ := called
  rcases permitted who _ called importer with
    ⟨_, _, _, other⟩ | ⟨package, items, certified, accepted, submits⟩
  · cases other
  · cases submits with
    | acknowledge proof listed logged =>
        exact import_of_proof reachable free certified accepted listed logged

omit free in
theorem settled_act (enabled : (network.chains domain).Enabled currency action)
    (free : ¬ Collides blake2 (network.act blake2 currency domain action strings).hashed)
    (holds : network.Settled) : (network.act blake2 currency domain action strings).Settled := by
  have free' : ¬ Collides blake2 (network.hashed ++ strings) := fun collides =>
    free (collides.mono (hashed_act reachable enabled))
  have keeps := keeps_act reachable enabled free
  have running := chain_reachable reachable domain
  have wf := (Chain.counted_of_reachable running).wellFormed
  constructor
  · intro target id record stored
    by_cases same : target = domain
    · subst same
      simp only [act, update_self] at stored
      rcases imported_apply wf stored with
        ⟨before, found, recipient, amount⟩ | ⟨claim, called, here, recipient, amount⟩
      · rw [← recipient, ← amount]
        exact (holds.imported found).keep keeps
      · rw [← here, ← recipient, ← amount]
        exact (announced_of_permitted reachable free' permitted called).keep keeps
    · simp only [act, update_of_ne same] at stored
      exact (holds.imported stored).keep keeps
  · intro source id record stored final
    by_cases same : source = domain
    · subst same
      simp only [act, update_self] at stored
      have exports :=
        exports_of_chain running (free_chain free' (List.subset_append_left _ _) source)
      have here : (network.chains source).domainId = source := Chain.domainId_of_reachable running
      rcases resolved_apply wf (here.symm ▸ exports) stored final with
        ⟨before, found, final', leaf⟩ | ⟨claim, called, at', target⟩
      · rw [← leaf]
        exact (holds.resolved found final').keep keeps
      · rw [← at', ← target]
        exact (paid_of_permitted reachable free' permitted called).keep keeps
    · simp only [act, update_of_ne same] at stored
      exact (holds.resolved stored final).keep keeps

end Step

variable (reachable : (system blake2 currency (transferPermits blake2 codec) config).Reachable
  network) (free : ¬ Collides blake2 network.hashed)
include reachable free

theorem settled_of_reachable : network.Settled := by
  apply reachable.guarded_invariant (fun network => ¬ Collides blake2 network.hashed) Settled
  · intro before after reached step free collides
    obtain ⟨domain, action, strings, enabled, _, same⟩ := step
    subst same
    exact free (collides.mono
      (List.Subset.trans (List.subset_append_left _ _) (hashed_act reached enabled)))
  · intro start initial
    subst initial
    exact genesis_settled config
  · intro before after reached free holds step
    obtain ⟨domain, action, strings, enabled, permitted, same⟩ := step
    subst same
    exact settled_act reached permitted enabled free holds
  · exact free

theorem source_unique {source source' : DomainId} {id : ExportId} {record record' : ExportRecord}
    (stored : (network.chains source).transfers.exportsById id = some record)
    (stored' : (network.chains source').transfers.exportsById id = some record') :
    source = source' := by
  -- both chains have logged the string that they hashed to the id
  have issued : ∀ {domain entry}, (network.chains domain).transfers.exportsById id = some entry →
      ∃ sequence : UInt64, encode (domain, sequence) ∈ network.hashed ∧
        blake2 (encode (domain, sequence)) = id := by
    intro domain entry found
    have running := chain_reachable reachable domain
    have exports := exports_of_chain running (free_chain free (List.Subset.refl _) domain)
    obtain ⟨sequence, bound, hashes⟩ := (exports.entry found).issued
    have logged := Transfers.idsLogged_of_reachable (Chain.ledger_reachable running) sequence bound
    exact ⟨sequence, log_subset_hashed network domain (List.mem_append_left _ logged), hashes⟩
  obtain ⟨sequence, logged, hashes⟩ := issued stored
  obtain ⟨sequence', logged', hashes'⟩ := issued stored'
  have preimages := eq_of_not_collides free logged logged' (hashes.trans hashes'.symm)
  exact (Prod.mk.inj (encode_injective preimages)).1

theorem journal_of_network (domain : DomainId) :
    Transfers.JournalInvariant (network.chains domain).transfers :=
  Transfers.journal_of_reachable (Chain.ledger_reachable (chain_reachable reachable domain))
    (Chain.idsDistinct_of_free (chain_reachable reachable domain)
      (free_chain free (List.Subset.refl _) domain))

end Settled

end Ialp.Network
