import Ialp.Pallets.GovernanceRegistry
import Ialp.Runtime.TransferRecords
import Ialp.Services.Exporter

/-!
The exporter's packages carry every leaf of a closed epoch, and the relay and the importer of their
target accept them.
-/

namespace Ialp.Services

open Scale Function Hashing

section Fallible

theorem readRecords_eq_ok {Record : Type} {missing : String} {lookup : Hash32 → Option Record}
    {ids : List Hash32} (found : ∀ id ∈ ids, ∃ record, lookup id = some record) :
    readRecords missing lookup ids = .ok (ids.filterMap lookup) := by
  induction ids with
  | nil => rfl
  | cons id rest ih =>
      obtain ⟨record, stored⟩ := found id List.mem_cons_self
      have later := ih fun other member => found other (List.mem_cons_of_mem _ member)
      rw [readRecords] at later ⊢
      rw [List.mapM_cons, later, stored, List.filterMap_cons_some stored]
      rfl

theorem map_key_nodup {Leaf : Type} {lookup : Hash32 → Option Leaf} {key : Leaf → Hash32}
    {ids : List Hash32} (keyed : ∀ id ∈ ids, ∀ leaf, lookup id = some leaf → key leaf = id)
    (nodup : ids.Nodup) : ((ids.filterMap lookup).map key).Nodup := by
  refine List.Nodup.sublist ?_ nodup
  induction ids with
  | nil => exact List.Sublist.refl _
  | cons id rest ih =>
      have later := ih (fun other member => keyed other (List.mem_cons_of_mem _ member))
        (List.nodup_cons.mp nodup).2
      cases stored : lookup id with
      | none =>
          rw [List.filterMap_cons_none stored]
          exact later.cons id
      | some leaf =>
          rw [List.filterMap_cons_some stored, List.map_cons,
            keyed id List.mem_cons_self leaf stored]
          exact later.cons_cons id

end Fallible

section Families

variable {Leaf : Type} {family : LeafFamily Leaf} {blake2 : Bytes → Hash32}

/-- Leaves over which a root was computed, told apart by their keys. -/
structure CommittedLeaves (family : LeafFamily Leaf) (blake2 : Bytes → Hash32)
    (header : EpochSummaryHeader) (root : Hash32) (key : Leaf → Hash32) (leaves : List Leaf) :
    Prop where
  canonical : ∀ leaf ∈ leaves, family.Canonical blake2 leaf
  distinct : (leaves.map key).Nodup
  root : root = family.merkleRoot blake2 header.domainId header.epochId header.startBlockHeight
    header.endBlockHeight leaves

theorem buildProofs_eq_ok {header : EpochSummaryHeader} {root : Hash32} {key : Leaf → Hash32}
    {leaves : List Leaf} (committed : CommittedLeaves family blake2 header root key leaves)
    (small : leaves.length < 2 ^ 32) (kind : String) (epochId : EpochId) {part : List Leaf}
    (subset : part ⊆ leaves) : ∃ proofs, buildProofs kind epochId key (fun id =>
      family.buildInclusionProof blake2 leaves (key · = id)) part =
        .ok proofs ∧
      proofs.map (·.leaf) = part ∧ ∀ proof ∈ proofs,
        family.verifyInclusionProof blake2 root proof = true := by
  induction part with
  | nil => exact ⟨[], rfl, rfl, by simp⟩
  | cons leaf rest ih =>
      obtain ⟨member, later⟩ := List.cons_subset.mp subset
      obtain ⟨proofs, built, carried, verified⟩ := ih later
      obtain ⟨proof, first, isLeaf, sameKey, accepted⟩ := LeafFamily.buildInclusionProof_verified
        (fun other => key other = key leaf) committed.canonical small ⟨leaf, member, by simp⟩
      have same : proof.leaf = leaf :=
        List.inj_on_of_nodup_map committed.distinct isLeaf member (of_decide_eq_true sameKey)
      refine ⟨proof :: proofs, ?_, ?_, ?_⟩
      · rw [buildProofs] at built ⊢
        rw [List.mapM_cons, first, built]
        rfl
      · rw [List.map_cons, same, carried]
      · intro other inside
        rcases List.mem_cons.mp inside with rfl | behind
        · exact committed.root ▸ accepted
        · exact verified other behind

end Families

section Targets

variable {blake2 : Bytes → Hash32} {codec : PackageCodec} {header : EpochSummaryHeader}
  {leaves : EpochLeaves}

def EpochLeaves.count (leaves : EpochLeaves) : Nat :=
  leaves.exports.length + leaves.finalizedImports.length + leaves.governance.length

structure EpochCommitted (blake2 : Bytes → Hash32) (header : EpochSummaryHeader)
    (leaves : EpochLeaves) : Prop where
  exports : CommittedLeaves exportFamily blake2 header header.exportRoot (·.exportId) leaves.exports
  imports : CommittedLeaves importFamily blake2 header header.importRoot (·.exportId)
    leaves.finalizedImports
  governance : CommittedLeaves governanceFamily blake2 header header.governanceRoot
    (·.leafHash) leaves.governance
  exported : ∀ leaf ∈ leaves.exports, leaf.sourceDomain = header.domainId ∧
    leaf.sourceEpochId = header.epochId
  imported : ∀ leaf ∈ leaves.finalizedImports, leaf.targetDomain = header.domainId
  governed : ∀ leaf ∈ leaves.governance, leaf.committedEpoch = header.epochId ∧
    leaf.orderingDomain = header.domainId

structure Carries (items : VerifiedPackageItems) (inputs : TargetPackageInputs) : Prop where
  exports : items.exportProofs.map (·.leaf) = inputs.exportLeaves
  imports : items.finalizedImportProofs.map (·.leaf) = inputs.finalizedImportLeaves
  governance : items.governanceProofs.map (·.leaf) = inputs.governanceLeaves

theorem Carries.length {items : VerifiedPackageItems} {inputs : TargetPackageInputs}
    (carries : Carries items inputs) : items.proofs.length =
      inputs.exportLeaves.length + inputs.finalizedImportLeaves.length +
        inputs.governanceLeaves.length := by
  simp [VerifiedPackageItems.proofs, ← carries.exports, ← carries.imports,
    ← carries.governance, Nat.add_assoc]

theorem Carries.nonempty {items : VerifiedPackageItems} {inputs : TargetPackageInputs}
    (carries : Carries items inputs) (some : inputs ≠ default) : items.proofs ≠ [] := by
  intro none
  have empty := carries.length
  rw [none, List.length_nil] at empty
  obtain ⟨exports, imports, governance⟩ := inputs
  simp only at empty
  obtain rfl : exports = [] := List.length_eq_zero_iff.mp (by omega)
  obtain rfl : imports = [] := List.length_eq_zero_iff.mp (by omega)
  obtain rfl : governance = [] := List.length_eq_zero_iff.mp (by omega)
  exact some rfl

theorem Carries.small {items : VerifiedPackageItems} {domain : DomainId}
    (carries : Carries items (inputsFor leaves domain)) (few : leaves.count < 2 ^ 32) :
    items.proofs.length < 2 ^ 32 := by
  have exports := List.length_filter_le (fun leaf : ExportLeaf =>
    leaf.targetDomain = domain) leaves.exports
  have imports := List.length_filter_le (fun leaf : FinalizedImportLeaf =>
    leaf.sourceDomain = domain) leaves.finalizedImports
  have governance := List.length_filter_le (fun leaf : GovernanceLeaf =>
    leaf.targetDomain = domain) leaves.governance
  rw [carries.length]
  simp only [inputsFor, EpochLeaves.count] at *
  omega

variable (codec) in
theorem certifyTarget_eq_ok (committed : EpochCommitted blake2 header leaves)
    (few : leaves.count < 2 ^ 32) (bundle : SummaryCertificationBundle) (epochId : EpochId)
    (domain : DomainId) :
    ∃ items, certifyTarget blake2 codec header bundle epochId leaves (inputsFor leaves domain) =
        .ok (packageOf blake2 codec header bundle items) ∧
      Carries items (inputsFor leaves domain) ∧
      Checked blake2 (packageOf blake2 codec header bundle items) domain items := by
  rw [EpochLeaves.count] at few
  have exportsSubset : (inputsFor leaves domain).exportLeaves ⊆ leaves.exports :=
    List.filter_subset_self _
  have importsSubset : (inputsFor leaves domain).finalizedImportLeaves ⊆ leaves.finalizedImports :=
    List.filter_subset_self _
  have governanceSubset : (inputsFor leaves domain).governanceLeaves ⊆ leaves.governance :=
    List.filter_subset_self _
  obtain ⟨exportProofs, exports, exportsCarried, exportsVerified⟩ :=
    buildProofs_eq_ok committed.exports (by omega) "export" epochId exportsSubset
  obtain ⟨importProofs, imports, importsCarried, importsVerified⟩ :=
    buildProofs_eq_ok committed.imports (by omega) "finalized-import" epochId importsSubset
  obtain ⟨governanceProofs, governance, governanceCarried, governanceVerified⟩ :=
    buildProofs_eq_ok committed.governance (by omega) "governance" epochId governanceSubset
  let items : VerifiedPackageItems := ⟨exportProofs, importProofs, governanceProofs⟩
  have layout : (packageOf blake2 codec header bundle items).inclusionProofs ≠ [] ∧
      (packageOf blake2 codec header bundle items).artifacts = [] := by
    rw [packageOf_inclusionProofs]
    exact ⟨List.cons_ne_nil _ _, rfl⟩
  refine ⟨items, ?_, ⟨exportsCarried, importsCarried, governanceCarried⟩, ?_⟩
  · simp only [certifyTarget, bind_eq_ok]
    exact ⟨_, exports, _, imports, _, governance, (), ensure_eq_ok.mpr layout, rfl⟩
  · constructor
    · intro proof member
      have here : proof.leaf ∈ (inputsFor leaves domain).exportLeaves :=
        exportsCarried ▸ List.mem_map_of_mem member
      obtain ⟨leaf, targeted⟩ := List.mem_filter.mp here
      exact checkExportProof_eq_ok.mpr ⟨committed.exports.canonical _ leaf,
        committed.exported _ leaf, of_decide_eq_true targeted, exportsVerified proof member⟩
    · intro proof member
      have here : proof.leaf ∈ (inputsFor leaves domain).finalizedImportLeaves :=
        importsCarried ▸ List.mem_map_of_mem member
      obtain ⟨leaf, targeted⟩ := List.mem_filter.mp here
      exact checkFinalizedImportProof_eq_ok.mpr ⟨committed.imports.canonical _ leaf,
        committed.imported _ leaf, of_decide_eq_true targeted, importsVerified proof member⟩
    · intro proof member
      have here : proof.leaf ∈ (inputsFor leaves domain).governanceLeaves :=
        governanceCarried ▸ List.mem_map_of_mem member
      obtain ⟨leaf, targeted⟩ := List.mem_filter.mp here
      obtain ⟨epoch, emitted⟩ := committed.governed _ leaf
      refine checkGovernanceProof_eq_ok.mpr ⟨governanceVerified proof member,
        GovernanceLeaf.canonical_iff.mp (committed.governance.canonical _ leaf),
        of_decide_eq_true targeted, epoch, ?_⟩
      intro proposal isProposal
      rw [isProposal] at emitted
      exact emitted

end Targets

section Closed

variable {Balances : Type} {blake2 : Bytes → Hash32} {currency : Currency Balances}
  {config : GenesisConfig Balances} {chain : Chain Balances}

def committedLeaves (blake2 : Bytes → Hash32) (chain : Chain Balances) (e : EpochId) :
    EpochLeaves where
  exports := Transfers.canonicalEpochExports chain.transfers e
  finalizedImports := Transfers.canonicalEpochFinalizedImports blake2 chain.transfers e
  governance := Governance.canonicalEpochGovernanceLeaves chain.governance e

theorem CommittedLeaves.sorted {Leaf : Type} {family : LeafFamily Leaf}
    [Std.TransCmp family.ordering] {header : EpochSummaryHeader} {root : Hash32}
    {key : Leaf → Hash32} {leaves : List Leaf}
    (canonical : ∀ leaf ∈ leaves, family.Canonical blake2 leaf) (distinct : (leaves.map key).Nodup)
    (committed : root = family.merkleRoot blake2 header.domainId header.epochId
      header.startBlockHeight header.endBlockHeight (family.sortLeaves leaves)) :
    CommittedLeaves family blake2 header root key (family.sortLeaves leaves) where
  canonical leaf member := canonical leaf (LeafFamily.mem_sortLeaves.mp member)
  distinct := ((sortBy_perm family.ordering leaves).map key).nodup_iff.mpr distinct
  root := committed

variable (reachable : (Chain.system blake2 currency config).Reachable chain)
  (free : ¬ Collides blake2 chain.log)
include reachable free

theorem exports_of_chain :
    Transfers.ExportsInvariant blake2 config.domainId chain.epochs.currentEpoch chain.transfers :=
  Transfers.exports_of_reachable (Chain.ledger_reachable reachable)
    (Chain.idsDistinct_of_free reachable free)

theorem leaves_of_chain :
    Governance.LeavesInvariant blake2 config.domainId chain.epochs.currentEpoch
    chain.governance.toLeafStore :=
  (Governance.records_of_reachable (Chain.chamber_reachable reachable) fun collides =>
    free (collides.mono (List.subset_append_right _ _))).leaves

theorem epochCommitted_of_reachable {e : EpochId} {header : EpochSummaryHeader}
    (stored : chain.epochs.summaryHeaders e = some header) :
    EpochCommitted blake2 header (committedLeaves blake2 chain e) := by
  have commits := (Chain.closedEpochs_of_reachable reachable free).commits stored
  have domain := Chain.domainId_of_reachable reachable
  have exports := exports_of_chain reachable free
  have imports := Transfers.imports_of_reachable (Chain.ledger_reachable reachable)
  have leaves := leaves_of_chain reachable free
  constructor
  · apply CommittedLeaves.sorted _ _ commits.exports
    · intro leaf member
      obtain ⟨id, listed, record, found, rfl⟩ := by simpa using member
      exact (exports.entry found).canonical
    · apply map_key_nodup _ (exports.nodup e)
      intro id _ leaf found
      obtain ⟨record, stored, rfl⟩ := Option.map_eq_some_iff.mp found
      exact (exports.entry stored).keyed
  · apply CommittedLeaves.sorted _ _ commits.imports
    · intro leaf member
      obtain ⟨id, _, found⟩ := List.mem_filterMap.mp member
      obtain ⟨record, _, finalized⟩ := Option.bind_eq_some_iff.mp found
      exact (ObservedImportRecord.finalizedLeaf_eq_some finalized).2.1
    · apply map_key_nodup _ (imports.nodup e)
      intro id _ leaf found
      obtain ⟨record, stored, finalized⟩ := Option.bind_eq_some_iff.mp found
      rw [(ObservedImportRecord.finalizedLeaf_eq_some finalized).2.2.1, imports.keyed stored]
  · apply CommittedLeaves.sorted _ _ commits.governance
    · intro leaf member
      obtain ⟨id, _, found⟩ := List.mem_filterMap.mp member
      exact GovernanceLeaf.canonical_iff.mpr (leaves.ready found).canonical
    · apply map_key_nodup _ (leaves.nodup e)
      intro id _ leaf found
      exact leaves.keyed found
  · intro leaf member
    obtain ⟨record, found, rfl, source⟩ := (Transfers.mem_canonicalEpochExports exports).mp member
    exact ⟨(exports.entry found).sourced.trans (domain.symm.trans commits.domain.symm),
      source.trans commits.epoch.symm⟩
  · intro leaf member
    obtain ⟨id, _, found⟩ := List.mem_filterMap.mp (LeafFamily.mem_sortLeaves.mp member)
    obtain ⟨record, observed, finalized⟩ := Option.bind_eq_some_iff.mp found
    obtain ⟨_, _, _, _, targeted, _⟩ := ObservedImportRecord.finalizedLeaf_eq_some finalized
    rw [targeted, imports.targeted observed, ← domain, commits.domain]
  · intro leaf member
    obtain ⟨hash, listed, found⟩ := List.mem_filterMap.mp (LeafFamily.mem_sortLeaves.mp member)
    obtain ⟨other, found', committed⟩ := leaves.found listed
    obtain rfl : leaf = other := Option.some.inj (found.symm.trans found')
    exact ⟨committed.trans commits.epoch.symm,
      (leaves.ready found).emitted.trans (domain.symm.trans commits.domain.symm)⟩

theorem readEpochLeaves_eq_ok {e : EpochId} {header : EpochSummaryHeader}
    (stored : chain.epochs.summaryHeaders e = some header) :
    readEpochLeaves blake2 header e (epochAnswers chain e) =
      .ok (committedLeaves blake2 chain e) := by
  have committed := epochCommitted_of_reachable reachable free stored
  have exportRoot := committed.exports.root
  have importRoot := committed.imports.root
  have governanceRoot := committed.governance.root
  have exports : epochExports chain e =
      .ok ((chain.transfers.epochExportIds e).filterMap chain.transfers.exportsById) := by
    apply readRecords_eq_ok
    intro id listed
    obtain ⟨record, found, _⟩ := (exports_of_chain reachable free).found listed
    exact ⟨record, found⟩
  have imports : epochFinalizedImports chain e =
      .ok ((chain.transfers.epochFinalizedImportIds e).filterMap
        chain.transfers.observedImportsById) := by
    apply readRecords_eq_ok
    intro id listed
    obtain ⟨record, found, _⟩ :=
      (Transfers.imports_of_reachable (Chain.ledger_reachable reachable)).found listed
    exact ⟨record, found⟩
  have governance : epochGovernanceLeaves chain e =
      .ok ((chain.governance.epochGovernanceLeafIds e).filterMap
        chain.governance.governanceLeavesById) := by
    apply readRecords_eq_ok
    intro id listed
    obtain ⟨leaf, found, _⟩ := (leaves_of_chain reachable free).found listed
    exact ⟨leaf, found⟩
  simp only [committedLeaves, Transfers.canonicalEpochExports,
    Transfers.canonicalEpochFinalizedImports, Governance.canonicalEpochGovernanceLeaves,
    sortExportLeaves, sortFinalizedImportLeaves, sortGovernanceLeaves,
    LeafFamily.merkleRoot_sortLeaves] at exportRoot importRoot governanceRoot
  simp only [readEpochLeaves, epochAnswers, exports, imports, governance, ok_bind,
    List.map_filterMap, List.filterMap_filterMap, exportMerkleRoot, importMerkleRoot,
    governanceMerkleRoot, ensureRoot, ← exportRoot,
    ← importRoot, ← governanceRoot, ensure_true]
  rfl

end Closed

section Delivery

variable {blake2 : Bytes → Hash32} {codec : PackageCodec} {bundle : SummaryCertificationBundle}

def carriedLeaves {Leaf : Type} (codec : PackageCodec)
    (select : InclusionProof → Option (LeafInclusionProof Leaf))
    (package : CertifiedSummaryPackage) : List Leaf :=
  package.inclusionProofs.filterMap fun encoded =>
    ((codec.proof.decode encoded).toOption.bind select).map (·.leaf)

/-- Every committed leaf is carried, once, and nothing else is. -/
def CarriedOnce {Leaf : Type} (carried committed : List Leaf) : Prop :=
  carried.Nodup ∧ ∀ leaf, leaf ∈ carried ↔ leaf ∈ committed

def Delivered (blake2 : Bytes → Hash32) (codec : PackageCodec) (bundle : SummaryCertificationBundle)
    (target : DomainId) (package : CertifiedSummaryPackage) : Prop :=
  ∃ items : VerifiedPackageItems,
    package.inclusionProofs =
      codec.proof.encode (.summaryHeaderStorageV1 bundle.summaryHeaderStorageProof) ::
      items.proofs.map codec.proof.encode ∧
    verifyPackageFlow blake2 codec package target = .ok items ∧
    ∀ now, ∃ envelope, relayEnvelope codec target package now = .ok envelope ∧
      decodeAndValidateEnvelope blake2 codec (codec.envelope.encode envelope) =
        .ok (envelope, package) ∧
      inspectPackageForIngest codec package target = .ok {
        sourceDomain := envelope.sourceDomain
        targetDomain := envelope.targetDomain
        epochId := envelope.epochId
        exportCount := envelope.exportCount }

theorem carriedLeaves_packageOf {Leaf : Type}
    {select : InclusionProof → Option (LeafInclusionProof Leaf)} (header : EpochSummaryHeader)
    (items : VerifiedPackageItems)
    (summary : ∀ proof, select (.summaryHeaderStorageV1 proof) = none) :
    carriedLeaves codec select (packageOf blake2 codec header bundle items) =
      (items.proofs.filterMap select).map (·.leaf) := by
  rw [carriedLeaves, packageOf_inclusionProofs, List.filterMap_cons_none, List.filterMap_map,
    List.map_filterMap]
  · apply List.filterMap_congr
    intro proof _
    simp [codec.proof.decode_encode, Except.toOption]
  · simp [codec.proof.decode_encode, Except.toOption, summary]

theorem delivered_of_checked {header : EpochSummaryHeader} {items : VerifiedPackageItems}
    {target : DomainId} (nonempty : items.proofs ≠ []) (small : items.proofs.length < 2 ^ 32)
    (checked : Checked blake2 (packageOf blake2 codec header bundle items) target items) :
    Delivered blake2 codec bundle target (packageOf blake2 codec header bundle items) := by
  have shape := packageOf_inclusionProofs blake2 codec header bundle items
  refine ⟨items, shape, verifyPackageFlow_accepts shape nonempty checked, fun now => ?_⟩
  have count : (packageOf blake2 codec header bundle items).inclusionProofs.length - 1 =
      items.proofs.length := by
    simp [shape]
  refine ⟨_, ?_, decodeAndValidateEnvelope_accepts shape nonempty checked small rfl now,
    inspectPackageForIngest_accepts shape nonempty checked small⟩
  simp only [relayEnvelope, count, small, ensure_true, ok_bind]
  rfl

theorem certifyEpoch_eq_ok {header : EpochSummaryHeader} {epochId : EpochId}
    {answers : EpochAnswers} {leaves : EpochLeaves} {items : DomainId → VerifiedPackageItems}
    (read : readEpochLeaves blake2 header epochId answers = .ok leaves)
    (certified : ∀ domain,
      certifyTarget blake2 codec header bundle epochId leaves (inputsFor leaves domain) =
      .ok (packageOf blake2 codec header bundle (items domain))) :
    certifyEpoch blake2 codec header bundle epochId answers =
      .ok ((targets leaves).map fun domain =>
        (domain, packageOf blake2 codec header bundle (items domain))) := by
  rw [certifyEpoch, read, ok_bind, groupedTargets_entries, List.mapM_map]
  apply mapM_eq_ok
  intro domain _
  simp only [comp_apply, certified, ok_bind]
  rfl

theorem carriedOnce_targets {Leaf : Type} {domainOf : Leaf → DomainId} {key : Leaf → Hash32}
    {leaves : EpochLeaves} {family : List Leaf} {header : EpochSummaryHeader}
    {items : DomainId → VerifiedPackageItems}
    (select : InclusionProof → Option (LeafInclusionProof Leaf))
    (inputs : TargetPackageInputs → List Leaf)
    (summary : ∀ proof, select (.summaryHeaderStorageV1 proof) = none) (empty : inputs default = [])
    (selected : ∀ domain, inputs (inputsFor leaves domain) = family.filter (domainOf · = domain))
    (carried : ∀ domain, ((items domain).proofs.filterMap select).map (·.leaf) =
      inputs (inputsFor leaves domain))
    (distinct : (family.map key).Nodup) : CarriedOnce (((targets leaves).map fun domain =>
      (domain, packageOf blake2 codec header bundle (items domain))).flatMap
      fun entry => carriedLeaves codec select entry.2) family := by
  have permuted := targets_perm domainOf inputs empty selected
  rw [List.flatMap_map]
  simp only [carriedLeaves_packageOf header _ summary, carried]
  exact ⟨permuted.nodup_iff.mpr distinct.of_map, fun leaf => permuted.mem_iff⟩

/-- For every closed epoch of a reachable chain and every certification of it, the exporter builds
one package per target; together these carry every committed leaf exactly once, and each is accepted
by the relay and by the importer of its target. -/
theorem exporter_packages_accepted {Balances : Type} (blake2 : Bytes → Hash32)
    (codec : PackageCodec) (currency : Currency Balances) (config : GenesisConfig Balances)
    (chain : Chain Balances) (reachable : (Chain.system blake2 currency config).Reachable chain)
    (free : ¬ Collides blake2 chain.log) (e : EpochId) (closed : e < chain.epochs.currentEpoch)
    (few : (Transfers.canonicalEpochExports chain.transfers e).length +
      (Transfers.canonicalEpochFinalizedImports blake2 chain.transfers e).length +
      (Governance.canonicalEpochGovernanceLeaves chain.governance e).length < 2 ^ 32)
    (bundle : SummaryCertificationBundle) :
    ∃ header packages, chain.epochs.summaryHeaders e = some header ∧
      certifyEpoch blake2 codec header bundle e (epochAnswers chain e) = .ok packages ∧
      (packages.map Prod.fst).Nodup ∧
      CarriedOnce (packages.flatMap fun entry => carriedLeaves codec selectExport entry.2)
        (Transfers.canonicalEpochExports chain.transfers e) ∧
      CarriedOnce (packages.flatMap fun entry => carriedLeaves codec selectFinalizedImport entry.2)
        (Transfers.canonicalEpochFinalizedImports blake2 chain.transfers e) ∧
      CarriedOnce (packages.flatMap fun entry => carriedLeaves codec selectGovernance entry.2)
        (Governance.canonicalEpochGovernanceLeaves chain.governance e) ∧
      ∀ target package, (target, package) ∈ packages →
        Delivered blake2 codec bundle target package := by
  obtain ⟨header, stored⟩ := (Chain.closedEpochs_of_reachable reachable free).certified closed
  have committed := epochCommitted_of_reachable reachable free stored
  have read := readEpochLeaves_eq_ok reachable free stored
  choose items certified carries checked using certifyTarget_eq_ok codec committed few bundle e
  refine ⟨header, _, stored, certifyEpoch_eq_ok read certified, ?_, ?_, ?_, ?_, ?_⟩
  · simpa [Function.comp_def] using targets_nodup (committedLeaves blake2 chain e)
  · apply carriedOnce_targets selectExport (·.exportLeaves) (fun _ => rfl) rfl (fun _ => rfl) _
      committed.exports.distinct
    intro domain
    simpa using (carries domain).exports
  · apply carriedOnce_targets selectFinalizedImport (·.finalizedImportLeaves) (fun _ => rfl)
      rfl (fun _ => rfl) _ committed.imports.distinct
    intro domain
    simpa using (carries domain).imports
  · apply carriedOnce_targets selectGovernance (·.governanceLeaves) (fun _ => rfl)
      rfl (fun _ => rfl) _ committed.governance.distinct
    intro domain
    simpa using (carries domain).governance
  · intro target package member
    obtain ⟨domain, targeted, same⟩ := List.mem_map.mp member
    cases same
    have some := of_decide_eq_true (List.mem_filter.mp targeted).2
    exact delivered_of_checked ((carries target).nonempty some)
      ((carries target).small few) (checked target)

end Delivery

section Sample

def busyGenesis : GenesisConfig (AccountId → Chain.Purse) :=
  { Chain.importingGenesis with governanceImporter := some emptyHash }

/-- In epoch 0 Earth exports to Moon and to Mars, finalizes an import from Moon and takes up a
proposal of Moon's, whose acknowledgement goes back to Moon. -/
def busyActions : List (Chain.Action (AccountId → Chain.Purse)) :=
  [Chain.opens, .transfers (.signed emptyHash) (.createCrossDomainTransfer .moon emptyHash 5),
    .transfers (.signed emptyHash) (.createCrossDomainTransfer .mars emptyHash 6),
    .transfers (.signed emptyHash) (.observeVerifiedImport Chain.sampleImport),
    .transfers (.signed emptyHash) (.finalizeVerifiedImport Chain.sampleImport.exportId),
    .governance (.signed emptyHash)
      (.importVerifiedGovernanceProposal (Governance.sampleClaim (Governance.sampleId .moon))),
    Chain.closes, Chain.opens]

/-- The leaves of that epoch are of all three families and go to two targets. -/
theorem exporter_packages_accepted_sample :
    ∃ chain, Chain.runScript sampleHash Chain.sampleCurrency (Chain.genesis busyGenesis)
      busyActions = some chain ∧
      (Transfers.canonicalEpochExports chain.transfers 0).map (·.targetDomain) = [.moon, .mars] ∧
      (Transfers.canonicalEpochFinalizedImports sampleHash chain.transfers 0).map (·.sourceDomain) =
        [.moon] ∧
      (Governance.canonicalEpochGovernanceLeaves chain.governance 0).map (·.targetDomain) =
        [.moon] ∧
      ∃ header packages, chain.epochs.summaryHeaders 0 = some header ∧
        certifyEpoch sampleHash sampleCodec header sampleBundle 0 (epochAnswers chain 0) =
          .ok packages ∧
        (packages.map Prod.fst).Nodup ∧
        CarriedOnce (packages.flatMap fun entry => carriedLeaves sampleCodec selectExport entry.2)
          (Transfers.canonicalEpochExports chain.transfers 0) ∧
        CarriedOnce (packages.flatMap fun entry =>
          carriedLeaves sampleCodec selectFinalizedImport entry.2)
          (Transfers.canonicalEpochFinalizedImports sampleHash chain.transfers 0) ∧
        CarriedOnce (packages.flatMap fun entry =>
          carriedLeaves sampleCodec selectGovernance entry.2)
          (Governance.canonicalEpochGovernanceLeaves chain.governance 0) ∧
        ∀ target package, (target, package) ∈ packages →
          Delivered sampleHash sampleCodec sampleBundle target package := by
  refine ⟨_, rfl, by decide +kernel, by decide +kernel, by decide +kernel, ?_⟩
  apply exporter_packages_accepted sampleHash sampleCodec Chain.sampleCurrency busyGenesis
  · exact Chain.reachable_of_script (.start rfl) (rfl : Chain.runScript _ _ _ busyActions = some _)
  · decide +kernel
  · decide +kernel
  · decide +kernel

end Sample

end Ialp.Services
