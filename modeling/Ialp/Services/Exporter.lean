import Ialp.Runtime.Roots
import Ialp.Services.Acceptance

/-!
The exporter. For a staged epoch it reads the committed leaves from its node, checks them against
the header's roots, groups them by the domain they are for, and builds one package for each of these
domains.
-/

namespace Ialp.Services

open Scale Function

/-- A `BTreeMap` with domains as keys. -/
abbrev DomainMap (Value : Type) := DomainId → Option Value

namespace DomainMap

variable {Value : Type}

def empty : DomainMap Value := fun _ => none

def domains : List DomainId := [.earth, .moon, .mars]

def entries (map : DomainMap Value) : List (DomainId × Value) :=
  domains.filterMap fun domain => (map domain).map (domain, ·)

end DomainMap

section Grouping

def groupLeaves {Leaf : Type} (domainOf : Leaf → DomainId) (leaves : List Leaf) :
    DomainMap (List Leaf) :=
  leaves.foldl
    (fun grouped leaf => update grouped (domainOf leaf)
      (some ((grouped (domainOf leaf)).getD [] ++ [leaf])))
    .empty

def groupExportsByTarget (leaves : List ExportLeaf) : DomainMap (List ExportLeaf) :=
  groupLeaves (·.targetDomain) leaves

def groupFinalizedImportsBySource (leaves : List FinalizedImportLeaf) :
    DomainMap (List FinalizedImportLeaf) :=
  groupLeaves (·.sourceDomain) leaves

def groupGovernanceByTarget (leaves : List GovernanceLeaf) : DomainMap (List GovernanceLeaf) :=
  groupLeaves (·.targetDomain) leaves

structure TargetPackageInputs where
  exportLeaves : List ExportLeaf
  finalizedImportLeaves : List FinalizedImportLeaf
  governanceLeaves : List GovernanceLeaf
  deriving DecidableEq

instance : Inhabited TargetPackageInputs := ⟨⟨[], [], []⟩⟩

def assignGroups {Leaf : Type} (assign : List Leaf → TargetPackageInputs → TargetPackageInputs)
    (groups : DomainMap (List Leaf)) (grouped : DomainMap TargetPackageInputs) :
    DomainMap TargetPackageInputs :=
  groups.entries.foldl
    (fun grouped entry => update grouped entry.1
      (some (assign entry.2 ((grouped entry.1).getD default)))) grouped

def combineTargetInputs (exports : DomainMap (List ExportLeaf))
    (finalizedImports : DomainMap (List FinalizedImportLeaf))
    (governance : DomainMap (List GovernanceLeaf)) : DomainMap TargetPackageInputs :=
  let grouped := assignGroups (fun leaves inputs => { inputs with exportLeaves := leaves }) exports
    .empty
  let grouped :=
    assignGroups (fun leaves inputs => { inputs with finalizedImportLeaves := leaves })
      finalizedImports grouped
  assignGroups (fun leaves inputs => { inputs with governanceLeaves := leaves }) governance grouped

end Grouping

section Node

structure EpochAnswers where
  exports : Except String (List ExportRecord)
  finalizedImports : Except String (List ObservedImportRecord)
  governanceLeaves : Except String (List GovernanceLeaf)

def readRecords {Record : Type} (missing : String) (lookup : Hash32 → Option Record)
    (ids : List Hash32) : Except String (List Record) :=
  ids.mapM fun id => okOr (lookup id) (missing ++ " 0x" ++ hexEncode id)

variable {Balances : Type} (chain : Chain Balances) (epochId : EpochId)

def epochExports : Except String (List ExportRecord) :=
  readRecords "missing export record" chain.transfers.exportsById
    (chain.transfers.epochExportIds epochId)

def epochFinalizedImports : Except String (List ObservedImportRecord) :=
  readRecords "missing observed import record" chain.transfers.observedImportsById
    (chain.transfers.epochFinalizedImportIds epochId)

def epochGovernanceLeaves : Except String (List GovernanceLeaf) :=
  readRecords "missing governance leaf record" chain.governance.governanceLeavesById
    (chain.governance.epochGovernanceLeafIds epochId)

def epochAnswers : EpochAnswers where
  exports := epochExports chain epochId
  finalizedImports := epochFinalizedImports chain epochId
  governanceLeaves := epochGovernanceLeaves chain epochId

end Node

section Sync

variable (blake2 : Bytes → Hash32) (codec : PackageCodec)

structure EpochLeaves where
  exports : List ExportLeaf
  finalizedImports : List FinalizedImportLeaf
  governance : List GovernanceLeaf

def ensureRoot (name : String) (epochId : EpochId) (expected root : Hash32) : Except String Unit :=
  ensure (expected = root) ("epoch " ++ toString epochId.toNat ++ " " ++ name ++
    " mismatch: header=" ++
    hexHash root ++ " exporter=" ++ hexHash expected)

def readEpochLeaves (header : EpochSummaryHeader) (epochId : EpochId) (answers : EpochAnswers) :
    Except String EpochLeaves := do
  let exports := (← answers.exports).map (·.leaf)
  ensureRoot "export_root" epochId
    (exportMerkleRoot blake2 header.domainId header.epochId header.startBlockHeight
    header.endBlockHeight exports) header.exportRoot
  let finalizedImports :=
    (← answers.finalizedImports).filterMap fun record => record.finalizedLeaf blake2
  ensureRoot "import_root" epochId
    (importMerkleRoot blake2 header.domainId header.epochId header.startBlockHeight
    header.endBlockHeight finalizedImports) header.importRoot
  let governance ← answers.governanceLeaves
  ensureRoot "governance_root" epochId (governanceMerkleRoot blake2 header.domainId header.epochId
    header.startBlockHeight header.endBlockHeight governance) header.governanceRoot
  return {
    exports := sortExportLeaves exports
    finalizedImports := sortFinalizedImportLeaves finalizedImports
    governance := sortGovernanceLeaves governance }

def groupedTargets (leaves : EpochLeaves) : DomainMap TargetPackageInputs :=
  combineTargetInputs (groupExportsByTarget leaves.exports)
    (groupFinalizedImportsBySource leaves.finalizedImports)
    (groupGovernanceByTarget leaves.governance)

def buildProofs {Leaf : Type} (kind : String) (epochId : EpochId) (key : Leaf → Hash32)
    (build : Hash32 → Option (LeafInclusionProof Leaf)) (leaves : List Leaf) :
    Except String (List (LeafInclusionProof Leaf)) :=
  leaves.mapM fun leaf => okOr (build (key leaf))
    ("missing " ++ kind ++ " proof for " ++ hexEncode (key leaf) ++ " in epoch " ++
      toString epochId.toNat)

def certifyTarget (header : EpochSummaryHeader) (bundle : SummaryCertificationBundle)
    (epochId : EpochId) (leaves : EpochLeaves) (inputs : TargetPackageInputs) :
    Except String CertifiedSummaryPackage := do
  let exportProofs ← buildProofs "export" epochId (·.exportId)
      (buildExportInclusionProof blake2 leaves.exports)
    inputs.exportLeaves
  let importProofs ← buildProofs "finalized-import" epochId (·.exportId)
    (buildFinalizedImportInclusionProof blake2 leaves.finalizedImports) inputs.finalizedImportLeaves
  let governanceProofs ← buildProofs "governance" epochId (·.leafHash)
    (buildGovernanceInclusionProof blake2 leaves.governance) inputs.governanceLeaves
  let package := CertifiedSummaryPackage.fromBundleWithMixedProofs blake2 codec header
    bundle exportProofs importProofs governanceProofs
  ensure (package.inclusionProofs ≠ [] ∧ package.artifacts = [])
    "mixed certified package builder emitted invalid proof/artifact layout"
  return package

/-- The packages `sync_once` builds for a staged epoch whose certification is ready. -/
def certifyEpoch (header : EpochSummaryHeader) (bundle : SummaryCertificationBundle)
    (epochId : EpochId) (answers : EpochAnswers) :
    Except String (List (DomainId × CertifiedSummaryPackage)) := do
  let leaves ← readEpochLeaves blake2 header epochId answers
  (groupedTargets leaves).entries.mapM fun (targetDomain, inputs) => do
    let package ← certifyTarget blake2 codec header bundle epochId leaves inputs
    return (targetDomain, package)

/-- The envelope `submit_certified_packages_to_relay` sends. -/
def relayEnvelope (targetDomain : DomainId) (package : CertifiedSummaryPackage) (now : UInt64) :
    Except String RelayPackageEnvelopeV1 := do
  let proofItemCount := package.inclusionProofs.length - 1
  ensure (proofItemCount < 2 ^ 32) "package proof count does not fit into u32 for relay envelope"
  return RelayPackageEnvelopeV1.create package.header.domainId targetDomain package.header.epochId
    package.header.summaryHash package.packageHash (codec.package.encode package)
    (UInt32.ofNat proofItemCount) now

end Sync

section Grouped

def inputsFor (leaves : EpochLeaves) (domain : DomainId) : TargetPackageInputs where
  exportLeaves := leaves.exports.filter fun leaf => leaf.targetDomain = domain
  finalizedImportLeaves := leaves.finalizedImports.filter fun leaf => leaf.sourceDomain = domain
  governanceLeaves := leaves.governance.filter fun leaf => leaf.targetDomain = domain

theorem groupLeaves_concat {Leaf : Type} (domainOf : Leaf → DomainId)
    (leaves : List Leaf) (leaf : Leaf) :
    groupLeaves domainOf (leaves ++ [leaf]) = update (groupLeaves domainOf leaves) (domainOf leaf)
      (some ((groupLeaves domainOf leaves (domainOf leaf)).getD [] ++ [leaf])) := by
  simp [groupLeaves]

theorem groupLeaves_apply {Leaf : Type} (domainOf : Leaf → DomainId) (leaves : List Leaf)
    (domain : DomainId) : groupLeaves domainOf leaves domain =
      if leaves.filter (domainOf · = domain) = [] then none
      else some (leaves.filter (domainOf · = domain)) := by
  induction leaves using List.reverseRecOn with
  | nil => rfl
  | append_singleton leaves leaf ih =>
      rw [groupLeaves_concat, List.filter_append]
      by_cases same : domainOf leaf = domain
      · subst same
        rw [update_self, ih]
        split <;> simp_all
      · rw [update_of_ne (Ne.symm same), ih]
        simp [same]

theorem assignGroups_apply {Leaf : Type}
    (assign : List Leaf → TargetPackageInputs → TargetPackageInputs)
    (groups : DomainMap (List Leaf)) (grouped : DomainMap TargetPackageInputs) (domain : DomainId) :
    assignGroups assign groups grouped domain =
      match groups domain with
      | none => grouped domain
      | some leaves => some (assign leaves ((grouped domain).getD default)) := by
  cases earth : groups .earth <;> cases moon : groups .moon <;> cases mars : groups .mars <;>
    cases domain <;> simp [assignGroups, DomainMap.entries, DomainMap.domains, earth, moon, mars]

theorem groupedTargets_apply (leaves : EpochLeaves) (domain : DomainId) :
    groupedTargets leaves domain =
      if inputsFor leaves domain = default then none else some (inputsFor leaves domain) := by
  simp only [groupedTargets, combineTargetInputs, assignGroups_apply, groupExportsByTarget,
    groupFinalizedImportsBySource, groupGovernanceByTarget, groupLeaves_apply, inputsFor]
  by_cases exports : leaves.exports.filter (fun leaf => leaf.targetDomain = domain) = [] <;>
    by_cases imports : leaves.finalizedImports.filter (fun leaf => leaf.sourceDomain = domain) =
      [] <;>
      by_cases governance : leaves.governance.filter (fun leaf => leaf.targetDomain = domain) =
        [] <;>
        simp only [exports, imports, governance, if_true, if_false,
          DomainMap.empty, Option.getD_none, Option.getD_some, default,
          TargetPackageInputs.mk.injEq, and_true, and_false]

def targets (leaves : EpochLeaves) : List DomainId :=
  DomainMap.domains.filter fun domain => inputsFor leaves domain ≠ default

theorem targets_nodup (leaves : EpochLeaves) : (targets leaves).Nodup :=
  List.Nodup.filter _ (by decide)

theorem groupedTargets_entries (leaves : EpochLeaves) :
    (groupedTargets leaves).entries = (targets leaves).map fun domain =>
      (domain, inputsFor leaves domain) := by
  simp only [DomainMap.entries, targets, groupedTargets_apply, ← List.filterMap_eq_map,
    List.filterMap_filter]
  apply List.filterMap_congr
  intro domain _
  by_cases none : inputsFor leaves domain = default <;> simp [none]

theorem partition_perm {Leaf : Type} (domainOf : Leaf → DomainId) (leaves : List Leaf) :
    (DomainMap.domains.flatMap fun domain => leaves.filter (domainOf · = domain)).Perm leaves := by
  induction leaves with
  | nil => simp [DomainMap.domains]
  | cons leaf leaves ih =>
      simp only [DomainMap.domains, List.flatMap_cons, List.flatMap_nil, List.append_nil] at ih ⊢
      cases domain : domainOf leaf with
      | earth => simpa [domain] using ih
      | moon =>
          simp only [domain, List.filter_cons, reduceCtorEq, decide_true, decide_false, if_true]
          exact List.perm_middle.trans (ih.cons leaf)
      | mars =>
          simp only [domain, List.filter_cons, reduceCtorEq, decide_true, decide_false, if_true]
          rw [← List.append_assoc] at ih ⊢
          exact List.perm_middle.trans (ih.cons leaf)

theorem targets_perm {Leaf : Type} (domainOf : Leaf → DomainId) {leaves : EpochLeaves}
    {family : List Leaf} (select : TargetPackageInputs → List Leaf) (empty : select default = [])
    (selected : ∀ domain, select (inputsFor leaves domain) = family.filter (domainOf · = domain)) :
    ((targets leaves).flatMap fun domain => select (inputsFor leaves domain)).Perm family := by
  refine .trans (.of_eq ?_) (partition_perm domainOf family)
  simp only [targets, ← selected]
  induction DomainMap.domains with
  | nil => rfl
  | cons domain rest ih =>
      rw [List.filter_cons, List.flatMap_cons, ← ih]
      by_cases none : inputsFor leaves domain = default
      · simp [none, empty]
      · simp [none]

end Grouped

end Ialp.Services
