import Ialp.Services.Packaging

/-!
The exporter's decoders of the proofs in a package. Each of them is for packages with proofs of one
family only: it gives up at the first proof of another, and `show_package` then shows none of its
own.
-/

namespace Ialp.Services

open Scale

section Decoders

variable (codec : PackageCodec)

def decodeSummaryHeaderStorageProof (bytes : Bytes) : Except String SummaryHeaderStorageProof := do
  let proof ← decodeAs codec.proof "failed to decode inclusion proof: " bytes
  match proof with
  | .summaryHeaderStorageV1 proof => return proof
  | _ => throw "expected summary-header storage proof at index 0"

def decodeEntry {Proof : Type} (select : InclusionProof → Option Proof)
    (expected : String) (entry : Bytes) : Except String Proof := do
  let proof ← decodeAs codec.proof "failed to decode inclusion proof: " entry
  match proof with
  | .summaryHeaderStorageV1 _ =>
      throw "summary-header storage proof is only valid at inclusion_proofs[0]"
  | proof => okOr (select proof) expected

def decodeFamily {Proof : Type} (select : InclusionProof → Option Proof) (expected : String)
    (entries : List Bytes) : Except String (List Proof) :=
  entries.mapM (decodeEntry codec select expected)

def decodeExportProofs (entries : List Bytes) : Except String (List ExportInclusionProof) :=
  decodeFamily codec selectExport "expected only export proofs after inclusion_proofs[0]" entries

def decodeFinalizedImportProofs (entries : List Bytes) :
    Except String (List FinalizedImportInclusionProof) :=
  decodeFamily codec selectFinalizedImport
    "expected only finalized-import proofs after inclusion_proofs[0]" entries

def decodeGovernanceProofs (entries : List Bytes) : Except String (List GovernanceInclusionProof) :=
  decodeFamily codec selectGovernance "expected only governance proofs after inclusion_proofs[0]"
    entries

def proofKind : InclusionProof → Except String String
  | .summaryHeaderStorageV1 _ =>
      .error "summary-header storage proof is only valid at inclusion_proofs[0]"
  | .exportV1 _ => .ok "export_v1"
  | .finalizedImportV1 _ => .ok "finalized_import_v1"
  | .governanceV1 _ => .ok "governance_v1"

/-- Unlike the decoders above, this one is for packages of any mix of families. -/
def decodeProofKinds (entries : List Bytes) : Except String (List String) := do
  let kinds ← entries.mapM fun entry => do
    proofKind (← decodeAs codec.proof "failed to decode inclusion proof: " entry)
  return "summary_header_storage_v1" :: kinds

structure PackageProofs extends VerifiedPackageItems where
  summaryHeaderStorage : SummaryHeaderStorageProof

/-- An error of a decoder counts as no proofs. -/
def showPackage (package : CertifiedSummaryPackage) : Except String PackageProofs := do
  let first ← okOr package.inclusionProofs.head? "package is missing inclusion_proofs[0]"
  let summaryHeaderStorage ← decodeSummaryHeaderStorageProof codec first
  return {
    summaryHeaderStorage
    exportProofs := (decodeExportProofs codec package.inclusionProofs.tail).toOption.getD []
    finalizedImportProofs :=
      (decodeFinalizedImportProofs codec package.inclusionProofs.tail).toOption.getD []
    governanceProofs := (decodeGovernanceProofs codec package.inclusionProofs.tail).toOption.getD
      [] }

end Decoders

section Views

variable {codec : PackageCodec} {Proof : Type} {select : InclusionProof → Option Proof}

theorem decodeSummaryHeaderStorageProof_encode (codec : PackageCodec)
    (proof : SummaryHeaderStorageProof) :
    decodeSummaryHeaderStorageProof codec (codec.proof.encode (.summaryHeaderStorageV1 proof)) =
      .ok proof := by
  simp only [decodeSummaryHeaderStorageProof, decodeAs, codec.proof.decode_encode]
  rfl

theorem toOption_mapM_cons {α β : Type} (f : α → Except String β) (first : α) (rest : List α) :
    ((first :: rest).mapM f).toOption =
      (f first).toOption.bind fun value => (rest.mapM f).toOption.map (value :: ·) := by
  rw [List.mapM_cons]
  cases f first with
  | error => rfl
  | ok value => cases rest.mapM f <;> rfl

theorem toOption_decodeEntry (expected : String) {proof : InclusionProof}
    (unsummarised : ∀ storage, proof ≠ .summaryHeaderStorageV1 storage) :
    (decodeEntry codec select expected (codec.proof.encode proof)).toOption = select proof := by
  simp only [decodeEntry, decodeAs_encode, ok_bind]
  cases proof with
  | summaryHeaderStorageV1 storage => exact absurd rfl (unsummarised storage)
  | _ => cases select _ <;> rfl

variable (codec select) in
theorem toOption_decodeFamily (expected : String) {proofs : List InclusionProof}
    (unsummarised : ∀ storage, .summaryHeaderStorageV1 storage ∉ proofs) :
    (decodeFamily codec select expected (proofs.map codec.proof.encode)).toOption =
      if ∀ proof ∈ proofs, (select proof).isSome then some (proofs.filterMap select) else none := by
  induction proofs with
  | nil => rfl
  | cons proof rest ih =>
      have first : ∀ storage, proof ≠ .summaryHeaderStorageV1 storage := by
        intro storage same
        exact unsummarised storage (same ▸ List.mem_cons_self)
      have later := ih fun storage member => unsummarised storage (List.mem_cons_of_mem _ member)
      rw [decodeFamily] at later ⊢
      rw [List.map_cons, toOption_mapM_cons, toOption_decodeEntry expected first, later]
      cases selected : select proof with
      | none => simp [selected]
      | some value => by_cases all : ∀ proof ∈ rest, (select proof).isSome <;> simp [selected, all]

theorem proofs_unsummarised (items : VerifiedPackageItems) (storage : SummaryHeaderStorageProof) :
    .summaryHeaderStorageV1 storage ∉ items.proofs := by
  simp [VerifiedPackageItems.proofs]

variable (codec) in
theorem decodeProofKinds_accepts {proofs : List InclusionProof}
    (unsummarised : ∀ storage, .summaryHeaderStorageV1 storage ∉ proofs) :
    ∃ kinds, decodeProofKinds codec (proofs.map codec.proof.encode) = .ok kinds := by
  have kind (proof : InclusionProof) (member : proof ∈ proofs) :
      proofKind proof = .ok ((proofKind proof).toOption.getD "") := by
    cases proof with
    | summaryHeaderStorageV1 storage => exact absurd member (unsummarised storage)
    | exportV1 => rfl
    | finalizedImportV1 => rfl
    | governanceV1 => rfl
  refine ⟨"summary_header_storage_v1" :: proofs.map fun proof => (proofKind proof).toOption.getD "",
    ?_⟩
  rw [decodeProofKinds, List.mapM_map, mapM_eq_ok fun proof member => ?_, ok_bind]
  · rfl
  · rw [Function.comp_apply, decodeAs_encode, ok_bind]
    exact kind proof member

variable (blake2 : Bytes → Hash32) (codec) in
theorem showPackage_packageOf (header : EpochSummaryHeader) (bundle : SummaryCertificationBundle)
    (items : VerifiedPackageItems) :
    showPackage codec (packageOf blake2 codec header bundle items) = .ok {
      summaryHeaderStorage := bundle.summaryHeaderStorageProof
      exportProofs := if items.finalizedImportProofs = [] ∧ items.governanceProofs = [] then
        items.exportProofs else []
      finalizedImportProofs :=
        if items.exportProofs = [] ∧ items.governanceProofs = [] then
          items.finalizedImportProofs else []
      governanceProofs :=
        if items.exportProofs = [] ∧ items.finalizedImportProofs = [] then
          items.governanceProofs else [] } := by
  have decoded := fun {Proof : Type} (select : InclusionProof → Option Proof) (expected : String) =>
    toOption_decodeFamily codec select expected (proofs_unsummarised items)
  have exports : (∀ proof ∈ items.proofs, (selectExport proof).isSome) ↔
      items.finalizedImportProofs = [] ∧ items.governanceProofs = [] := by
    simp [VerifiedPackageItems.proofs, or_imp, forall_and, selectExport,
      List.eq_nil_iff_forall_not_mem]
  have imports : (∀ proof ∈ items.proofs, (selectFinalizedImport proof).isSome) ↔
      items.exportProofs = [] ∧ items.governanceProofs = [] := by
    simp [VerifiedPackageItems.proofs, or_imp, forall_and, selectFinalizedImport,
      List.eq_nil_iff_forall_not_mem]
  have governance : (∀ proof ∈ items.proofs, (selectGovernance proof).isSome) ↔
      items.exportProofs = [] ∧ items.finalizedImportProofs = [] := by
    simp [VerifiedPackageItems.proofs, or_imp, forall_and, selectGovernance,
      List.eq_nil_iff_forall_not_mem]
  simp only [showPackage, packageOf_inclusionProofs, List.head?_cons, List.tail_cons,
    decodeExportProofs, decodeFinalizedImportProofs, decodeGovernanceProofs, decoded, exports,
    imports, governance,
    VerifiedPackageItems.proofs_selectExport, VerifiedPackageItems.proofs_selectFinalizedImport,
    VerifiedPackageItems.proofs_selectGovernance, apply_ite (Option.getD · []),
    Option.getD_some, Option.getD_none]
  simp only [okOr, ok_bind, decodeSummaryHeaderStorageProof_encode]
  rfl

end Views

/-- The views of a package are the proofs it was built from exactly if these are of one family at
most. -/
theorem package_views_invert (blake2 : Bytes → Hash32) (codec : PackageCodec)
    (header : EpochSummaryHeader) (bundle : SummaryCertificationBundle)
    (exportProofs : List ExportInclusionProof)
    (finalizedImportProofs : List FinalizedImportInclusionProof)
    (governanceProofs : List GovernanceInclusionProof) :
    showPackage codec (CertifiedSummaryPackage.fromBundleWithMixedProofs blake2 codec header
      bundle exportProofs
        finalizedImportProofs governanceProofs) = .ok {
      summaryHeaderStorage := bundle.summaryHeaderStorageProof
      exportProofs
      finalizedImportProofs
      governanceProofs } ↔
    exportProofs = [] ∧ finalizedImportProofs = [] ∨ exportProofs = [] ∧ governanceProofs = [] ∨
      finalizedImportProofs = [] ∧ governanceProofs = [] := by
  have shown := showPackage_packageOf codec blake2 header bundle
    ⟨exportProofs, finalizedImportProofs, governanceProofs⟩
  rw [packageOf] at shown
  rw [shown]
  by_cases exports : exportProofs = [] <;> by_cases imports : finalizedImportProofs = [] <;>
    by_cases governance : governanceProofs = [] <;> simp [exports, imports, governance, eq_comm]

def mixedItems : VerifiedPackageItems where
  exportProofs := [{
    version := 1, leafIndex := 0, leafCount := 1, siblings := []
    leaf := ExportLeaf.fromHashInput sampleHash {
      version := 1, exportId := exportId sampleHash .moon 0, sourceDomain :=
        .moon, targetDomain := .earth
      sender := emptyHash, recipient := emptyHash, amount := 5, sourceEpochId :=
        0, sourceBlockHeight := 1
      extrinsicIndex := 1 } }]
  finalizedImportProofs := [{
    version := 1, leafIndex := 0, leafCount := 1, siblings := [], leaf :=
      sampleFinalizedImportLeaf 0 }]
  governanceProofs := []

/-- Of a package with both, neither is shown. -/
theorem mixed_package_shown_empty :
    ∃ header, showPackage sampleCodec
      (CertifiedSummaryPackage.fromBundleWithMixedProofs sampleHash sampleCodec header
        sampleBundle mixedItems.exportProofs mixedItems.finalizedImportProofs
          mixedItems.governanceProofs) = .ok {
      summaryHeaderStorage := sampleBundle.summaryHeaderStorageProof
      exportProofs := []
      finalizedImportProofs := []
      governanceProofs := [] } := by
  refine ⟨EpochSummaryHeader.fromHashInput sampleHash {
    version := 1, domainId := .moon, epochId := 0, prevSummaryHash := emptyHash, startBlockHeight :=
      1
    endBlockHeight := 2, stateRoot := emptyHash, blockRoot := emptyHash, txRoot := emptyHash
    eventRoot := emptyHash, exportRoot := emptyHash, importRoot :=
      emptyHash, governanceRoot := emptyHash
    validatorSetHash := emptyHash }, ?_⟩
  exact showPackage_packageOf sampleCodec sampleHash _ sampleBundle mixedItems

end Ialp.Services
