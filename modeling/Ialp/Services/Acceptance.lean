import Ialp.Pallets.Frame
import Ialp.Types.Package

/-!
What the relay and the importer check of a package. Both first scan its proofs for a single target
and for the domain and epoch of the header; the importer later verifies every proof against the
header's roots, one family of leaves at a time.
-/

namespace Ialp.Services

open Scale

section Scan

structure ScanTexts where
  tooFew : String
  firstNotSummary : String
  laterSummary : String
  exportMixed : String
  exportMismatch : String
  completionMixed : String
  completionMismatch : String
  governanceMixed : String
  proposalMismatch : String
  ackMismatch : String
  unsupported : String

structure Scan where
  targetDomain : Option DomainId
  count : UInt32

def Scan.join (mixed : String) (domain : DomainId) (scan : Scan) : Except String Scan :=
  match scan.targetDomain with
  | some existing =>
      if existing ≠ domain then .error mixed
        else .ok { scan with count := saturatingAdd32 scan.count 1 }
  | none => .ok { targetDomain := some domain, count := saturatingAdd32 scan.count 1 }

def decodeAs {α : Type} (codec : Codec α) (failed : String) (bytes : Bytes) : Except String α :=
  (codec.decode bytes).mapError (failed ++ ·)

variable (codec : PackageCodec) (texts : ScanTexts) (header : EpochSummaryHeader)

def scanProof (index : Nat) (proof : InclusionProof) (scan : Scan) : Except String Scan :=
  match index, proof with
  | 0, .summaryHeaderStorageV1 _ => .ok scan
  | 0, _ => .error texts.firstNotSummary
  | _ + 1, .summaryHeaderStorageV1 _ => .error texts.laterSummary
  | _ + 1, .exportV1 proof => do
      let scan ← scan.join texts.exportMixed proof.leaf.targetDomain
      ensure (proof.leaf.sourceDomain = header.domainId ∧ proof.leaf.sourceEpochId = header.epochId)
        texts.exportMismatch
      return scan
  | _ + 1, .finalizedImportV1 proof => do
      let scan ← scan.join texts.completionMixed proof.leaf.sourceDomain
      ensure (proof.leaf.targetDomain = header.domainId) texts.completionMismatch
      return scan
  | _ + 1, .governanceV1 proof => do
      let scan ← scan.join texts.governanceMixed proof.leaf.targetDomain
      match proof.leaf with
      | .proposalV1 leaf =>
          ensure (leaf.sourceDomain = header.domainId ∧ leaf.approvalEpoch = header.epochId)
            texts.proposalMismatch
      | .ackV1 leaf => ensure (leaf.acknowledgedEpoch = header.epochId) texts.ackMismatch
      return scan

def scanProofs : Nat → List Bytes → Scan → Except String Scan
  | _, [], scan => .ok scan
  | index, encoded :: rest, scan => do
      let proof ← decodeAs codec.proof "failed to decode package inclusion proof: " encoded
      let scan ← scanProof texts header index proof scan
      scanProofs (index + 1) rest scan

def scanPackage (package : CertifiedSummaryPackage) : Except String (DomainId × UInt32) := do
  ensure (2 ≤ package.inclusionProofs.length) texts.tooFew
  let scan ← scanProofs codec texts package.header 0 package.inclusionProofs
      { targetDomain := none, count := 0 }
  match scan.targetDomain with
  | some targetDomain => return (targetDomain, scan.count)
  | none => throw texts.unsupported

end Scan

section Relay

def relayTexts : ScanTexts where
  tooFew := "transport packages must carry at least one non-summary inclusion proof"
  firstNotSummary := "summary-header storage proof must remain at inclusion_proofs[0]"
  laterSummary := "summary-header storage proof may appear only at inclusion_proofs[0]"
  exportMixed := "package export proofs contain mixed target domains"
  exportMismatch := "package export proofs do not match package source domain/epoch"
  completionMixed := "package completion proofs contain mixed source domains"
  completionMismatch := "package completion proofs do not match package source domain"
  governanceMixed := "package governance proofs contain mixed target domains"
  proposalMismatch := "package governance proposal proofs do not match package source domain/epoch"
  ackMismatch := "package governance ack proofs do not match package source epoch"
  unsupported := "package does not contain any supported inclusion proofs"

variable (blake2 : Bytes → Hash32) (codec : PackageCodec)

def deriveTargetDomain (package : CertifiedSummaryPackage) : Except String (DomainId × UInt32) :=
  scanPackage codec relayTexts package

def decodeAndValidateEnvelope (bytes : Bytes) :
    Except String (RelayPackageEnvelopeV1 × CertifiedSummaryPackage) := do
  let envelope ← decodeAs codec.envelope "failed to decode relay package envelope: " bytes
  let package ← decodeAs codec.package "failed to decode certified summary package: "
      envelope.packageBytes
  ensure (package.computePackageHash blake2 codec = package.packageHash)
    "package_hash does not match certified summary package contents"
  ensure (package.packageHash = envelope.packageHash)
    "envelope package_hash does not match package bytes"
  ensure (package.header.domainId = envelope.sourceDomain)
    "envelope source_domain does not match package source domain"
  ensure (package.header.epochId = envelope.epochId)
    "envelope epoch_id does not match package header epoch"
  ensure (package.header.summaryHash = envelope.summaryHash)
    "envelope summary_hash does not match package header summary_hash"
  let (targetDomain, exportCount) ← deriveTargetDomain codec package
  ensure (targetDomain = envelope.targetDomain)
    "envelope target_domain does not match package export proofs"
  ensure (exportCount = envelope.exportCount)
    "envelope export_count does not match package export proof count"
  return (envelope, package)

end Relay

section Ingest

def ingestTexts : ScanTexts where
  tooFew := "transport packages require at least one non-summary inclusion proof"
  firstNotSummary := "summary-header storage proof must remain at inclusion_proofs[0]"
  laterSummary := "summary-header storage proof may only appear at inclusion_proofs[0]"
  exportMixed := "package contains mixed target domains"
  exportMismatch := "package export proofs do not match source domain or epoch"
  completionMixed := "completion package contains mixed source domains"
  completionMismatch := "completion proof leaf target domain does not match package source domain"
  governanceMixed := "governance package contains mixed target domains"
  proposalMismatch := "package governance proposal proofs do not match source domain or epoch"
  ackMismatch := "package governance ack proofs do not match source epoch"
  unsupported := "package has no supported inclusion proofs"

structure PackageIngestView where
  sourceDomain : DomainId
  targetDomain : DomainId
  epochId : EpochId
  exportCount : UInt32
  deriving DecidableEq

variable (blake2 : Bytes → Hash32) (codec : PackageCodec)

def inspectPackageForIngest (package : CertifiedSummaryPackage) (importerDomain : DomainId) :
    Except String PackageIngestView := do
  let (targetDomain, itemCount) ← scanPackage codec ingestTexts package
  ensure (targetDomain = importerDomain) ("package target domain " ++ targetDomain.asStr ++
    " does not match importer domain " ++ importerDomain.asStr)
  return {
    sourceDomain := package.header.domainId
    targetDomain
    epochId := package.header.epochId
    exportCount := itemCount }

def verifyPackageHash (package : CertifiedSummaryPackage) : Except String Unit :=
  ensure (package.packageHash = package.computePackageHash blake2 codec)
    ("package hash mismatch: expected " ++
    hexHash (package.computePackageHash blake2 codec) ++ ", found " ++ hexHash package.packageHash)

end Ingest

section Flow

variable (blake2 : Bytes → Hash32) (codec : PackageCodec) (package : CertifiedSummaryPackage)
  (importerDomain : DomainId)

def collectProofs {Proof : Type} (select : InclusionProof → Option Proof)
    (check : Proof → Except String Unit) : List Bytes → Except String (List Proof)
  | [] => .ok []
  | encoded :: rest => do
      match ← decodeAs codec.proof "failed to decode inclusion proof: " encoded with
      | .summaryHeaderStorageV1 _ =>
          throw "summary-header proof may appear only at inclusion_proofs[0]"
      | proof =>
          match select proof with
          | some selected => do
              check selected
              let others ← collectProofs select check rest
              return selected :: others
          | none => collectProofs select check rest

def selectExport : InclusionProof → Option ExportInclusionProof
  | .exportV1 proof => some proof
  | _ => none

def selectFinalizedImport : InclusionProof → Option FinalizedImportInclusionProof
  | .finalizedImportV1 proof => some proof
  | _ => none

def selectGovernance : InclusionProof → Option GovernanceInclusionProof
  | .governanceV1 proof => some proof
  | _ => none

theorem selectGovernance_eq_some {proof : InclusionProof} {selected : GovernanceInclusionProof} :
    selectGovernance proof = some selected ↔ proof = .governanceV1 selected := by
  cases proof <;> simp [selectGovernance]

def checkExportProof (proof : ExportInclusionProof) : Except String Unit := do
  ensure (proof.leaf.exportHash = proof.leaf.computeExportHash blake2)
    "export proof leaf hash does not match canonical export leaf contents"
  ensure (proof.leaf.sourceDomain = package.header.domainId ∧ proof.leaf.sourceEpochId =
    package.header.epochId) "export proof leaf does not match package source domain or epoch"
  ensure (proof.leaf.targetDomain = importerDomain)
    ("package target domain " ++ proof.leaf.targetDomain.asStr ++
    " does not match importer domain " ++ importerDomain.asStr)
  ensure (verifyExportInclusionProof blake2 package.header.exportRoot proof = true)
    "export inclusion proof failed against header.export_root"

def checkFinalizedImportProof (proof : FinalizedImportInclusionProof) : Except String Unit := do
  ensure (proof.leaf.importHash = proof.leaf.computeImportHash blake2)
    "finalized-import proof leaf hash does not match canonical finalized import leaf contents"
  ensure (proof.leaf.targetDomain = package.header.domainId)
    "finalized-import proof leaf target domain does not match package source domain"
  ensure (proof.leaf.sourceDomain = importerDomain) ("completion package target domain " ++
    proof.leaf.sourceDomain.asStr ++ " does not match importer domain " ++ importerDomain.asStr)
  ensure (verifyFinalizedImportInclusionProof blake2 package.header.importRoot proof = true)
    "finalized-import inclusion proof failed against header.import_root"

def checkGovernanceProof (proof : GovernanceInclusionProof) : Except String Unit := do
  ensure (verifyGovernanceInclusionProof blake2 package.header.governanceRoot proof = true)
    "governance inclusion proof failed against header.governance_root"
  match proof.leaf with
  | .proposalV1 leaf => do
      ensure (leaf.leafHash = leaf.computeLeafHash blake2)
        "governance proposal proof leaf hash does not match canonical contents"
      ensure (leaf.targetDomain = importerDomain) ("governance proposal target domain " ++
        leaf.targetDomain.asStr ++ " does not match importer domain " ++ importerDomain.asStr)
      ensure (leaf.sourceDomain = package.header.domainId ∧
        leaf.approvalEpoch = package.header.epochId)
        "governance proposal proof does not match package source domain/epoch"
  | .ackV1 leaf => do
      ensure (leaf.leafHash = leaf.computeLeafHash blake2)
        "governance ack proof leaf hash does not match canonical contents"
      ensure (leaf.targetDomain = importerDomain) ("governance ack target domain " ++
        leaf.targetDomain.asStr ++ " does not match importer domain " ++ importerDomain.asStr)
      ensure (leaf.acknowledgedEpoch = package.header.epochId)
        "governance ack proof does not match package source epoch"

def verifyForwardExportProofs : Except String (List ExportInclusionProof) :=
  collectProofs codec selectExport (checkExportProof blake2 package importerDomain)
    (package.inclusionProofs.drop 1)

def verifyFinalizedImportProofs : Except String (List FinalizedImportInclusionProof) :=
  collectProofs codec selectFinalizedImport
    (checkFinalizedImportProof blake2 package importerDomain) (package.inclusionProofs.drop 1)

def verifyGovernanceProofs : Except String (List GovernanceInclusionProof) :=
  collectProofs codec selectGovernance (checkGovernanceProof blake2 package importerDomain)
    (package.inclusionProofs.drop 1)

structure VerifiedPackageItems where
  exportProofs : List ExportInclusionProof
  finalizedImportProofs : List FinalizedImportInclusionProof
  governanceProofs : List GovernanceInclusionProof
  deriving DecidableEq

def verifyPackageFlow : Except String VerifiedPackageItems := do
  ensure (2 ≤ package.inclusionProofs.length)
    "package must include at least one non-summary inclusion proof"
  let exportProofs ← verifyForwardExportProofs blake2 codec package importerDomain
  let finalizedImportProofs ← verifyFinalizedImportProofs blake2 codec package importerDomain
  let governanceProofs ← verifyGovernanceProofs blake2 codec package importerDomain
  return { exportProofs, finalizedImportProofs, governanceProofs }

end Flow

section Accepted

variable {blake2 : Bytes → Hash32} {codec : PackageCodec} {texts : ScanTexts}
  {header : EpochSummaryHeader} {target : DomainId}

def Fits (header : EpochSummaryHeader) (target : DomainId) : InclusionProof → Prop
  | .summaryHeaderStorageV1 _ => False
  | .exportV1 proof =>
      proof.leaf.targetDomain = target ∧ proof.leaf.sourceDomain = header.domainId ∧
        proof.leaf.sourceEpochId = header.epochId
  | .finalizedImportV1 proof =>
      proof.leaf.sourceDomain = target ∧ proof.leaf.targetDomain = header.domainId
  | .governanceV1 proof =>
      proof.leaf.targetDomain = target ∧ proof.leaf.committedEpoch = header.epochId ∧
        ∀ leaf, proof.leaf = .proposalV1 leaf → leaf.sourceDomain = header.domainId

@[simp] theorem decodeAs_encode {α : Type} (codec : Codec α) (failed : String) (value : α) :
    decodeAs codec failed (codec.encode value) = .ok value := by
  rw [decodeAs, codec.decode_encode]
  rfl

theorem decodeAs_eq_ok {α : Type} {codec : Codec α} {failed : String} {bytes : Bytes} {value : α} :
    decodeAs codec failed bytes = .ok value ↔ codec.decode bytes = .ok value := by
  rw [decodeAs]
  cases codec.decode bytes <;> simp [Except.mapError]

theorem join_eq_ok {mixed : String} {domain : DomainId} {scan scan' : Scan} :
    scan.join mixed domain = .ok scan' ↔
      (scan.targetDomain = none ∨ scan.targetDomain = some domain) ∧
        scan' = ⟨some domain, saturatingAdd32 scan.count 1⟩ := by
  obtain ⟨found, count⟩ := scan
  cases found with
  | none => simp [Scan.join, eq_comm]
  | some existing =>
      by_cases same : existing = domain
      · subst same
        simp [Scan.join, eq_comm]
      · simp [Scan.join, same]

theorem joined_eq_ok {mixed : String} {domain : DomainId} {scan scan' : Scan}
    {check : Except String Unit} : (do
      let next ← scan.join mixed domain
      check
      return next) = .ok scan' ↔
      ∃ target, (scan.targetDomain = none ∨ scan.targetDomain = some target) ∧
        (domain = target ∧ check = .ok ()) ∧
        scan' = ⟨some target, saturatingAdd32 scan.count 1⟩ := by
  simp only [bind_eq_ok, join_eq_ok]
  constructor
  · intro accepted
    obtain ⟨next, ⟨found, joined⟩, _, passed, returned⟩ := accepted
    cases returned
    exact ⟨domain, found, ⟨rfl, passed⟩, joined⟩
  · intro joins
    obtain ⟨_, found, ⟨same, passed⟩, joined⟩ := joins
    subst same
    exact ⟨scan', ⟨found, joined⟩, (), passed, rfl⟩

theorem scanProof_eq_ok {proof : InclusionProof} {scan scan' : Scan} (index : Nat) :
    scanProof texts header (index + 1) proof scan = .ok scan' ↔
      ∃ target, (scan.targetDomain = none ∨ scan.targetDomain = some target) ∧
        Fits header target proof ∧
        scan' = ⟨some target, saturatingAdd32 scan.count 1⟩ := by
  cases proof with
  | summaryHeaderStorageV1 => simp [scanProof, Fits]
  | exportV1 proof => simp only [scanProof, joined_eq_ok, ensure_eq_ok, Fits]
  | finalizedImportV1 proof => simp only [scanProof, joined_eq_ok, ensure_eq_ok, Fits]
  | governanceV1 proof =>
      have fits : ∀ target, Fits header target (.governanceV1 proof) ↔
          proof.leaf.targetDomain = target ∧
          (match proof.leaf with
            | .proposalV1 leaf =>
                leaf.sourceDomain = header.domainId ∧ leaf.approvalEpoch = header.epochId
            | .ackV1 leaf => leaf.acknowledgedEpoch = header.epochId) := by
        intro target
        cases leaf : proof.leaf <;> simp [Fits, leaf, GovernanceLeaf.committedEpoch, and_comm]
      simp only [fits, scanProof]
      cases leaf : proof.leaf <;> simp only [joined_eq_ok, ensure_eq_ok]

def countOn (count : UInt32) (n : Nat) : UInt32 := UInt32.ofNat (min (count.toNat + n) (2 ^ 32 - 1))

theorem countOn_zero (count : UInt32) : countOn count 0 = count := by
  have bound := count.toNat_lt
  rw [countOn, Nat.add_zero, Nat.min_eq_left (by omega), UInt32.ofNat_toNat]

theorem countOn_succ (count : UInt32) (n : Nat) :
    countOn (saturatingAdd32 count 1) n = countOn count (n + 1) := by
  have one : (1 : UInt32).toNat = 1 := rfl
  rw [countOn, countOn, saturatingAdd32, UInt32.toNat_ofNat_of_lt' (by rw [UInt32.size]; omega),
    one]
  congr 1
  omega

theorem scanProofs_eq_ok {encoded : List Bytes} {count : UInt32} {scan' : Scan} (index : Nat) :
    scanProofs codec texts header (index + 1) encoded ⟨some target, count⟩ = .ok scan' ↔
      ∃ proofs, List.Forall₂ (fun bytes proof => codec.proof.decode bytes = .ok proof) encoded
        proofs ∧
        (∀ proof ∈ proofs, Fits header target proof) ∧
          scan' = ⟨some target, countOn count proofs.length⟩ := by
  induction encoded generalizing index count with
  | nil => simp [scanProofs, countOn_zero, eq_comm]
  | cons bytes rest ih =>
      simp only [scanProofs, bind_eq_ok, decodeAs_eq_ok, scanProof_eq_ok]
      constructor
      · intro accepted
        obtain ⟨proof, decoded, scan, ⟨other, found, fits, joined⟩, scanned⟩ := accepted
        obtain rfl : target = other := by simpa using found
        subst joined
        obtain ⟨proofs, decodes, fit, counted⟩ := (ih (index + 1)).mp scanned
        rw [countOn_succ] at counted
        exact ⟨proof :: proofs, .cons decoded decodes, List.forall_mem_cons.mpr ⟨fits, fit⟩,
          counted⟩
      · intro fitting
        obtain ⟨proofs, decodes, fit, counted⟩ := fitting
        cases decodes with
        | @cons _ proof _ proofs decoded decodes =>
            obtain ⟨fits, fit⟩ := List.forall_mem_cons.mp fit
            refine ⟨proof, decoded, _, ⟨target, .inr rfl, fits, rfl⟩,
              (ih (index + 1)).mpr ⟨proofs, decodes, fit, ?_⟩⟩
            rw [countOn_succ]
            exact counted

/-- What a package must be to be scanned: a storage proof, followed by proofs for one target that
belong to the header, at least one. -/
def Addressed (codec : PackageCodec) (package : CertifiedSummaryPackage) (target : DomainId)
    (count : UInt32) : Prop :=
  ∃ storageProof proofs, List.Forall₂ (fun bytes proof => codec.proof.decode bytes = .ok proof)
      package.inclusionProofs (.summaryHeaderStorageV1 storageProof :: proofs) ∧
    proofs ≠ [] ∧ (∀ proof ∈ proofs, Fits package.header target proof) ∧
      count = countOn 0 proofs.length

theorem scanFirst_eq_ok {proof : InclusionProof} {scan scan' : Scan} :
    scanProof texts header 0 proof scan = .ok scan' ↔
      ∃ storageProof, proof = .summaryHeaderStorageV1 storageProof ∧ scan' = scan := by
  cases proof <;> simp [scanProof, eq_comm]

/-- The messages of a scan make no difference to what it accepts. -/
theorem scanPackage_eq_ok {package : CertifiedSummaryPackage} {count : UInt32} :
    scanPackage codec texts package = .ok (target, count) ↔
      Addressed codec package target count := by
  simp only [scanPackage, bind_eq_ok, ensure_eq_ok, exists_const, Addressed]
  constructor
  · intro accepted
    obtain ⟨long, scan, scanned, found⟩ := accepted
    obtain ⟨first, second, rest, shape⟩ :
        ∃ first second rest, package.inclusionProofs = first :: second :: rest := by
      rcases shape : package.inclusionProofs with _ | ⟨first, _ | ⟨second, rest⟩⟩
      · simp [shape] at long
      · simp [shape] at long
      · exact ⟨first, second, rest, rfl⟩
    rw [shape] at scanned ⊢
    simp only [scanProofs, bind_eq_ok, decodeAs_eq_ok, scanProof_eq_ok, scanFirst_eq_ok] at scanned
    obtain ⟨_, decoded, _, ⟨storageProof, summary, start⟩, proof, decoded', _,
        ⟨other, _, fits, joined⟩, scanned⟩ := scanned
    subst summary start joined
    obtain ⟨proofs, decodes, fit, counted⟩ := (scanProofs_eq_ok 1).mp scanned
    subst counted
    obtain ⟨rfl, rfl⟩ : other = target ∧ countOn (saturatingAdd32 0 1) proofs.length = count := by
      simpa [pure, Except.pure] using found
    exact ⟨storageProof, proof :: proofs, .cons decoded (.cons decoded' decodes),
      List.cons_ne_nil _ _, List.forall_mem_cons.mpr ⟨fits, fit⟩, countOn_succ 0 proofs.length⟩
  · intro addressed
    obtain ⟨storageProof, proofs, decodes, nonempty, fit, counted⟩ := addressed
    obtain ⟨proof, proofs, rfl⟩ := List.exists_cons_of_ne_nil nonempty
    obtain ⟨fits, fit⟩ := List.forall_mem_cons.mp fit
    have long : 2 ≤ package.inclusionProofs.length := by
      rw [decodes.length_eq]
      simp
    refine ⟨long, ⟨some target, count⟩, ?_, rfl⟩
    obtain ⟨bytes, rest, decoded, decodes, shape⟩ := List.forall₂_cons_right_iff.mp decodes
    obtain ⟨bytes', rest', decoded', decodes, shape'⟩ := List.forall₂_cons_right_iff.mp decodes
    rw [shape, shape']
    simp only [scanProofs, bind_eq_ok, decodeAs_eq_ok, scanProof_eq_ok, scanFirst_eq_ok]
    refine ⟨_, decoded, _, ⟨storageProof, rfl, rfl⟩, proof, decoded', _,
      ⟨target, .inl rfl, fits, rfl⟩, ?_⟩
    refine (scanProofs_eq_ok 1).mpr ⟨proofs, decodes, fit, ?_⟩
    rw [countOn_succ, counted, List.length_cons]

theorem scanPackage_fits {package : CertifiedSummaryPackage}
    {storageProof : SummaryHeaderStorageProof} {proofs : List InclusionProof}
    (shape : package.inclusionProofs =
      codec.proof.encode (.summaryHeaderStorageV1 storageProof) :: proofs.map codec.proof.encode)
    (nonempty : proofs ≠ []) (fits : ∀ proof ∈ proofs, Fits package.header target proof)
    (small : proofs.length < 2 ^ 32) :
    scanPackage codec texts package = .ok (target, UInt32.ofNat proofs.length) := by
  refine scanPackage_eq_ok.mpr ⟨storageProof, proofs, ?_, nonempty, fits, ?_⟩
  · rw [shape, ← List.map_cons, List.forall₂_map_left_iff, List.forall₂_same]
    intro proof _
    exact codec.proof.decode_encode proof
  · rw [countOn, UInt32.toNat_zero, Nat.zero_add, Nat.min_eq_left (by omega)]

theorem decodeAndValidateEnvelope_derived {package : CertifiedSummaryPackage} {count : UInt32}
    (derived : deriveTargetDomain codec package = .ok (target, count))
    (hashed : package.packageHash = package.computePackageHash blake2 codec)
    (submittedAt : UInt64) :
    let envelope := RelayPackageEnvelopeV1.create package.header.domainId target
      package.header.epochId
      package.header.summaryHash package.packageHash
        (codec.package.encode package) count submittedAt
    decodeAndValidateEnvelope blake2 codec (codec.envelope.encode envelope) =
      .ok (envelope, package) := by
  simp only [decodeAndValidateEnvelope, decodeAs_encode, ok_bind, RelayPackageEnvelopeV1.create,
    ← hashed, ensure_true, derived]
  rfl

theorem inspectPackageForIngest_eq_ok {package : CertifiedSummaryPackage}
    {view : PackageIngestView} : inspectPackageForIngest codec package target = .ok view ↔
      ∃ count, Addressed codec package target count ∧ view = {
        sourceDomain := package.header.domainId
        targetDomain := target
        epochId := package.header.epochId
        exportCount := count } := by
  simp only [inspectPackageForIngest, bind_eq_ok, ensure_eq_ok, exists_const]
  constructor
  · intro accepted
    obtain ⟨⟨other, count⟩, scanned, same, returned⟩ := accepted
    cases returned
    cases same
    exact ⟨count, scanPackage_eq_ok.mp scanned, rfl⟩
  · intro viewed
    obtain ⟨count, addressed, shown⟩ := viewed
    subst shown
    exact ⟨(target, count), scanPackage_eq_ok.mpr addressed, rfl, rfl⟩

theorem collectProofs_eq {Proof : Type} {select : InclusionProof → Option Proof}
    {check : Proof → Except String Unit} {proofs : List InclusionProof}
    (later : ∀ proof ∈ proofs, ∀ storageProof, proof ≠ .summaryHeaderStorageV1 storageProof)
    (checked : ∀ selected ∈ proofs.filterMap select, check selected = .ok ()) :
    collectProofs codec select check (proofs.map codec.proof.encode) =
      .ok (proofs.filterMap select) := by
  induction proofs with
  | nil => rfl
  | cons proof rest ih =>
      have checkedRest : ∀ selected ∈ rest.filterMap select, check selected = .ok () := by
        intro selected member
        obtain ⟨proof, here, picked⟩ := List.mem_filterMap.mp member
        exact checked selected
          (List.mem_filterMap.mpr ⟨proof, List.mem_cons_of_mem _ here, picked⟩)
      have tail := ih (fun proof member => later proof (List.mem_cons_of_mem _ member)) checkedRest
      rw [List.map_cons, collectProofs, decodeAs_encode, ok_bind]
      split
      · rename_i storageProof
        exact absurd rfl (later _ List.mem_cons_self storageProof)
      · cases picked : select proof with
        | none => simp [picked, tail]
        | some selected =>
            have passed :=
              checked selected (List.mem_filterMap.mpr ⟨proof, List.mem_cons_self, picked⟩)
            simp [picked, passed, tail]

theorem collectProofs_decoded {Proof : Type} {select : InclusionProof → Option Proof}
    {check : Proof → Except String Unit} {encoded : List Bytes} {proofs : List Proof}
    (ok : collectProofs codec select check encoded = .ok proofs) :
    ∃ decoded : List InclusionProof, encoded.map codec.proof.decode = decoded.map .ok ∧
      decoded.filterMap select = proofs ∧
      ∀ proof ∈ proofs, check proof = .ok () := by
  induction encoded generalizing proofs with
  | nil =>
      cases ok
      exact ⟨[], rfl, rfl, by simp⟩
  | cons first rest ih =>
      rw [collectProofs, bind_eq_ok] at ok
      obtain ⟨proof, read, ok⟩ := ok
      have read := decodeAs_eq_ok.mp read
      split at ok
      · cases ok
      · split at ok
        · rename_i selected picked
          simp only [bind_eq_ok] at ok
          obtain ⟨_, passed, others, collected, returned⟩ := ok
          cases returned
          obtain ⟨decoded, reads, picks, checked⟩ := ih collected
          refine ⟨proof :: decoded, ?_, ?_, List.forall_mem_cons.mpr ⟨passed, checked⟩⟩
          · rw [List.map_cons, List.map_cons, read, reads]
          · rw [List.filterMap_cons_some picked, picks]
        · rename_i skipped
          obtain ⟨decoded, reads, picks, checked⟩ := ih ok
          refine ⟨proof :: decoded, ?_, ?_, checked⟩
          · rw [List.map_cons, List.map_cons, read, reads]
          · rw [List.filterMap_cons_none skipped, picks]

theorem collectProofs_checked {Proof : Type} {select : InclusionProof → Option Proof}
    {check : Proof → Except String Unit} {encoded : List Bytes} {proofs : List Proof}
    (ok : collectProofs codec select check encoded = .ok proofs) :
    ∀ proof ∈ proofs, check proof = .ok () := by
  obtain ⟨_, _, _, checked⟩ := collectProofs_decoded ok
  exact checked

theorem mem_collectProofs {Proof : Type} {select : InclusionProof → Option Proof}
    {check : Proof → Except String Unit} {encoded : List Bytes} {proofs : List Proof}
    (ok : collectProofs codec select check encoded = .ok proofs) (selected : Proof) :
    selected ∈ proofs ↔
      ∃ bytes ∈ encoded, ∃ proof, codec.proof.decode bytes = .ok proof ∧
        select proof = some selected := by
  obtain ⟨decoded, reads, picks, _⟩ := collectProofs_decoded ok
  rw [← picks, List.mem_filterMap]
  constructor
  · rintro ⟨proof, member, picked⟩
    have listed : Except.ok proof ∈ encoded.map codec.proof.decode :=
      reads ▸ List.mem_map_of_mem member
    obtain ⟨bytes, here, read⟩ := List.mem_map.mp listed
    exact ⟨bytes, here, proof, read, picked⟩
  · rintro ⟨bytes, member, proof, read, picked⟩
    have listed : codec.proof.decode bytes ∈ decoded.map .ok := reads ▸ List.mem_map_of_mem member
    obtain ⟨other, here, same⟩ := List.mem_map.mp listed
    cases same.trans read
    exact ⟨proof, here, picked⟩

section Checks

variable {package : CertifiedSummaryPackage}

theorem checkExportProof_eq_ok {proof : ExportInclusionProof} :
    checkExportProof blake2 package target proof = .ok () ↔
      proof.leaf.exportHash = proof.leaf.computeExportHash blake2 ∧
      (proof.leaf.sourceDomain = package.header.domainId ∧ proof.leaf.sourceEpochId =
        package.header.epochId) ∧
      proof.leaf.targetDomain = target ∧
      verifyExportInclusionProof blake2 package.header.exportRoot proof = true := by
  simp [checkExportProof]

theorem checkFinalizedImportProof_eq_ok {proof : FinalizedImportInclusionProof} :
    checkFinalizedImportProof blake2 package target proof = .ok () ↔
      proof.leaf.importHash = proof.leaf.computeImportHash blake2 ∧
      proof.leaf.targetDomain = package.header.domainId ∧ proof.leaf.sourceDomain = target ∧
      verifyFinalizedImportInclusionProof blake2 package.header.importRoot proof = true := by
  simp [checkFinalizedImportProof]

theorem checkGovernanceProof_eq_ok {proof : GovernanceInclusionProof} :
    checkGovernanceProof blake2 package target proof = .ok () ↔
      verifyGovernanceInclusionProof blake2 package.header.governanceRoot proof = true ∧
      proof.leaf.leafHash = proof.leaf.computeLeafHash blake2 ∧
        Fits package.header target (.governanceV1 proof) := by
  simp only [checkGovernanceProof, bind_eq_ok, ensure_eq_ok, exists_const, Fits]
  cases leaf : proof.leaf with
  | proposalV1 leaf' =>
      simp [GovernanceLeaf.leafHash, GovernanceLeaf.computeLeafHash, GovernanceLeaf.targetDomain,
        GovernanceLeaf.committedEpoch, and_comm]
  | ackV1 leaf' =>
      simp [GovernanceLeaf.leafHash, GovernanceLeaf.computeLeafHash, GovernanceLeaf.targetDomain,
        GovernanceLeaf.committedEpoch]

end Checks

end Accepted

section Mixed

variable {blake2 : Bytes → Hash32} {codec : PackageCodec} {package : CertifiedSummaryPackage}
  {storageProof : SummaryHeaderStorageProof} {items : VerifiedPackageItems} {target : DomainId}

/-- The proofs of a package after the first, as `from_bundle_with_mixed_proofs` lays them out. -/
def VerifiedPackageItems.proofs (items : VerifiedPackageItems) : List InclusionProof :=
  items.exportProofs.map .exportV1 ++ items.finalizedImportProofs.map .finalizedImportV1 ++
    items.governanceProofs.map .governanceV1

@[simp] theorem VerifiedPackageItems.proofs_selectExport (items : VerifiedPackageItems) :
    items.proofs.filterMap selectExport = items.exportProofs := by
  simp [proofs, List.filterMap_map, Function.comp_def, selectExport]

@[simp] theorem VerifiedPackageItems.proofs_selectFinalizedImport (items : VerifiedPackageItems) :
    items.proofs.filterMap selectFinalizedImport = items.finalizedImportProofs := by
  simp [proofs, List.filterMap_map, Function.comp_def, selectFinalizedImport]

@[simp] theorem VerifiedPackageItems.proofs_selectGovernance (items : VerifiedPackageItems) :
    items.proofs.filterMap selectGovernance = items.governanceProofs := by
  simp [proofs, List.filterMap_map, Function.comp_def, selectGovernance]

structure Checked (blake2 : Bytes → Hash32) (package : CertifiedSummaryPackage) (target : DomainId)
    (items : VerifiedPackageItems) : Prop where
  exports : ∀ proof ∈ items.exportProofs, checkExportProof blake2 package target proof = .ok ()
  imports : ∀ proof ∈ items.finalizedImportProofs,
    checkFinalizedImportProof blake2 package target proof = .ok ()
  governance : ∀ proof ∈ items.governanceProofs,
    checkGovernanceProof blake2 package target proof = .ok ()

theorem verifyPackageFlow_checked (ok : verifyPackageFlow blake2 codec package target = .ok items) :
    Checked blake2 package target items := by
  simp only [verifyPackageFlow, bind_eq_ok] at ok
  obtain ⟨_, _, exports, forward, imports, completions, governance, ballots, returned⟩ := ok
  cases returned
  exact ⟨collectProofs_checked forward, collectProofs_checked completions,
    collectProofs_checked ballots⟩

theorem Checked.fits (checked : Checked blake2 package target items) :
    ∀ proof ∈ items.proofs, Fits package.header target proof := by
  intro proof member
  simp only [VerifiedPackageItems.proofs, List.mem_append, List.mem_map] at member
  rcases member with (⟨proof, here, rfl⟩ | ⟨proof, here, rfl⟩) | ⟨proof, here, rfl⟩
  · obtain ⟨_, source, targeted, _⟩ := checkExportProof_eq_ok.mp (checked.exports proof here)
    exact ⟨targeted, source⟩
  · obtain ⟨_, source, targeted, _⟩ :=
      checkFinalizedImportProof_eq_ok.mp (checked.imports proof here)
    exact ⟨targeted, source⟩
  · exact (checkGovernanceProof_eq_ok.mp (checked.governance proof here)).2.2

section Accepts

variable (shape : package.inclusionProofs =
    codec.proof.encode (.summaryHeaderStorageV1 storageProof) ::
      items.proofs.map codec.proof.encode)
  (nonempty : items.proofs ≠ []) (checked : Checked blake2 package target items)
include shape nonempty checked

theorem verifyPackageFlow_accepts : verifyPackageFlow blake2 codec package target = .ok items := by
  have long : 2 ≤ package.inclusionProofs.length := by
    have positive := List.length_pos_iff.mpr nonempty
    rw [shape, List.length_cons, List.length_map]
    omega
  have tail : package.inclusionProofs.drop 1 = items.proofs.map codec.proof.encode := by
    rw [shape]; rfl
  have later : ∀ proof ∈ items.proofs, ∀ storageProof,
      proof ≠ .summaryHeaderStorageV1 storageProof := by
    rintro _ member storageProof rfl
    exact checked.fits _ member
  have exports := items.proofs_selectExport
  have imports := items.proofs_selectFinalizedImport
  have governance := items.proofs_selectGovernance
  have forward : verifyForwardExportProofs blake2 codec package target =
      .ok items.exportProofs := by
    rw [verifyForwardExportProofs, tail, collectProofs_eq later (exports ▸ checked.exports),
      exports]
  have completions : verifyFinalizedImportProofs blake2 codec package target =
      .ok items.finalizedImportProofs := by
    rw [verifyFinalizedImportProofs, tail, collectProofs_eq later (imports ▸ checked.imports),
      imports]
  have ballots : verifyGovernanceProofs blake2 codec package target =
      .ok items.governanceProofs := by
    rw [verifyGovernanceProofs, tail, collectProofs_eq later (governance ▸ checked.governance),
      governance]
  simp only [verifyPackageFlow, long, ensure_true, ok_bind, forward, completions, ballots]
  rfl

variable (small : items.proofs.length < 2 ^ 32)
include small

theorem inspectPackageForIngest_accepts :
    inspectPackageForIngest codec package target = .ok {
      sourceDomain := package.header.domainId
      targetDomain := target
      epochId := package.header.epochId
      exportCount := UInt32.ofNat items.proofs.length } := by
  simp only [inspectPackageForIngest, scanPackage_fits shape nonempty checked.fits small,
    ok_bind, ensure_true]
  rfl

theorem decodeAndValidateEnvelope_accepts (hashed : package.packageHash =
    package.computePackageHash blake2 codec) (submittedAt : UInt64) :
    let envelope := RelayPackageEnvelopeV1.create package.header.domainId target
      package.header.epochId
      package.header.summaryHash package.packageHash (codec.package.encode package)
      (UInt32.ofNat items.proofs.length) submittedAt
    decodeAndValidateEnvelope blake2 codec (codec.envelope.encode envelope) =
      .ok (envelope, package) :=
  decodeAndValidateEnvelope_derived (scanPackage_fits shape nonempty checked.fits small) hashed
    submittedAt

end Accepts

end Mixed

def packageOf (blake2 : Bytes → Hash32) (codec : PackageCodec) (header : EpochSummaryHeader)
    (bundle : SummaryCertificationBundle) (items : VerifiedPackageItems) :
    CertifiedSummaryPackage :=
  CertifiedSummaryPackage.fromBundleWithMixedProofs blake2 codec header bundle items.exportProofs
    items.finalizedImportProofs items.governanceProofs

theorem packageOf_inclusionProofs (blake2 : Bytes → Hash32) (codec : PackageCodec)
    (header : EpochSummaryHeader) (bundle : SummaryCertificationBundle)
    (items : VerifiedPackageItems) : (packageOf blake2 codec header bundle items).inclusionProofs =
      codec.proof.encode (.summaryHeaderStorageV1 bundle.summaryHeaderStorageProof) ::
        items.proofs.map codec.proof.encode := by
  simp [packageOf, CertifiedSummaryPackage.fromBundleWithMixedProofs,
    CertifiedSummaryPackage.fromFields, VerifiedPackageItems.proofs, Function.comp_def]

section Sample

def sampleBundle : SummaryCertificationBundle where
  certificate := .grandpaV1 {
    version := 1, grandpaSetId := 0, targetBlockNumber := 2, targetBlockHash := emptyHash
    proofBlockNumber := 2, proofBlockHash := emptyHash, justification := [], ancestryHeaders := [] }
  summaryHeaderStorageProof := {
    version := 1, proofBlockNumber := 2, proofBlockHash := emptyHash, proofBlockHeader :=
      [], storageKey := []
    trieNodes := [] }

/-- A hash function of one value: what the relay does with a package depends on no other part of its
identity. -/
def blankHash (_ : Bytes) : Hash32 := emptyHash

def exportTo (target : DomainId) : ExportInclusionProof where
  version := 1
  leaf := ExportLeaf.fromHashInput blankHash {
    version := 1, exportId := emptyHash, sourceDomain := .earth, targetDomain :=
      target, sender := emptyHash
    recipient := emptyHash, amount := 1, sourceEpochId := 0, sourceBlockHeight :=
      1, extrinsicIndex := 0 }
  leafIndex := 0
  leafCount := 1
  siblings := []

noncomputable def packageTo (target : DomainId) : CertifiedSummaryPackage :=
  packageOf blankHash sampleCodec
    (EpochSummaryHeader.fromHashInput blankHash {
      version := 1, domainId := .earth, epochId := 0, prevSummaryHash := emptyHash
      startBlockHeight := 1, endBlockHeight := 2
      stateRoot := emptyHash, blockRoot := emptyHash, txRoot := emptyHash, eventRoot := emptyHash
      exportRoot := emptyHash, importRoot := emptyHash, governanceRoot := emptyHash
      validatorSetHash := emptyHash })
    sampleBundle {
      exportProofs := [exportTo target], finalizedImportProofs := [], governanceProofs := [] }

noncomputable def envelopeTo (target : DomainId) : RelayPackageEnvelopeV1 :=
  RelayPackageEnvelopeV1.create .earth target 0 emptyHash emptyHash
    (sampleCodec.package.encode (packageTo target)) 1 0

noncomputable def bodyTo (target : DomainId) : Bytes :=
  sampleCodec.envelope.encode (envelopeTo target)

theorem envelopeTo_accepted (target : DomainId) :
    decodeAndValidateEnvelope blankHash sampleCodec (bodyTo target) =
      .ok (envelopeTo target, packageTo target) := by
  have scanned : deriveTargetDomain sampleCodec (packageTo target) = .ok (target, 1) := by
    apply scanPackage_fits (packageOf_inclusionProofs _ _ _ _ _)
    · simp [VerifiedPackageItems.proofs]
    · intro proof member
      obtain rfl := List.mem_singleton.mp member
      exact ⟨rfl, rfl, rfl⟩
    · change 1 < 2 ^ 32
      decide
  simp only [bodyTo, decodeAndValidateEnvelope, decodeAs_encode, ok_bind, bind_eq_ok, ensure_eq_ok]
  exact ⟨_, decodeAs_encode _ _ _, (), rfl, (), rfl, (), rfl, (), rfl, (), rfl, _, scanned,
    (), rfl, (), rfl, rfl⟩

end Sample

/-- The relay and the importer read a package the same way: they accept the same packages for the
same target and count the same proofs. What the relay queues for a domain, that domain's importer
does not reject for its shape, and what an importer takes, the relay takes in an envelope that
describes it. -/
theorem readers_agree (blake2 : Bytes → Hash32) (codec : PackageCodec)
    (package : CertifiedSummaryPackage) (target : DomainId) :
    (∀ count, deriveTargetDomain codec package = .ok (target, count) ↔
      ∃ view, inspectPackageForIngest codec package target = .ok view ∧ view.targetDomain = target ∧
        view.exportCount = count) ∧
    (∀ count, deriveTargetDomain codec package = .ok (target, count) ↔
      Addressed codec package target count) ∧
    (∀ body envelope, decodeAndValidateEnvelope blake2 codec body = .ok (envelope, package) →
      ∃ view, inspectPackageForIngest codec package envelope.targetDomain = .ok view ∧
        view.exportCount = envelope.exportCount) ∧
    (∀ view, inspectPackageForIngest codec package target = .ok view →
      package.packageHash = package.computePackageHash blake2 codec → ∀ submittedAt,
      let envelope := RelayPackageEnvelopeV1.create package.header.domainId target
        package.header.epochId
        package.header.summaryHash package.packageHash (codec.package.encode package)
          view.exportCount submittedAt
      decodeAndValidateEnvelope blake2 codec (codec.envelope.encode envelope) =
        .ok (envelope, package)) := by
  refine ⟨?_, fun count => scanPackage_eq_ok, ?_, ?_⟩
  · intro count
    rw [deriveTargetDomain, scanPackage_eq_ok]
    constructor
    · intro addressed
      exact ⟨_, inspectPackageForIngest_eq_ok.mpr ⟨count, addressed, rfl⟩, rfl, rfl⟩
    · rintro ⟨view, inspected, _, counted⟩
      obtain ⟨found, addressed, shown⟩ := inspectPackageForIngest_eq_ok.mp inspected
      subst shown counted
      exact addressed
  · intro body envelope accepted
    simp only [decodeAndValidateEnvelope, bind_eq_ok, ensure_eq_ok, exists_const] at accepted
    obtain ⟨_, _, _, _, _, _, _, _, _, ⟨derived, count⟩, scanned, targeted, counted, returned⟩ :=
      accepted
    cases returned
    cases targeted
    cases counted
    exact ⟨_, inspectPackageForIngest_eq_ok.mpr ⟨_, scanPackage_eq_ok.mp scanned, rfl⟩, rfl⟩
  · intro view inspected hashed submittedAt
    obtain ⟨count, addressed, shown⟩ := inspectPackageForIngest_eq_ok.mp inspected
    subst shown
    exact decodeAndValidateEnvelope_derived (scanPackage_eq_ok.mpr addressed) hashed submittedAt

theorem readers_agree_sample :
    ∃ view, inspectPackageForIngest sampleCodec (packageTo .moon) .moon = .ok view ∧
      view.exportCount = 1 ∧
      ∃ envelope, decodeAndValidateEnvelope blankHash sampleCodec
        (sampleCodec.envelope.encode envelope) =
        .ok (envelope, packageTo .moon) := by
  obtain ⟨view, inspected, counted⟩ :=
    (readers_agree blankHash sampleCodec (packageTo .moon) .moon).2.2.1 _ _
      (envelopeTo_accepted .moon)
  exact ⟨view, inspected, counted, _,
    (readers_agree blankHash sampleCodec (packageTo .moon) .moon).2.2.2 view inspected rfl 0⟩

end Ialp.Services
