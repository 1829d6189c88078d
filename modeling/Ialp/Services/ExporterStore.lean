import Ialp.Services.Handoff
import Ialp.Services.PackageView
import Ialp.Services.SummaryView

/-!
The exporter's store: the index of its packages, which `sync_once` loads, changes in memory and
saves when it is through, and the package files, which are written as it goes. A hash stands for the
hexadecimal text the records hold, and the key of a package for the names of its files. Reading a
file that is there and writing a file succeed.
-/

namespace Ialp.Services.Sync

open Scale Function

section Index

inductive PackageStatus where
  | staged
  | certified
  deriving DecidableEq

structure PackageKey where
  epochId : EpochId
  targetDomain : DomainId
  deriving DecidableEq

structure PackageRecord extends PackageKey where
  summaryHash : Hash32
  stagedAtBlockNumber : UInt32
  stagedAtBlockHash : Hash32
  exportIds : List ExportId
  exportCount : Nat
  status : PackageStatus
  pendingReason : Option String
  packageHash : Option Hash32
  packageScalePath : Option String
  packageManifestPath : Option String
  proofBlockNumber : Option UInt32
  proofBlockHash : Option Hash32
  proofCount : Option Nat
  proofKinds : List String
  relaySubmissionState : RelaySubmissionState
  relayLastSubmittedAtUnixMs : Option UInt64
  relaySubmissionAttempts : UInt32
  relayLastError : Option String

structure ExporterIndex where
  domainId : DomainId
  latestStagedEpoch : Option EpochId
  latestCertifiedEpoch : Option EpochId
  latestCertifiedTargetDomain : Option DomainId
  packages : List PackageRecord

structure Staging where
  summaryHash : Hash32
  stagedAtBlockNumber : UInt32
  stagedAtBlockHash : Hash32
  exportIds : List ExportId
  pendingReason : Option String

structure Certification where
  packageHash : Hash32
  packageScalePath : String
  packageManifestPath : String
  proofBlockNumber : UInt32
  proofBlockHash : Hash32
  proofCount : Nat
  proofKinds : List String

namespace PackageRecord

def stagedAs (key : PackageKey) (staging : Staging) : PackageRecord where
  toPackageKey := key
  summaryHash := staging.summaryHash
  stagedAtBlockNumber := staging.stagedAtBlockNumber
  stagedAtBlockHash := staging.stagedAtBlockHash
  exportIds := staging.exportIds
  exportCount := staging.exportIds.length
  status := .staged
  pendingReason := staging.pendingReason
  packageHash := none
  packageScalePath := none
  packageManifestPath := none
  proofBlockNumber := none
  proofBlockHash := none
  proofCount := none
  proofKinds := []
  relaySubmissionState := .notSubmitted
  relayLastSubmittedAtUnixMs := none
  relaySubmissionAttempts := 0
  relayLastError := none

/-- What a record of before becomes. That of a certified package gets the summary, too. -/
def restage (staging : Staging) (record : PackageRecord) : PackageRecord :=
  if record.status = .certified then
    { record with
      summaryHash := staging.summaryHash
      stagedAtBlockNumber := staging.stagedAtBlockNumber
      stagedAtBlockHash := staging.stagedAtBlockHash
      exportIds := staging.exportIds
      exportCount := staging.exportIds.length }
  else stagedAs record.toPackageKey staging

def certify (certification : Certification) (record : PackageRecord) : PackageRecord :=
  let certified := { record with
    status := .certified
    pendingReason := none
    packageHash := some certification.packageHash
    packageScalePath := some certification.packageScalePath
    packageManifestPath := some certification.packageManifestPath
    proofBlockNumber := some certification.proofBlockNumber
    proofBlockHash := some certification.proofBlockHash
    proofCount := some certification.proofCount
    proofKinds := certification.proofKinds }
  if record.status = .certified then certified
  else { certified with
    relaySubmissionState := .notSubmitted
    relayLastSubmittedAtUnixMs := none
    relaySubmissionAttempts := 0
    relayLastError := none }

def submit (state : RelaySubmissionState) (now : UInt64) (error : Option String)
    (record : PackageRecord) : PackageRecord :=
  { record with
    relaySubmissionState := state
    relayLastSubmittedAtUnixMs := some now
    relaySubmissionAttempts := saturatingAdd32 record.relaySubmissionAttempts 1
    relayLastError := error }

end PackageRecord

namespace ExporterIndex

def create (domainId : DomainId) : ExporterIndex where
  domainId
  latestStagedEpoch := none
  latestCertifiedEpoch := none
  latestCertifiedTargetDomain := none
  packages := []

def record (key : PackageKey) (index : ExporterIndex) : Option PackageRecord :=
  Keyed.lookup PackageRecord.toPackageKey key index.packages

def put (record : PackageRecord) (index : ExporterIndex) : ExporterIndex :=
  { index with packages := Keyed.upsert PackageRecord.toPackageKey record index.packages }

def upsertPending (key : PackageKey) (staging : Staging) (index : ExporterIndex) : ExporterIndex :=
  match index.record key with
  | some record => index.put (record.restage staging)
  | none => index.put (.stagedAs key staging)

/-- The record must be there: without one the exporter panics. -/
def markCertified (key : PackageKey) (certification : Certification) (index : ExporterIndex) :
    Except String ExporterIndex := do
  let record ← okOr (index.record key) "pending package record should exist before certification"
  return { index.put (record.certify certification) with
    latestCertifiedEpoch := some key.epochId
    latestCertifiedTargetDomain := some key.targetDomain }

def markSubmission (key : PackageKey) (state : RelaySubmissionState) (now : UInt64)
    (error : Option String) (index : ExporterIndex) : ExporterIndex :=
  match index.record key with
  | some record => index.put (record.submit state now error)
  | none => index

def markRelaySubmitted (key : PackageKey) (submittedAtUnixMs : UInt64) (index : ExporterIndex) :
    ExporterIndex :=
  index.markSubmission key .submitted submittedAtUnixMs none

def markRelaySubmissionError (key : PackageKey) (submittedAtUnixMs : UInt64)
    (retryable : Bool) (error : String) (index : ExporterIndex) : ExporterIndex :=
  index.markSubmission key (if retryable then .submissionRetrying else .submissionFailed)
    submittedAtUnixMs (some error)

end ExporterIndex

end Index

section Files

structure PackageManifest where
  domainId : DomainId
  targetDomain : DomainId
  epochId : EpochId
  summaryHash : Hash32
  packageHash : Hash32
  exportIds : List ExportId
  exportCount : Nat
  proofCount : Nat
  proofKinds : List String
  targetBlockNumber : UInt32
  targetBlockHash : Hash32
  proofBlockNumber : UInt32
  proofBlockHash : Hash32
  grandpaSetId : UInt64
  justificationLen : Nat
  ancestryHeaderCount : Nat
  summaryStorageKey : Bytes
  summaryStorageNodeCount : Nat
  summaryStorageTotalBytes : Nat
  summaryStorageHeaderLen : Nat
  artifactsState : String
  scalePath : String

structure Store where
  domainId : DomainId
  packagesDir : String
  indexFile : Option ExporterIndex
  scales : PackageKey → Option Bytes
  manifests : PackageKey → Option PackageManifest

namespace Store

variable (codec : PackageCodec)

def packagePath (store : Store) (key : PackageKey) (extension : String) : String :=
  store.packagesDir ++ "/epoch-" ++ toString key.epochId.toNat ++ "-to-" ++
    key.targetDomain.asStr ++ extension

def loadIndex (store : Store) : Except String ExporterIndex :=
  match store.indexFile with
  | none => .ok (.create store.domainId)
  | some index => do
      ensure (index.domainId = store.domainId) ("exporter index domain " ++ index.domainId.asStr ++
        " does not match requested domain " ++ store.domainId.asStr)
      return index

def saveIndex (index : ExporterIndex) (store : Store) : Except String Store := do
  ensure (index.domainId = store.domainId) ("exporter index domain " ++ index.domainId.asStr ++
    " does not match store domain " ++ store.domainId.asStr)
  return { store with indexFile := some index }

def buildManifest (package : CertifiedSummaryPackage) (targetDomain : DomainId)
    (exportIds : List ExportId) (scalePath : String) (store : Store) :
    Except String PackageManifest := do
  let .grandpaV1 certificate := package.certificate
  let first ← okOr package.inclusionProofs.head? "package is missing inclusion_proofs[0]"
  let summaryProof ← decodeSummaryHeaderStorageProof codec first
  let proofKinds ← decodeProofKinds codec package.inclusionProofs.tail
  return {
    domainId := store.domainId
    targetDomain
    epochId := package.header.epochId
    summaryHash := package.header.summaryHash
    packageHash := package.packageHash
    exportIds
    exportCount := exportIds.length
    proofCount := package.inclusionProofs.length
    proofKinds
    targetBlockNumber := certificate.targetBlockNumber
    targetBlockHash := certificate.targetBlockHash
    proofBlockNumber := certificate.proofBlockNumber
    proofBlockHash := certificate.proofBlockHash
    grandpaSetId := certificate.grandpaSetId
    justificationLen := certificate.justification.length
    ancestryHeaderCount := certificate.ancestryHeaders.length
    summaryStorageKey := summaryProof.storageKey
    summaryStorageNodeCount := summaryProof.trieNodes.length
    summaryStorageTotalBytes := (summaryProof.trieNodes.map List.length).sum
    summaryStorageHeaderLen := summaryProof.proofBlockHeader.length
    artifactsState := if package.artifacts = [] then "empty" else "non_empty"
    scalePath }

def ensureSameSummary (key : PackageKey) (package : CertifiedSummaryPackage)
    (index : ExporterIndex) : Except String Unit :=
  match index.record key with
  | some existing => ensure (existing.summaryHash = package.header.summaryHash) ("package key (" ++
      toString key.epochId.toNat ++ ", " ++ key.targetDomain.asStr ++
        ") already recorded for summary " ++
      hexHash existing.summaryHash)
  | none => .ok ()

def ensureSameBytes (key : PackageKey) (package : CertifiedSummaryPackage) (store : Store) :
    Except String Unit :=
  match store.scales key with
  | some current => ensure (current = codec.package.encode package) ("refusing to overwrite " ++
      store.packagePath key ".scale" ++ " with different bytes for the same package identity")
  | none => .ok ()

def preparePackage (key : PackageKey) (package : CertifiedSummaryPackage)
    (exportIds : List ExportId) (index : ExporterIndex) (store : Store) :
    Except String PackageManifest := do
  ensureSameSummary key package index
  store.ensureSameBytes codec key package
  store.buildManifest codec package key.targetDomain exportIds (store.packagePath key ".scale")

def writePackage (key : PackageKey) (package : CertifiedSummaryPackage)
    (manifest : PackageManifest) (store : Store) : Store :=
  { store with
    scales := update store.scales key (some (codec.package.encode package))
    manifests := update store.manifests key (some manifest) }

def certification (key : PackageKey) (package : CertifiedSummaryPackage)
    (manifest : PackageManifest) (store : Store) : Certification :=
  match package.certificate with
  | .grandpaV1 certificate => {
      packageHash := package.packageHash
      packageScalePath := store.packagePath key ".scale"
      packageManifestPath := store.packagePath key ".json"
      proofBlockNumber := certificate.proofBlockNumber
      proofBlockHash := certificate.proofBlockHash
      proofCount := package.inclusionProofs.length
      proofKinds := manifest.proofKinds }

/-- The package is filed under the epoch of its header. The files stay when the record cannot be
marked. -/
def persistPackage (targetDomain : DomainId) (exportIds : List ExportId)
    (package : CertifiedSummaryPackage) (index : ExporterIndex) (store : Store) :
    Store × Except String ExporterIndex :=
  match store.preparePackage codec ⟨package.header.epochId, targetDomain⟩ package
    exportIds index with
  | .error message => (store, .error message)
  | .ok manifest =>
      (store.writePackage codec ⟨package.header.epochId, targetDomain⟩ package manifest,
        index.markCertified ⟨package.header.epochId, targetDomain⟩
          (store.certification ⟨package.header.epochId, targetDomain⟩ package manifest))

def loadPackage (key : PackageKey) (store : Store) :
    Except String (PackageManifest × CertifiedSummaryPackage) := do
  let manifest ← okOr (store.manifests key) ("failed to read " ++ store.packagePath key ".json")
  let scale ← okOr (store.scales key) ("failed to read " ++ store.packagePath key ".scale")
  let package ← decodeAs codec.package "failed to decode package bytes: " scale
  return (manifest, package)

end Store

end Files

section Records

variable {codec : PackageCodec} {agreed : Prop} {index index' index'' : ExporterIndex}
  {store store' : Store} {key : PackageKey} {record record' : PackageRecord}

/-- A later record of a certified package: it is certified with the same package, and submitted if
it was. It has the same summary where the node's summaries agree. -/
structure PackageRecord.Kept (agreed : Prop) (record record' : PackageRecord) : Prop where
  status : record'.status = .certified
  package : record'.packageHash = record.packageHash
  summary : agreed → record'.summaryHash = record.summaryHash
  submitted : record.relaySubmissionState = .submitted → record'.relaySubmissionState = .submitted

def ExporterIndex.Keeps (agreed : Prop) (index index' : ExporterIndex) : Prop :=
  ∀ key record, index.record key = some record → record.status = .certified →
    ∃ record', index'.record key = some record' ∧ record.Kept agreed record'

structure Store.Files (codec : PackageCodec) (store : Store) (key : PackageKey)
    (package : CertifiedSummaryPackage) : Prop where
  scale : store.scales key = some (codec.package.encode package)
  epoch : package.header.epochId = key.epochId
  manifest : ∃ manifest, store.manifests key = some manifest

def Store.Holds (codec : PackageCodec) (agreed : Prop) (store : Store) (record : PackageRecord) :
    Prop :=
  ∃ package, store.Files codec record.toPackageKey package ∧
    record.packageHash = some package.packageHash ∧
      (agreed → record.summaryHash = package.header.summaryHash)

/-- One record a key, a file for every certified package, and only certified packages are
submitted. -/
structure ExporterIndex.Sound (codec : PackageCodec) (agreed : Prop) (store : Store)
    (index : ExporterIndex) : Prop where
  domain : index.domainId = store.domainId
  distinct : (index.packages.map PackageRecord.toPackageKey).Nodup
  held : ∀ key record, index.record key = some record → record.status = .certified →
    store.Holds codec agreed record
  submitted : ∀ key record, index.record key = some record →
    record.relaySubmissionState = .submitted →
    record.status = .certified

structure Store.Grows (store store' : Store) : Prop where
  domain : store'.domainId = store.domainId
  index : store'.indexFile = store.indexFile
  scales : ∀ key bytes, store.scales key = some bytes → store'.scales key = some bytes
  manifests : ∀ key manifest, store.manifests key = some manifest → ∃ manifest',
    store'.manifests key = some manifest'

theorem Store.Grows.refl (store : Store) : store.Grows store :=
  ⟨rfl, rfl, fun _ _ present => present, fun _ manifest present => ⟨manifest, present⟩⟩

theorem Store.Grows.trans {store'' : Store} (first : store.Grows store')
    (second : store'.Grows store'') : store.Grows store'' := by
  refine ⟨second.domain.trans first.domain, second.index.trans first.index,
    fun key bytes present => second.scales key bytes (first.scales key bytes present),
    fun key manifest present => ?_⟩
  obtain ⟨middle, kept⟩ := first.manifests key manifest present
  exact second.manifests key middle kept

theorem Store.Files.grow {package : CertifiedSummaryPackage} (files : store.Files codec key package)
    (grows : store.Grows store') : store'.Files codec key package := by
  obtain ⟨manifest, present⟩ := files.manifest
  exact ⟨grows.scales _ _ files.scale, files.epoch, grows.manifests _ _ present⟩

theorem PackageRecord.Kept.refl (certified : record.status = .certified) :
    record.Kept agreed record :=
  ⟨certified, rfl, fun _ => rfl, id⟩

theorem ExporterIndex.Keeps.refl (index : ExporterIndex) : index.Keeps agreed index :=
  fun _ record found certified => ⟨record, found, .refl certified⟩

theorem ExporterIndex.Keeps.trans (first : index.Keeps agreed index')
    (second : index'.Keeps agreed index'') : index.Keeps agreed index'' := by
  intro key record found certified
  obtain ⟨middle, found', kept⟩ := first key record found certified
  obtain ⟨last, found'', kept'⟩ := second key middle found' kept.status
  refine ⟨last, found'', kept'.status, kept'.package.trans kept.package, ?_, fun was =>
    kept'.submitted (kept.submitted was)⟩
  exact fun agree => (kept'.summary agree).trans (kept.summary agree)

theorem ExporterIndex.Sound.grow (sound : index.Sound codec agreed store)
    (grows : store.Grows store') : index.Sound codec agreed store' where
  domain := sound.domain.trans grows.domain.symm
  distinct := sound.distinct
  held key record found certified := by
    obtain ⟨package, files, same⟩ := sound.held key record found certified
    exact ⟨package, files.grow grows, same⟩
  submitted := sound.submitted

theorem ExporterIndex.sound_create (codec : PackageCodec) (agreed : Prop) (store : Store) :
    (ExporterIndex.create store.domainId).Sound codec agreed store where
  domain := rfl
  distinct := List.nodup_nil
  held key record found := by cases found
  submitted key record found := by cases found

namespace ExporterIndex

theorem key_of_record (found : index.record key = some record) : record.toPackageKey = key :=
  Keyed.key_of_lookup found

theorem record_put (record : PackageRecord) (key : PackageKey) :
    (index.put record).record key = if record.toPackageKey = key then some record
      else index.record key :=
  Keyed.lookup_upsert _ _ _ _

theorem Sound.put (sound : index.Sound codec agreed store)
    (held : record.status = .certified → store.Holds codec agreed record)
    (submitted : record.relaySubmissionState = .submitted → record.status = .certified) :
    (index.put record).Sound codec agreed store where
  domain := sound.domain
  distinct := Keyed.nodup_upsert sound.distinct
  held key found present certified := by
    rw [record_put] at present
    split at present
    · cases present
      exact held certified
    · exact sound.held key found present certified
  submitted key found present was := by
    rw [record_put] at present
    split at present
    · cases present
      exact submitted was
    · exact sound.submitted key found present was

theorem keeps_put (kept : ∀ before, index.record record.toPackageKey = some before →
    before.status = .certified →
    before.Kept agreed record) : index.Keeps agreed (index.put record) := by
  intro key before found certified
  rw [record_put]
  split
  · rename_i same
    subst same
    exact ⟨record, rfl, kept before found certified⟩
  · exact ⟨before, found, .refl certified⟩

end ExporterIndex

end Records

section Writes

variable {codec : PackageCodec} {agreed : Prop} {index index' : ExporterIndex}
  {store store' : Store} {key : PackageKey} {record : PackageRecord}

theorem ExporterIndex.record_upsertPending {staging : Staging} {other : PackageKey}
    (found : (index.upsertPending key staging).record other = some record) :
    record.summaryHash = staging.summaryHash ∨ index.record other = some record := by
  unfold ExporterIndex.upsertPending at found
  split at found
  · rw [record_put] at found
    split at found
    · cases found
      left
      unfold PackageRecord.restage
      split <;> rfl
    · exact .inr found
  · rw [record_put] at found
    split at found
    · cases found
      exact .inl rfl
    · exact .inr found

theorem ExporterIndex.Sound.upsertPending (sound : index.Sound codec agreed store)
    (key : PackageKey) (staging : Staging)
    (agrees : agreed → ∀ record, index.record key = some record → record.status = .certified →
      staging.summaryHash = record.summaryHash) :
    (index.upsertPending key staging).Sound codec agreed store ∧
      index.Keeps agreed (index.upsertPending key staging) := by
  unfold ExporterIndex.upsertPending
  cases found : index.record key with
  | none =>
      refine ⟨sound.put nofun nofun, keeps_put fun before present => ?_⟩
      cases found.symm.trans present
  | some record =>
      have label := ExporterIndex.key_of_record found
      subst label
      by_cases certified : record.status = .certified
      · have same (agree : agreed) := agrees agree record found certified
        simp only [PackageRecord.restage, if_pos certified]
        constructor
        · refine sound.put (fun _ => ?_) (fun _ => certified)
          obtain ⟨package, files, hash, summary⟩ := sound.held _ record found certified
          exact ⟨package, files, hash, fun agree => (same agree).trans (summary agree)⟩
        · refine keeps_put fun before present _ => ?_
          cases found.symm.trans present
          exact ⟨certified, rfl, same, id⟩
      · simp only [PackageRecord.restage, if_neg certified]
        refine ⟨sound.put nofun nofun, keeps_put fun before present other => ?_⟩
        cases found.symm.trans present
        exact absurd other certified

theorem ExporterIndex.record_markSubmission {other : PackageKey} (different : key ≠ other)
    (state : RelaySubmissionState) (now : UInt64) (error : Option String) :
    (index.markSubmission key state now error).record other = index.record other := by
  unfold ExporterIndex.markSubmission
  split
  · rename_i record found
    have label := ExporterIndex.key_of_record found
    subst label
    rw [record_put]
    exact if_neg different
  · rfl

theorem ExporterIndex.Sound.markSubmission (sound : index.Sound codec agreed store)
    (found : index.record key = some record) (certified : record.status = .certified)
    (unsubmitted : record.relaySubmissionState ≠ .submitted) (state : RelaySubmissionState)
    (now : UInt64) (error : Option String) :
    (index.markSubmission key state now error).Sound codec agreed store ∧
      index.Keeps agreed (index.markSubmission key state now error) := by
  have label := ExporterIndex.key_of_record found
  subst label
  simp only [ExporterIndex.markSubmission, found]
  refine ⟨sound.put (fun _ => sound.held _ record found certified) (fun _ => certified), ?_⟩
  refine keeps_put fun before present _ => ?_
  cases found.symm.trans present
  exact ⟨certified, rfl, fun _ => rfl, fun was => absurd was unsubmitted⟩

theorem Store.preparePackage_eq_ok {package : CertifiedSummaryPackage} {exportIds : List ExportId}
    {manifest : PackageManifest}
    (prepared : store.preparePackage codec key package exportIds index = .ok manifest) :
    (∀ record, index.record key = some record → record.summaryHash = package.header.summaryHash) ∧
      ∀ bytes, store.scales key = some bytes → bytes = codec.package.encode package := by
  simp only [Store.preparePackage, bind_eq_ok] at prepared
  obtain ⟨_, summaries, _, files, _⟩ := prepared
  constructor
  · intro record found
    rw [Store.ensureSameSummary, found] at summaries
    exact ensure_eq_ok.mp summaries
  · intro bytes present
    rw [Store.ensureSameBytes, present] at files
    exact ensure_eq_ok.mp files

theorem ExporterIndex.Sound.certify (sound : index.Sound codec agreed store)
    {package : CertifiedSummaryPackage} {certification : Certification}
    (found : index.record key = some record) (files : store.Files codec key package)
    (hash : certification.packageHash = package.packageHash)
    (summary : record.summaryHash = package.header.summaryHash) :
    (index.put (record.certify certification)).Sound codec agreed store ∧
      index.Keeps agreed (index.put (record.certify certification)) := by
  have label := ExporterIndex.key_of_record found
  subst label
  have written : (record.certify certification).toPackageKey = record.toPackageKey ∧
      (record.certify certification).status = .certified ∧
      (record.certify certification).packageHash = some certification.packageHash ∧
      (record.certify certification).summaryHash = record.summaryHash := by
    unfold PackageRecord.certify
    split <;> exact ⟨rfl, rfl, rfl, rfl⟩
  obtain ⟨key, certified, packageHash, summaryHash⟩ := written
  constructor
  · refine sound.put (fun _ => ?_) (fun _ => certified)
    exact ⟨package, key.symm ▸ files, by rw [packageHash, hash], fun _ => summaryHash.trans summary⟩
  · refine keeps_put fun before present was => ?_
    rw [key] at present
    cases found.symm.trans present
    refine ⟨certified, ?_, fun _ => summaryHash, fun submitted => ?_⟩
    · -- The file of before is the one that is written, so it is of the same package.
      obtain ⟨package', files', hash', _⟩ := sound.held _ record found was
      have same :=
        codec.package.encode_injective (Option.some.inj (files'.scale.symm.trans files.scale))
      rw [packageHash, hash, hash', same]
    · simp only [PackageRecord.certify, if_pos was]
      exact submitted

theorem Store.grows_writePackage {package : CertifiedSummaryPackage}
    (unchanged : ∀ bytes, store.scales key = some bytes → bytes = codec.package.encode package)
    (manifest : PackageManifest) : store.Grows (store.writePackage codec key package manifest) := by
  refine ⟨rfl, rfl, fun other bytes present => ?_, fun other before present => ?_⟩
  · by_cases same : other = key
    · subst same
      rw [unchanged bytes present]
      exact update_self other _ store.scales
    · exact (update_of_ne same _ _).trans present
  · by_cases same : other = key
    · subst same
      exact ⟨manifest, update_self other _ store.manifests⟩
    · exact ⟨before, (update_of_ne same _ _).trans present⟩

variable (store key) in
theorem Store.packageHash_certification (package : CertifiedSummaryPackage)
    (manifest : PackageManifest) :
    (store.certification key package manifest).packageHash = package.packageHash := by
  unfold Store.certification
  split
  rfl

variable (codec index store) in
theorem Store.grows_persistPackage (targetDomain : DomainId) (exportIds : List ExportId)
    (package : CertifiedSummaryPackage) :
    store.Grows (store.persistPackage codec targetDomain exportIds package index).1 := by
  unfold Store.persistPackage
  split
  · exact .refl store
  · rename_i manifest prepared
    exact Store.grows_writePackage (Store.preparePackage_eq_ok prepared).2 manifest

theorem ExporterIndex.Sound.persistPackage (sound : index.Sound codec agreed store)
    {targetDomain : DomainId} {exportIds : List ExportId} {package : CertifiedSummaryPackage}
    (persisted : store.persistPackage codec targetDomain exportIds package index =
      (store', .ok index')) :
    index'.Sound codec agreed store' ∧ index.Keeps agreed index' := by
  unfold Store.persistPackage at persisted
  split at persisted
  · cases persisted
  · rename_i manifest prepared
    obtain ⟨summaries, unchanged⟩ := Store.preparePackage_eq_ok prepared
    obtain ⟨written, marked⟩ := Prod.mk.inj persisted
    subst written
    simp only [ExporterIndex.markCertified, bind_eq_ok, okOr_eq_ok] at marked
    obtain ⟨record, found, returned⟩ := marked
    cases returned
    have certified := (sound.grow (Store.grows_writePackage unchanged manifest)).certify found
      ⟨update_self _ _ store.scales, rfl, manifest, update_self _ _ store.manifests⟩
      (store.packageHash_certification ⟨package.header.epochId, targetDomain⟩ package manifest)
      (summaries record found)
    exact ⟨⟨certified.1.domain, certified.1.distinct, certified.1.held, certified.1.submitted⟩,
      certified.2⟩

theorem Store.buildManifest_packageOf (blake2 : Bytes → Hash32)
    (codec : PackageCodec) (store : Store) (header : EpochSummaryHeader)
    (bundle : SummaryCertificationBundle) (items : VerifiedPackageItems) (targetDomain : DomainId)
    (exportIds : List ExportId) (scalePath : String) :
    ∃ manifest, store.buildManifest codec (packageOf blake2 codec header bundle items) targetDomain
      exportIds scalePath =
      .ok manifest := by
  obtain ⟨kinds, decoded⟩ := decodeProofKinds_accepts codec (proofs_unsummarised items)
  simp only [Store.buildManifest, packageOf_inclusionProofs, List.head?_cons,
    List.tail_cons, okOr, ok_bind, decodeSummaryHeaderStorageProof, decodeAs_encode,
    decoded, bind_eq_ok]
  exact ⟨_, _, rfl, rfl⟩

theorem Store.persistPackage_new (blake2 : Bytes → Hash32) (codec : PackageCodec)
    {header : EpochSummaryHeader} (bundle : SummaryCertificationBundle)
    (items : VerifiedPackageItems) {targetDomain : DomainId} (exportIds : List ExportId)
    (found : index.record ⟨header.epochId, targetDomain⟩ = some record)
    (same : record.summaryHash = header.summaryHash)
    (unwritten : store.scales ⟨header.epochId, targetDomain⟩ = none) :
    ∃ manifest, store.persistPackage codec targetDomain exportIds
      (packageOf blake2 codec header bundle items) index =
      (store.writePackage codec ⟨header.epochId, targetDomain⟩
        (packageOf blake2 codec header bundle items) manifest,
        .ok { index.put (record.certify (store.certification ⟨header.epochId, targetDomain⟩
            (packageOf blake2 codec header bundle items) manifest)) with
          latestCertifiedEpoch := some header.epochId
          latestCertifiedTargetDomain := some targetDomain }) := by
  obtain ⟨manifest, built⟩ :=
    store.buildManifest_packageOf blake2 codec header bundle items targetDomain exportIds
    (store.packagePath ⟨header.epochId, targetDomain⟩ ".scale")
  have epoch : (packageOf blake2 codec header bundle items).header = header := rfl
  have prepared : store.preparePackage codec ⟨header.epochId, targetDomain⟩
      (packageOf blake2 codec header bundle items) exportIds index = .ok manifest := by
    simp only [Store.preparePackage, Store.ensureSameSummary, Store.ensureSameBytes, found,
      unwritten, epoch, same, ensure_true, ok_bind, built]
  refine ⟨manifest, ?_⟩
  rw [Store.persistPackage, epoch, prepared]
  simp only [ExporterIndex.markCertified, found, okOr, ok_bind]
  rfl

end Writes

end Ialp.Services.Sync
