import Ialp.Lib.Keyed
import Ialp.Services.Acceptance

/-!
The importer's store: the index of packages and imports, kept in memory and in `index.json`, and the
files next to it. A hash stands for the hexadecimal text the records hold, and a package identity
for the file names made of it. Reading a file that is there and writing a file succeed.
-/

namespace Ialp.Services

open Scale Function

inductive ImporterPackageState where
  | received
  | verifying
  | submissionRetrying
  | ackedVerified
  | ackedDuplicateLocal
  | ackedDuplicateRemote
  | ackedInvalid
  deriving DecidableEq, Repr

def ImporterPackageState.isTerminal : ImporterPackageState → Bool
  | ackedVerified | ackedDuplicateLocal | ackedDuplicateRemote | ackedInvalid => true
  | received | verifying | submissionRetrying => false

inductive VerificationStatus where
  | verified
  | invalid
  deriving DecidableEq, Repr

inductive DuplicateStatus where
  | notDuplicate
  | duplicateLocal
  | duplicateRemote
  deriving DecidableEq, Repr

inductive SubmissionStatus where
  | remoteObserved
  | remoteFinalized
  | sourceResolved
  | skippedDuplicate
  | rejected
  deriving DecidableEq, Repr

structure ImportRecord where
  exportId : ExportId
  sourceDomain : DomainId
  targetDomain : DomainId
  summaryHash : Hash32
  packageHash : Hash32
  verificationStatus : VerificationStatus
  duplicateStatus : DuplicateStatus
  submissionStatus : SubmissionStatus
  txHash : Option String
  reason : Option String
  deriving DecidableEq

structure PackageIdentity where
  sourceDomain : DomainId
  targetDomain : DomainId
  epochId : EpochId
  packageHash : Hash32
  deriving DecidableEq

structure PackageRecord extends PackageIdentity where
  summaryHash : Hash32
  state : ImporterPackageState
  reason : Option String
  exportCount : UInt32
  receivedAtUnixMs : UInt64
  lastUpdatedAtUnixMs : UInt64
  completedAtUnixMs : Option UInt64
  txHashes : List String
  deriving DecidableEq

structure ImporterIndex where
  domainId : DomainId
  imports : List ImportRecord
  packages : List PackageRecord
  deriving DecidableEq

namespace ImporterIndex

def create (domainId : DomainId) : ImporterIndex where
  domainId := domainId
  imports := []
  packages := []

def record (index : ImporterIndex) (exportId : ExportId) : Option ImportRecord :=
  Keyed.lookup ImportRecord.exportId exportId index.imports

def package (index : ImporterIndex) (identity : PackageIdentity) : Option PackageRecord :=
  Keyed.lookup PackageRecord.toPackageIdentity identity index.packages

def upsert (record : ImportRecord) (index : ImporterIndex) : ImporterIndex :=
  { index with imports := Keyed.upsert ImportRecord.exportId record index.imports }

def upsertPackage (record : PackageRecord) (index : ImporterIndex) : ImporterIndex :=
  { index with packages := Keyed.upsert PackageRecord.toPackageIdentity record index.packages }

end ImporterIndex

/-- The contents of `index.json`, by schema version. -/
inductive IndexFile where
  | v2 (index : ImporterIndex)
  | v1 (domainId : DomainId) (imports : List ImportRecord)
  | other (schemaVersion : UInt16)

structure Store where
  domainId : DomainId
  indexFile : Option IndexFile
  records : ExportId → Option ImportRecord
  packages : PackageIdentity → Option PackageRecord
  payloads : PackageIdentity → Option Bytes

namespace Store

def readIndex (_ : Store) : IndexFile → Except String ImporterIndex
  | .v2 index => .ok index
  | .v1 domainId imports => .ok { ImporterIndex.create domainId with imports }
  | .other schemaVersion => .error ("unsupported importer index schema version " ++
      toString schemaVersion.toNat ++ "; expected 1 or 2")

def resetVerifying (package : PackageRecord) : PackageRecord :=
  if package.state = .verifying then { package with state := .received } else package

def loadIndex (store : Store) : Except String ImporterIndex :=
  match store.indexFile with
  | none => .ok (.create store.domainId)
  | some file => do
      let index ← store.readIndex file
      ensure (index.domainId = store.domainId) ("importer index domain " ++ index.domainId.asStr ++
        " does not match requested domain " ++ store.domainId.asStr)
      return { index with packages := index.packages.map resetVerifying }

def saveIndex (index : ImporterIndex) (store : Store) : Except String Store := do
  ensure (index.domainId = store.domainId) ("importer index domain " ++ index.domainId.asStr ++
    " does not match store domain " ++ store.domainId.asStr)
  return { store with indexFile := some (.v2 index) }

def persistRecord (record : ImportRecord) (index : ImporterIndex) (store : Store) :
    ImporterIndex × Store :=
  (index.upsert record,
    { store with records := update store.records record.exportId (some record) })

def persistPayload (identity : PackageIdentity) (bytes : Bytes) (store : Store) :
    Except String Store :=
  match store.payloads identity with
  | some current => do
      ensure (current = bytes)
        "importer package identity already exists with different payload bytes"
      return store
  | none => .ok { store with payloads := update store.payloads identity (some bytes) }

def persistPackageRecord (record : PackageRecord) (index : ImporterIndex) (store : Store) :
    ImporterIndex × Store :=
  (index.upsertPackage record,
    { store with packages := update store.packages record.toPackageIdentity (some record) })

def persistPackage (record : PackageRecord) (payloadBytes : Option Bytes)
    (index : ImporterIndex) (store : Store) : Except String (ImporterIndex × Store) := do
  let store ← match payloadBytes with
    | some bytes => store.persistPayload record.toPackageIdentity bytes
    | none => .ok store
  return store.persistPackageRecord record index

def loadPackage (identity : PackageIdentity) (store : Store) : Option PackageRecord :=
  store.packages identity

def loadPackageBytes (record : PackageRecord) (store : Store) : Except String Bytes :=
  okOr (store.payloads record.toPackageIdentity) "failed to read package payload"

def buildPackageRecord (identity : PackageIdentity) (summaryHash : Hash32) (exportCount : UInt32)
    (receivedAtUnixMs : UInt64) : PackageRecord where
  toPackageIdentity := identity
  summaryHash
  state := .received
  reason := none
  exportCount
  receivedAtUnixMs
  lastUpdatedAtUnixMs := receivedAtUnixMs
  completedAtUnixMs := none
  txHashes := []

end Store

section Standing

/-- Whether an index has a package, and whether it is done with it. -/
def ImporterIndex.standing (index : ImporterIndex) (identity : PackageIdentity) : Option Bool :=
  (index.package identity).map (·.state.isTerminal)

namespace ImporterIndex

@[simp] theorem standing_upsert (record : ImportRecord) (index : ImporterIndex) :
    (index.upsert record).standing = index.standing := rfl

theorem package_upsertPackage (record : PackageRecord) (index : ImporterIndex)
    (identity : PackageIdentity) : (index.upsertPackage record).package identity =
      if record.toPackageIdentity = identity then some record else index.package identity :=
  Keyed.lookup_upsert _ _ _ _

@[simp] theorem standing_upsertPackage (record : PackageRecord) (index : ImporterIndex) :
    (index.upsertPackage record).standing =
      update index.standing record.toPackageIdentity (some record.state.isTerminal) := by
  funext identity
  rw [standing, package_upsertPackage]
  by_cases same : record.toPackageIdentity = identity
  · subst same
    simp
  · simp [same, Ne.symm same, standing]

end ImporterIndex

namespace Store

@[simp] theorem isTerminal_resetVerifying (record : PackageRecord) :
    (resetVerifying record).state.isTerminal = record.state.isTerminal := by
  unfold resetVerifying
  split
  · rename_i verifying
    rw [verifying]
    rfl
  · rfl

theorem identity_resetVerifying (record : PackageRecord) :
    (resetVerifying record).toPackageIdentity = record.toPackageIdentity := by
  unfold resetVerifying
  split <;> rfl

@[simp] theorem standing_map_reset (index : ImporterIndex) :
    ({ index with packages := index.packages.map resetVerifying } : ImporterIndex).standing =
      index.standing := by
  funext identity
  simp only [ImporterIndex.standing, ImporterIndex.package,
    Keyed.lookup_map resetVerifying identity_resetVerifying, Option.map_map, comp_def,
    isTerminal_resetVerifying]

theorem domainId_of_load {store : Store} {index : ImporterIndex}
    (loaded : store.loadIndex = .ok index) : index.domainId = store.domainId := by
  unfold loadIndex at loaded
  split at loaded
  · cases loaded
    rfl
  · simp only [bind_eq_ok, ensure_eq_ok] at loaded
    obtain ⟨read, _, _, same, returned⟩ := loaded
    cases returned
    exact same

end Store

end Standing

end Ialp.Services
