import Ialp.Services.Ancestry
import Ialp.Services.ImporterStore

/-!
The importer: `receive_package`, and the processor that works through the packages of the index.
Between two awaits a task runs without interruption, so that the steps of the system are the
stretches of code from one await to the next. What the node answers, and what the parts of the
certificate check that live outside of the importer answer, are inputs.
-/

namespace Ialp.Services

open Scale Function

section Ingest

variable (blake2 : Bytes → Hash32) (codec : PackageCodec)

structure ImporterIngestReceipt where
  accepted : Bool
  idempotent : Bool
  status : PackageRecord

def openEnvelope (domain : DomainId) (body : Bytes) :
    Except String (RelayPackageEnvelopeV1 × CertifiedSummaryPackage × PackageIngestView) := do
  let envelope ← decodeAs codec.envelope "failed to decode relay package envelope: " body
  let package ← decodeAs codec.package "failed to decode certified summary package: "
      envelope.packageBytes
  verifyPackageHash blake2 codec package
  let packageView ← inspectPackageForIngest codec package domain
  ensure (envelope.sourceDomain = packageView.sourceDomain ∧ envelope.targetDomain =
    packageView.targetDomain ∧
      envelope.epochId = packageView.epochId ∧ envelope.summaryHash = package.header.summaryHash ∧
      envelope.packageHash = package.packageHash ∧ envelope.exportCount = packageView.exportCount)
    "relay envelope metadata does not match certified package contents"
  return (envelope, package, packageView)

def PackageIngestView.identity (packageView : PackageIngestView) (packageHash : Hash32) :
    PackageIdentity where
  sourceDomain := packageView.sourceDomain
  targetDomain := packageView.targetDomain
  epochId := packageView.epochId
  packageHash

def ensurePackageRecord (identity : PackageIdentity) (summaryHash : Hash32)
    (exportCount : UInt32) (now : UInt64) (payloadBytes : Bytes)
    (index : ImporterIndex) (store : Store) :
    Except String (PackageRecord × ImporterIndex × Store) := do
  let record :=
    (index.package identity).getD (Store.buildPackageRecord identity summaryHash exportCount now)
  let (index, store) ← store.persistPackage record (some payloadBytes) index
  return (record, index, store)

def receivePackage (body : Bytes) (now : UInt64) (index : ImporterIndex) (store : Store) :
    Except String (ImporterIngestReceipt × ImporterIndex × Store) := do
  let (envelope, package, packageView) ← openEnvelope blake2 codec store.domainId body
  let (record, index, store) ← ensurePackageRecord (packageView.identity package.packageHash)
    package.header.summaryHash packageView.exportCount now envelope.packageBytes index store
  let store ← store.saveIndex index
  return ({ accepted := true, idempotent := record.receivedAtUnixMs ≠ now, status := record },
    index, store)

end Ingest

section Stages

inductive ProcessPackageError where
  | retryable (message : String)
  | invalid (message : String)

def ProcessPackageError.state : ProcessPackageError → ImporterPackageState
  | retryable _ => .submissionRetrying
  | invalid _ => .ackedInvalid

def ProcessPackageError.message : ProcessPackageError → String
  | retryable message => message
  | invalid message => message

structure ProcessPackageOutcome where
  finalState : ImporterPackageState
  txHashes : List String
  reason : String

/-- What the node's answers about one proof come to: an error, an effect that is on the chain
already, or one that was submitted and recorded, with the hashes of the transactions. -/
inductive Answer where
  | failed (error : ProcessPackageError)
  | known
  | recorded (txHashes : List String) (last : String)

inductive Direction where
  | forward
  | settlement
  deriving DecidableEq

structure TransferItem where
  exportId : ExportId
  sourceDomain : DomainId
  targetDomain : DomainId
  sourceEpochId : EpochId
  recipient : AccountIdBytes
  amount : U128

structure StageCounts where
  txHashes : List String
  duplicateLocal : Nat
  duplicateRemote : Nat
  finalized : Nat

instance : Inhabited StageCounts := ⟨⟨[], 0, 0, 0⟩⟩

/-- One of the loops over a package's proofs, at the proof whose answers it awaits. The loops over
transfers work on an index of their own. -/
inductive Stage where
  | transfers (direction : Direction) (index : ImporterIndex) (items : List TransferItem)
      (counts : StageCounts)
  | governance (proofs : List GovernanceInclusionProof) (counts : StageCounts)

def importRecord (package : CertifiedSummaryPackage) (item : TransferItem)
    (duplicateStatus : DuplicateStatus) (submissionStatus : SubmissionStatus)
    (txHash : Option String) (reason : String) : ImportRecord where
  exportId := item.exportId
  sourceDomain := item.sourceDomain
  targetDomain := item.targetDomain
  summaryHash := package.header.summaryHash
  packageHash := package.packageHash
  verificationStatus := .verified
  duplicateStatus
  submissionStatus
  txHash
  reason := some reason

def knownRecord (package : CertifiedSummaryPackage) (item : TransferItem) : Direction → ImportRecord
  | .forward => importRecord package item .duplicateRemote .remoteFinalized none
      "export_id already remote_finalized on destination chain"
  | .settlement => importRecord package item .duplicateRemote .sourceResolved none
      "source export already remote_finalized"

def finalizedRecord (package : CertifiedSummaryPackage) (item : TransferItem) (txHash : String) :
    Direction → ImportRecord
  | .forward =>
      importRecord package item .notDuplicate .remoteFinalized (some txHash)
        "remote_finalized recorded"
  | .settlement => importRecord package item .notDuplicate .sourceResolved (some txHash)
      "source hold resolved from certified remote_finalized proof"

def skipLocal (index : ImporterIndex) :
    List TransferItem → StageCounts → List TransferItem × StageCounts
  | [], counts => ([], counts)
  | item :: rest, counts =>
      if (index.record item.exportId).isSome then
        skipLocal index rest { counts with duplicateLocal := counts.duplicateLocal + 1 }
      else (item :: rest, counts)

def Stage.transfersAt (direction : Direction) (index : ImporterIndex) (items : List TransferItem)
    (counts : StageCounts) : Stage :=
  let (items, counts) := skipLocal index items counts
  .transfers direction index items counts

def exportItem (proof : ExportInclusionProof) : TransferItem where
  exportId := proof.leaf.exportId
  sourceDomain := proof.leaf.sourceDomain
  targetDomain := proof.leaf.targetDomain
  sourceEpochId := proof.leaf.sourceEpochId
  recipient := proof.leaf.recipient
  amount := proof.leaf.amount

def completionItem (proof : FinalizedImportInclusionProof) : TransferItem where
  exportId := proof.leaf.exportId
  sourceDomain := proof.leaf.sourceDomain
  targetDomain := proof.leaf.targetDomain
  sourceEpochId := proof.leaf.sourceEpochId
  recipient := proof.leaf.recipient
  amount := proof.leaf.amount

inductive StageKind where
  | forward
  | settlement
  | governance

def stageKinds (items : VerifiedPackageItems) : List StageKind :=
  (if items.exportProofs = [] then [] else [.forward]) ++
    (if items.finalizedImportProofs = [] then [] else [.settlement]) ++
    (if items.governanceProofs = [] then [] else [.governance])

def openStage (items : VerifiedPackageItems) (store : Store) : StageKind → Except String Stage
  | .forward => do
      let index ← store.loadIndex
      return .transfersAt .forward index (items.exportProofs.map exportItem) default
  | .settlement => do
      let index ← store.loadIndex
      return .transfersAt .settlement index (items.finalizedImportProofs.map completionItem) default
  | .governance => .ok (.governance items.governanceProofs default)

def Stage.isDone : Stage → Bool
  | transfers _ _ items _ => items.isEmpty
  | governance proofs _ => proofs.isEmpty

def Stage.answer (package : CertifiedSummaryPackage) (store : Store) : Stage → Answer →
    Except ProcessPackageError (Stage × Store)
  | _, .failed error => .error error
  | .transfers direction index (item :: rest) counts, .known =>
      let (index, store) := store.persistRecord (knownRecord package item direction) index
      let counts := match direction with
        | .forward => { counts with duplicateRemote := counts.duplicateRemote + 1 }
        | .settlement => counts
      .ok (.transfersAt direction index rest counts, store)
  | .transfers direction index (item :: rest) counts, .recorded txHashes last =>
      let (index, store) := store.persistRecord (finalizedRecord package item last direction) index
      .ok (.transfersAt direction index rest { counts with
        txHashes := counts.txHashes ++ txHashes ++ [last]
        finalized := counts.finalized + 1 }, store)
  | .governance (_ :: rest) counts, .known =>
      .ok (.governance rest { counts with duplicateRemote := counts.duplicateRemote + 1 }, store)
  | .governance (_ :: rest) counts, .recorded txHashes last =>
      .ok (.governance rest { counts with
        txHashes := counts.txHashes ++ txHashes ++ [last]
        finalized := counts.finalized + 1 }, store)
  | stage, _ => .ok (stage, store)

def forwardOutcome (counts : StageCounts) : ProcessPackageOutcome :=
  if 0 < counts.finalized then
    ⟨.ackedVerified, counts.txHashes,
      "package verified and remote_finalized recorded or already known"⟩
  else if 0 < counts.duplicateLocal ∧ counts.duplicateRemote = 0 then
    ⟨.ackedDuplicateLocal, counts.txHashes, "all exports already processed locally"⟩
  else if 0 < counts.duplicateRemote ∧ counts.duplicateLocal = 0 then
    ⟨.ackedDuplicateRemote, counts.txHashes,
      "all exports already remote_finalized on destination chain"⟩
  else ⟨.ackedVerified, counts.txHashes,
    "package verified and remote_finalized recorded or already known"⟩

def settlementOutcome (counts : StageCounts) : ProcessPackageOutcome :=
  if 0 < counts.finalized then
    ⟨.ackedVerified, counts.txHashes, "completion package verified and source holds resolved"⟩
  else if 0 < counts.duplicateLocal then
    ⟨.ackedDuplicateLocal, counts.txHashes, "all completion proofs already processed locally"⟩
  else ⟨.ackedDuplicateRemote, counts.txHashes, "all source exports were already remote_finalized"⟩

def governanceOutcome (counts : StageCounts) : ProcessPackageOutcome :=
  if 0 < counts.finalized then
    ⟨.ackedVerified, counts.txHashes,
      "governance proofs verified and imported on destination chain"⟩
  else ⟨.ackedDuplicateRemote, counts.txHashes,
    "all governance proofs were already known on destination chain (" ++
    toString counts.duplicateRemote ++ ")"⟩

def Stage.close (store : Store) : Stage → Except String (ProcessPackageOutcome × Store)
  | transfers direction index _ counts => do
      let store ← store.saveIndex index
      match direction with
      | .forward => return (forwardOutcome counts, store)
      | .settlement => return (settlementOutcome counts, store)
  | governance _ counts => .ok (governanceOutcome counts, store)

def combineOutcomes (outcomes : List ProcessPackageOutcome) :
    Except ProcessPackageError ProcessPackageOutcome :=
  if outcomes = [] then .error (.invalid "package does not contain any actionable proofs")
  else
    let duplicate (state : ImporterPackageState) : Bool :=
      state = .ackedDuplicateLocal || state = .ackedDuplicateRemote
    let anyVerified := outcomes.any fun outcome => !duplicate outcome.finalState
    let allDuplicateLocal := outcomes.all fun outcome => outcome.finalState = .ackedDuplicateLocal
    let allDuplicateRemote := outcomes.all fun outcome => outcome.finalState = .ackedDuplicateRemote
    .ok {
      finalState :=
        if anyVerified then .ackedVerified
        else if allDuplicateLocal then .ackedDuplicateLocal
        else if allDuplicateRemote then .ackedDuplicateRemote
        else .ackedVerified
      txHashes := outcomes.flatMap (·.txHashes)
      reason := String.intercalate "; " (outcomes.map (·.reason)) }

end Stages

section Processor

variable (blake2 : Bytes → Hash32) (codec : PackageCodec)
  (certified : CertifiedSummaryPackage → Except Halt Unit)

/-- A package in process: its record as it was marked `Verifying`, the index loaded then, and the
packages still to come. -/
structure Job where
  record : PackageRecord
  index : ImporterIndex
  package : CertifiedSummaryPackage
  items : VerifiedPackageItems
  queue : List PackageIdentity

/-- Where the processor is. Between two rounds it is ready with an empty queue. A panic ends its
task, while the service goes on to receive packages. -/
inductive Processor where
  | ready (queue : List PackageIdentity)
  | stopped
  | contacting (job : Job)
  | importing (job : Job) (stage : Stage) (outcomes : List ProcessPackageOutcome)
      (later : List StageKind)
  | refreshing (queue : List PackageIdentity) (refreshed : ImporterIndex)

/-- What asking for the node, its importer accounts, its runtime version and its genesis hash comes
to. An error of some of these requests ends the round. -/
inductive Contact where
  | lost
  | failed (error : ProcessPackageError)
  | made

def finalizePackageError (record : PackageRecord) (error : ProcessPackageError)
    (now : UInt64) (store : Store) : Except String Store := do
  let index ← store.loadIndex
  let record := { record with
    state := error.state
    reason := some error.message
    lastUpdatedAtUnixMs := now
    completedAtUnixMs := if error.state.isTerminal then some now else record.completedAtUnixMs }
  let (index, store) := store.persistPackageRecord record index
  store.saveIndex index

/-- After a package: the index is read again, to be installed under the lock. -/
def refresh (queue : List PackageIdentity) (store : Store) : Processor × Store :=
  match store.loadIndex with
  | .ok refreshed => (.refreshing queue refreshed, store)
  | .error _ => (.ready [], store)

def rejectPackage (record : PackageRecord) (queue : List PackageIdentity)
    (error : ProcessPackageError) (now : UInt64) (store : Store) : Processor × Store :=
  match finalizePackageError record error now store with
  | .ok store => refresh queue store
  | .error _ => (.ready [], store)

/-- The end of `process_package_by_identity`: the outcome is written into the index loaded at its
start. -/
def finishPackage (job : Job) (outcome : ProcessPackageOutcome) (now : UInt64) (store : Store) :
    Processor × Store :=
  match store.loadPackage job.record.toPackageIdentity with
  | none => (.ready [], store)
  | some refreshed =>
      let record := { refreshed with
        state := outcome.finalState
        txHashes := outcome.txHashes
        completedAtUnixMs := some now
        lastUpdatedAtUnixMs := now
        reason := some outcome.reason }
      let (index, store) := store.persistPackageRecord record job.index
      match store.saveIndex index with
      | .ok store => refresh job.queue store
      | .error _ => (.ready [], store)

def checkPackage (domain : DomainId) (payload : Bytes) :
    Except Halt (CertifiedSummaryPackage × VerifiedPackageItems) := do
  let package ← (decodeAs codec.package "failed to decode stored package bytes: " payload).mapError
      .failed
  (verifyPackageHash blake2 codec package).mapError .failed
  certified package
  let items ← (verifyPackageFlow blake2 codec package domain).mapError .failed
  return (package, items)

/-- The start of `process_package_by_identity`, up to its first await. -/
def beginPackage (identity : PackageIdentity) (queue : List PackageIdentity)
    (now : UInt64) (store : Store) : Processor × Store :=
  match store.loadIndex with
  | .error _ => (.ready [], store)
  | .ok index =>
      match index.package identity with
      | none => (.ready [], store)
      | some found =>
          if found.state.isTerminal then refresh queue store
          else
            let record :=
              { found with state := .verifying, lastUpdatedAtUnixMs := now, reason := none }
            let (index, store) := store.persistPackageRecord record index
            match store.saveIndex index with
            | .error _ => (.ready [], store)
            | .ok store =>
                match store.loadPackageBytes record with
                | .error _ => (.ready [], store)
                | .ok payload =>
                    match checkPackage blake2 codec certified store.domainId payload with
                    | .error (.failed message) =>
                        rejectPackage record queue (.invalid message) now store
                    | .error .overflow => (.stopped, store)
                    | .ok (package, items) =>
                        (.contacting { record, index, package, items, queue }, store)

def settleStage (job : Job) (outcomes : List ProcessPackageOutcome)
    (later : List StageKind) (now : UInt64)
    (next : List ProcessPackageOutcome → Store → Processor × Store)
    (stage : Stage) (store : Store) : Processor × Store :=
  if stage.isDone then
    match stage.close store with
    | .error message => rejectPackage job.record job.queue (.retryable message) now store
    | .ok (outcome, store) => next (outcomes ++ [outcome]) store
  else (.importing job stage outcomes later, store)

def runStages (job : Job) (now : UInt64) : List StageKind → List ProcessPackageOutcome →
    Store → Processor × Store
  | [], outcomes, store =>
      match combineOutcomes outcomes with
      | .error error => rejectPackage job.record job.queue error now store
      | .ok outcome => finishPackage job outcome now store
  | kind :: later, outcomes, store =>
      match openStage job.items store kind with
      | .error message => rejectPackage job.record job.queue (.retryable message) now store
      | .ok stage => settleStage job outcomes later now (runStages job now later) stage store

def resumeContact (job : Job) (now : UInt64) (store : Store) : Contact → Processor × Store
  | .lost => (.ready [], store)
  | .failed error => rejectPackage job.record job.queue error now store
  | .made => runStages job now (stageKinds job.items) [] store

def resumeStage (job : Job) (stage : Stage) (outcomes : List ProcessPackageOutcome)
    (later : List StageKind) (answer : Answer) (now : UInt64) (store : Store) : Processor × Store :=
  match stage.answer job.package store answer with
  | .error error => rejectPackage job.record job.queue error now store
  | .ok (stage, store) => settleStage job outcomes later now (runStages job now later) stage store

end Processor

end Ialp.Services
