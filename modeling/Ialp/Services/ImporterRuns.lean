import Ialp.Lib.Transition
import Ialp.Services.Importer
import Ialp.Services.RelayStore

/-!
The runs of the importer: packages are received while the processor works through the index between
its awaits. What `receive_package` writes, and a rule for what holds at the next await of the loops
over a package's proofs.
-/

namespace Ialp.Services

open Scale Function

section Machine

variable (blake2 : Bytes → Hash32) (codec : PackageCodec)
  (certified : CertifiedSummaryPackage → Except Halt Unit)

/-- The index in memory, the files, and where the processor is. `accepted` is a record of the
packages that `receive_package` has accepted. -/
structure Importer where
  memory : ImporterIndex
  store : Store
  processor : Processor
  accepted : List PackageIdentity

/-- The stretches of code from one await to the next. -/
inductive ImporterEvent where
  | receive (body : Bytes) (now : UInt64)
  | tick
  | start (now : UInt64)
  | contact (contact : Contact) (now : UInt64)
  | answer (answer : Answer) (now : UInt64)
  | install
  | restart

namespace Importer

def receive (body : Bytes) (now : UInt64) (importer : Importer) : Importer :=
  match receivePackage blake2 codec body now importer.memory importer.store with
  | .error _ => importer
  | .ok (receipt, memory, store) =>
      { importer with
        memory, store
        accepted := importer.accepted ++ [receipt.status.toPackageIdentity] }

def pendingPackages (index : ImporterIndex) : List PackageIdentity :=
  (index.packages.filter fun record => !record.state.isTerminal).map PackageRecord.toPackageIdentity

def proceed (result : Processor × Store) (importer : Importer) : Importer :=
  { importer with processor := result.1, store := result.2 }

/-- An action that the processor is not ready for leaves the importer as it is. -/
def apply (event : ImporterEvent) (importer : Importer) : Importer :=
  match event, importer.processor with
  | .receive body now, _ => importer.receive blake2 codec body now
  | .tick, .ready [] => { importer with processor := .ready (pendingPackages importer.memory) }
  | .start now, .ready (identity :: queue) =>
      importer.proceed (beginPackage blake2 codec certified identity queue now importer.store)
  | .contact contact now, .contacting job =>
      importer.proceed (resumeContact job now importer.store contact)
  | .answer answer now, .importing job stage outcomes later =>
      importer.proceed (resumeStage job stage outcomes later answer now importer.store)
  | .install, .refreshing queue refreshed =>
      { importer with memory := refreshed, processor := .ready queue }
  | .restart, _ =>
      match importer.store.loadIndex with
      | .error _ => importer
      | .ok index => { importer with memory := index, processor := .ready [] }
  | _, _ => importer

def initial (domain : DomainId) : Importer where
  memory := .create domain
  store := {
    domainId := domain
    indexFile := none
    records := fun _ => none
    packages := fun _ => none
    payloads := fun _ => none }
  processor := .ready []
  accepted := []

def system (domain : DomainId) (admits : Importer → ImporterEvent → Prop) :
    Transition.System Importer where
  initial importer := importer = initial domain
  step importer importer' :=
    ∃ event, admits importer event ∧ importer' = importer.apply blake2 codec certified event

end Importer

end Machine

section Files

namespace Store

variable {store : Store} {index : ImporterIndex}

theorem saveIndex_ok (same : index.domainId = store.domainId) :
    store.saveIndex index = .ok { store with indexFile := some (.v2 index) } := by
  simp [saveIndex, ensure, same]

theorem saveIndex_eq_ok {store' : Store} (saved : store.saveIndex index = .ok store') :
    store' = { store with indexFile := some (.v2 index) } := by
  simp only [saveIndex, bind_eq_ok, ensure_eq_ok] at saved
  obtain ⟨_, _, returned⟩ := saved
  cases returned
  rfl

def filed (record : PackageRecord) (index : ImporterIndex) (store : Store) : Store :=
  { (store.persistPackageRecord record index).2 with
    indexFile := some (.v2 (index.upsertPackage record)) }

theorem saveIndex_filed (record : PackageRecord) (same : index.domainId = store.domainId) :
    (store.persistPackageRecord record index).2.saveIndex
      (store.persistPackageRecord record index).1 =
      .ok (store.filed record index) :=
  saveIndex_ok same

end Store

end Files

section Stages

variable {items : VerifiedPackageItems} {package : CertifiedSummaryPackage} {store store' : Store}

def Stage.kind : Stage → StageKind
  | transfers .forward _ _ _ => .forward
  | transfers .settlement _ _ _ => .settlement
  | governance _ _ => .governance

def VerifiedPackageItems.transferItems (items : VerifiedPackageItems) :
    Direction → List TransferItem
  | .forward => items.exportProofs.map exportItem
  | .settlement => items.finalizedImportProofs.map completionItem

inductive Opened (items : VerifiedPackageItems) (store : Store) : StageKind → Stage → Prop where
  | transfers (direction : Direction) {index : ImporterIndex}
      (loaded : store.loadIndex = .ok index) :
      Opened items store (Stage.transfersAt direction index
        (items.transferItems direction) default).kind
        (.transfersAt direction index (items.transferItems direction) default)
  | governance : Opened items store .governance (.governance items.governanceProofs default)

theorem opened_of_ok {kind : StageKind} {stage : Stage}
    (opened : openStage items store kind = .ok stage) : Opened items store kind stage := by
  cases kind with
  | forward =>
      simp only [openStage, bind_eq_ok] at opened
      obtain ⟨index, loaded, returned⟩ := opened
      cases returned
      exact .transfers .forward loaded
  | settlement =>
      simp only [openStage, bind_eq_ok] at opened
      obtain ⟨index, loaded, returned⟩ := opened
      cases returned
      exact .transfers .settlement loaded
  | governance =>
      cases opened
      exact .governance

theorem Stage.close_eq_ok {stage : Stage} {outcome : ProcessPackageOutcome}
    (closed : stage.close store = .ok (outcome, store')) :
    store' = store ∨ ∃ direction index rest counts, stage = .transfers direction index rest counts ∧
      store' = { store with indexFile := some (.v2 index) } := by
  cases stage with
  | transfers direction index rest counts =>
      simp only [Stage.close, bind_eq_ok] at closed
      obtain ⟨saved, save, returned⟩ := closed
      have written := Store.saveIndex_eq_ok save
      cases direction with
      | forward =>
          cases returned
          exact .inr ⟨_, index, rest, counts, rfl, written⟩
      | settlement =>
          cases returned
          exact .inr ⟨_, index, rest, counts, rfl, written⟩
  | governance rest counts =>
      cases closed
      exact .inl rfl

theorem exportId_knownRecord (package : CertifiedSummaryPackage) (item : TransferItem)
    (direction : Direction) : (knownRecord package item direction).exportId = item.exportId := by
  cases direction <;> rfl

theorem exportId_finalizedRecord (package : CertifiedSummaryPackage)
    (item : TransferItem) (txHash : String) (direction : Direction) :
    (finalizedRecord package item txHash direction).exportId = item.exportId := by
  cases direction <;> rfl

inductive Answered (store : Store) : Stage → Stage → Store → Prop where
  | recorded {direction : Direction} {index : ImporterIndex} {item : TransferItem}
      {rest : List TransferItem} {counts : StageCounts} (record : ImportRecord)
      (same : record.exportId = item.exportId) (counts' : StageCounts) :
      Answered store (.transfers direction index (item :: rest) counts)
        (.transfersAt direction (index.upsert record) rest counts')
        { store with records := update store.records record.exportId (some record) }
  | imported {proof : GovernanceInclusionProof} {rest : List GovernanceInclusionProof}
      {counts : StageCounts} (counts' : StageCounts) :
      Answered store (.governance (proof :: rest) counts) (.governance rest counts') store
  | ended {stage : Stage} : Answered store stage stage store

theorem answered_of_ok {stage stage' : Stage} {answer : Answer}
    (answered : stage.answer package store answer = .ok (stage', store')) :
    (∀ error, answer ≠ .failed error) ∧ Answered store stage stage' store' := by
  unfold Stage.answer at answered
  split at answered
  · cases answered
  · cases answered
    exact ⟨fun _ => by simp, .recorded _ (exportId_knownRecord _ _ _) _⟩
  · cases answered
    exact ⟨fun _ => by simp, .recorded _ (exportId_finalizedRecord _ _ _ _) _⟩
  · cases answered
    exact ⟨fun _ => by simp, .imported _⟩
  · cases answered
    exact ⟨fun _ => by simp, .imported _⟩
  · rename_i unfailed _ _ _ _
    cases answered
    exact ⟨unfailed, .ended⟩

end Stages

section Loops

variable {job : Job} {now : UInt64} {Result : Processor × Store → Prop}
  {Before : List StageKind → Store → Prop} {Within : Stage → List StageKind → Store → Prop}

/-- What has to be shown for what holds at the next await of `process_package_items`: `Before` holds
between two loops and `Within` between two iterations of one, with the loops still to come. -/
structure LoopRule (job : Job) (now : UInt64) (Result : Processor × Store → Prop)
    (Before : List StageKind → Store → Prop) (Within : Stage → List StageKind → Store → Prop) :
    Prop where
  opens : ∀ {kind later store stage}, Before (kind :: later) store →
    openStage job.items store kind = .ok stage →
    Within stage later store
  closes : ∀ {stage later store outcome store'}, Within stage later store → stage.isDone = true →
    stage.close store = .ok (outcome, store') → Before later store'
  waits : ∀ {stage later store} outcomes, Within stage later store → stage.isDone = false →
    Result (.importing job stage outcomes later, store)
  unopened : ∀ {store} kinds error, Before kinds store →
    Result (rejectPackage job.record job.queue error now store)
  unclosed : ∀ {stage store} later error, Within stage later store →
    Result (rejectPackage job.record job.queue error now store)
  finishes : ∀ {store} outcome, Before [] store → Result (finishPackage job outcome now store)

theorem LoopRule.settle (rule : LoopRule job now Result Before Within) {later : List StageKind}
    {next : List ProcessPackageOutcome → Store → Processor × Store}
    (goesOn : ∀ outcomes store, Before later store → Result (next outcomes store))
    {stage : Stage} {store : Store} (within : Within stage later store)
    (outcomes : List ProcessPackageOutcome) :
    Result (settleStage job outcomes later now next stage store) := by
  unfold settleStage
  cases done : stage.isDone with
  | false => exact rule.waits outcomes within done
  | true =>
      simp only [if_true]
      cases closed : stage.close store with
      | error message => exact rule.unclosed later _ within
      | ok closing => exact goesOn _ _ (rule.closes within done closed)

theorem LoopRule.run (rule : LoopRule job now Result Before Within) (kinds : List StageKind) :
    ∀ outcomes store, Before kinds store → Result (runStages job now kinds outcomes store) := by
  induction kinds with
  | nil =>
      intro outcomes store before
      unfold runStages
      cases combineOutcomes outcomes with
      | error error => exact rule.unopened [] error before
      | ok outcome => exact rule.finishes outcome before
  | cons kind later ih =>
      intro outcomes store before
      unfold runStages
      cases opened : openStage job.items store kind with
      | error message => exact rule.unopened (kind :: later) _ before
      | ok stage => exact rule.settle ih (rule.opens before opened) outcomes

end Loops

section Ingest

variable {blake2 : Bytes → Hash32} {codec : PackageCodec} {σ : PackageIdentity → Option Bool}
  {store : Store} {memory : ImporterIndex} {body : Bytes} {now : UInt64}

theorem Store.persistPayload_eq_ok {identity : PackageIdentity} {bytes : Bytes} {written : Store}
    (persisted : store.persistPayload identity bytes = .ok written) :
    (∀ current, store.payloads identity = some current → current = bytes) ∧
      written = { store with payloads := update store.payloads identity (some bytes) } := by
  unfold persistPayload at persisted
  split at persisted
  · rename_i current present
    simp only [bind_eq_ok, ensure_eq_ok] at persisted
    obtain ⟨_, same, returned⟩ := persisted
    cases returned
    subst same
    refine ⟨fun other found => Option.some.inj (found.symm.trans present), ?_⟩
    rw [← present, update_eq_self]
  · rename_i absent
    cases persisted
    exact ⟨fun other found => by simp [absent] at found, rfl⟩

/-- What `receive_package` writes: the record of the package, as it is in the index or new, and the
payload. -/
structure Ingested (blake2 : Bytes → Hash32) (codec : PackageCodec) (body : Bytes) (now : UInt64)
    (memory : ImporterIndex) (store : Store) (record : PackageRecord)
    (memory' : ImporterIndex) (store' : Store) : Prop where
  opened : ∃ envelope package packageView,
    openEnvelope blake2 codec store.domainId body = .ok (envelope, package, packageView) ∧
    record = (memory.package (packageView.identity package.packageHash)).getD
      (Store.buildPackageRecord (packageView.identity package.packageHash)
        package.header.summaryHash packageView.exportCount now) ∧
    (∀ current, store.payloads record.toPackageIdentity = some current →
      current = envelope.packageBytes) ∧
    store' = Store.filed record memory { store with
      payloads := update store.payloads record.toPackageIdentity (some envelope.packageBytes) }
  indexed : memory' = memory.upsertPackage record
  domain : memory.domainId = store.domainId

theorem receivePackage_ingested {receipt : ImporterIngestReceipt}
    {memory' : ImporterIndex} {store' : Store}
    (received : receivePackage blake2 codec body now memory store =
      .ok (receipt, memory', store')) :
    Ingested blake2 codec body now memory store receipt.status memory' store' := by
  simp only [receivePackage, ensurePackageRecord, Store.persistPackage, bind_eq_ok] at received
  obtain ⟨⟨envelope, package, packageView⟩, opened, ⟨record, index, filed⟩, ensured, saved, save,
      returned⟩ := received
  obtain ⟨⟨index', filed'⟩, ⟨written, payload, persisted⟩, made⟩ := ensured
  cases persisted
  cases made
  cases returned
  obtain ⟨unchanged, rfl⟩ := Store.persistPayload_eq_ok payload
  simp only [Store.saveIndex, bind_eq_ok, ensure_eq_ok] at save
  obtain ⟨_, same, stored⟩ := save
  cases stored
  exact ⟨⟨envelope, package, packageView, opened, rfl, unchanged, rfl⟩, rfl, same⟩

theorem receivePackage_new {envelope : RelayPackageEnvelopeV1} {package : CertifiedSummaryPackage}
    {packageView : PackageIngestView}
    (opened : openEnvelope blake2 codec store.domainId body = .ok (envelope, package, packageView))
    (unknown : memory.package (packageView.identity package.packageHash) = none)
    (unwritten : store.payloads (packageView.identity package.packageHash) = none)
    (same : memory.domainId = store.domainId) :
    let record := Store.buildPackageRecord (packageView.identity package.packageHash)
      package.header.summaryHash packageView.exportCount now
    receivePackage blake2 codec body now memory store =
      .ok (⟨true, decide (now ≠ now), record⟩, memory.upsertPackage record,
        ({ store with
          payloads := update store.payloads record.toPackageIdentity
            (some envelope.packageBytes) } : Store).filed
          record memory) := by
  intro record
  have persisted : store.persistPayload record.toPackageIdentity envelope.packageBytes =
      .ok { store with
      payloads := update store.payloads record.toPackageIdentity
        (some envelope.packageBytes) } := by
    rw [Store.persistPayload]
    simp only [record, Store.buildPackageRecord, unwritten]
  simp only [receivePackage, opened, ok_bind, ensurePackageRecord, unknown, Option.getD_none,
    Store.persistPackage]
  rw [persisted]
  simp only [ok_bind, pure_bind]
  rw [Store.saveIndex_filed _ (by exact same)]
  rfl

end Ingest

section Start

variable {blake2 : Bytes → Hash32} {codec : PackageCodec}
  {certified : CertifiedSummaryPackage → Except Halt Unit} {store : Store} {index : ImporterIndex}
  {identity : PackageIdentity} {record : PackageRecord} {payload : Bytes}
  {package : CertifiedSummaryPackage} {items : VerifiedPackageItems}

def PackageRecord.verifying (record : PackageRecord) (now : UInt64) : PackageRecord :=
  { record with state := .verifying, lastUpdatedAtUnixMs := now, reason := none }

theorem checkPackage_eq_ok {domain : DomainId} :
    checkPackage blake2 codec certified domain payload = .ok (package, items) ↔
      codec.package.decode payload = .ok package ∧
        package.packageHash = package.computePackageHash blake2 codec ∧
        certified package = .ok () ∧ verifyPackageFlow blake2 codec package domain = .ok items := by
  simp only [checkPackage, verifyPackageHash, bind_eq_ok, mapError_eq_ok,
    decodeAs_eq_ok, ensure_eq_ok]
  constructor
  · rintro ⟨_, decoded, _, hashed, _, accepted, _, flow, ⟨⟩⟩
    exact ⟨decoded, hashed, accepted, flow⟩
  · rintro ⟨decoded, hashed, accepted, flow⟩
    exact ⟨package, decoded, (), hashed, (), accepted, items, flow, rfl⟩

theorem beginPackage_contacting (loaded : store.loadIndex = .ok index)
    (known : index.package identity = some record) (pending : record.state.isTerminal = false)
    (paid : store.payloads record.toPackageIdentity = some payload)
    (checked : checkPackage blake2 codec certified store.domainId payload = .ok (package, items))
    (queue : List PackageIdentity) (now : UInt64) :
    beginPackage blake2 codec certified identity queue now store =
      (.contacting {
        record := record.verifying now, index :=
          index.upsertPackage (record.verifying now), package, items, queue },
        store.filed (record.verifying now) index) := by
  have read : (store.filed (record.verifying now) index).loadPackageBytes (record.verifying now) =
      .ok payload := by
    change okOr (store.payloads record.toPackageIdentity) _ = _
    rw [paid]
    rfl
  have again : checkPackage blake2 codec certified
      (store.filed (record.verifying now) index).domainId payload =
      .ok (package, items) := checked
  have marking : { record with state := .verifying, lastUpdatedAtUnixMs := now, reason := none } =
      record.verifying now := rfl
  simp only [beginPackage, loaded, known, pending, Bool.false_eq_true, if_false, marking]
  rw [Store.saveIndex_filed _ (Store.domainId_of_load loaded)]
  simp only [read, again]
  rfl

end Start

section Sample

def moonHeader (epoch : EpochId) : EpochSummaryHeader :=
  EpochSummaryHeader.fromHashInput blankHash {
    version := 1, domainId := .moon, epochId := epoch, prevSummaryHash :=
      emptyHash, startBlockHeight := 1
    endBlockHeight := 2, stateRoot := emptyHash, blockRoot := emptyHash, txRoot := emptyHash
    eventRoot := emptyHash, exportRoot := emptyHash, importRoot :=
      emptyHash, governanceRoot := emptyHash
    validatorSetHash := emptyHash }

def moonExport (exportId : ExportId) (epoch : EpochId) : ExportInclusionProof where
  version := 1
  leaf := ExportLeaf.fromHashInput blankHash {
    version := 1, exportId, sourceDomain := .moon, targetDomain := .earth, sender := emptyHash
    recipient := emptyHash, amount := 1, sourceEpochId := epoch, sourceBlockHeight :=
      1, extrinsicIndex := 0 }
  leafIndex := 0
  leafCount := 1
  siblings := []

noncomputable def moonPackage (epoch : EpochId) (items : VerifiedPackageItems) :
    CertifiedSummaryPackage :=
  packageOf blankHash sampleCodec (moonHeader epoch) sampleBundle items

noncomputable def moonEnvelope (epoch : EpochId) (items : VerifiedPackageItems) :
    RelayPackageEnvelopeV1 :=
  RelayPackageEnvelopeV1.create .moon .earth epoch emptyHash emptyHash
    (sampleCodec.package.encode (moonPackage epoch items)) (UInt32.ofNat items.proofs.length) 0

noncomputable def moonBody (epoch : EpochId) (items : VerifiedPackageItems) : Bytes :=
  sampleCodec.envelope.encode (moonEnvelope epoch items)

def moonIdentity (epoch : EpochId) : PackageIdentity where
  sourceDomain := .moon
  targetDomain := .earth
  epochId := epoch
  packageHash := emptyHash

def moonRecord (epoch : EpochId) (items : VerifiedPackageItems) (now : UInt64) : PackageRecord :=
  Store.buildPackageRecord (moonIdentity epoch) emptyHash (UInt32.ofNat items.proofs.length) now

noncomputable def withPayload (epoch : EpochId) (items : VerifiedPackageItems) (store : Store) :
    Store :=
  { store with
    payloads := update store.payloads (moonIdentity epoch)
      (some (sampleCodec.package.encode (moonPackage epoch items))) }

section Delivered

variable {epoch : EpochId} {items : VerifiedPackageItems}
  (checked : Checked blankHash (moonPackage epoch items) .earth items)
  (nonempty : items.proofs ≠ [])
include checked nonempty

theorem moonPackage_checked :
    checkPackage blankHash sampleCodec (fun _ => .ok ()) .earth
      (sampleCodec.package.encode (moonPackage epoch items)) =
      .ok (moonPackage epoch items, items) := by
  have flow : verifyPackageFlow blankHash sampleCodec (moonPackage epoch items) .earth =
      .ok items :=
    verifyPackageFlow_accepts (packageOf_inclusionProofs _ _ _ _ _) nonempty checked
  exact checkPackage_eq_ok.mpr ⟨sampleCodec.package.decode_encode _, rfl, rfl, flow⟩

variable (small : items.proofs.length < 2 ^ 32)
include small

theorem moonBody_opened :
    openEnvelope blankHash sampleCodec .earth (moonBody epoch items) =
      .ok (moonEnvelope epoch items, moonPackage epoch items,
        ⟨.moon, .earth, epoch, UInt32.ofNat items.proofs.length⟩) := by
  have inspected : inspectPackageForIngest sampleCodec (moonPackage epoch items) .earth =
      .ok ⟨.moon, .earth, epoch, UInt32.ofNat items.proofs.length⟩ :=
    inspectPackageForIngest_accepts (packageOf_inclusionProofs _ _ _ _ _) nonempty checked small
  have hashed : verifyPackageHash blankHash sampleCodec (moonPackage epoch items) = .ok () := rfl
  have packageBytes : (moonEnvelope epoch items).packageBytes =
      sampleCodec.package.encode (moonPackage epoch items) :=
    rfl
  simp only [openEnvelope, moonBody, decodeAs_encode, ok_bind, packageBytes, hashed, inspected,
    bind_eq_ok, ensure_eq_ok]
  exact ⟨(), ⟨rfl, rfl, rfl, rfl, rfl, rfl⟩, rfl⟩

theorem receive_moonBody (importer : Importer) (domain : importer.memory.domainId = .earth)
    (same : importer.store.domainId = .earth) (now : UInt64)
    (unknown : importer.memory.package (moonIdentity epoch) = none)
    (unwritten : importer.store.payloads (moonIdentity epoch) = none) :
    importer.receive blankHash sampleCodec (moonBody epoch items) now = {
      importer with
      memory := importer.memory.upsertPackage (moonRecord epoch items now)
      store := (withPayload epoch items importer.store).filed
        (moonRecord epoch items now) importer.memory
      accepted := importer.accepted ++ [moonIdentity epoch] } := by
  have opened : openEnvelope blankHash sampleCodec importer.store.domainId (moonBody epoch items) =
      .ok (moonEnvelope epoch items, moonPackage epoch items,
        ⟨.moon, .earth, epoch, UInt32.ofNat items.proofs.length⟩) := by
    rw [same]
    exact moonBody_opened checked nonempty small
  rw [Importer.receive, receivePackage_new opened unknown unwritten (domain.trans same.symm)]
  rfl

end Delivered

noncomputable def importerReady (items : VerifiedPackageItems) (queue : List PackageIdentity) :
    Importer where
  memory := (ImporterIndex.create .earth).upsertPackage (moonRecord 0 items 0)
  store := (withPayload 0 items (Importer.initial .earth).store).filed
    (moonRecord 0 items 0) (.create .earth)
  processor := .ready queue
  accepted := [moonIdentity 0]

noncomputable def importerContacting (items : VerifiedPackageItems) : Importer where
  memory := (importerReady items []).memory
  store := (importerReady items []).store.filed ((moonRecord 0 items 0).verifying 1)
    (importerReady items []).memory
  processor := .contacting {
    record := (moonRecord 0 items 0).verifying 1
    index := (importerReady items []).memory.upsertPackage ((moonRecord 0 items 0).verifying 1)
    package := moonPackage 0 items
    items
    queue := [] }
  accepted := [moonIdentity 0]

theorem importerReady_start {items : VerifiedPackageItems}
    (checked : Checked blankHash (moonPackage 0 items) .earth items)
    (nonempty : items.proofs ≠ []) :
    (importerReady items [moonIdentity 0]).apply blankHash sampleCodec (fun _ => .ok ())
    (.start 1) =
      importerContacting items := by
  have started : beginPackage blankHash sampleCodec (fun _ => .ok ()) (moonIdentity 0) [] 1
      (importerReady items []).store = _ :=
    beginPackage_contacting
      (rfl : (importerReady items []).store.loadIndex = .ok (importerReady items []).memory)
      (rfl : (importerReady items []).memory.package (moonIdentity 0) = some (moonRecord 0 items 0))
        rfl rfl
      (moonPackage_checked checked nonempty) [] 1
  have proceeded : (importerReady items [moonIdentity 0]).apply blankHash sampleCodec (fun _ =>
      .ok ()) (.start 1) =
      (importerReady items [moonIdentity 0]).proceed
        (beginPackage blankHash sampleCodec (fun _ => .ok ()) (moonIdentity 0)
          [] 1 (importerReady items []).store) := rfl
  rw [proceeded, started]
  rfl

end Sample

end Ialp.Services
