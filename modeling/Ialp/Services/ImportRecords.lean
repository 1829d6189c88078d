import Ialp.Services.ImporterEvidence
import Ialp.Services.ImporterIngest

/-!
What becomes of the import records of a package. The loops over its proofs save them to
`index.json`, each with an index it has loaded itself; the end of `process_package_by_identity`
saves the index that was loaded before the loops over them.
-/

namespace Ialp.Services

open Scale Function

section Run

structure NodeAnswers where
  started : UInt64
  contact : Contact
  contacted : UInt64
  answers : List (Answer × UInt64)

def NodeAnswers.resumptions (node : NodeAnswers) : List ImporterEvent :=
  .contact node.contact node.contacted :: node.answers.map fun (answer, now) => .answer answer now

variable (blake2 : Bytes → Hash32) (codec : PackageCodec)
  (certified : CertifiedSummaryPackage → Except Halt Unit)

/-- `process_package_by_identity` for the next package of the queue, with nothing received
meanwhile. -/
def Importer.process (node : NodeAnswers) (importer : Importer) : Importer :=
  (.start node.started :: node.resumptions).foldl (fun importer event =>
    importer.apply blake2 codec certified event) importer

def VerifiedPackageItems.exportIds (items : VerifiedPackageItems) : List ExportId :=
  items.exportProofs.map (·.leaf.exportId) ++ items.finalizedImportProofs.map (·.leaf.exportId)

def Processor.job? : Processor → Option Job
  | contacting job => some job
  | importing job _ _ _ => some job
  | ready _ | stopped => none
  | refreshing _ _ => none

end Run

section Writing

variable {identity : PackageIdentity} {index : ImporterIndex} {job : Job}
  {store store' : Store} {now : UInt64}

/-- A package whose file says that it is acknowledged is so in the index on disk, and that index has
the import records of the one the package was begun with. -/
def WrittenBack (identity : PackageIdentity) (index : ImporterIndex) (store : Store) : Prop :=
  ∀ record, store.packages identity = some record → record.state.Acknowledges →
    ∃ saved, store.indexFile = some (.v2 saved) ∧ saved.package identity = some record ∧
      saved.imports = index.imports

structure InWork (identity : PackageIdentity) (index : ImporterIndex) (job : Job) (store : Store) :
    Prop where
  file : store.packages identity = some job.record
  label : job.record.toPackageIdentity = identity
  marked : job.record.state = .verifying
  imports : job.index.imports = index.imports
  domain : job.index.domainId = store.domainId

structure Underway (identity : PackageIdentity) (index : ImporterIndex)
    (result : Processor × Store) : Prop where
  written : WrittenBack identity index result.2
  working : ∀ job, result.1.job? = some job → InWork identity index job result.2

structure Dropped (identity : PackageIdentity) (result : Processor × Store) : Prop where
  idle : result.1.job? = none
  file : ∃ record, result.2.packages identity = some record ∧ ¬ record.state.Acknowledges

theorem writtenBack_of_file {record : PackageRecord} (file : store.packages identity = some record)
    (other : ¬ record.state.Acknowledges) : WrittenBack identity index store := by
  intro found present acknowledged
  cases file.symm.trans present
  exact absurd acknowledged other

theorem underway_idle {result : Processor × Store} (idle : result.1.job? = none)
    (written : WrittenBack identity index result.2) : Underway identity index result := by
  refine ⟨written, ?_⟩
  intro job busy
  cases idle.symm.trans busy

theorem Dropped.underway {result : Processor × Store} (dropped : Dropped identity result) :
    Underway identity index result := by
  obtain ⟨record, file, other⟩ := dropped.file
  exact underway_idle dropped.idle (writtenBack_of_file file other)

theorem InWork.unacknowledged (working : InWork identity index job store) :
    ¬ job.record.state.Acknowledges := by
  rw [working.marked]
  exact id

theorem refresh_idle (queue : List PackageIdentity) (store : Store) :
    (refresh queue store).1.job? = none ∧ (refresh queue store).2 = store := by
  unfold refresh
  split <;> exact ⟨rfl, rfl⟩

theorem finalizePackageError_packages {record : PackageRecord} {error : ProcessPackageError}
    (finalized : finalizePackageError record error now store = .ok store') :
    ∃ written, written.state = error.state ∧
      store'.packages = update store.packages record.toPackageIdentity (some written) := by
  simp only [finalizePackageError, bind_eq_ok] at finalized
  obtain ⟨index, _, saved⟩ := finalized
  have same := Store.saveIndex_eq_ok saved
  subst same
  exact ⟨_, rfl, rfl⟩

theorem dropped_reject {record : PackageRecord} (file : store.packages identity = some record)
    (label : record.toPackageIdentity = identity) (marked : record.state = .verifying)
    (queue : List PackageIdentity) (error : ProcessPackageError) :
    Dropped identity (rejectPackage record queue error now store) := by
  unfold rejectPackage
  cases finalized : finalizePackageError record error now store with
  | error message =>
      refine ⟨rfl, record, file, ?_⟩
      rw [marked]
      exact id
  | ok store' =>
      obtain ⟨written, state, packages⟩ := finalizePackageError_packages finalized
      obtain ⟨idle, same⟩ := refresh_idle queue store'
      refine ⟨idle, written, ?_, ?_⟩
      · change (refresh queue store').2.packages identity = _
        rw [same, packages, label, update_self]
      · rw [state]
        cases error <;> exact id

theorem InWork.drop (working : InWork identity index job store) (error : ProcessPackageError) :
    Dropped identity (rejectPackage job.record job.queue error now store) :=
  dropped_reject working.file working.label working.marked job.queue error

theorem InWork.finish (working : InWork identity index job store)
    (outcome : ProcessPackageOutcome) :
    Underway identity index (finishPackage job outcome now store) := by
  have label := working.label
  subst label
  have file : store.loadPackage job.record.toPackageIdentity = some job.record := working.file
  simp only [finishPackage, file, Store.saveIndex_filed _ working.domain]
  obtain ⟨idle, same⟩ := refresh_idle job.queue _
  refine underway_idle idle ?_
  rw [same]
  intro record present _
  refine ⟨_, rfl, ?_, working.imports⟩
  rw [ImporterIndex.package_upsertPackage, if_pos rfl, ← present]
  exact (update_self job.record.toPackageIdentity _ store.packages).symm

theorem InWork.close (working : InWork identity index job store) {stage : Stage}
    {outcome : ProcessPackageOutcome} (closed : stage.close store = .ok (outcome, store')) :
    InWork identity index job store' := by
  rcases Stage.close_eq_ok closed with same | ⟨direction, saved, rest, counts, _, written⟩
  · subst same
    exact working
  · subst written
    exact ⟨working.file, working.label, working.marked, working.imports, working.domain⟩

theorem InWork.answer (working : InWork identity index job store)
    {stage stage' : Stage} {answer : Answer}
    (answered : stage.answer job.package store answer = .ok (stage', store')) :
    InWork identity index job store' := by
  cases (answered_of_ok answered).2 with
  | recorded => exact ⟨working.file, working.label, working.marked, working.imports, working.domain⟩
  | imported => exact working
  | ended => exact working

theorem InWork.await (working : InWork identity index job store) {processor : Processor}
    (busy : processor.job? = some job) : Underway identity index (processor, store) := by
  refine ⟨writtenBack_of_file working.file working.unacknowledged, ?_⟩
  intro other same
  cases busy.symm.trans same
  exact working

theorem InWork.rule (identity : PackageIdentity) (index : ImporterIndex)
    (job : Job) (now : UInt64) :
    LoopRule job now (Underway identity index) (fun _ => InWork identity index job)
      (fun _ _ => InWork identity index job) where
  opens working _ := working
  closes working _ closed := working.close closed
  waits _ working _ := working.await rfl
  unopened _ error working := (working.drop error).underway
  unclosed _ error working := (working.drop error).underway
  finishes outcome working := working.finish outcome

theorem InWork.contact (working : InWork identity index job store) (contact : Contact) :
    Underway identity index (resumeContact job now store contact) := by
  cases contact with
  | lost => exact Dropped.underway ⟨rfl, job.record, working.file, working.unacknowledged⟩
  | failed error => exact (working.drop error).underway
  | made => exact (InWork.rule identity index job now).run _ [] store working

theorem InWork.resume (working : InWork identity index job store) (stage : Stage)
    (outcomes : List ProcessPackageOutcome) (later : List StageKind) (answer : Answer) :
    Underway identity index (resumeStage job stage outcomes later answer now store) := by
  have rule := InWork.rule identity index job now
  unfold resumeStage
  cases answered : stage.answer job.package store answer with
  | error error => exact (working.drop error).underway
  | ok next => exact rule.settle (rule.run later) (working.answer answered) outcomes

end Writing

section Process

variable {blake2 : Bytes → Hash32} {codec : PackageCodec}
  {certified : CertifiedSummaryPackage → Except Halt Unit} {identity : PackageIdentity}
  {index : ImporterIndex} {found : PackageRecord} {store : Store} {importer : Importer}

theorem beginPackage_inWork (loaded : store.loadIndex = .ok index)
    (known : index.package identity = some found) (pending : found.state.isTerminal = false)
    (queue : List PackageIdentity) (now : UInt64) :
    Dropped identity (beginPackage blake2 codec certified identity queue now store) ∨
      ∃ payload package items job store', store.payloads identity = some payload ∧
        checkPackage blake2 codec certified store.domainId payload = .ok (package, items) ∧
        beginPackage blake2 codec certified identity queue now store = (.contacting job, store') ∧
        InWork identity index job store' := by
  have label : found.toPackageIdentity = identity := Keyed.key_of_lookup known
  have same := Store.domainId_of_load loaded
  have file : (store.filed (found.verifying now) index).packages identity =
      some (found.verifying now) := by
    change update store.packages found.toPackageIdentity _ identity = _
    rw [label, update_self]
  have marking : { found with state := .verifying, lastUpdatedAtUnixMs := now, reason := none } =
      found.verifying now := rfl
  have reading : (store.filed (found.verifying now) index).loadPackageBytes (found.verifying now) =
      okOr (store.payloads identity) "failed to read package payload" := by
    rw [← label]
    rfl
  cases paid : store.payloads identity with
  | none =>
      refine .inl ?_
      simp only [beginPackage, loaded, known, pending, Bool.false_eq_true, if_false, marking,
        Store.saveIndex_filed _ same, reading, paid, okOr]
      exact ⟨rfl, _, file, id⟩
  | some payload =>
      cases checked : checkPackage blake2 codec certified store.domainId payload with
      | error halt =>
          have again : checkPackage blake2 codec certified
              (store.filed (found.verifying now) index).domainId payload =
              .error halt := checked
          refine .inl ?_
          simp only [beginPackage, loaded, known, pending, Bool.false_eq_true, if_false, marking,
            Store.saveIndex_filed _ same, reading, paid, okOr, again]
          cases halt with
          | failed message => exact dropped_reject file label rfl queue _
          | overflow => exact ⟨rfl, _, file, id⟩
      | ok verified =>
          obtain ⟨package, items⟩ := verified
          have stored : store.payloads found.toPackageIdentity = some payload := by rw [label, paid]
          refine .inr ⟨payload, package, items, _, _, rfl, checked,
            beginPackage_contacting loaded known pending stored checked queue now, file,
            label, rfl, rfl, same⟩

def ImporterEvent.Resumes : ImporterEvent → Prop
  | contact _ _ | answer _ _ => True
  | receive _ _ | tick | start _ | install | restart => False

theorem NodeAnswers.resumes (node : NodeAnswers) : ∀ event ∈ node.resumptions, event.Resumes := by
  intro event member
  rcases List.mem_cons.mp member with first | later
  · subst first
    trivial
  · obtain ⟨answer, _, same⟩ := List.mem_map.mp later
    subst same
    trivial

theorem Importer.apply_idle {event : ImporterEvent} (resumes : event.Resumes)
    (idle : importer.processor.job? = none) :
    importer.apply blake2 codec certified event = importer := by
  cases event with
  | contact contact now =>
      cases processor : importer.processor <;> simp_all [Importer.apply, Processor.job?]
  | answer answer now =>
      cases processor : importer.processor <;> simp_all [Importer.apply, Processor.job?]
  | receive | tick | start | install | restart => cases resumes

theorem Importer.apply_underway {event : ImporterEvent} (resumes : event.Resumes)
    (underway : Underway identity index (importer.processor, importer.store)) :
    Underway identity index ((importer.apply blake2 codec certified event).processor,
      (importer.apply blake2 codec certified event).store) := by
  unfold Importer.apply
  split
  case h_4 contact now job contacting =>
    exact (underway.working job (by rw [contacting]; rfl)).contact contact
  case h_5 answer now job stage outcomes later importing =>
    exact (underway.working job (by rw [importing]; rfl)).resume stage outcomes later answer
  case h_8 => exact underway
  all_goals cases resumes

variable (importer) in
theorem Importer.foldl_underway {events : List ImporterEvent}
    (resumes : ∀ event ∈ events, event.Resumes)
    (underway : Underway identity index (importer.processor, importer.store)) :
    WrittenBack identity index
      (events.foldl (fun importer event => importer.apply blake2 codec certified event)
        importer).store := by
  induction events generalizing importer with
  | nil => exact underway.written
  | cons event rest ih =>
      refine ih _ ?_ (Importer.apply_underway (resumes event List.mem_cons_self) underway)
      intro other member
      exact resumes other (List.mem_cons_of_mem _ member)

theorem Importer.foldl_idle {events : List ImporterEvent}
    (resumes : ∀ event ∈ events, event.Resumes) (idle : importer.processor.job? = none) :
    events.foldl (fun importer event => importer.apply blake2 codec certified event) importer =
      importer := by
  induction events with
  | nil => rfl
  | cons event rest ih =>
      rw [List.foldl_cons, Importer.apply_idle (resumes event List.mem_cons_self) idle]
      refine ih ?_
      intro other member
      exact resumes other (List.mem_cons_of_mem _ member)

/-- An acknowledged package is so in the index on disk, and all import records of before are there.
Its own transfers are there exactly if they were before: the index that is saved last was loaded
before they were recorded. -/
theorem import_records_survive (blake2 : Bytes → Hash32) (codec : PackageCodec)
    (certified : CertifiedSummaryPackage → Except Halt Unit) (importer : Importer)
    (identity : PackageIdentity) (queue : List PackageIdentity) (index : ImporterIndex)
    (found record : PackageRecord) (node : NodeAnswers)
    (next : importer.processor = .ready (identity :: queue))
    (loaded : importer.store.loadIndex = .ok index) (known : index.package identity = some found)
    (pending : found.state.isTerminal = false)
    (file : (importer.process blake2 codec certified node).store.packages identity = some record)
    (successful : record.state.Acknowledges) :
    ∃ payload package items saved, importer.store.payloads identity = some payload ∧
      checkPackage blake2 codec certified importer.store.domainId payload = .ok (package, items) ∧
      (importer.process blake2 codec certified node).store.indexFile = some (.v2 saved) ∧
      saved.package identity = some record ∧
      (∀ earlier ∈ index.imports, earlier ∈ saved.imports) ∧
      ((∀ exportId ∈ items.exportIds, (saved.record exportId).isSome) ↔
        ∀ exportId ∈ items.exportIds, (index.record exportId).isSome) := by
  have started : importer.apply blake2 codec certified (.start node.started) =
      importer.proceed (beginPackage blake2 codec certified identity queue node.started
        importer.store) := by
    simp only [Importer.apply, next]
  rw [Importer.process, List.foldl_cons, started] at file ⊢
  rcases beginPackage_inWork loaded known pending queue node.started with
    dropped | ⟨payload, package, items, job, store, paid, checked, begun, working⟩
  · rw [Importer.foldl_idle node.resumes dropped.idle] at file
    obtain ⟨other, written, unacknowledged⟩ := dropped.file
    cases file.symm.trans written
    exact absurd successful unacknowledged
  · have underway : Underway identity index (.contacting job, store) := working.await rfl
    rw [begun] at file ⊢
    obtain ⟨saved, indexed, present, imports⟩ :=
      Importer.foldl_underway (importer.proceed (.contacting job, store)) node.resumes underway
        record file successful
    refine ⟨payload, package, items, saved, paid, checked, indexed, present, ?_, ?_⟩
    · rw [imports]
      exact fun _ member => member
    · simp only [ImporterIndex.record, imports]

end Process

section Sample

def indexKnowing (imports : List ImportRecord) : ImporterIndex where
  domainId := .earth
  imports
  packages := [moonRecord 0 (exportItems 0) 0]

noncomputable def importerKnowing (imports : List ImportRecord) : Importer :=
  { importerReady (exportItems 0) [moonIdentity 0] with
    store := { (importerReady (exportItems 0) []).store with
      indexFile := some (.v2 (indexKnowing imports)) } }

theorem importerKnowing_start (imports : List ImportRecord) :
    (importerKnowing imports).apply blankHash sampleCodec (fun _ => .ok ()) (.start 1) =
      (importerKnowing imports).proceed (.contacting {
        record := (moonRecord 0 (exportItems 0) 0).verifying 1
        index := (indexKnowing imports).upsertPackage ((moonRecord 0 (exportItems 0) 0).verifying 1)
        package := moonPackage 0 (exportItems 0)
        items := exportItems 0
        queue := [] },
        (importerKnowing imports).store.filed ((moonRecord 0 (exportItems 0) 0).verifying 1)
          (indexKnowing imports)) := by
  have checked := moonPackage_checked (exportItems_checked 0)
    (by simp [VerifiedPackageItems.proofs, exportItems])
  have started : beginPackage blankHash sampleCodec (fun _ => .ok ()) (moonIdentity 0) [] 1
      (importerKnowing imports).store = _ :=
    beginPackage_contacting
      (rfl : (importerKnowing imports).store.loadIndex = .ok (indexKnowing imports))
      (rfl : (indexKnowing imports).package (moonIdentity 0) =
        some (moonRecord 0 (exportItems 0) 0)) rfl rfl checked
      [] 1
  have proceeded : (importerKnowing imports).apply blankHash sampleCodec (fun _ =>
      .ok ()) (.start 1) =
      (importerKnowing imports).proceed (beginPackage blankHash sampleCodec (fun _ => .ok ())
        (moonIdentity 0) [] 1 (importerKnowing imports).store) := rfl
  rw [proceeded, started]
  rfl

noncomputable def exportRecord : ImportRecord :=
  knownRecord (moonPackage 0 (exportItems 0)) (exportItem (moonExport emptyHash 0)) .forward

theorem import_records_survive_sample :
    ∃ saved, ((importerKnowing [exportRecord]).process blankHash sampleCodec (fun _ => .ok ())
        ⟨1, .made, 2, []⟩).store.indexFile = some (.v2 saved) ∧
      saved.package (moonIdentity 0) ≠ none ∧ exportRecord ∈ saved.imports := by
  have file :
      ∃ record, ((importerKnowing [exportRecord]).process blankHash sampleCodec (fun _ => .ok ())
      ⟨1, .made, 2, []⟩).store.packages (moonIdentity 0) = some record ∧
      record.state = .ackedDuplicateLocal := by
    rw [Importer.process, List.foldl_cons, importerKnowing_start]
    exact ⟨_, rfl, rfl⟩
  obtain ⟨record, file, state⟩ := file
  have successful : record.state.Acknowledges := by
    rw [state]
    trivial
  obtain ⟨payload, package, items, saved, _, _, indexed, present, kept, _⟩ :=
    import_records_survive blankHash sampleCodec (fun _ => .ok ()) (importerKnowing [exportRecord])
      (moonIdentity 0) [] (indexKnowing [exportRecord])
      (moonRecord 0 (exportItems 0) 0) record ⟨1, .made, 2,
        []⟩ rfl rfl rfl rfl file
      successful
  refine ⟨saved, indexed, ?_, kept _ List.mem_cons_self⟩
  rw [present]
  exact Option.some_ne_none record

/-- A package with an export that is not on record is verified, and the export is not on record
afterwards. -/
theorem new_import_record_lost :
    ∃ record saved, ((importerKnowing []).process blankHash sampleCodec (fun _ => .ok ())
        ⟨1, .made, 2, [(.recorded [] "0x00", 3)]⟩).store.packages (moonIdentity 0) = some record ∧
      record.state = .ackedVerified ∧
      ((importerKnowing []).process blankHash sampleCodec (fun _ => .ok ())
        ⟨1, .made, 2, [(.recorded [] "0x00", 3)]⟩).store.indexFile = some (.v2 saved) ∧
      emptyHash ∈ (exportItems 0).exportIds ∧ saved.record emptyHash = none := by
  rw [Importer.process, List.foldl_cons, importerKnowing_start]
  exact ⟨_, _, rfl, rfl, rfl, List.mem_cons_self, rfl⟩

end Sample

end Ialp.Services
