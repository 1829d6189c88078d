import Ialp.Services.ExporterRuns

/-!
The passes of the exporter over its certified packages are those of the handoff to the relay. The
handoff has of each record the package in its file and how far its submission has come.
-/

namespace Ialp.Services.Sync

open Scale Function

section Views

variable (codec : PackageCodec)

def PackageKey.pair (key : PackageKey) : EpochId × DomainId := (key.epochId, key.targetDomain)

theorem PackageKey.pair_injective : Injective PackageKey.pair := by
  intro key key' same
  obtain ⟨epoch, target⟩ := Prod.mk.inj same
  cases key
  cases key'
  simp_all

def PackageRecord.handed (package : CertifiedSummaryPackage) (record : PackageRecord) :
    ExporterPackageRecord where
  targetDomain := record.targetDomain
  package
  relaySubmissionState := record.relaySubmissionState
  relayLastSubmittedAtUnixMs := record.relayLastSubmittedAtUnixMs
  relaySubmissionAttempts := record.relaySubmissionAttempts
  relayLastError := record.relayLastError

namespace Store

/-- Only records of certified packages take part. -/
def handedRecord (store : Store) (record : PackageRecord) : Option ExporterPackageRecord :=
  if record.status = .certified then
    (store.loadPackage codec record.toPackageKey).toOption.map fun loaded => record.handed loaded.2
  else none

def handedIndex (store : Store) (index : ExporterIndex) : Services.ExporterIndex where
  packages := index.packages.filterMap (store.handedRecord codec)

end Store

def Exporter.handed (exporter : Exporter) : Option Pass :=
  match exporter.phase with
  | some (.submissions index work) => some {
      index := exporter.store.handedIndex codec index
      work := work.map fun record => record.toPackageKey.pair }
  | _ => none

/-- The handoff is where the exporter is. -/
structure Reflects (handoff : Handoff) (exporter : Exporter) : Prop where
  saved : handoff.saved = exporter.store.handedIndex codec exporter.store.saved
  pass : handoff.pass = exporter.handed codec

end Views

section Records

variable {codec : PackageCodec} {agreed : Prop} {index : ExporterIndex}
  {store : Store} {key : PackageKey} {record : PackageRecord} {package : CertifiedSummaryPackage}

theorem Store.Files.loadPackage (files : store.Files codec key package) :
    ∃ manifest, store.loadPackage codec key = .ok (manifest, package) := by
  obtain ⟨manifest, present⟩ := files.manifest
  refine ⟨manifest, ?_⟩
  simp only [Store.loadPackage, present, files.scale, okOr, ok_bind, decodeAs_encode]
  rfl

theorem Store.Files.handedRecord (files : store.Files codec record.toPackageKey package)
    (certified : record.status = .certified) :
    store.handedRecord codec record = some (record.handed package) := by
  obtain ⟨manifest, loaded⟩ := files.loadPackage
  rw [Store.handedRecord, if_pos certified, loaded]
  rfl

theorem Store.Files.key_handed (files : store.Files codec record.toPackageKey package) :
    (record.handed package).key = record.toPackageKey.pair :=
  congrArg (·, record.targetDomain) files.epoch

namespace ExporterIndex.Sound

variable (sound : index.Sound codec agreed store)
include sound

theorem handed_of_mem (member : record ∈ index.packages) (certified : record.status = .certified) :
    ∃ package, store.Files codec record.toPackageKey package ∧
      store.handedRecord codec record = some (record.handed package) := by
  obtain ⟨package, files, _⟩ :=
    sound.held _ record (Keyed.lookup_of_mem sound.distinct member) certified
  exact ⟨package, files, files.handedRecord certified⟩

theorem keyed (record : PackageRecord) (member : record ∈ index.packages)
    (viewed : ExporterPackageRecord) (seen : store.handedRecord codec record = some viewed) :
    viewed.key = record.toPackageKey.pair := by
  by_cases certified : record.status = .certified
  · obtain ⟨package, files, same⟩ := sound.handed_of_mem member certified
    cases same.symm.trans seen
    exact files.key_handed
  · rw [Store.handedRecord, if_neg certified] at seen
    cases seen

theorem record_handedIndex (key : PackageKey) : (store.handedIndex codec index).record key.pair =
    (index.record key).bind (store.handedRecord codec) :=
  Keyed.lookup_filterMap PackageKey.pair_injective sound.keyed sound.distinct

theorem handedIndex_markSubmission (found : index.record key = some record)
    (certified : record.status = .certified) (files : store.Files codec key package)
    (state : RelaySubmissionState) (now : UInt64) (error : Option String) :
    store.handedIndex codec (index.markSubmission key state now error) = {
      packages := Keyed.upsert ExporterPackageRecord.key
        ((record.submit state now error).handed package)
        (store.handedIndex codec index).packages } := by
  have label := ExporterIndex.key_of_record found
  subst label
  have marked : (record.submit state now error).toPackageKey = record.toPackageKey := rfl
  rw [ExporterIndex.markSubmission, found]
  refine congrArg Services.ExporterIndex.mk
    (Keyed.filterMap_upsert PackageKey.pair_injective sound.keyed ?_ ?_ ?_)
  · exact Store.Files.handedRecord (marked ▸ files) certified
  · exact Store.Files.key_handed (marked ▸ files)
  · intro current member same
    have listed := Keyed.lookup_of_mem sound.distinct member
    rw [same, marked] at listed
    cases found.symm.trans listed
    rw [files.handedRecord certified]
    exact Option.some_ne_none _

end ExporterIndex.Sound

end Records

section Passes

variable {settings : RelaySettings} {blake2 : Bytes → Hash32} {codec : PackageCodec} {agreed : Prop}
  {admits : Exporter → SyncEvent → Prop} {exporter : Exporter}
  {index : ExporterIndex} {store : Store} {handoff : Handoff} {record : PackageRecord}
  {work : List PackageRecord}

theorem submissionWork_handed (sound : index.Sound codec agreed store) :
    (((store.handedIndex codec index).packages.filter fun record =>
      record.relaySubmissionState ≠ .submitted).map
      ExporterPackageRecord.key) = (submissionWork index).map fun record =>
      record.toPackageKey.pair := by
  have viewed : ∀ record ∈ index.packages, record.status = .certified → ∃ package,
      store.Files codec record.toPackageKey package ∧
        store.handedRecord codec record = some (record.handed package) :=
    fun _ member certified => sound.handed_of_mem member certified
  unfold Store.handedIndex submissionWork
  generalize index.packages = records at viewed
  induction records with
  | nil => rfl
  | cons record rest ih =>
      have later := ih fun other member => viewed other (List.mem_cons_of_mem _ member)
      by_cases certified : record.status = .certified
      · obtain ⟨package, files, seen⟩ := viewed record List.mem_cons_self certified
        have state : (record.handed package).relaySubmissionState = record.relaySubmissionState :=
          rfl
        by_cases submitted : record.relaySubmissionState = .submitted
        · simpa [List.filterMap_cons_some seen, state, submitted] using later
        · simpa [List.filterMap_cons_some seen, state, submitted, certified,
            files.key_handed] using later
      · have unseen : store.handedRecord codec record = none := if_neg certified
        simpa [List.filterMap_cons_none unseen, certified] using later

/-- A run comes to its submissions as a pass begins, with the index that it has by then. -/
theorem poll_reflected (sound : index.Sound codec agreed store) (relay : Relay) :
    (Handoff.apply settings blake2 codec .poll ⟨relay, store.handedIndex codec index, none⟩).pass =
      Exporter.handed codec ⟨store, some (.submissions index (submissionWork index))⟩ := by
  simp only [Handoff.apply, Exporter.handed, submissionWork_handed sound]

variable (reflects : Reflects codec handoff exporter) (sound : exporter.Sound codec agreed)
include reflects

theorem Reflects.dropped (relay : Relay) :
    Reflects codec { handoff with relay, pass := none } { exporter with phase := none } :=
  ⟨reflects.saved, rfl⟩

include sound

theorem Reflects.submit (here : exporter.phase = some (.submissions index (record :: work)))
    (now relayNow : UInt64) (fate : Fate) (response : Except RelaySubmitError RelaySubmitReceipt)
    (answered : ∀ manifest package envelope,
      exporter.store.loadPackage codec record.toPackageKey = .ok (manifest, package) →
      relayEnvelope codec record.targetDomain package now = .ok envelope →
      response = submissionResult fate
        (submitPackage blake2 codec (codec.envelope.encode envelope) relayNow
          handoff.relay.store).1) :
    Reflects codec (handoff.apply settings blake2 codec (.submit now relayNow fate))
      (exporter.apply blake2 codec (.submit now response)) := by
  obtain ⟨⟨indexed, _⟩, _, open'⟩ := sound.phase _ here
  obtain ⟨current, found, certified, _⟩ := open' record List.mem_cons_self
  have label := ExporterIndex.key_of_record found
  obtain ⟨package, files, _⟩ := indexed.held _ current found certified
  rw [label] at files
  obtain ⟨manifest, loaded⟩ := files.loadPackage
  have passing : handoff.pass = some {
      index := exporter.store.handedIndex codec index
      work := record.toPackageKey.pair :: work.map fun record => record.toPackageKey.pair } := by
    rw [reflects.pass, Exporter.handed, here]
    rfl
  have held : (exporter.store.handedIndex codec index).record record.toPackageKey.pair =
      some (current.handed package) := by
    rw [indexed.record_handedIndex, found, Option.bind_some]
    exact Store.Files.handedRecord (label.symm ▸ files) certified
  have target : (current.handed package).targetDomain = record.targetDomain :=
    congrArg PackageKey.targetDomain label
  have same : (current.handed package).package = package := rfl
  simp only [Handoff.apply, passing, held, Exporter.apply, here, Handoff.submitRecord,
    Exporter.submitPackage, loaded, ok_bind, target, same]
  cases built : relayEnvelope codec record.targetDomain package now with
  | error message => exact reflects.dropped _
  | ok envelope =>
      have mark (state : RelaySubmissionState) (error : Option String) :=
        indexed.handedIndex_markSubmission found certified files state now error
      simp only [← answered manifest package envelope loaded built, ok_bind]
      cases response with
      | error error =>
          exact ⟨reflects.saved, congrArg some (congrArg (Pass.mk · _) (mark _ _).symm)⟩
      | ok receipt =>
          by_cases granted : receipt.accepted = true
          · simp only [granted, if_true, ensure_true, ok_bind]
            exact ⟨reflects.saved, congrArg some (congrArg (Pass.mk · _) (mark _ _).symm)⟩
          · simp only [granted, ensure]
            exact reflects.dropped _

theorem Reflects.save (here : exporter.phase = some (.submissions index [])) :
    Reflects codec (handoff.apply settings blake2 codec .save)
    (exporter.apply blake2 codec .save) := by
  obtain ⟨⟨indexed, _⟩, _⟩ := sound.phase _ here
  have passing : handoff.pass =
      some { index := exporter.store.handedIndex codec index, work := [] } := by
    rw [reflects.pass, Exporter.handed, here]
    rfl
  have written : exporter.store.saveIndex index =
      .ok { exporter.store with indexFile := some index } := by
    simp [Store.saveIndex, ensure, indexed.domain]
  simp only [Handoff.apply, passing, Exporter.apply, here, Exporter.saved, written]
  exact ⟨rfl, rfl⟩

end Passes

/-- While a run submits its packages, each of its steps is one of the handoff, if the answer to a
submission is one that the relay of the handoff gives to it. -/
theorem submissions_simulated (settings : RelaySettings) (blake2 : Bytes → Hash32)
    (codec : PackageCodec) (admits : Exporter → SyncEvent → Prop) (exporter : Exporter)
    (reachable : (Exporter.system blake2 codec admits).Reachable exporter) (index : ExporterIndex)
    (work : List PackageRecord) (here : exporter.phase = some (.submissions index work))
    (handoff : Handoff) (reflects : Reflects codec handoff exporter) (event : SyncEvent)
    (answered : ∀ now response record rest, event = .submit now response → work = record :: rest →
      ∃ relayNow fate, ∀ manifest package envelope,
        exporter.store.loadPackage codec record.toPackageKey = .ok (manifest, package) →
        relayEnvelope codec record.targetDomain package now = .ok envelope →
        response = submissionResult fate
          (submitPackage blake2 codec (codec.envelope.encode envelope) relayNow
            handoff.relay.store).1) :
    ∃ event', Reflects codec (handoff.apply settings blake2 codec event')
    (exporter.apply blake2 codec event) := by
  have sound : exporter.Sound codec False :=
    Exporter.sound (fun impossible => impossible.elim) reachable
  have passing : handoff.pass = some {
      index := exporter.store.handedIndex codec index
      work := work.map fun record => record.toPackageKey.pair } := by
    rw [reflects.pass, Exporter.handed, here]
  -- a step that the phase does not await changes nothing, as a further `poll` does not
  have idle (same : exporter.apply blake2 codec event = exporter) :
      Reflects codec (handoff.apply settings blake2 codec .poll)
      (exporter.apply blake2 codec event) := by
    have waits : handoff.apply settings blake2 codec .poll = handoff := by
      simp only [Handoff.apply, passing]
    rwa [same, waits]
  cases event with
  | latest staged => exact ⟨.poll, idle (by cases staged <;> simp only [Exporter.apply, here])⟩
  | epoch replies => exact ⟨.poll, idle (by simp only [Exporter.apply, here])⟩
  | submit now response =>
      cases work with
      | nil => exact ⟨.poll, idle (by simp only [Exporter.apply, here])⟩
      | cons record rest =>
          obtain ⟨relayNow, fate, replied⟩ := answered now response record rest rfl rfl
          exact ⟨.submit now relayNow fate,
            reflects.submit sound here now relayNow fate response replied⟩
  | save =>
      cases work with
      | nil => exact ⟨.save, reflects.save sound here⟩
      | cons record rest => exact ⟨.poll, idle (by simp only [Exporter.apply, here])⟩
  | stop =>
      have stopped : handoff.apply settings blake2 codec .stop = { handoff with pass := none } := by
        simp only [Handoff.apply]
      have ended : exporter.apply blake2 codec .stop = { exporter with phase := none } := by
        simp only [Exporter.apply]
      exact ⟨.stop, by rw [stopped, ended]; exact reflects.dropped _⟩

end Ialp.Services.Sync
