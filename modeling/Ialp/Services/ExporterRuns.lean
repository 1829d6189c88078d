import Ialp.Services.ExporterStore
import Ialp.Services.ImporterIngest

/-!
The runs of the exporter: `sync_once` goes through the epochs of its node, stages and certifies
their packages, submits the certified ones to the relay and saves its index. The node may answer
anything and a run may end early, which leaves the package files it has written and drops its index.
What a saved index says of a certified package stays, except that the summary of a certified package
can be staged over.
-/

namespace Ialp.Services.Sync

open Scale Function

section Machine

inductive CertificationPendingReason where
  | targetBlockNotFinalized
  | noJustifiedDescendantYet
  | missingTargetBlockHash
  | historicalStateUnavailable
  | storageProofConstructionFailed
  deriving DecidableEq

def CertificationPendingReason.asStr : CertificationPendingReason → String
  | targetBlockNotFinalized => "TargetBlockNotFinalized"
  | noJustifiedDescendantYet => "NoJustifiedDescendantYet"
  | missingTargetBlockHash => "MissingTargetBlockHash"
  | historicalStateUnavailable => "HistoricalStateUnavailable"
  | storageProofConstructionFailed => "StorageProofConstructionFailed"

inductive SummaryCertificationState where
  | pending (reason : CertificationPendingReason)
  | ready (bundle : SummaryCertificationBundle)

structure SummaryCertificationReadiness where
  stagedAtBlockHash : Hash32
  state : SummaryCertificationState

def SummaryCertificationState.pendingReason : SummaryCertificationState → Option String
  | pending reason => some reason.asStr
  | ready _ => none

structure EpochReplies where
  summary : Except String (Option StagedSummaryView)
  readiness : Except String SummaryCertificationReadiness
  answers : EpochAnswers

def collectTargetExportIds (inputs : TargetPackageInputs) : List ExportId :=
  dedup (sortBy compareBytes
    (inputs.exportLeaves.map (·.exportId) ++ inputs.finalizedImportLeaves.map (·.exportId)))

variable (blake2 : Bytes → Hash32) (codec : PackageCodec)

def stagingOf (staged : StagedSummaryView) (readiness : SummaryCertificationReadiness)
    (inputs : TargetPackageInputs) : Staging where
  summaryHash := staged.header.summaryHash
  stagedAtBlockNumber := staged.stagedAtBlockNumber
  stagedAtBlockHash := readiness.stagedAtBlockHash
  exportIds := collectTargetExportIds inputs
  pendingReason := readiness.state.pendingReason

def stageTargets (epochId : EpochId) (staged : StagedSummaryView)
    (readiness : SummaryCertificationReadiness) (targets : List (DomainId × TargetPackageInputs))
    (index : ExporterIndex) : ExporterIndex :=
  targets.foldl (fun index (targetDomain, inputs) =>
    index.upsertPending ⟨epochId, targetDomain⟩ (stagingOf staged readiness inputs)) index

def certifyTargets (header : EpochSummaryHeader) (bundle : SummaryCertificationBundle)
    (epochId : EpochId) (leaves : EpochLeaves) : List (DomainId × TargetPackageInputs) →
      ExporterIndex → Store →
      Store × Except String ExporterIndex
  | [], index, store => (store, .ok index)
  | (targetDomain, inputs) :: rest, index, store =>
      match certifyTarget blake2 codec header bundle epochId leaves inputs with
      | .error message => (store, .error message)
      | .ok package =>
          match store.persistPackage codec targetDomain (collectTargetExportIds inputs) package
            index with
          | (store, .error message) => (store, .error message)
          | (store, .ok index) => certifyTargets header bundle epochId leaves rest index store

/-- What `sync_once` does with an epoch that has been read. -/
def syncLeaves (epochId : EpochId) (staged : StagedSummaryView)
    (readiness : SummaryCertificationReadiness) (leaves : EpochLeaves) (index : ExporterIndex)
    (store : Store) : Store × Except String ExporterIndex :=
  let index := stageTargets epochId staged readiness (groupedTargets leaves).entries index
  match readiness.state with
  | .pending _ => (store, .ok index)
  | .ready bundle =>
      certifyTargets blake2 codec staged.header bundle epochId leaves
        (groupedTargets leaves).entries index store

/-- The reads of an epoch; there is nothing to do for one without a summary. -/
def readEpoch (epochId : EpochId) (replies : EpochReplies) :
    Except String (Option (StagedSummaryView × SummaryCertificationReadiness × EpochLeaves)) := do
  match ← replies.summary with
  | none => return none
  | some staged =>
      let readiness ← replies.readiness
      let leaves ← readEpochLeaves blake2 staged.header epochId replies.answers
      return some (staged, readiness, leaves)

def syncEpoch (epochId : EpochId) (replies : EpochReplies) (index : ExporterIndex) (store : Store) :
    Store × Except String ExporterIndex :=
  match readEpoch blake2 epochId replies with
  | .error message => (store, .error message)
  | .ok none => (store, .ok index)
  | .ok (some (staged, readiness, leaves)) =>
      syncLeaves blake2 codec epochId staged readiness leaves index store

/-- Where a run of `sync_once` is, with its index: at the next of the epochs up to the last, or at
the records whose packages are still to be submitted. -/
inductive Phase where
  | epochs (index : ExporterIndex) (next last : EpochId)
  | submissions (index : ExporterIndex) (work : List PackageRecord)

structure Exporter where
  store : Store
  phase : Option Phase

inductive SyncEvent where
  | latest (staged : Except String (Option StagedSummaryView))
  | epoch (replies : EpochReplies)
  | submit (now : UInt64) (response : Except RelaySubmitError RelaySubmitReceipt)
  | save
  | stop

def submissionWork (index : ExporterIndex) : List PackageRecord :=
  index.packages.filter fun record => record.status = .certified ∧
    record.relaySubmissionState ≠ .submitted

def nextPhase (index : ExporterIndex) (done last : EpochId) : Phase :=
  if done < last then .epochs index (done + 1) last else .submissions index (submissionWork index)

namespace Exporter

def proceed (next : ExporterIndex → Phase) (result : Store × Except String ExporterIndex) :
    Exporter :=
  match result with
  | (store, .ok index) => { store, phase := some (next index) }
  | (store, .error _) => { store, phase := none }

def saved (index : ExporterIndex) (store : Store) : Exporter :=
  match store.saveIndex index with
  | .ok store => { store, phase := none }
  | .error _ => { store, phase := none }

/-- `latest_staged_summary` has answered: the index is loaded, and saved again if there is no
summary. -/
def start (staged : Option StagedSummaryView) (store : Store) : Exporter :=
  match store.loadIndex with
  | .error _ => { store, phase := none }
  | .ok index =>
      let index := { index with latestStagedEpoch := staged.map (·.header.epochId) }
      match staged with
      | none => saved index store
      | some staged => { store, phase := some (.epochs index 0 staged.header.epochId) }

def submitPackage (record : PackageRecord) (now : UInt64)
    (response : Except RelaySubmitError RelaySubmitReceipt) (index : ExporterIndex)
    (store : Store) : Except String ExporterIndex := do
  let (_, package) ← store.loadPackage codec record.toPackageKey
  let _envelope ← relayEnvelope codec record.targetDomain package now
  match response with
  | .ok receipt => do
      ensure (receipt.accepted = true)
        ("relay returned non-accepted receipt in state " ++ receipt.state)
      return index.markRelaySubmitted record.toPackageKey now
  | .error error =>
      return index.markRelaySubmissionError record.toPackageKey now error.retryable error.message

/-- An answer that is not awaited changes nothing. -/
def apply (event : SyncEvent) (exporter : Exporter) : Exporter :=
  match event, exporter.phase with
  | .latest (.ok staged), none => start staged exporter.store
  | .epoch replies, some (.epochs index next last) =>
      proceed (nextPhase · next last) (syncEpoch blake2 codec next replies index exporter.store)
  | .submit now response, some (.submissions index (record :: work)) =>
      proceed (.submissions · work) (exporter.store,
        submitPackage codec record now response index exporter.store)
  | .save, some (.submissions index []) => saved index exporter.store
  | .stop, _ => { exporter with phase := none }
  | _, _ => exporter

def system (admits : Exporter → SyncEvent → Prop) : Transition.System Exporter where
  initial exporter := exporter.phase = none ∧ exporter.store.indexFile = none ∧
    (∀ key, exporter.store.scales key = none) ∧ ∀ key, exporter.store.manifests key = none
  step exporter exporter' :=
    ∃ event, admits exporter event ∧ exporter' = exporter.apply blake2 codec event

end Exporter

/-- A summary that is staged over that of a certified package is the same one, unless the run fails
at the epoch. -/
def Exporter.Agrees (exporter : Exporter) : SyncEvent → Prop
  | .epoch replies => ∀ index next last staged readiness leaves index',
      exporter.phase = some (.epochs index next last) →
      readEpoch blake2 next replies = .ok (some (staged, readiness, leaves)) →
      (syncLeaves blake2 codec next staged readiness leaves index exporter.store).2 = .ok index' →
      ∀ target ∈ targets leaves, ∀ record, index.record ⟨next, target⟩ = some record →
        record.status = .certified →
        staged.header.summaryHash = record.summaryHash
  | _ => True

end Machine

section Epochs

variable {blake2 : Bytes → Hash32} {codec : PackageCodec} {agreed : Prop}
  {index index' : ExporterIndex} {store store' : Store} {epochId : EpochId}
  {staged : StagedSummaryView} {readiness : SummaryCertificationReadiness} {leaves : EpochLeaves}
  {entries : List (DomainId × TargetPackageInputs)}

theorem ExporterIndex.Sound.stageTargets (sound : index.Sound codec agreed store)
    (agrees : agreed → ∀ target ∈ entries.map Prod.fst, ∀ record,
      index.record ⟨epochId, target⟩ = some record →
      record.status = .certified → staged.header.summaryHash = record.summaryHash) :
    (stageTargets epochId staged readiness entries index).Sound codec agreed store ∧
      index.Keeps agreed (stageTargets epochId staged readiness entries index) := by
  induction entries generalizing index with
  | nil => exact ⟨sound, .refl _⟩
  | cons entry rest ih =>
      obtain ⟨target, inputs⟩ := entry
      have first := sound.upsertPending ⟨epochId, target⟩ (stagingOf staged readiness inputs)
        fun agree => agrees agree target List.mem_cons_self
      -- What has just been staged has the summary, and the other records are as before.
      have later := ih first.1 fun agree other member record found certified => by
        rcases ExporterIndex.record_upsertPending found with same | before
        · exact same.symm
        · exact agrees agree other (List.mem_cons_of_mem _ member) record before certified
      exact ⟨later.1, first.2.trans later.2⟩

variable (blake2 codec) in
theorem grows_certifyTargets (header : EpochSummaryHeader) (bundle : SummaryCertificationBundle)
    (epochId : EpochId) (leaves : EpochLeaves) (entries : List (DomainId × TargetPackageInputs))
    (index : ExporterIndex) (store : Store) :
    store.Grows (certifyTargets blake2 codec header bundle epochId leaves entries
      index store).1 := by
  induction entries generalizing index store with
  | nil => exact .refl store
  | cons entry rest ih =>
      obtain ⟨target, inputs⟩ := entry
      unfold certifyTargets
      split
      · exact .refl store
      · rename_i package built
        have grows := store.grows_persistPackage codec index target
          (collectTargetExportIds inputs) package
        split
        · rename_i written message persisted
          rw [persisted] at grows
          exact grows
        · rename_i written marked persisted
          rw [persisted] at grows
          exact grows.trans (ih marked written)

theorem ExporterIndex.Sound.certifyTargets {header : EpochSummaryHeader}
    {bundle : SummaryCertificationBundle} (sound : index.Sound codec agreed store)
    (certified : certifyTargets blake2 codec header bundle epochId leaves entries index store =
      (store', .ok index')) :
    index'.Sound codec agreed store' ∧ index.Keeps agreed index' := by
  induction entries generalizing index store with
  | nil =>
      cases certified
      exact ⟨sound, .refl _⟩
  | cons entry rest ih =>
      obtain ⟨target, inputs⟩ := entry
      unfold Sync.certifyTargets at certified
      split at certified
      · cases certified
      · split at certified
        · cases certified
        · rename_i written marked persisted
          have first := sound.persistPackage persisted
          have later := ih first.1 certified
          exact ⟨later.1, first.2.trans later.2⟩

variable (blake2 codec) in
theorem grows_syncLeaves (epochId : EpochId) (staged : StagedSummaryView)
    (readiness : SummaryCertificationReadiness) (leaves : EpochLeaves)
    (index : ExporterIndex) (store : Store) :
    store.Grows (syncLeaves blake2 codec epochId staged readiness leaves index store).1 := by
  unfold syncLeaves
  cases readiness.state with
  | pending reason => exact .refl store
  | ready bundle => exact grows_certifyTargets blake2 codec _ _ _ _ _ _ _

theorem ExporterIndex.Sound.syncLeaves (sound : index.Sound codec agreed store)
    (agrees : agreed → ∀ target ∈ targets leaves, ∀ record,
      index.record ⟨epochId, target⟩ = some record →
      record.status = .certified → staged.header.summaryHash = record.summaryHash)
    (synced : syncLeaves blake2 codec epochId staged readiness leaves index store =
      (store', .ok index')) :
    index'.Sound codec agreed store' ∧ index.Keeps agreed index' := by
  have domains : (groupedTargets leaves).entries.map Prod.fst = targets leaves := by
    rw [groupedTargets_entries, List.map_map]
    exact List.map_id _
  have restaged :
      (Sync.stageTargets epochId staged readiness (groupedTargets leaves).entries index).Sound codec
        agreed
      store ∧ index.Keeps agreed _ := sound.stageTargets (domains ▸ agrees)
  unfold Sync.syncLeaves at synced
  cases state : readiness.state with
  | pending reason =>
      simp only [state] at synced
      cases synced
      exact restaged
  | ready bundle =>
      simp only [state] at synced
      have certified := restaged.1.certifyTargets synced
      exact ⟨certified.1, restaged.2.trans certified.2⟩

end Epochs

section Runs

variable {blake2 : Bytes → Hash32} {codec : PackageCodec} {agreed : Prop}
  {index : ExporterIndex} {store : Store} {exporter exporter' : Exporter} {event : SyncEvent}

def Store.saved (store : Store) : ExporterIndex := store.indexFile.getD (.create store.domainId)

/-- The index of a run keeps what is saved; the work left is of certified packages that are not
submitted. -/
def Phase.Sound (codec : PackageCodec) (agreed : Prop) (store : Store) : Phase → Prop
  | epochs index _ _ => index.Sound codec agreed store ∧ store.saved.Keeps agreed index
  | submissions index work => (index.Sound codec agreed store ∧ store.saved.Keeps agreed index) ∧
      (work.map PackageRecord.toPackageKey).Nodup ∧
      ∀ record ∈ work, ∃ current, index.record record.toPackageKey = some current ∧
        current.status = .certified ∧ current.relaySubmissionState ≠ .submitted

structure Exporter.Sound (codec : PackageCodec) (agreed : Prop) (exporter : Exporter) : Prop where
  saved : exporter.store.saved.Sound codec agreed exporter.store
  phase : ∀ phase, exporter.phase = some phase → phase.Sound codec agreed exporter.store

structure Exporter.Advanced (agreed : Prop) (exporter exporter' : Exporter) : Prop where
  saved : exporter.store.saved.Keeps agreed exporter'.store.saved
  scales : ∀ key bytes, exporter.store.scales key = some bytes →
    exporter'.store.scales key = some bytes

theorem Exporter.Advanced.refl (exporter : Exporter) : exporter.Advanced agreed exporter :=
  ⟨.refl _, fun _ _ present => present⟩

theorem Exporter.Advanced.trans {exporter'' : Exporter} (first : exporter.Advanced agreed exporter')
    (second : exporter'.Advanced agreed exporter'') : exporter.Advanced agreed exporter'' :=
  ⟨first.saved.trans second.saved, fun key bytes present =>
    second.scales key bytes (first.scales key bytes present)⟩

theorem Store.loadIndex_saved (domain : store.saved.domainId = store.domainId) :
    store.loadIndex = .ok store.saved := by
  unfold Store.loadIndex
  cases file : store.indexFile with
  | none => simp [Store.saved, file]
  | some index =>
      have same : store.saved = index := by simp [Store.saved, file]
      rw [same] at domain ⊢
      simp [ensure, domain]

theorem Store.Grows.saved {store' : Store} (grows : store.Grows store') :
    store'.saved = store.saved := by
  rw [Store.saved, grows.index, grows.domain]
  rfl

theorem Exporter.sound_idle (saved : store.saved.Sound codec agreed store) :
    Exporter.Sound codec agreed ⟨store, none⟩ := by
  refine ⟨saved, ?_⟩
  intro phase none
  cases none

theorem Exporter.saved_sound (sound : index.Sound codec agreed exporter.store)
    (keeps : exporter.store.saved.Keeps agreed index) :
    (Exporter.saved index exporter.store).Sound codec agreed ∧
      exporter.Advanced agreed (Exporter.saved index exporter.store) := by
  have written : exporter.store.saveIndex index =
      .ok { exporter.store with indexFile := some index } := by
    simp [Store.saveIndex, ensure, sound.domain]
  simp only [Exporter.saved, written]
  refine ⟨Exporter.sound_idle ⟨sound.domain, sound.distinct, fun key record found certified =>
    ?_, sound.submitted⟩, keeps, fun _ _ present => present⟩
  obtain ⟨package, files, same⟩ := sound.held key record found certified
  exact ⟨package, ⟨files.scale, files.epoch, files.manifest⟩, same⟩

theorem Exporter.proceed_sound (sound : exporter.Sound codec agreed)
    {result : Store × Except String ExporterIndex} (grows : exporter.store.Grows result.1)
    {next : ExporterIndex → Phase}
    (follows : ∀ index, result.2 = .ok index → (next index).Sound codec agreed result.1) :
    (Exporter.proceed next result).Sound codec agreed ∧
      exporter.Advanced agreed (Exporter.proceed next result) := by
  have saved := sound.saved.grow grows
  rw [← grows.saved] at saved
  have keeps : exporter.store.saved.Keeps agreed result.1.saved := by
    rw [grows.saved]
    exact .refl _
  obtain ⟨store, returned⟩ := result
  cases returned with
  | error message => exact ⟨Exporter.sound_idle saved, keeps, grows.scales⟩
  | ok index =>
      refine ⟨⟨saved, ?_⟩, keeps, grows.scales⟩
      intro phase here
      cases here
      exact follows index rfl

theorem submissions_sound (sound : index.Sound codec agreed store)
    (keeps : store.saved.Keeps agreed index) :
    (Phase.submissions index (submissionWork index)).Sound codec agreed store := by
  refine ⟨⟨sound, keeps⟩, ?_, ?_⟩
  · exact sound.distinct.sublist (List.Sublist.map _ List.filter_sublist)
  · intro record member
    obtain ⟨listed, open'⟩ := List.mem_filter.mp member
    have conditions := of_decide_eq_true open'
    exact ⟨record, Keyed.lookup_of_mem sound.distinct listed, conditions.1, conditions.2⟩

theorem nextPhase_sound (sound : index.Sound codec agreed store)
    (keeps : store.saved.Keeps agreed index) (done last : EpochId) :
    (nextPhase index done last).Sound codec agreed store := by
  unfold nextPhase
  split
  · exact ⟨sound, keeps⟩
  · exact submissions_sound sound keeps

theorem submitPackage_eq_ok {record : PackageRecord} {now : UInt64}
    {response : Except RelaySubmitError RelaySubmitReceipt} {index' : ExporterIndex}
    (submitted : Exporter.submitPackage codec record now response index store = .ok index') :
    ∃ state error, index' = index.markSubmission record.toPackageKey state now error := by
  simp only [Exporter.submitPackage, bind_eq_ok] at submitted
  obtain ⟨_, _, _, _, noted⟩ := submitted
  cases response with
  | ok receipt =>
      simp only [bind_eq_ok] at noted
      obtain ⟨_, _, returned⟩ := noted
      cases returned
      exact ⟨_, _, rfl⟩
  | error error =>
      cases noted
      exact ⟨_, _, rfl⟩

theorem submit_sound {record : PackageRecord} {work : List PackageRecord}
    (sound : (Phase.submissions index (record :: work)).Sound codec agreed store)
    (state : RelaySubmissionState) (now : UInt64) (error : Option String) :
    (Phase.submissions (index.markSubmission record.toPackageKey state now error) work).Sound
      codec agreed store := by
  obtain ⟨⟨indexed, keeps⟩, distinct, open'⟩ := sound
  obtain ⟨fresh, distinct⟩ := List.nodup_cons.mp distinct
  obtain ⟨current, found, certified, unsubmitted⟩ := open' record List.mem_cons_self
  have marked := indexed.markSubmission found certified unsubmitted state now error
  refine ⟨⟨marked.1, keeps.trans marked.2⟩, distinct, ?_⟩
  intro other member
  have different : record.toPackageKey ≠ other.toPackageKey := by
    intro same
    exact fresh (same ▸ List.mem_map_of_mem member)
  rw [ExporterIndex.record_markSubmission different]
  exact open' other (List.mem_cons_of_mem _ member)

theorem Exporter.epoch_sound (sound : exporter.Sound codec agreed) {next last : EpochId}
    {replies : EpochReplies} (here : exporter.phase = some (.epochs index next last))
    (agrees : agreed → exporter.Agrees blake2 codec (.epoch replies)) :
    (Exporter.proceed (nextPhase · next last)
      (syncEpoch blake2 codec next replies index exporter.store)).Sound codec
        agreed ∧
      exporter.Advanced agreed
        (Exporter.proceed (nextPhase · next last)
          (syncEpoch blake2 codec next replies index exporter.store)) := by
  obtain ⟨indexed, keeps⟩ := sound.phase _ here
  unfold syncEpoch
  cases read : readEpoch blake2 next replies with
  | error message =>
      refine Exporter.proceed_sound sound (.refl _) ?_
      intro index failed
      cases failed
  | ok reading =>
      cases reading with
      | none =>
          refine Exporter.proceed_sound sound (.refl _) ?_
          intro index' same
          cases same
          exact nextPhase_sound indexed keeps next last
      | some reading =>
          obtain ⟨staged, readiness, leaves⟩ := reading
          have grows := grows_syncLeaves blake2 codec next staged readiness leaves
            index exporter.store
          refine Exporter.proceed_sound sound grows ?_
          intro index' synced
          have kept := indexed.syncLeaves (fun agree => agrees agree _ _ _ _ _ _ _ here read synced)
            (Prod.ext rfl synced)
          refine nextPhase_sound kept.1 ?_ next last
          rw [grows.saved]
          exact keeps.trans kept.2

theorem Exporter.start_sound (sound : exporter.Sound codec agreed)
    (staged : Option StagedSummaryView) :
    (Exporter.start staged exporter.store).Sound codec agreed ∧
      exporter.Advanced agreed (Exporter.start staged exporter.store) := by
  have loaded := Store.loadIndex_saved sound.saved.domain
  have indexed : ({ exporter.store.saved with latestStagedEpoch := staged.map (·.header.epochId) } :
      ExporterIndex).Sound codec agreed exporter.store :=
    ⟨sound.saved.domain, sound.saved.distinct, sound.saved.held, sound.saved.submitted⟩
  have keeps : exporter.store.saved.Keeps agreed
      { exporter.store.saved with latestStagedEpoch := staged.map (·.header.epochId) } :=
    ExporterIndex.Keeps.refl exporter.store.saved
  simp only [Exporter.start, loaded]
  cases staged with
  | none => exact Exporter.saved_sound indexed keeps
  | some staged =>
      refine ⟨⟨sound.saved, ?_⟩, .refl _, fun _ _ present => present⟩
      intro phase here
      cases here
      exact ⟨indexed, keeps⟩

theorem Exporter.Sound.apply (sound : exporter.Sound codec agreed)
    (agrees : agreed → exporter.Agrees blake2 codec event) :
    (exporter.apply blake2 codec event).Sound codec agreed ∧
      exporter.Advanced agreed (exporter.apply blake2 codec event) := by
  unfold Exporter.apply
  split
  · exact Exporter.start_sound sound _
  · rename_i replies index next last here
    exact Exporter.epoch_sound sound here agrees
  · rename_i now response index record work here
    have phase := sound.phase _ here
    refine Exporter.proceed_sound sound (.refl _) ?_
    intro index' submitted
    obtain ⟨state, error, noted⟩ := submitPackage_eq_ok submitted
    subst noted
    exact submit_sound phase state now error
  · rename_i index here
    obtain ⟨⟨indexed, keeps⟩, _⟩ := sound.phase _ here
    exact Exporter.saved_sound indexed keeps
  · exact ⟨Exporter.sound_idle sound.saved, .refl _, fun _ _ present => present⟩
  · exact ⟨sound, .refl _⟩

variable {admits : Exporter → SyncEvent → Prop}

theorem Exporter.sound (agrees : agreed → ∀ exporter event, admits exporter event →
    exporter.Agrees blake2 codec event)
    (reachable : (Exporter.system blake2 codec admits).Reachable exporter) :
    exporter.Sound codec agreed := by
  refine reachable.invariant (Exporter.Sound codec agreed) ?_ ?_
  · intro state initial
    obtain ⟨idle, empty, _⟩ := initial
    have saved : state.store.saved = .create state.store.domainId := by simp [Store.saved, empty]
    refine ⟨?_, ?_⟩
    · rw [saved]
      exact ExporterIndex.sound_create codec agreed state.store
    · intro phase here
      cases idle.symm.trans here
  · intro before after _ held step
    obtain ⟨event, admitted, taken⟩ := step
    subst taken
    exact (held.apply fun agree => agrees agree before event admitted).1

theorem Exporter.advanced
    (agrees : agreed → ∀ exporter event, admits exporter event → exporter.Agrees blake2 codec event)
    (reachable : (Exporter.system blake2 codec admits).Reachable exporter)
    (steps : Relation.ReflTransGen (Exporter.system blake2 codec admits).step exporter exporter') :
    exporter.Advanced agreed exporter' := by
  induction steps with
  | refl => exact .refl _
  | @tail middle last earlier step ih =>
      obtain ⟨event, admitted, taken⟩ := step
      subst taken
      have sound := Exporter.sound agrees (reachable.steps earlier)
      exact ih.trans (sound.apply fun agree => agrees agree middle event admitted).2

theorem Store.saved_eq (file : store.indexFile = some index) : store.saved = index := by
  rw [Store.saved, file]
  rfl

theorem Store.indexFile_of_record {key : PackageKey} {record : PackageRecord}
    (found : store.saved.record key = some record) : store.indexFile = some store.saved := by
  cases file : store.indexFile with
  | some index => rw [Store.saved_eq file]
  | none =>
      rw [Store.saved, file] at found
      cases found

/-- In every saved index there is one record a key. A package that is certified or submitted in one
stays certified, with its package hash and the bytes of its file, and stays submitted. Its summary
stays, and is that of its file, in the runs in which no other summary is staged over it. -/
theorem certified_records_write_once (blake2 : Bytes → Hash32) (codec : PackageCodec)
    (admits : Exporter → SyncEvent → Prop) (exporter : Exporter)
    (reachable : (Exporter.system blake2 codec admits).Reachable exporter) (index : ExporterIndex)
    (file : exporter.store.indexFile = some index) :
    (index.packages.map PackageRecord.toPackageKey).Nodup ∧
      ∀ exporter', Relation.ReflTransGen (Exporter.system blake2 codec admits).step
        exporter exporter' →
        ∀ record ∈ index.packages, record.status = .certified ∨
          record.relaySubmissionState = .submitted →
          ∃ index' record' package, exporter'.store.indexFile = some index' ∧
            index'.record record.toPackageKey = some record' ∧ record'.status = .certified ∧
            record'.packageHash = record.packageHash ∧
            (record.relaySubmissionState = .submitted → record'.relaySubmissionState = .submitted) ∧
            exporter.store.scales record.toPackageKey = some (codec.package.encode package) ∧
            exporter'.store.scales record.toPackageKey = some (codec.package.encode package) ∧
            ((∀ exporter event, admits exporter event → exporter.Agrees blake2 codec event) →
              record'.summaryHash = record.summaryHash ∧
                record'.summaryHash = package.header.summaryHash) := by
  let agreed := ∀ exporter event, admits exporter event → exporter.Agrees blake2 codec event
  have sound : exporter.Sound codec agreed := Exporter.sound id reachable
  have indexed := sound.saved
  rw [Store.saved_eq file] at indexed
  refine ⟨indexed.distinct, ?_⟩
  intro exporter' steps record member standing
  have advanced : exporter.Advanced agreed exporter' := Exporter.advanced id reachable steps
  have found : index.record record.toPackageKey = some record :=
    Keyed.lookup_of_mem indexed.distinct member
  have certified : record.status = .certified := by
    rcases standing with certified | submitted
    · exact certified
    · exact indexed.submitted _ record found submitted
  obtain ⟨package, files, _, summary⟩ := indexed.held _ record found certified
  have keeps := advanced.saved
  rw [Store.saved_eq file] at keeps
  obtain ⟨record', found', kept⟩ := keeps _ record found certified
  refine ⟨exporter'.store.saved, record', package, Store.indexFile_of_record found', found',
    kept.status, kept.package, kept.submitted, files.scale, advanced.scales _ _ files.scale, ?_⟩
  intro agree
  exact ⟨kept.summary agree, (kept.summary agree).trans (summary agree)⟩

end Runs

section Sample

def emptyStore : Store where
  domainId := .moon
  packagesDir := "packages"
  indexFile := none
  scales _ := none
  manifests _ := none

def epochSummary (summaryHash : Hash32) : StagedSummaryView :=
  ⟨{ moonHeader 0 with summaryHash }, 2⟩

def epochReplies (summaryHash : Hash32) (state : SummaryCertificationState) : EpochReplies where
  summary := .ok (some (epochSummary summaryHash))
  readiness := .ok ⟨emptyHash, state⟩
  answers := {
    exports := .ok [{
      leaf := (moonExport emptyHash 0).leaf, status := .localFinal, completionSummaryHash := none
      completionPackageHash := none, resolvedAtSourceBlockHeight := none, resolverAccount := none }]
    finalizedImports := .ok []
    governanceLeaves := .ok [] }

def exportLeaves : EpochLeaves := ⟨[(moonExport emptyHash 0).leaf], [], []⟩

def earthInputs : TargetPackageInputs := ⟨[(moonExport emptyHash 0).leaf], [], []⟩

theorem certifyTarget_exportLeaves :
    certifyTarget blankHash sampleCodec (moonHeader 0) sampleBundle 0 exportLeaves earthInputs =
      .ok (moonPackage 0 (exportItems 0)) := rfl

def firstIndex : ExporterIndex := { ExporterIndex.create .moon with latestStagedEpoch := some 0 }

def stagedRecord : PackageRecord :=
  .stagedAs ⟨0, .earth⟩ (stagingOf (epochSummary emptyHash) ⟨emptyHash,
    .ready sampleBundle⟩ earthInputs)

noncomputable def certifiedIndex (manifest : PackageManifest) : ExporterIndex :=
  { (firstIndex.put stagedRecord).put (stagedRecord.certify
      (emptyStore.certification ⟨0, .earth⟩ (moonPackage 0 (exportItems 0)) manifest)) with
    latestCertifiedEpoch := some 0
    latestCertifiedTargetDomain := some .earth }

noncomputable def packageStore (manifest : PackageManifest) : Store :=
  emptyStore.writePackage sampleCodec ⟨0, .earth⟩ (moonPackage 0 (exportItems 0)) manifest

theorem syncEpoch_ready :
    ∃ manifest, syncEpoch blankHash sampleCodec 0 (epochReplies emptyHash (.ready sampleBundle))
      firstIndex emptyStore =
      (packageStore manifest, .ok (certifiedIndex manifest)) := by
  have staged : (firstIndex.put stagedRecord).record ⟨(moonHeader 0).epochId, .earth⟩ =
      some stagedRecord := rfl
  obtain ⟨manifest, persisted⟩ :=
    Store.persistPackage_new blankHash sampleCodec sampleBundle (exportItems 0)
    (collectTargetExportIds earthInputs) staged rfl
    (rfl : emptyStore.scales ⟨(moonHeader 0).epochId, .earth⟩ = none)
  refine ⟨manifest, ?_⟩
  change certifyTargets blankHash sampleCodec (moonHeader 0) sampleBundle 0 exportLeaves
    [(.earth, earthInputs)] (firstIndex.put stagedRecord) emptyStore = _
  have built : certifyTarget blankHash sampleCodec (moonHeader 0) sampleBundle 0
      exportLeaves earthInputs =
      .ok (packageOf blankHash sampleCodec (moonHeader 0) sampleBundle (exportItems 0)) :=
        certifyTarget_exportLeaves
  simp only [certifyTargets, built, persisted]
  rfl

theorem submitPackage_sample (manifest : PackageManifest) {record : PackageRecord}
    (key : record.toPackageKey = ⟨0, .earth⟩) (index : ExporterIndex) :
    Exporter.submitPackage sampleCodec record 5 (.ok ⟨true, false, "queued"⟩) index
      (packageStore manifest) =
      .ok (index.markRelaySubmitted ⟨0, .earth⟩ 5) := by
  have loaded : (packageStore manifest).loadPackage sampleCodec ⟨0, .earth⟩ =
      .ok (manifest, moonPackage 0 (exportItems 0)) := by
    change (decodeAs _ _ (sampleCodec.package.encode _) >>= _) = _
    rw [decodeAs_encode]
    rfl
  rw [Exporter.submitPackage, key, loaded]
  rfl

noncomputable def submittedExporter (manifest : PackageManifest) : Exporter where
  store := { packageStore manifest with
    indexFile := some ((certifiedIndex manifest).markRelaySubmitted ⟨0, .earth⟩ 5) }
  phase := none

theorem submittedExporter_reachable {admits : Exporter → SyncEvent → Prop}
    (others : ∀ exporter event, (∀ replies, event ≠ .epoch replies) → admits exporter event)
    (epoch : admits ⟨emptyStore, some (.epochs firstIndex 0 0)⟩
      (.epoch (epochReplies emptyHash (.ready sampleBundle)))) :
    ∃ manifest, (Exporter.system blankHash sampleCodec admits).Reachable
      (submittedExporter manifest) := by
  obtain ⟨manifest, synced⟩ := syncEpoch_ready
  refine ⟨manifest, ?_⟩
  have empty : (Exporter.system blankHash sampleCodec admits).Reachable ⟨emptyStore, none⟩ :=
    .start ⟨rfl, rfl, fun _ => rfl, fun _ => rfl⟩
  have started : (Exporter.system blankHash sampleCodec admits).Reachable ⟨emptyStore,
      some (.epochs firstIndex 0 0)⟩ :=
    .next empty ⟨.latest (.ok (some (epochSummary emptyHash))), others _ _ fun _ => by simp, rfl⟩
  have certified : (Exporter.system blankHash sampleCodec admits).Reachable ⟨packageStore manifest,
      some (.submissions (certifiedIndex manifest)
        (submissionWork (certifiedIndex manifest)))⟩ := by
    refine .next started ⟨_, epoch, ?_⟩
    change _ = Exporter.proceed (nextPhase · 0 0) (syncEpoch _ _ _ _ firstIndex emptyStore)
    rw [synced]
    rfl
  have submitted : (Exporter.system blankHash sampleCodec admits).Reachable ⟨packageStore manifest,
      some (.submissions ((certifiedIndex manifest).markRelaySubmitted ⟨0, .earth⟩ 5) [])⟩ := by
    refine .next certified ⟨.submit 5 (.ok ⟨true, false, "queued"⟩),
      others _ _ fun _ => by simp, ?_⟩
    change _ = Exporter.proceed (.submissions · []) (packageStore manifest,
      Exporter.submitPackage sampleCodec _ 5 _ (certifiedIndex manifest) (packageStore manifest))
    rw [submitPackage_sample]
    · rfl
    · rfl
  exact .next submitted ⟨.save, others _ _ fun _ => by simp, rfl⟩

theorem record_submittedExporter (manifest : PackageManifest) :
    ∃ index record, (submittedExporter manifest).store.indexFile = some index ∧
      index.packages = [record] ∧
      record.toPackageKey = ⟨0, .earth⟩ ∧ record.status = .certified ∧
        record.relaySubmissionState = .submitted ∧
      record.summaryHash = emptyHash :=
  ⟨_, _, rfl, rfl, rfl, rfl, rfl, rfl⟩

/-- The next run finds the summary staged, and no certificate for it yet. -/
noncomputable def restagedExporter (manifest : PackageManifest) (summaryHash : Hash32) : Exporter :=
  (((submittedExporter manifest).apply blankHash sampleCodec
    (.latest (.ok (some (epochSummary summaryHash))))).apply
    blankHash sampleCodec (.epoch
      (epochReplies summaryHash (.pending .targetBlockNotFinalized)))).apply
    blankHash sampleCodec .save

theorem restagedExporter_steps {admits : Exporter → SyncEvent → Prop}
    (others : ∀ exporter event, (∀ replies, event ≠ .epoch replies) → admits exporter event)
    {manifest : PackageManifest} {summaryHash : Hash32}
    (epoch : admits ((submittedExporter manifest).apply blankHash sampleCodec
        (.latest (.ok (some (epochSummary summaryHash)))))
      (.epoch (epochReplies summaryHash (.pending .targetBlockNotFinalized)))) :
    Relation.ReflTransGen (Exporter.system blankHash sampleCodec admits).step
      (submittedExporter manifest) (restagedExporter manifest summaryHash) :=
  ((Relation.ReflTransGen.single ⟨_, others _ _ fun _ => by simp, rfl⟩).tail ⟨_, epoch, rfl⟩).tail
    ⟨.save, others _ _ fun _ => by simp, rfl⟩

/-- The package is certified and submitted in a first run, and the second stages the same
summary. -/
theorem certified_records_write_once_sample :
    ∃ exporter exporter' index index' record record' package,
      (Exporter.system blankHash sampleCodec (Exporter.Agrees blankHash sampleCodec)).Reachable
        exporter ∧
      Relation.ReflTransGen (Exporter.system blankHash sampleCodec
        (Exporter.Agrees blankHash sampleCodec)).step exporter exporter' ∧
      exporter.store.indexFile = some index ∧ record ∈ index.packages ∧ record.status = .certified ∧
      record.relaySubmissionState = .submitted ∧
      exporter.store.scales record.toPackageKey = some (sampleCodec.package.encode package) ∧
      record.summaryHash = package.header.summaryHash ∧
      exporter'.store.indexFile = some index' ∧ index'.record record.toPackageKey = some record' ∧
      record'.status = .certified ∧ record'.relaySubmissionState = .submitted := by
  have others (exporter : Exporter) (event : SyncEvent) (other : ∀ replies,
      event ≠ .epoch replies) :
      exporter.Agrees blankHash sampleCodec event := by
    cases event with
    | epoch replies => exact absurd rfl (other replies)
    | latest | submit | save | stop => trivial
  have fresh : Exporter.Agrees blankHash sampleCodec ⟨emptyStore, some (.epochs firstIndex 0 0)⟩
      (.epoch (epochReplies emptyHash (.ready sampleBundle))) := by
    intro index next last staged readiness leaves index' here _ _ target _ record found
    cases here
    cases found
  obtain ⟨manifest, reachable⟩ := submittedExporter_reachable others fresh
  have again : Exporter.Agrees blankHash sampleCodec
      ((submittedExporter manifest).apply blankHash sampleCodec
      (.latest (.ok (some (epochSummary emptyHash)))))
      (.epoch (epochReplies emptyHash (.pending .targetBlockNotFinalized))) := by
    intro index next last staged readiness leaves index' here read _ target _ record found _
    cases here
    cases read
    cases target with
    | earth =>
        cases found
        rfl
    | moon | mars => cases found
  have steps := restagedExporter_steps others again
  obtain ⟨index, record, file, packages, _, certified, submitted, _⟩ :=
    record_submittedExporter manifest
  have member : record ∈ index.packages := packages ▸ List.mem_singleton_self record
  obtain ⟨index', record', package, file', found, certified', _, submitted', scale, _, summaries⟩ :=
    (certified_records_write_once blankHash sampleCodec _ _ reachable index file).2 _ steps record
      member (.inl certified)
  obtain ⟨same, summary⟩ := summaries fun _ _ admitted => admitted
  exact ⟨_, _, index, index', record, record', package, reachable, steps, file, member,
    certified, submitted, scale, same.symm.trans summary, file', found, certified',
    submitted' submitted⟩

def otherHash : Hash32 := List.Vector.replicate 32 1

/-- The node answers with another summary of an epoch whose package is certified, and with no
certificate for it. The record gets that summary, and stays certified with the package of the
first. -/
theorem certified_summary_staged_over :
    ∃ exporter exporter' index index' record record' package,
      (Exporter.system blankHash sampleCodec fun _ _ => True).Reachable exporter ∧
      Relation.ReflTransGen (Exporter.system blankHash sampleCodec fun _ _ => True).step
        exporter exporter' ∧
      exporter.store.indexFile = some index ∧ index.record ⟨0, .earth⟩ = some record ∧
        record.status = .certified ∧
      exporter'.store.indexFile = some index' ∧ index'.record ⟨0, .earth⟩ = some record' ∧
      record'.status = .certified ∧ record'.summaryHash ≠ record.summaryHash ∧
      exporter'.store.scales ⟨0, .earth⟩ = some (sampleCodec.package.encode package) ∧
      record'.summaryHash ≠ package.header.summaryHash := by
  obtain ⟨manifest, reachable⟩ :
      ∃ manifest, (Exporter.system blankHash sampleCodec fun _ _ => True).Reachable
      (submittedExporter manifest) := submittedExporter_reachable (fun _ _ _ => trivial) trivial
  have steps : Relation.ReflTransGen (Exporter.system blankHash sampleCodec fun _ _ => True).step
      (submittedExporter manifest) (restagedExporter manifest otherHash) :=
    restagedExporter_steps (fun _ _ _ => trivial) trivial
  refine ⟨_, _, _, _, _, _, moonPackage 0 (exportItems 0), reachable, steps, rfl, rfl, rfl, rfl,
    rfl, rfl, ?_, rfl, ?_⟩
  · change otherHash ≠ emptyHash
    decide
  · change otherHash ≠ emptyHash
    decide

end Sample

end Ialp.Services.Sync
