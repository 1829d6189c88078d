import Ialp.Services.ImporterRuns

/-!
Packages that are received while the processor is at work on another. The processor keeps an index
of its own from the start of a package to its end and writes it over the one on disk, so that what
is received meanwhile is lost; nothing is lost when packages are received only while the processor
is between two packages.
-/

namespace Ialp.Services

open Scale Function

section Standings

variable {σ τ υ : PackageIdentity → Option Bool} {store : Store} {index : ImporterIndex}
  {record : PackageRecord}

def Advances (σ τ : PackageIdentity → Option Bool) : Prop :=
  ∀ identity done, σ identity = some done → ∃ done', τ identity = some done' ∧
    (done = true → done' = true)

theorem Advances.refl (σ : PackageIdentity → Option Bool) : Advances σ σ :=
  fun _ done known => ⟨done, known, id⟩

theorem Advances.trans (first : Advances σ τ) (second : Advances τ υ) : Advances σ υ := by
  intro identity done known
  obtain ⟨between, known', keeps⟩ := first identity done known
  obtain ⟨after, known'', keeps'⟩ := second identity between known'
  exact ⟨after, known'', fun done => keeps' (keeps done)⟩

theorem Advances.update {identity : PackageIdentity} (undone : σ identity ≠ some true)
    (done : Bool) : Advances σ (update σ identity (some done)) := by
  intro other before known
  by_cases same : other = identity
  · subst same
    exact ⟨done, update_self _ _ _, fun terminal => absurd (terminal ▸ known) undone⟩
  · exact ⟨before, by rw [update_of_ne same]; exact known, id⟩

namespace Store

def fileStanding (store : Store) (identity : PackageIdentity) : Option Bool :=
  (store.packages identity).map (·.state.isTerminal)

/-- The index on disk can be loaded, it and the package files have the standing, and a package file
is filed under the identity of the record in it. -/
structure Sound (σ : PackageIdentity → Option Bool) (store : Store) : Prop where
  synced : ∃ index, store.loadIndex = .ok index ∧ index.standing = σ
  files : store.fileStanding = σ
  labelled : ∀ identity record, store.packages identity = some record →
    record.toPackageIdentity = identity

theorem synced_of_v2 (same : index.domainId = store.domainId)
    (file : store.indexFile = some (.v2 index)) :
    ∃ loaded, store.loadIndex = .ok loaded ∧ loaded.standing = index.standing := by
  refine ⟨{ index with packages := index.packages.map resetVerifying }, ?_,
    standing_map_reset index⟩
  simp [loadIndex, file, readIndex, ensure, same]

theorem Sound.save (sound : store.Sound σ) (standing : index.standing = σ)
    (same : index.domainId = store.domainId) :
    ({ store with indexFile := some (.v2 index) } : Store).Sound σ :=
  ⟨standing ▸ synced_of_v2 same rfl, sound.files, sound.labelled⟩

theorem Sound.filed (sound : store.Sound σ) (record : PackageRecord) (standing : index.standing = σ)
    (same : index.domainId = store.domainId) : (store.filed record index).Sound
      (update σ record.toPackageIdentity (some record.state.isTerminal)) where
  synced := by
    rw [← standing, ← ImporterIndex.standing_upsertPackage]
    exact synced_of_v2 same rfl
  files := by
    funext identity
    by_cases here : identity = record.toPackageIdentity
    · simp [fileStanding, Store.filed, persistPackageRecord, here]
    · simpa [fileStanding, Store.filed, persistPackageRecord, here] using congrFun
        sound.files identity
  labelled := by
    intro identity current found
    rcases update_eq_some.mp found with ⟨same, rfl⟩ | ⟨_, before⟩
    · exact same.symm
    · exact sound.labelled identity current before

end Store

end Standings

section Processor

variable {blake2 : Bytes → Hash32} {codec : PackageCodec}
  {certified : CertifiedSummaryPackage → Except Halt Unit} {σ τ : PackageIdentity → Option Bool}
  {domain : DomainId} {store : Store} {job : Job} {record : PackageRecord} {now : UInt64}

/-- A package in process is not done with: the index loaded at its start still agrees with the one
on disk. -/
structure Job.Sound (σ : PackageIdentity → Option Bool) (store : Store) (job : Job) : Prop where
  standing : job.index.standing = σ
  domain : job.index.domainId = store.domainId
  pending : σ job.record.toPackageIdentity = some false

def Stage.Sound (σ : PackageIdentity → Option Bool) (store : Store) : Stage → Prop
  | transfers _ index _ _ => index.standing = σ ∧ index.domainId = store.domainId
  | governance _ _ => True

def Processor.Sound (σ : PackageIdentity → Option Bool) (store : Store) : Processor → Prop
  | ready _ | stopped => True
  | contacting job => job.Sound σ store
  | importing job stage _ _ => job.Sound σ store ∧ stage.Sound σ store
  | refreshing _ refreshed => refreshed.standing = σ ∧ refreshed.domainId = store.domainId

/-- Where the processor stands at its next await. It changes the standing of a package only on the
way to the index that it then installs. -/
structure Progressed (σ : PackageIdentity → Option Bool) (domain : DomainId)
    (result : Processor × Store) : Prop where
  domain : result.2.domainId = domain
  reached : ∃ τ, Advances σ τ ∧ result.2.Sound τ ∧ result.1.Sound τ result.2 ∧
    (τ = σ ∨ ∃ queue refreshed, result.1 = .refreshing queue refreshed)

theorem progressed_ready (sound : store.Sound σ) : Progressed σ store.domainId (.ready [], store) :=
  ⟨rfl, σ, .refl σ, sound, trivial, .inl rfl⟩

theorem progressed_stopped (sound : store.Sound σ) :
    Progressed σ store.domainId (.stopped, store) :=
  ⟨rfl, σ, .refl σ, sound, trivial, .inl rfl⟩

theorem progressed_refresh (sound : store.Sound τ) (advances : Advances σ τ)
    (queue : List PackageIdentity) : Progressed σ store.domainId (refresh queue store) := by
  obtain ⟨index, loaded, standing⟩ := sound.synced
  rw [refresh, loaded]
  exact ⟨rfl, τ, advances, sound, ⟨standing, Store.domainId_of_load loaded⟩,
    .inr ⟨queue, index, rfl⟩⟩

theorem progressed_reject (sound : store.Sound σ)
    (pending : σ record.toPackageIdentity = some false) (queue : List PackageIdentity)
    (error : ProcessPackageError) :
    Progressed σ store.domainId (rejectPackage record queue error now store) := by
  obtain ⟨index, loaded, standing⟩ := sound.synced
  have same := Store.domainId_of_load loaded
  subst standing
  simp only [rejectPackage, finalizePackageError, loaded, ok_bind]
  rw [Store.saveIndex_filed _ same]
  exact progressed_refresh (sound.filed _ rfl same) (.update (by simp [pending]) _) queue

theorem progressed_finish (sound : store.Sound σ) (working : job.Sound σ store)
    (outcome : ProcessPackageOutcome) :
    Progressed σ store.domainId (finishPackage job outcome now store) := by
  obtain ⟨refreshed, found, _⟩ :=
    Option.map_eq_some_iff.mp ((congrFun sound.files _).trans working.pending)
  have undone : σ refreshed.toPackageIdentity ≠ some true := by
    rw [sound.labelled _ _ found, working.pending]
    decide
  simp only [finishPackage, Store.loadPackage, found]
  rw [Store.saveIndex_filed _ working.domain]
  refine progressed_refresh (sound.filed _ working.standing working.domain) ?_ job.queue
  exact .update undone _

theorem progressed_begin (sound : store.Sound σ) (identity : PackageIdentity)
    (queue : List PackageIdentity) :
    Progressed σ store.domainId (beginPackage blake2 codec certified identity queue now store) := by
  obtain ⟨index, loaded, standing⟩ := sound.synced
  have same := Store.domainId_of_load loaded
  simp only [beginPackage, loaded]
  cases known : index.package identity with
  | none => exact progressed_ready sound
  | some found =>
      by_cases terminal : found.state.isTerminal = true
      · simp only [terminal, if_true]
        exact progressed_refresh sound (.refl σ) queue
      · have label : found.toPackageIdentity = identity := Keyed.key_of_lookup known
        have pending : σ found.toPackageIdentity = some false := by
          rw [label, ← standing, ImporterIndex.standing, known]
          simp [terminal]
        simp only [terminal, Bool.false_eq_true, if_false]
        generalize marking :
          ({ found with state := .verifying, lastUpdatedAtUnixMs := now, reason := none } :
          PackageRecord) = record
        have open' : σ record.toPackageIdentity = some false := by rw [← marking]; exact pending
        -- Marking the package as being verified changes no standing.
        have unchanged : update σ record.toPackageIdentity (some record.state.isTerminal) = σ := by
          rw [← marking]
          exact update_eq_self_iff.mpr pending.symm
        have marked := unchanged ▸ sound.filed record standing same
        rw [Store.saveIndex_filed _ same]
        simp only
        cases (store.filed record index).loadPackageBytes record with
        | error message => exact progressed_ready marked
        | ok payload =>
            simp only
            cases checkPackage blake2 codec certified
              (store.filed record index).domainId payload with
            | error halt =>
                cases halt with
                | failed message => exact progressed_reject marked open' queue _
                | overflow => exact progressed_stopped marked
            | ok checked =>
                refine ⟨rfl, σ, .refl σ, marked, ⟨?_, same, open'⟩, .inl rfl⟩
                rw [← unchanged, ← standing]
                exact ImporterIndex.standing_upsertPackage record index

structure InProcess (σ : PackageIdentity → Option Bool) (domain : DomainId) (job : Job)
    (store : Store) : Prop where
  sound : store.Sound σ
  job : job.Sound σ store
  domain : store.domainId = domain

theorem InProcess.save (working : InProcess σ domain job store) {index : ImporterIndex}
    (standing : index.standing = σ) (same : index.domainId = store.domainId) :
    InProcess σ domain job { store with indexFile := some (.v2 index) } :=
  ⟨working.sound.save standing same,
    ⟨working.job.standing, working.job.domain, working.job.pending⟩, working.domain⟩

theorem InProcess.persist (working : InProcess σ domain job store)
    (records : ExportId → Option ImportRecord) : InProcess σ domain job { store with records } :=
  ⟨⟨working.sound.synced, working.sound.files, working.sound.labelled⟩,
    ⟨working.job.standing, working.job.domain, working.job.pending⟩, working.domain⟩

theorem Stage.sound_open {items : VerifiedPackageItems} {kind : StageKind} {stage : Stage}
    (sound : store.Sound σ) (opened : openStage items store kind = .ok stage) :
    stage.Sound σ store := by
  obtain ⟨index, loaded, standing⟩ := sound.synced
  cases opened_of_ok opened with
  | transfers direction loaded' =>
      cases Except.ok.inj (loaded'.symm.trans loaded)
      exact ⟨standing, Store.domainId_of_load loaded⟩
  | governance => trivial

theorem InProcess.close (working : InProcess σ domain job store) {stage : Stage}
    (sound : stage.Sound σ store) {outcome : ProcessPackageOutcome} {store' : Store}
    (closed : stage.close store = .ok (outcome, store')) : InProcess σ domain job store' := by
  rcases Stage.close_eq_ok closed with same | ⟨direction, index, rest, counts, shape, written⟩
  · subst same
    exact working
  · subst shape written
    exact working.save sound.1 sound.2

theorem InProcess.answer (working : InProcess σ domain job store) {stage stage' : Stage}
    (sound : stage.Sound σ store) {package : CertifiedSummaryPackage}
    {answer : Answer} {store' : Store}
    (answered : stage.answer package store answer = .ok (stage', store')) :
    InProcess σ domain job store' ∧ stage'.Sound σ store' := by
  cases (answered_of_ok answered).2 with
  | recorded => exact ⟨working.persist _, sound⟩
  | imported => exact ⟨working, sound⟩
  | ended => exact ⟨working, sound⟩

theorem InProcess.rule (σ : PackageIdentity → Option Bool) (domain : DomainId)
    (job : Job) (now : UInt64) :
    LoopRule job now (Progressed σ domain) (fun _ => InProcess σ domain job)
      (fun stage _ store => InProcess σ domain job store ∧ stage.Sound σ store) where
  opens working opened := ⟨working, Stage.sound_open working.sound opened⟩
  closes within _ closed := within.1.close within.2 closed
  waits _ within _ := ⟨within.1.domain, σ, .refl σ, within.1.sound,
    ⟨within.1.job, within.2⟩, .inl rfl⟩
  unopened _ error working :=
    working.domain ▸ progressed_reject working.sound working.job.pending _ error
  unclosed _ error within :=
    within.1.domain ▸ progressed_reject within.1.sound within.1.job.pending _ error
  finishes outcome working := working.domain ▸ progressed_finish working.sound working.job outcome

theorem progressed_contact (working : InProcess σ domain job store) (contact : Contact) :
    Progressed σ domain (resumeContact job now store contact) := by
  cases contact with
  | lost => exact working.domain ▸ progressed_ready working.sound
  | failed error => exact (InProcess.rule σ domain job now).unopened [] error working
  | made => exact (InProcess.rule σ domain job now).run _ [] store working

theorem progressed_stage (working : InProcess σ domain job store) {stage : Stage}
    (sound : stage.Sound σ store) (outcomes : List ProcessPackageOutcome) (later : List StageKind)
    (answer : Answer) :
    Progressed σ domain (resumeStage job stage outcomes later answer now store) := by
  have rule := InProcess.rule σ domain job now
  unfold resumeStage
  cases answered : stage.answer job.package store answer with
  | error error => exact rule.unclosed later error ⟨working, sound⟩
  | ok next => exact rule.settle (rule.run later) (working.answer sound answered) outcomes

end Processor

section Ingest

variable {blake2 : Bytes → Hash32} {codec : PackageCodec} {store : Store}
  {memory : ImporterIndex} {body : Bytes} {now : UInt64}

theorem Ingested.sound {record : PackageRecord} {memory' : ImporterIndex} {store' : Store}
    (ingested : Ingested blake2 codec body now memory store record memory' store')
    (sound : store.Sound memory.standing) :
    store'.Sound memory'.standing ∧ Advances memory.standing memory'.standing ∧
      memory'.standing record.toPackageIdentity ≠ none ∧ memory'.domainId = store'.domainId := by
  obtain ⟨envelope, package, packageView, _, known, _, written⟩ := ingested.opened
  have payload : ({ store with
      payloads := update store.payloads record.toPackageIdentity (some envelope.packageBytes) } :
        Store).Sound
      memory.standing := ⟨sound.synced, sound.files, sound.labelled⟩
  rw [ingested.indexed, ImporterIndex.standing_upsertPackage, written]
  refine ⟨payload.filed record rfl ingested.domain, ?_, by simp, ingested.domain⟩
  cases found : memory.package (packageView.identity package.packageHash) with
  | none =>
      rw [found] at known
      subst known
      exact .update (by simp [ImporterIndex.standing, Store.buildPackageRecord, found]) _
  | some current =>
      rw [found] at known
      subst known
      have label : record.toPackageIdentity = packageView.identity package.packageHash :=
        Keyed.key_of_lookup found
      rw [update_eq_self_iff.mpr (by simp [ImporterIndex.standing, label, found])]
      exact .refl _

end Ingest

namespace Importer

variable {blake2 : Bytes → Hash32} {codec : PackageCodec}
  {certified : CertifiedSummaryPackage → Except Halt Unit} {domain : DomainId}
  {importer importer' : Importer} {event : ImporterEvent}

/-- Packages are received only while the processor has no package in process. -/
def Quiet (importer : Importer) : ImporterEvent → Prop
  | .receive _ _ => (∃ queue, importer.processor = .ready queue) ∨ importer.processor = .stopped
  | _ => True

structure Consistent (importer : Importer) : Prop where
  progressed : Progressed importer.memory.standing importer.memory.domainId
    (importer.processor, importer.store)
  accepted : ∀ identity ∈ importer.accepted, importer.memory.standing identity ≠ none

theorem consistent_initial : (initial domain).Consistent where
  progressed := by
    have fresh : (initial domain).store.Sound (initial domain).memory.standing :=
      ⟨⟨.create domain, rfl, rfl⟩, rfl, fun identity record found => by cases found⟩
    exact progressed_ready fresh
  accepted _ member := by cases member

theorem Consistent.sound (consistent : importer.Consistent)
    (other : ∀ queue refreshed, importer.processor ≠ .refreshing queue refreshed) :
    importer.store.Sound importer.memory.standing ∧
      importer.processor.Sound importer.memory.standing importer.store := by
  obtain ⟨τ, _, sound, processor, same | ⟨queue, refreshed, refreshing⟩⟩ :=
    consistent.progressed.reached
  · subst same
    exact ⟨sound, processor⟩
  · exact absurd refreshing (other queue refreshed)

structure Advanced (importer importer' : Importer) : Prop where
  memory : Advances importer.memory.standing importer'.memory.standing
  disk : Advances importer.store.fileStanding importer'.store.fileStanding

theorem Advanced.refl (importer : Importer) : Advanced importer importer := ⟨.refl _, .refl _⟩

theorem Consistent.proceed (consistent : importer.Consistent) {result : Processor × Store}
    (sound : importer.store.Sound importer.memory.standing)
    (progressed : Progressed importer.memory.standing importer.memory.domainId result) :
    (importer.proceed result).Consistent ∧ Advanced importer (importer.proceed result) := by
  obtain ⟨τ, advances, reached, _⟩ := progressed.reached
  refine ⟨⟨progressed, consistent.accepted⟩, .refl _, ?_⟩
  rw [sound.files]
  change Advances _ result.2.fileStanding
  rw [reached.files]
  exact advances

theorem Consistent.receive (consistent : importer.Consistent)
    (ready : (∃ queue, importer.processor = .ready queue) ∨ importer.processor = .stopped)
    (body : Bytes) (now : UInt64) : (importer.receive blake2 codec body now).Consistent ∧
      Advanced importer (importer.receive blake2 codec body now) := by
  unfold Importer.receive
  split
  · exact ⟨consistent, .refl _⟩
  · rename_i receipt memory store received
    have idle : ∀ σ store, importer.processor.Sound σ store := by
      rcases ready with ⟨queue, ready⟩ | stopped
      · simp [ready, Processor.Sound]
      · simp [stopped, Processor.Sound]
    have settled : ∀ queue refreshed, importer.processor ≠ .refreshing queue refreshed := by
      rcases ready with ⟨queue, ready⟩ | stopped
      · simp [ready]
      · simp [stopped]
    have sound := (consistent.sound settled).1
    obtain ⟨written, advances, present, same⟩ := (receivePackage_ingested received).sound sound
    refine ⟨⟨⟨same.symm, _, .refl _, written, idle _ _, .inl rfl⟩, ?_⟩, advances, ?_⟩
    · intro identity member
      rcases List.mem_append.mp member with before | new
      · obtain ⟨done, known⟩ := Option.ne_none_iff_exists'.mp (consistent.accepted identity before)
        obtain ⟨done', known', _⟩ := advances identity done known
        simp [known']
      · rw [List.mem_singleton.mp new]
        exact present
    · rw [sound.files]
      change Advances _ store.fileStanding
      rw [written.files]
      exact advances

theorem Consistent.replace (consistent : importer.Consistent) {memory : ImporterIndex}
    {queue : List PackageIdentity} (standing : memory.standing = importer.store.fileStanding)
    (same : memory.domainId = importer.store.domainId) :
    ({ importer with memory, processor := .ready queue } : Importer).Consistent ∧
      Advanced importer { importer with memory, processor := .ready queue } := by
  obtain ⟨τ, advances, sound, _⟩ := consistent.progressed.reached
  have agrees : memory.standing = τ := standing.trans sound.files
  subst agrees
  refine ⟨⟨⟨same.symm, _, .refl _, sound, trivial, .inl rfl⟩, ?_⟩, advances, .refl _⟩
  intro identity member
  obtain ⟨done, known⟩ := Option.ne_none_iff_exists'.mp (consistent.accepted identity member)
  obtain ⟨done', known', _⟩ := advances identity done known
  simp [known']

variable (blake2 codec certified) in
theorem Consistent.apply (consistent : importer.Consistent) (quiet : importer.Quiet event) :
    (importer.apply blake2 codec certified event).Consistent ∧
      Advanced importer (importer.apply blake2 codec certified event) := by
  unfold Importer.apply
  split
  · exact consistent.receive quiet _ _
  · rename_i ready
    have sound := (consistent.sound (by simp [ready])).1
    exact ⟨⟨⟨consistent.progressed.domain, _, .refl _, sound, trivial, .inl rfl⟩,
      consistent.accepted⟩, .refl _, .refl _⟩
  · rename_i now identity queue ready
    have sound := (consistent.sound (by simp [ready])).1
    exact consistent.proceed sound
      (consistent.progressed.domain ▸ progressed_begin sound identity queue)
  · rename_i contact now job contacting
    obtain ⟨sound, working⟩ := consistent.sound (by simp [contacting])
    rw [contacting] at working
    exact consistent.proceed sound
      (progressed_contact ⟨sound, working, consistent.progressed.domain⟩ contact)
  · rename_i answer now job stage outcomes later importing
    obtain ⟨sound, working⟩ := consistent.sound (by simp [importing])
    rw [importing] at working
    exact consistent.proceed sound
      (progressed_stage ⟨sound, working.1, consistent.progressed.domain⟩ working.2
        outcomes later answer)
  · rename_i queue refreshed refreshing
    obtain ⟨τ, _, sound, processor, _⟩ := consistent.progressed.reached
    rw [refreshing] at processor
    exact consistent.replace (processor.1.trans sound.files.symm) processor.2
  · split
    · exact ⟨consistent, .refl _⟩
    · rename_i index loaded
      obtain ⟨τ, _, sound, _⟩ := consistent.progressed.reached
      obtain ⟨_, again, standing⟩ := sound.synced
      cases loaded.symm.trans again
      exact consistent.replace (standing.trans sound.files.symm) (Store.domainId_of_load loaded)
  · exact ⟨consistent, .refl _⟩

theorem consistent (reachable : (system blake2 codec certified domain Quiet).Reachable importer) :
    importer.Consistent := by
  refine reachable.invariant Importer.Consistent ?_ ?_
  · intro state initial
    subst initial
    exact consistent_initial
  · intro before after _ held step
    obtain ⟨event, quiet, rfl⟩ := step
    exact (held.apply blake2 codec certified quiet).1

theorem advanced_steps (reachable : (system blake2 codec certified domain Quiet).Reachable importer)
    (steps : Relation.ReflTransGen (system blake2 codec certified domain Quiet).step
      importer importer') :
    Advanced importer importer' := by
  induction steps with
  | refl => exact .refl _
  | tail earlier last ih =>
      obtain ⟨event, quiet, rfl⟩ := last
      have next := ((consistent (reachable.steps earlier)).apply blake2 codec certified quiet).2
      exact ⟨ih.memory.trans next.memory, ih.disk.trans next.disk⟩

end Importer

/-- While packages are received only between two packages of the processor: every accepted package
is in the index in memory and in the one on disk, and no package that is done with, in memory, on
disk or in its file, is ever not done with again. -/
theorem ingest_not_lost (blake2 : Bytes → Hash32) (codec : PackageCodec)
    (certified : CertifiedSummaryPackage → Except Halt Unit) (domain : DomainId)
    (importer : Importer)
    (reachable : (Importer.system blake2 codec certified domain Importer.Quiet).Reachable
      importer) :
    (∀ identity ∈ importer.accepted, (importer.memory.package identity).isSome ∧
      ∃ index, importer.store.loadIndex = .ok index ∧ (index.package identity).isSome) ∧
    ∀ importer', Relation.ReflTransGen
      (Importer.system blake2 codec certified domain Importer.Quiet).step importer
        importer' → ∀ identity,
      (importer.memory.standing identity = some true →
        importer'.memory.standing identity = some true) ∧
      (∀ index, importer.store.loadIndex = .ok index → index.standing identity = some true →
        ∃ index', importer'.store.loadIndex = .ok index' ∧ index'.standing identity = some true) ∧
      (importer.store.fileStanding identity = some true →
        importer'.store.fileStanding identity = some true) := by
  have keeps {σ τ : PackageIdentity → Option Bool} (advances : Advances σ τ)
      {identity : PackageIdentity} (done : σ identity = some true) : τ identity = some true := by
    obtain ⟨done', known, stays⟩ := advances identity true done
    rw [known, stays rfl]
  obtain ⟨τ, advances, sound, _⟩ := (Importer.consistent reachable).progressed.reached
  constructor
  · intro identity member
    obtain ⟨done, known⟩ :=
      Option.ne_none_iff_exists'.mp ((Importer.consistent reachable).accepted identity member)
    obtain ⟨done', known', _⟩ := advances identity done known
    obtain ⟨index, loaded, standing⟩ := sound.synced
    rw [← standing] at known'
    have present {index : ImporterIndex} {done : Bool}
        (known : index.standing identity = some done) :
        (index.package identity).isSome := by
      obtain ⟨record, found, _⟩ := Option.map_eq_some_iff.mp known
      simp [found]
    exact ⟨present known, index, loaded, present known'⟩
  · intro importer' steps identity
    have advanced := Importer.advanced_steps reachable steps
    obtain ⟨τ', _, sound', _⟩ := (Importer.consistent (reachable.steps steps)).progressed.reached
    refine ⟨keeps advanced.memory, fun index loaded done => ?_, keeps advanced.disk⟩
    obtain ⟨_, again, standing⟩ := sound.synced
    obtain ⟨index', loaded', standing'⟩ := sound'.synced
    cases loaded.symm.trans again
    refine ⟨index', loaded', ?_⟩
    rw [standing', ← sound'.files]
    exact keeps advanced.disk (by rw [sound.files, ← standing, done])

section Sample

def exportItems (epoch : EpochId) : VerifiedPackageItems where
  exportProofs := [moonExport emptyHash epoch]
  finalizedImportProofs := []
  governanceProofs := []

theorem exportItems_checked (epoch : EpochId) :
    Checked blankHash (moonPackage epoch (exportItems epoch)) .earth (exportItems epoch) := by
  constructor
  · intro proof member
    rw [List.mem_singleton.mp member]
    exact checkExportProof_eq_ok.mpr ⟨rfl, ⟨rfl, rfl⟩, rfl, rfl⟩
  · intro proof member
    cases member
  · intro proof member
    cases member

noncomputable def exportBody (epoch : EpochId) : Bytes := moonBody epoch (exportItems epoch)

theorem receive_exportBody (importer : Importer) (domain : importer.memory.domainId = .earth)
    (same : importer.store.domainId = .earth) (epoch : EpochId) (now : UInt64)
    (unknown : importer.memory.package (moonIdentity epoch) = none)
    (unwritten : importer.store.payloads (moonIdentity epoch) = none) :
    importer.receive blankHash sampleCodec (exportBody epoch) now = {
      importer with
      memory := importer.memory.upsertPackage (moonRecord epoch (exportItems epoch) now)
      store := (withPayload epoch (exportItems epoch) importer.store).filed
        (moonRecord epoch (exportItems epoch) now) importer.memory
      accepted := importer.accepted ++ [moonIdentity epoch] } :=
  receive_moonBody (exportItems_checked epoch) (by simp [VerifiedPackageItems.proofs, exportItems])
    (by simp [VerifiedPackageItems.proofs, exportItems]) importer domain same now unknown unwritten

theorem importerReady_reachable (admits : Importer → ImporterEvent → Prop)
    (admitted : admits (.initial .earth) (.receive (exportBody 0) 0)) :
    (Importer.system blankHash sampleCodec (fun _ => .ok ()) .earth admits).Reachable
      (importerReady (exportItems 0) []) := by
  refine .next (.start rfl) ⟨.receive (exportBody 0) 0, admitted, ?_⟩
  exact (receive_exportBody (.initial .earth) rfl rfl 0 0 rfl rfl).symm

noncomputable def Importer.acts (events : List ImporterEvent) (importer : Importer) : Importer :=
  events.foldl (fun importer event => importer.apply blankHash sampleCodec (fun _ => .ok ()) event)
    importer

theorem Importer.steps_acts {admits : Importer → ImporterEvent → Prop} (events : List ImporterEvent)
    (admitted : ∀ event ∈ events, ∀ importer, admits importer event) (importer : Importer) :
    Relation.ReflTransGen (system blankHash sampleCodec (fun _ => .ok ()) .earth admits).step
      importer (importer.acts events) := by
  induction events generalizing importer with
  | nil => exact .refl
  | cons event rest ih =>
      obtain ⟨here, later⟩ := List.forall_mem_cons.mp admitted
      exact .head ⟨event, here importer, rfl⟩ (ih later _)

theorem importerContacting_reachable (admits : Importer → ImporterEvent → Prop)
    (received : admits (.initial .earth) (.receive (exportBody 0) 0))
    (ticks : ∀ importer, admits importer .tick) (starts : ∀ importer, admits importer (.start 1)) :
    (Importer.system blankHash sampleCodec (fun _ => .ok ()) .earth admits).Reachable
      (importerContacting (exportItems 0)) := by
  have ticked : (Importer.system blankHash sampleCodec (fun _ => .ok ()) .earth admits).Reachable
      (importerReady (exportItems 0) [moonIdentity 0]) :=
    .next (importerReady_reachable admits received) ⟨.tick, ticks _, rfl⟩
  refine .next ticked ⟨.start 1, starts _, ?_⟩
  exact (importerReady_start (exportItems_checked 0)
    (by simp [VerifiedPackageItems.proofs, exportItems])).symm

def roundEnd : List ImporterEvent := [.contact .made 1, .answer (.recorded [] "0x00") 2, .install]

/-- After a full round, in which Moon's first package is done with, the second is received and taken
up. -/
theorem ingest_not_lost_sample :
    ∃ importer importer',
      (Importer.system blankHash sampleCodec (fun _ => .ok ()) .earth Importer.Quiet).Reachable
        importer ∧
      importer.processor = .ready [] ∧ importer.memory.standing (moonIdentity 0) = some true ∧
      Relation.ReflTransGen (Importer.system blankHash sampleCodec (fun _ => .ok ()) .earth
        Importer.Quiet).step importer importer' ∧
      importer'.processor = .ready [moonIdentity 1] ∧
        importer'.accepted = [moonIdentity 0, moonIdentity 1] ∧
      (∀ identity ∈ importer'.accepted, (importer'.memory.package identity).isSome ∧
        ∃ index, importer'.store.loadIndex = .ok index ∧ (index.package identity).isSome) ∧
      importer'.memory.standing (moonIdentity 0) = some true := by
  have contacting := importerContacting_reachable Importer.Quiet (.inl ⟨[], rfl⟩) (fun _ =>
    trivial) fun _ => trivial
  have done :=
    contacting.steps (Importer.steps_acts roundEnd (by simp [roundEnd, Importer.Quiet]) _)
  have received : Importer.apply blankHash sampleCodec (fun _ => .ok ()) (.receive (exportBody 1) 3)
      ((importerContacting (exportItems 0)).acts roundEnd) = _ :=
    receive_exportBody ((importerContacting (exportItems 0)).acts roundEnd) rfl rfl 1 3 rfl rfl
  have second : Relation.ReflTransGen
      (Importer.system blankHash sampleCodec (fun _ => .ok ()) .earth Importer.Quiet).step
      ((importerContacting (exportItems 0)).acts roundEnd) _ :=
    .tail (.single ⟨.receive (exportBody 1) 3, .inl ⟨[], rfl⟩, rfl⟩) ⟨.tick, trivial, rfl⟩
  rw [received] at second
  obtain ⟨_, stays⟩ := ingest_not_lost blankHash sampleCodec _ .earth _ done
  refine ⟨_, _, done, rfl, rfl, second, rfl, rfl, ?_, (stays _ second (moonIdentity 0)).1 rfl⟩
  exact (ingest_not_lost blankHash sampleCodec _ .earth _ (done.steps second)).1

/-- While the processor awaits the answers about one package, another is received. The processor
then writes the index it has loaded before, and the package that was accepted is in no index. -/
theorem received_package_lost :
    ∃ importer, (Importer.system blankHash sampleCodec (fun _ => .ok ()) .earth fun _ _ =>
      True).Reachable importer ∧
      importer.processor = .ready [] ∧ moonIdentity 1 ∈ importer.accepted ∧
      importer.memory.package (moonIdentity 1) = none ∧
      ∃ index, importer.store.loadIndex = .ok index ∧ index.package (moonIdentity 1) = none := by
  have contacting := importerContacting_reachable (fun _ _ => True) trivial (fun _ =>
    trivial) fun _ => trivial
  have importing :=
    contacting.steps (Importer.steps_acts [.contact .made 1] (fun _ _ _ => trivial) _)
  have received :=
    importing.steps (Importer.steps_acts [.receive (exportBody 1) 1] (fun _ _ _ => trivial) _)
  have written : Importer.acts [.receive (exportBody 1) 1]
      ((importerContacting (exportItems 0)).acts [.contact .made 1]) =
      _ := receive_exportBody ((importerContacting (exportItems 0)).acts [.contact .made 1])
        rfl rfl 1 1 rfl rfl
  rw [written] at received
  refine ⟨_, received.steps (Importer.steps_acts [.answer (.recorded [] "0x00") 2, .install]
    (fun _ _ _ => trivial) _), rfl, ?_, rfl, _, rfl, rfl⟩
  exact List.mem_cons_of_mem _ List.mem_cons_self

end Sample

end Ialp.Services
