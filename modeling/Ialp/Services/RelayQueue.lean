import Ialp.Services.RelayTicks

/-!
The relay's queue over whole runs, whatever its clock reads. A handler decides on a copy of a record
and then changes the record in the index; only the scheduler changes records, and it waits for one
answer at a time, so that a record is changed only in the state in which it was copied.
-/

namespace Ialp.Services

open Scale Function Relation

section Records

def RelayPackageRecord.Finished (record : RelayPackageRecord) : Prop :=
  record.state = .importerAcked ∨ record.state = .failed

variable {settings : RelaySettings} {record record' copy : RelayPackageRecord}
  {change : Change} {now : UInt64} {link : LinkProfileConfig}
  {response : Response} {reported : Prop}

def Change.KeepsOpen (change : Change) : Prop :=
  ∀ {current}, current.state ≠ .importerAcked → (change.apply current).state ≠ .importerAcked

/-- What a handler's change does to a record that is not finished. It acknowledges the record only
if the importer has reported so. -/
structure Change.Advances (change : Change) (reported : Prop) : Prop where
  delivered : ∀ {record time}, record.deliveredAtUnixMs = some time →
    (change.apply record).deliveredAtUnixMs = some time
  completed : ∀ {record}, ¬ record.Finished → record.completedAtUnixMs = none →
    ((change.apply record).completedAtUnixMs.isSome ↔ (change.apply record).Finished)
  acked : change.KeepsOpen ∨ reported

theorem advances_schedule (due scheduledAt : UInt64) :
    (Change.schedule due scheduledAt).Advances reported where
  delivered kept := kept
  completed _ none := by
    by_cases same : scheduledAt =
      due <;> simp [Change.schedule, RelayPackageRecord.Finished, none, same]
  acked := by
    left
    intro current _
    by_cases same : scheduledAt = due <;> simp [Change.schedule, same]

theorem advances_block (blockedUntil : UInt64) : (Change.block blockedUntil).Advances reported where
  delivered kept := kept
  completed _ none := by simp [Change.block, RelayPackageRecord.Finished, none]
  acked := .inl fun _ => by simp [Change.block]

theorem advances_startDelivery : Change.startDelivery.Advances reported where
  delivered kept := kept
  completed _ none := by simp [Change.startDelivery, RelayPackageRecord.Finished, none]
  acked := .inl fun _ => by simp [Change.startDelivery]

theorem DeliveryEnd.advances (ended : DeliveryEnd settings now copy link response change)
    (reports : response.reportsTerminal = true → reported) : change.Advances reported := by
  constructor
  · intro record time kept
    cases ended with
    | acked => simp [Change.ackDelivery, kept]
    | delivered => simp [Change.deliver, kept]
    | failed => exact kept
    | retried => exact kept
  · intro record _ none
    cases ended with
    | acked => simp [Change.ackDelivery, RelayPackageRecord.Finished]
    | delivered => simp [Change.deliver, RelayPackageRecord.Finished, none]
    | failed => simp [Change.failDelivery, RelayPackageRecord.Finished]
    | retried due nextDeliveryAt =>
        by_cases same : nextDeliveryAt =
          due <;> simp [Change.retry, RelayPackageRecord.Finished, none, same]
  · cases ended with
    | acked status told => exact .inr (reports told)
    | delivered => exact .inl fun _ => by simp [Change.deliver]
    | failed => exact .inl fun _ => by simp [Change.failDelivery]
    | retried due nextDeliveryAt =>
        left
        intro current _
        by_cases same : nextDeliveryAt = due <;> simp [Change.retry, same]

theorem PollEnd.advances (ended : PollEnd settings now response change)
    (reports : response.reportsTerminal = true → reported) : change.Advances reported := by
  constructor
  · intro record time kept
    cases ended <;> exact kept
  · intro record unfinished none
    have open' : ¬ (record.completedAtUnixMs.isSome ∨ record.Finished) := by simp [none, unfinished]
    cases ended with
    | acked => simp [Change.ackPoll, RelayPackageRecord.Finished]
    | noted => exact iff_of_false (open' ∘ .inl) (open' ∘ .inr)
    | failed => simp [Change.failPoll, RelayPackageRecord.Finished]
    | repeated => exact iff_of_false (open' ∘ .inl) (open' ∘ .inr)
  · cases ended with
    | acked status told => exact .inr (reports told)
    | noted => exact .inl fun open' => open'
    | failed => exact .inl fun _ => by simp [Change.failPoll]
    | repeated => exact .inl fun open' => open'

theorem VisitChange.advances {reading : UInt64} (visit : VisitChange reading record change) :
    change.Advances reported := by
  cases visit with
  | scheduled => exact advances_schedule _ _
  | blocked => exact advances_block _
  | started => exact advances_startDelivery

theorem VisitChange.unfinished {reading : UInt64} (visit : VisitChange reading record change) :
    ¬ record.Finished := by
  have called : duty reading record ≠ .nothing := by
    cases visit with
    | scheduled _ _ queued => simp [queued]
    | blocked _ due => simp [due]
    | started due => simp [due]
  rintro (acked | failed)
  · simp [duty, acked] at called
  · simp [duty, failed] at called

/-- What an action of the relay makes of a record, when it does not matter which handler makes the
change. -/
inductive RecordStep (reported : Prop) (record : RelayPackageRecord) :
    RelayPackageRecord → Prop where
  | kept : RecordStep reported record record
  | changed (change : Change) (unfinished : ¬ record.Finished)
      (advances : change.Advances reported) :
      RecordStep reported record (change.apply record)
  | normalized (ackPollMillis now : UInt64) :
      RecordStep reported record (normalizeRecord ackPollMillis now record)

theorem normalizeRecord_finished (ackPollMillis now : UInt64) (finished : record.Finished) :
    normalizeRecord ackPollMillis now record = record := by
  rcases finished with acked | failed
  · rw [normalizeRecord, acked]
  · rw [normalizeRecord, failed]

theorem normalizeRecord_kept (ackPollMillis now : UInt64) (record : RelayPackageRecord) :
    (normalizeRecord ackPollMillis now record).deliveredAtUnixMs = record.deliveredAtUnixMs ∧
      (normalizeRecord ackPollMillis now record).completedAtUnixMs = record.completedAtUnixMs ∧
      ((normalizeRecord ackPollMillis now record).Finished ↔ record.Finished) ∧
      ((normalizeRecord ackPollMillis now record).state = .importerAcked ↔
        record.state = .importerAcked) := by
  rw [normalizeRecord]
  split
  · rename_i delivering
    simp [RelayPackageRecord.Finished, delivering]
  · split <;> simp [RelayPackageRecord.Finished]
  · simp

namespace RecordStep

theorem finished (step : RecordStep reported record record') (finished : record.Finished) :
    record' = record := by
  cases step with
  | kept => rfl
  | changed _ unfinished => exact absurd finished unfinished
  | normalized ackPollMillis now => exact normalizeRecord_finished ackPollMillis now finished

theorem delivered (step : RecordStep reported record record') {time : UInt64}
    (kept : record.deliveredAtUnixMs = some time) : record'.deliveredAtUnixMs = some time := by
  cases step with
  | kept => exact kept
  | changed _ _ advances => exact advances.delivered kept
  | normalized ackPollMillis now =>
      exact (normalizeRecord_kept ackPollMillis now record).1.trans kept

theorem completed (step : RecordStep reported record record')
    (completed : record.completedAtUnixMs.isSome ↔ record.Finished) :
    record'.completedAtUnixMs.isSome ↔ record'.Finished := by
  cases step with
  | kept => exact completed
  | changed change unfinished advances =>
      have none : record.completedAtUnixMs = none := by simpa using mt completed.mp unfinished
      exact advances.completed unfinished none
  | normalized ackPollMillis now =>
      obtain ⟨_, sameTime, sameEnd, _⟩ := normalizeRecord_kept ackPollMillis now record
      rw [sameTime, sameEnd]
      exact completed

theorem acked (step : RecordStep reported record record') (acked : record'.state = .importerAcked) :
    record.state = .importerAcked ∨ reported := by
  cases step with
  | kept => exact .inl acked
  | changed change unfinished advances =>
      refine advances.acked.imp_left fun keeps => ?_
      by_contra open'
      exact keeps open' acked
  | normalized ackPollMillis now =>
      exact .inl ((normalizeRecord_kept ackPollMillis now record).2.2.2.mp acked)

end RecordStep

end Records

section Moves

variable {settings : RelaySettings} {blake2 : Bytes → Hash32} {codec : PackageCodec}
  {relay relay' : Relay} {event : Event} {record record' copy : RelayPackageRecord}
  {identity : PackageIdentity} {index : RelayIndex} {now : UInt64} {link : LinkProfileConfig}
  {response : Response} {work : List PackageIdentity}

def Task.awaited : Task → Option (PackageIdentity × RelayQueueState)
  | .posting record .. => some (record.toPackageIdentity, .inDelivery)
  | .polling record .. => some (record.toPackageIdentity, .delivered)
  | _ => none

def Reports (relay : Relay) (event : Event) (identity : PackageIdentity) : Prop :=
  ∃ response state, event = .respond response ∧ response.reportsTerminal = true ∧
    relay.task.awaited = some (identity, state)

/-- The answer to a delivery or a poll has come in, and no delivery is to follow. -/
structure Closes (record record' : RelayPackageRecord) : Prop where
  attempts : record'.deliveryAttempts = record.deliveryAttempts
  flag : record'.everBlockedByBlackout = record.everBlockedByBlackout
  state : record'.state = .importerAcked ∨ record'.state = .delivered ∨ record'.state = .failed

/-- What an action of the relay makes of a record, with the handler that makes the change. -/
inductive RecordMove (settings : RelaySettings) (relay : Relay) (event : Event)
    (record : RelayPackageRecord) : RelayPackageRecord → Prop where
  | kept : RecordMove settings relay event record record
  | visited (reading : UInt64) (change : Change) (visit : VisitChange reading record change) :
      RecordMove settings relay event record (change.apply record)
  | retried (response : Response) (copy : RelayPackageRecord) (now : UInt64)
      (link : LinkProfileConfig) (payload : Bytes) (importerUrl : String)
      (work : List PackageIdentity) (due nextDeliveryAt : UInt64)
      (posting : relay.task = .posting copy now link payload importerUrl work)
      (answered : event = .respond response) (transient : response.isTransient = true)
      (counted : record = Change.startDelivery.apply copy)
      (decided : retryDecision now link copy.deliveryAttempts = some due)
      (found : nextDeliveryAfter settings link due = .ok nextDeliveryAt) :
      RecordMove settings relay event record
        ((Change.retry due nextDeliveryAt response.failure).apply record)
  | closed (change : Change) (unfinished : ¬ record.Finished)
      (closes : Closes record (change.apply record))
      (advances : change.Advances (Reports relay event record.toPackageIdentity)) :
      RecordMove settings relay event record (change.apply record)
  | normalized (now : UInt64) (restarted : event = .restart now) :
      RecordMove settings relay event record (normalizeRecord settings.ackPollMillis now record)

theorem RecordMove.step (move : RecordMove settings relay event record record') :
    RecordStep (Reports relay event record.toPackageIdentity) record record' := by
  cases move with
  | kept => exact .kept
  | visited reading change visit => exact .changed change visit.unfinished visit.advances
  | retried response copy now link payload importerUrl work due nextDeliveryAt posting
      answered transient counted decided found =>
      subst counted
      have awaited : relay.task.awaited = some (copy.toPackageIdentity, .inDelivery) := by
        rw [posting]; rfl
      have ended : DeliveryEnd settings now copy link response _ :=
        .retried due nextDeliveryAt transient decided found
      refine .changed _ (by simp [RelayPackageRecord.Finished, Change.startDelivery])
        (ended.advances fun told => ?_)
      exact ⟨response, _, answered, told, awaited⟩
  | closed change unfinished _ advances => exact .changed change unfinished advances
  | normalized now => exact .normalized _ now

theorem PollEnd.closes {change : Change} (ended : PollEnd settings now response change)
    (polled : record.state = .delivered) : Closes record (change.apply record) := by
  cases ended with
  | acked => exact ⟨rfl, rfl, .inl rfl⟩
  | noted => exact ⟨rfl, rfl, .inr (.inl polled)⟩
  | failed => exact ⟨rfl, rfl, .inr (.inr rfl)⟩
  | repeated => exact ⟨rfl, rfl, .inr (.inl polled)⟩

theorem updateRecord_moves {target : RelayPackageRecord} {change : Change}
    (moves : ∀ {current}, index.record target.toPackageIdentity = some current →
      RecordMove settings relay event current (change.apply current))
    (found : index.record identity = some record) :
    ∃ record', (updateRecord target change index).record identity = some record' ∧
      RecordMove settings relay event record record' := by
  rw [record_updateRecord]
  by_cases same : target.toPackageIdentity = identity
  · subst same
    exact ⟨change.apply record, by simp [found], moves found⟩
  · exact ⟨record, by simp [same, found], .kept⟩

theorem DeliveryEnd.move {change : Change} {payload : Bytes} {importerUrl : String}
    (posting : relay.task = .posting copy now link payload importerUrl work)
    (ended : DeliveryEnd settings now copy link response change) :
    RecordMove settings relay (.respond response) (Change.startDelivery.apply copy)
      (change.apply (Change.startDelivery.apply copy)) := by
  have awaited : relay.task.awaited = some (copy.toPackageIdentity, .inDelivery) := by
    rw [posting]; rfl
  have advances : change.Advances (Reports relay (.respond response) copy.toPackageIdentity) :=
    ended.advances fun told => ⟨response, _, rfl, told, awaited⟩
  have unfinished : ¬ (Change.startDelivery.apply copy).Finished := by
    simp [RelayPackageRecord.Finished, Change.startDelivery]
  cases ended with
  | acked => exact .closed _ unfinished ⟨rfl, rfl, .inl rfl⟩ advances
  | delivered => exact .closed _ unfinished ⟨rfl, rfl, .inr (.inl rfl)⟩ advances
  | failed => exact .closed _ unfinished ⟨rfl, rfl, .inr (.inr rfl)⟩ advances
  | retried due nextDeliveryAt transient decided found =>
      exact .retried response copy now link payload importerUrl work due nextDeliveryAt posting rfl
        transient rfl decided found

theorem Stepped.recordMove (step : Stepped settings blake2 codec relay event relay')
    (waiting : relay.Waiting settings) (found : relay.store.index.record identity = some record) :
    ∃ record', relay'.store.index.record identity = some record' ∧
      RecordMove settings relay event record record' := by
  have changed := step.changed
  generalize relay'.store = store' at changed ⊢
  cases changed with
  | kept => exact ⟨record, found, .kept⟩
  | submitted body now _ stored => exact ⟨record, (stored.record_kept found).1, .kept⟩
  | visited reading now fault copy change here visit =>
      refine updateRecord_moves ?_ found
      intro current present
      cases here.symm.trans present
      exact .visited reading change visit
  | deliveryEnded response copy now link payload importerUrl work index posting ended =>
      obtain ⟨change, done, rfl⟩ := finishDelivery_eq_ok ended
      refine updateRecord_moves ?_ found
      intro current present
      obtain rfl : Change.startDelivery.apply copy = current :=
        Option.some.inj ((waiting.posting posting).1.symm.trans present)
      exact done.move posting
  | pollEnded response copy now importerUrl work index polling ended =>
      obtain ⟨change, done, rfl⟩ := finishPoll_eq_ok ended
      refine updateRecord_moves ?_ found
      intro current present
      obtain ⟨current', present', delivered⟩ := waiting.polling polling
      obtain rfl : current' = current := Option.some.inj (present'.symm.trans present)
      refine .closed change (by simp [RelayPackageRecord.Finished, delivered])
        (done.closes delivered) (done.advances fun told => ⟨response, .delivered, rfl, told, ?_⟩)
      rw [polling, RelayIndex.identity_of_record present]
      rfl
  | restarted now =>
      refine ⟨normalizeRecord settings.ackPollMillis now record, ?_, .normalized now rfl⟩
      exact (record_normalizeRestartState _ _ _ _).trans (congrArg _ found)

theorem Stepped.recordStep (step : Stepped settings blake2 codec relay event relay')
    (waiting : relay.Waiting settings) (found : relay.store.index.record identity = some record) :
    ∃ record', relay'.store.index.record identity = some record' ∧
      RecordStep (Reports relay event identity) record record' := by
  obtain ⟨record', found', move⟩ := step.recordMove waiting found
  exact ⟨record', found', RelayIndex.identity_of_record found ▸ move.step⟩

theorem Stepped.newRecord (step : Stepped settings blake2 codec relay event relay')
    (absent : relay.store.index.record identity = none)
    (found : relay'.store.index.record identity = some record) :
    ∃ body now envelope package, event = .submit body now ∧
      decodeAndValidateEnvelope blake2 codec body = .ok (envelope, package) ∧
        identity = envelopeIdentity envelope ∧
      record = Services.newRecord envelope now ∧
      relay'.store.payloads identity = some (codec.envelope.encode envelope) := by
  have stored := step.store
  generalize relay'.store = store' at stored found ⊢
  cases stored with
  | kept =>
      rw [absent] at found
      cases found
  | submitted body now _ same submitted =>
      cases submitted with
      | kept =>
          rw [absent] at found
          cases found
      | queued envelope package accepted _ =>
          change (relay.store.index.persistRecord _).record identity = _ at found
          rw [RelayIndex.record_persistRecord] at found
          split at found
          · rename_i here
            cases found
            subst here
            exact ⟨body, now, envelope, package, same, accepted, rfl, rfl, update_self _ _ _⟩
          · rw [absent] at found
            cases found
  | changed copy change =>
      rw [record_updateRecord, absent] at found
      split at found <;> cases found
  | normalized now =>
      rw [record_normalizeRestartState, absent] at found
      cases found

theorem Stepped.payload_kept (step : Stepped settings blake2 codec relay event relay')
    (found : relay.store.index.record identity = some record) :
    relay'.store.payloads identity = relay.store.payloads identity := by
  have stored := step.store
  generalize relay'.store = store' at stored ⊢
  cases stored with
  | kept => rfl
  | submitted body now _ _ submitted => exact (submitted.record_kept found).2
  | changed => rfl
  | normalized => rfl

end Moves

section Runs

/-- A relay, with what is remembered of its run: the first envelope that was accepted for each
identity, and the packages of which the importer has answered that it is done with them. -/
structure Traced where
  relay : Relay
  first : PackageIdentity → Option RelayPackageEnvelopeV1
  terminal : List PackageIdentity

variable (settings : RelaySettings) (blake2 : Bytes → Hash32) (codec : PackageCodec)

def acceptedEnvelope (body : Bytes) (now : UInt64) (store : RelayStore) :
    Option RelayPackageEnvelopeV1 :=
  match decodeAndValidateEnvelope blake2 codec body,
    (submitPackage blake2 codec body now store).1.receipt with
  | .ok (envelope, _), .ok _ => some envelope
  | _, _ => none

namespace Traced

def noteFirst (accepted : Option RelayPackageEnvelopeV1)
    (first : PackageIdentity → Option RelayPackageEnvelopeV1) :
    PackageIdentity → Option RelayPackageEnvelopeV1 :=
  match accepted with
  | some envelope =>
      if (first (envelopeIdentity envelope)).isNone then
        update first (envelopeIdentity envelope) (some envelope)
      else first
  | none => first

def noteTerminal (response : Response) (awaited : Option (PackageIdentity × RelayQueueState))
    (terminal : List PackageIdentity) : List PackageIdentity :=
  match awaited with
  | some (identity, _) => if response.reportsTerminal then identity :: terminal else terminal
  | none => terminal

def act (event : Event) (traced : Traced) : Traced where
  relay := traced.relay.apply settings blake2 codec event
  first :=
    match event with
    | .submit body now =>
        noteFirst (acceptedEnvelope blake2 codec body now traced.relay.store) traced.first
    | _ => traced.first
  terminal :=
    match event with
    | .respond response => noteTerminal response traced.relay.task.awaited traced.terminal
    | _ => traced.terminal

/-- One step of a run. The clock may read any time. A tick can end early, as when the clock cannot
be read, and a submission can end after its payload is written and before there is a record for
it. -/
inductive Step (traced : Traced) : Traced → Prop where
  | acted (event : Event) : Step traced (traced.act settings blake2 codec event)
  | stopped : Step traced { traced with relay.task := .idle }
  | written (body : Bytes) (envelope : RelayPackageEnvelopeV1) (package : CertifiedSummaryPackage)
      (decoded : decodeAndValidateEnvelope blake2 codec body = .ok (envelope, package))
      (absent : traced.relay.store.index.record (envelopeIdentity envelope) = none) :
      Step traced { traced with
        relay.store.payloads :=
          update traced.relay.store.payloads (envelopeIdentity envelope)
            (some (codec.envelope.encode envelope)) }

def initial : Traced where
  relay := Relay.initial
  first _ := none
  terminal := []

def system : Transition.System Traced where
  initial traced := traced = initial
  step := Step settings blake2 codec

variable {settings blake2 codec} {traced traced' : Traced} {identity : PackageIdentity}
  {record : RelayPackageRecord} {envelope : RelayPackageEnvelopeV1}
  {accepted : Option RelayPackageEnvelopeV1}
  {first : PackageIdentity → Option RelayPackageEnvelopeV1}

theorem noteFirst_kept (held : first identity = some envelope) :
    noteFirst accepted first identity = some envelope := by
  unfold noteFirst
  split
  · rename_i new
    split
    · rename_i unseen
      have other : identity ≠ envelopeIdentity new := by
        intro same
        rw [← same, held] at unseen
        cases unseen
      exact (update_of_ne other _ _).trans held
    · exact held
  · exact held

theorem noteFirst_new (unseen : first (envelopeIdentity envelope) = none) :
    noteFirst (some envelope) first (envelopeIdentity envelope) = some envelope := by
  simp [noteFirst, unseen]

theorem noteFirst_other (other : ∀ envelope, accepted = some envelope →
    identity ≠ envelopeIdentity envelope) : noteFirst accepted first identity = first identity := by
  unfold noteFirst
  split
  · split
    · exact update_of_ne (other _ rfl) _ _
    · rfl
  · rfl

theorem act_first_kept (event : Event) (held : traced.first identity = some envelope) :
    (traced.act settings blake2 codec event).first identity = some envelope := by
  cases event with
  | submit body now => exact noteFirst_kept held
  | _ => exact held

theorem record_of_accepted {body : Bytes} {now : UInt64} {store : RelayStore}
    (accepted : acceptedEnvelope blake2 codec body now store = some envelope) :
    (submitPackage blake2 codec body now store).2.index.record (envelopeIdentity envelope) ≠
      none := by
  unfold acceptedEnvelope at accepted
  split at accepted
  · rename_i package receipt decoded answered
    cases accepted
    cases present : store.index.record (envelopeIdentity envelope) with
    | none =>
        rw [submitPackage_new decoded present]
        simp [RelayIndex.record_persistRecord, newRecord]
    | some existing =>
        have kept := ((submitPackage_submitted blake2 codec body now store).record_kept present).1
        rw [kept]
        simp
  · cases accepted

structure Consistent (settings : RelaySettings) (codec : PackageCodec) (traced : Traced) :
    Prop where
  waiting : traced.relay.Waiting settings
  distinct : traced.relay.store.index.identities.Nodup
  completed : traced.relay.store.index.All fun record => record.completedAtUnixMs.isSome ↔
    record.Finished
  filed : ∀ {identity record}, traced.relay.store.index.record identity = some record → ∃ envelope,
    traced.first identity = some envelope ∧
      traced.relay.store.payloads identity = some (codec.envelope.encode envelope)
  unseen : ∀ {identity}, traced.relay.store.index.record identity = none →
    traced.first identity = none
  acked : ∀ {identity record}, traced.relay.store.index.record identity = some record →
    record.state = .importerAcked → identity ∈ traced.terminal

theorem initial_consistent : Consistent settings codec initial where
  waiting := waiting_idle rfl
  distinct := List.nodup_nil
  completed _ _ found := by cases found
  filed found := by cases found
  unseen _ := rfl
  acked found := by cases found

theorem mem_act_terminal (event : Event) (known : identity ∈ traced.terminal) :
    identity ∈ (traced.act settings blake2 codec event).terminal := by
  cases event with
  | respond response =>
      simp only [act, noteTerminal]
      split
      · split
        · exact List.mem_cons_of_mem _ known
        · exact known
      · exact known
  | _ => exact known

theorem act_reports {event : Event} (reports : Reports traced.relay event identity) :
    identity ∈ (traced.act settings blake2 codec event).terminal := by
  obtain ⟨response, state, rfl, terminal, awaited⟩ := reports
  simp [act, noteTerminal, awaited, terminal]

theorem Consistent.act (consistent : traced.Consistent settings codec) (event : Event) :
    (traced.act settings blake2 codec event).Consistent settings codec := by
  have step := stepped settings blake2 codec traced.relay event
  have origin : ∀ {identity record'},
      (traced.act settings blake2 codec event).relay.store.index.record identity =
      some record' → (∃ record, traced.relay.store.index.record identity = some record ∧
        RecordStep (Reports traced.relay event identity) record record') ∨
      traced.relay.store.index.record identity = none := by
    intro identity record' found
    cases before : traced.relay.store.index.record identity with
    | none => exact .inr rfl
    | some record =>
        obtain ⟨after, found', recordStep⟩ := step.recordStep consistent.waiting before
        obtain rfl : after = record' := Option.some.inj (found'.symm.trans found)
        exact .inl ⟨record, rfl, recordStep⟩
  constructor
  · exact step.waiting consistent.waiting
  · exact step.store.distinct consistent.distinct
  · intro identity record' found
    rcases origin found with ⟨record, before, recordStep⟩ | absent
    · exact recordStep.completed (consistent.completed identity record before)
    · obtain ⟨_, _, _, _, _, _, _, rfl, _⟩ := step.newRecord absent found
      simp [newRecord, RelayPackageRecord.Finished]
  · intro identity record' found
    rcases origin found with ⟨record, before, _⟩ | absent
    · obtain ⟨envelope, held, payload⟩ := consistent.filed before
      exact ⟨envelope, act_first_kept event held, (step.payload_kept before).trans payload⟩
    · obtain ⟨body, now, envelope, package, rfl, decoded, rfl, _, payload⟩ :=
        step.newRecord absent found
      refine ⟨envelope, ?_, payload⟩
      have accepted : acceptedEnvelope blake2 codec body now traced.relay.store =
          some envelope := by
        simp [acceptedEnvelope, decoded, submitPackage_new decoded absent]
      simp only [Traced.act, accepted]
      exact noteFirst_new (consistent.unseen absent)
  · intro identity absent'
    have absent : traced.relay.store.index.record identity = none := by
      by_contra present
      obtain ⟨record, before⟩ := Option.ne_none_iff_exists'.mp present
      obtain ⟨after, found', _⟩ := step.recordStep consistent.waiting before
      exact absurd (absent'.symm.trans found') (by simp)
    have unseen := consistent.unseen absent
    cases event with
    | submit body now =>
        refine (noteFirst_other ?_).trans unseen
        intro envelope accepted same
        subst same
        exact record_of_accepted accepted absent'
    | _ => exact unseen
  · intro identity record' found acked
    rcases origin found with ⟨record, before, recordStep⟩ | absent
    · rcases recordStep.acked acked with known | reports
      · exact mem_act_terminal event (consistent.acked before known)
      · exact act_reports reports
    · obtain ⟨_, _, _, _, _, _, _, rfl, _⟩ := step.newRecord absent found
      cases acked

theorem Consistent.step (consistent : traced.Consistent settings codec)
    (step : Step settings blake2 codec traced traced') : traced'.Consistent settings codec := by
  cases step with
  | acted event => exact consistent.act event
  | stopped => exact { consistent with waiting := waiting_idle rfl }
  | written body envelope package decoded absent =>
      refine { consistent with
        waiting := ⟨consistent.waiting.posting, consistent.waiting.polling⟩
        filed := ?_ }
      intro identity record found
      obtain ⟨first, held, payload⟩ := consistent.filed found
      have other : identity ≠ envelopeIdentity envelope := by
        intro same
        rw [same, absent] at found
        cases found
      exact ⟨first, held, (update_of_ne other _ _).trans payload⟩

theorem consistent_of_reachable (reachable : (system settings blake2 codec).Reachable traced) :
    traced.Consistent settings codec := by
  apply reachable.invariant (Consistent settings codec)
  · intro _ initial
    subst initial
    exact initial_consistent
  · intro _ _ _ consistent step
    exact consistent.step step

/-- What the rest of a run makes of a record: it is final once it is finished, and keeps its first
delivery time and its envelope. -/
structure Kept (record record' : RelayPackageRecord) : Prop where
  finished : record.Finished → record' = record
  delivered : ∀ time, record.deliveredAtUnixMs = some time → record'.deliveredAtUnixMs = some time

theorem Kept.trans {middle last : RelayPackageRecord} (before : Kept record middle)
    (after : Kept middle last) : Kept record last where
  finished final := by
    have same := before.finished final
    exact (after.finished (same ▸ final)).trans same
  delivered time held := after.delivered time (before.delivered time held)

theorem Step.kept (step : Step settings blake2 codec traced traced')
    (consistent : traced.Consistent settings codec)
    (found : traced.relay.store.index.record identity = some record) :
    ∃ record', traced'.relay.store.index.record identity = some record' ∧
      traced'.first identity = traced.first identity ∧ Kept record record' := by
  have still : Kept record record := ⟨fun _ => rfl, fun _ held => held⟩
  cases step with
  | acted event =>
      obtain ⟨record', found', recordStep⟩ :=
        (stepped settings blake2 codec traced.relay event).recordStep consistent.waiting found
      obtain ⟨envelope, held, _⟩ := consistent.filed found
      exact ⟨record', found', (act_first_kept event held).trans held.symm, recordStep.finished,
        fun _ => recordStep.delivered⟩
  | stopped => exact ⟨record, found, rfl, still⟩
  | written => exact ⟨record, found, rfl, still⟩

theorem steps_kept (reachable : (system settings blake2 codec).Reachable traced)
    (steps : ReflTransGen (system settings blake2 codec).step traced traced')
    (found : traced.relay.store.index.record identity = some record) :
    ∃ record', traced'.relay.store.index.record identity = some record' ∧
      traced'.first identity = traced.first identity ∧ Kept record record' := by
  induction steps with
  | refl => exact ⟨record, found, rfl, fun _ => rfl, fun _ held => held⟩
  | tail before step kept =>
      obtain ⟨middle, found', first, earlier⟩ := kept
      have consistent := consistent_of_reachable (reachable.steps before)
      obtain ⟨record', found'', first', later⟩ := Step.kept step consistent found'
      exact ⟨record', found'', first'.trans first, earlier.trans later⟩

end Traced

/-- The queue as a state machine, over every run of the relay: one record an identity, with the
payload of the first envelope accepted for it; a time of completion exactly in the two final states;
and an acknowledgement only after the importer has reported that it is done. In the rest of the run
the final states stay, and so do the envelope and the time of delivery. -/
theorem queue_state_machine (settings : RelaySettings) (blake2 : Bytes → Hash32)
    (codec : PackageCodec) (traced : Traced)
    (reachable : (Traced.system settings blake2 codec).Reachable traced) :
    (traced.relay.store.index.packages.map fun record => record.toPackageIdentity).Nodup ∧
    (∀ record ∈ traced.relay.store.index.packages,
      (∃ envelope, traced.first record.toPackageIdentity = some envelope ∧
        traced.relay.store.payloads record.toPackageIdentity =
          some (codec.envelope.encode envelope)) ∧
      (record.completedAtUnixMs.isSome ↔ record.state = .importerAcked ∨ record.state = .failed) ∧
      (record.state = .importerAcked → record.toPackageIdentity ∈ traced.terminal)) ∧
    ∀ traced', ReflTransGen (Traced.system settings blake2 codec).step traced traced' →
      ∀ record ∈ traced.relay.store.index.packages, ∃ record' ∈ traced'.relay.store.index.packages,
        record'.toPackageIdentity = record.toPackageIdentity ∧
        traced'.first record.toPackageIdentity = traced.first record.toPackageIdentity ∧
        (record.state = .importerAcked → record'.state = .importerAcked) ∧
        (record.state = .failed → record'.state = .failed) ∧
        ∀ time, record.deliveredAtUnixMs = some time → record'.deliveredAtUnixMs = some time := by
  have consistent := Traced.consistent_of_reachable reachable
  have lookup : ∀ record ∈ traced.relay.store.index.packages,
      traced.relay.store.index.record record.toPackageIdentity = some record :=
    fun record member => Keyed.lookup_of_mem consistent.distinct member
  refine ⟨consistent.distinct, ?_, ?_⟩
  · intro record member
    have found := lookup record member
    exact ⟨consistent.filed found, consistent.completed _ record found, consistent.acked found⟩
  · intro traced' steps record member
    obtain ⟨record', found', first, kept⟩ :=
      Traced.steps_kept reachable steps (lookup record member)
    refine ⟨record', List.mem_of_find?_eq_some found', RelayIndex.identity_of_record found', first,
      ?_, ?_, kept.delivered⟩
    · intro acked
      rw [kept.finished (.inl acked)]
      exact acked
    · intro failed
      rw [kept.finished (.inr failed)]
      exact failed

theorem Traced.reachable_run {settings : RelaySettings} {blake2 : Bytes → Hash32}
    {codec : PackageCodec} {traced : Traced} (events : List Event)
    (reachable : (system settings blake2 codec).Reachable traced) :
    (system settings blake2 codec).Reachable
      (events.foldl (fun traced event => traced.act settings blake2 codec event) traced) := by
  induction events generalizing traced with
  | nil => exact reachable
  | cons event rest ih => exact ih (.next reachable (.acted event))

noncomputable def tracedWith (target : DomainId) : Traced where
  relay := relayWith target
  first := update (fun _ => none) (envelopeIdentity (envelopeTo target)) (some (envelopeTo target))
  terminal := []

noncomputable def tracedAt (target : DomainId) (now : UInt64) : Traced :=
  { tracedWith target with relay := { relayWith target with
    clock := now
    store.index := { packages := [newRecord (envelopeTo target) now] } } }

theorem act_submit (settings : RelaySettings) (target : DomainId) (now : UInt64) :
    Traced.initial.act settings blankHash sampleCodec (.submit (bodyTo target) now) =
      tracedAt target now := by
  have absent : Relay.initial.store.index.record (envelopeIdentity (envelopeTo target)) = none :=
    rfl
  have queued : submitPackage blankHash sampleCodec (bodyTo target) now Relay.initial.store = _ :=
    submitPackage_new (envelopeTo_accepted target) absent
  simp only [Traced.act, Traced.initial, Relay.apply, acceptedEnvelope, envelopeTo_accepted, queued]
  rfl

theorem tracedAt_reachable (settings : RelaySettings) (target : DomainId) (now : UInt64) :
    (Traced.system settings blankHash sampleCodec).Reachable (tracedAt target now) := by
  rw [← act_submit settings target now]
  exact .next (.start rfl) (.acted _)

theorem tracedWith_reachable (target : DomainId) :
    (Traced.system sampleSettings blankHash sampleCodec).Reachable (tracedWith target) :=
  tracedAt_reachable sampleSettings target 0

noncomputable def ackedRun : Traced :=
  (answeredPost (some ⟨.ackedVerified, none⟩)).foldl
    (fun traced event => traced.act sampleSettings blankHash sampleCodec event) (tracedWith .moon)

theorem queue_state_machine_sample :
    ∃ record ∈ ackedRun.relay.store.index.packages, record.state = .importerAcked ∧
      record.completedAtUnixMs.isSome ∧ record.toPackageIdentity ∈ ackedRun.terminal ∧
      ∃ record' ∈ (ackedRun.act sampleSettings blankHash sampleCodec
        (.restart 0)).relay.store.index.packages,
        record'.toPackageIdentity = record.toPackageIdentity ∧ record'.state = .importerAcked ∧
        record'.deliveredAtUnixMs = some 1000 := by
  have reachable : (Traced.system sampleSettings blankHash sampleCodec).Reachable ackedRun :=
    Traced.reachable_run _ (tracedWith_reachable .moon)
  obtain ⟨record, member, acked, delivered⟩ : ∃ record ∈ ackedRun.relay.store.index.packages,
      record.state = .importerAcked ∧ record.deliveredAtUnixMs = some 1000 :=
    ⟨_, List.mem_singleton_self _, rfl, rfl⟩
  obtain ⟨_, held, later⟩ :=
    queue_state_machine sampleSettings blankHash sampleCodec ackedRun reachable
  obtain ⟨_, completed, reported⟩ := held record member
  obtain ⟨record', member', same, _, stays, _, time⟩ :=
    later _ (.single (.acted (.restart 0))) record member
  exact ⟨record, member, acked, completed.mpr (.inl acked), reported acked, record',
    member', same, stays acked, time 1000 delivered⟩

end Runs

end Ialp.Services
