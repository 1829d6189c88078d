import Ialp.Services.RelayDelivery

/-!
Records that stay serviceable. A handler that fails after it has marked its record as in delivery
leaves it so, where no later tick looks at it; in runs whose handlers find what they need no record
is left behind.
-/

namespace Ialp.Services

open Scale Deferral Function

section Answers

variable {settings : RelaySettings} {record : RelayPackageRecord} {now due : UInt64}
  {link : LinkProfileConfig} {response : Response} {index : RelayIndex} {store : RelayStore}

def Retriable (settings : RelaySettings) (record : RelayPackageRecord) (now : UInt64)
    (link : LinkProfileConfig) : Prop :=
  link.maxAttempts ≠ 0 ∧ link.maxAttempts ≤ record.deliveryAttempts ∨
    (retryDue now link record.deliveryAttempts).toNat ≤ settings.maxUtcMillis

/-- The answer lets a delivery end: a receipt decodes, and after a failure for now there can be a
retry. -/
def Response.Settles (settings : RelaySettings) (record : RelayPackageRecord) (now : UInt64)
    (link : LinkProfileConfig) : Response → Prop
  | .answered status body _ =>
      if status.code = 200 ∨ status.code = 202 then body.isSome = true
      else status.isClientError ∨ Retriable settings record now link
  | .failed _ => Retriable settings record now link

def Response.Decodes : Response → Prop
  | .answered status body _ => status.isSuccess → body.isSome
  | .failed _ => True

theorem exists_scheduleRetry_iff {error : String} :
    (∃ index', scheduleRetry settings record now link error index = .ok index') ↔
      Retriable settings record now link := by
  rw [scheduleRetry, Retriable]
  split
  · rename_i exhausted
    exact iff_of_true ⟨_, rfl⟩ (.inl exhausted)
  · rename_i more
    rw [or_iff_right more, ← exists_nextDeliveryAfter_iff]
    constructor
    · rintro ⟨_, retried⟩
      obtain ⟨later, found, _⟩ := bind_eq_ok.mp retried
      exact ⟨later, found⟩
    · rintro ⟨later, found⟩
      exact ⟨_, bind_eq_ok.mpr ⟨later, found, rfl⟩⟩

variable (index) in
theorem exists_finishDelivery_iff :
    (∃ index', finishDelivery settings record now link response index = .ok index') ↔
      response.Settles settings record now link := by
  cases response with
  | failed error => exact exists_scheduleRetry_iff
  | answered status body text =>
      rw [finishDelivery, Response.Settles]
      split
      · cases body with
        | none =>
            refine iff_of_false ?_ (by simp)
            rintro ⟨_, ⟨⟩⟩
        | some view =>
            simp only [okOr, ok_bind]
            split <;> exact iff_of_true ⟨_, rfl⟩ rfl
      · split
        · rename_i blamed
          exact iff_of_true ⟨_, rfl⟩ (.inl blamed)
        · rename_i unblamed
          rw [or_iff_right unblamed]
          exact exists_scheduleRetry_iff

variable (settings record now index) in
theorem finishPoll_total (decodes : response.Decodes) :
    ∃ index', finishPoll settings record now response index = .ok index' := by
  rw [finishPoll.eq_def]
  split
  · split
    · rename_i status body text success
      obtain ⟨view, present⟩ := Option.isSome_iff_exists.mp (decodes success)
      simp only [present, okOr, ok_bind]
      split <;> exact ⟨_, rfl⟩
    · split <;> exact ⟨_, rfl⟩
  · exact ⟨_, rfl⟩

theorem importerBaseUrl_total (settings : RelaySettings) (domain : DomainId) :
    ∃ importerUrl, importerBaseUrl settings domain = .ok importerUrl := by
  obtain ⟨listenAddr, found⟩ := settings.transport.importer_exists domain
  simp only [importerBaseUrl, found, okOr, ok_bind]
  exact ⟨_, rfl⟩

variable (settings) in
theorem readDelivery_total {payload : Bytes}
    (present : store.payloads record.toPackageIdentity = some payload) :
    ∃ loaded, readDelivery settings none record store = .ok loaded := by
  obtain ⟨importerUrl, found⟩ := importerBaseUrl_total settings record.targetDomain
  simp only [readDelivery, RelayStore.loadPayload, present, okOr, ok_bind, found]
  exact ⟨_, rfl⟩

end Answers

section Service

/-- The record is finished, or in a state that a later tick acts on. -/
def Serviceable (record : RelayPackageRecord) : Prop :=
  match record.state with
  | .queued | .importerAcked | .failed => True
  | .scheduled | .blockedByBlackout | .retrying => record.nextDeliveryAtUnixMs.isSome
  | .delivered => record.nextAckPollAtUnixMs.isSome
  | .inDelivery => False

/-- A handler that has marked its record as in delivery can finish: the payload of an attempt can be
read, and the answer to a delivery lets it end. -/
def Answerable (settings : RelaySettings) (relay : Relay) : Event → Prop
  | .visit reading now fault =>
      ∀ record link, relay.next = some record → duty reading record = .attempt →
        deliveryGate settings now record = .ok (link, none) → fault = none
  | .respond response => ∀ record now link payload importerUrl work,
      relay.task = .posting record now link payload importerUrl work →
        response.Settles settings record now link
  | _ => True

def Task.delivering : Task → Option PackageIdentity
  | .posting record .. => some record.toPackageIdentity
  | _ => none

def AttendedBy (task : Task) (record : RelayPackageRecord) : Prop :=
  Serviceable record ∨ record.state = .inDelivery ∧ task.delivering = some record.toPackageIdentity

variable {settings : RelaySettings} {blake2 : Bytes → Hash32} {codec : PackageCodec} {relay : Relay}
  {record : RelayPackageRecord} {now : UInt64} {link : LinkProfileConfig}
  {change : Change} {task : Task} {work : List PackageIdentity} {result : Except String RelayIndex}

theorem serviceable_schedule (due scheduledAt : UInt64) (record : RelayPackageRecord) :
    Serviceable ((Change.schedule due scheduledAt).apply record) := by
  by_cases same : scheduledAt = due <;> simp [Serviceable, Change.schedule, same]

theorem DeliveryEnd.serviceable {copy : RelayPackageRecord} {response : Response}
    (ended : DeliveryEnd settings now copy link response change) (record : RelayPackageRecord) :
    Serviceable (change.apply record) := by
  cases ended with
  | acked => trivial
  | delivered => rfl
  | failed => trivial
  | retried due nextDeliveryAt =>
      by_cases same : nextDeliveryAt = due <;> simp [Serviceable, Change.retry, same]

theorem PollEnd.serviceable {response : Response} (ended : PollEnd settings now response change)
    (before : Serviceable record) : Serviceable (change.apply record) := by
  cases ended with
  | acked => trivial
  | failed => trivial
  | noted status =>
      unfold Serviceable at before ⊢
      simp only [Change.notePoll] at before ⊢
      split <;> simp_all
  | repeated error =>
      unfold Serviceable at before ⊢
      simp only [Change.repeatPoll] at before ⊢
      split <;> simp_all

theorem serviceable_normalizeRecord (ackPollMillis now : UInt64)
    (attended : AttendedBy task record) :
    Serviceable (normalizeRecord ackPollMillis now record) := by
  rcases attended with service | ⟨delivery, _⟩
  · rw [normalizeRecord]
    split
    · rfl
    · rename_i delivered
      split
      · simp [Serviceable, delivered]
      · exact service
    · exact service
  · simp [normalizeRecord, delivery, Serviceable]

theorem attended_resume (all : ∀ index, result = .ok index → index.All Serviceable)
    (kept : ∀ error, result = .error error → relay.store.index.All Serviceable) :
    (relay.resume work result).store.index.All (AttendedBy (relay.resume work result).task) := by
  have service : (relay.resume work result).store.index.All Serviceable := by
    rw [resume_store]
    split
    · exact all _ rfl
    · exact kept _ rfl
  exact service.mono fun _ => .inl

theorem serviced_of_not_delivering {index : RelayIndex} (all : index.All (AttendedBy task))
    (none : task.delivering = none) : index.All Serviceable := by
  refine all.mono ?_
  rintro record (service | ⟨_, delivering⟩)
  · exact service
  · rw [none] at delivering
    cases delivering

theorem Handled.attended {relay' : Relay} {reading : UInt64} {fault : Option String}
    (service : relay.store.index.All Serviceable) (filed : Filed relay.store)
    (found : ∃ identity, relay.store.index.record identity = some record)
    (readable : ∀ link, duty reading record = .attempt →
      deliveryGate settings now record = .ok (link, none) →
      fault = none)
    (handled : Handled settings reading now fault record work relay relay') :
    relay'.store.index.All (AttendedBy relay'.task) := by
  cases handled with
  | skipped => exact attended_resume (by rintro _ ⟨⟩; exact service) (by rintro _ ⟨⟩)
  | scheduled link scheduledAt =>
      refine attended_resume ?_ (by rintro _ ⟨⟩)
      rintro _ ⟨⟩
      exact service.updateRecord (fun current _ _ => serviceable_schedule _ _ current)
        fun _ _ here => here
  | blocked =>
      refine attended_resume ?_ (by rintro _ ⟨⟩)
      rintro _ ⟨⟩
      exact service.updateRecord (fun _ _ _ => rfl) fun _ _ here => here
  | unread link error due gate failed =>
      obtain ⟨identity, here⟩ := found
      obtain ⟨payload, present⟩ := filed identity record here
      obtain ⟨loaded, read⟩ := readDelivery_total settings present
      rw [readable link due gate, read] at failed
      cases failed
  | posted =>
      refine service.updateRecord ?_ fun _ _ here => .inl here
      intro current same _
      exact .inr ⟨rfl, congrArg some same.symm⟩
  | polled => exact service.mono fun _ => .inl
  | _ => exact attended_resume (by rintro _ ⟨⟩) fun _ _ => service

theorem Relay.attended
    (reachable : (Relay.runs settings blake2 codec (Answerable settings)).Reachable relay) :
    relay.store.index.All (AttendedBy relay.task) := by
  apply Relay.invariant (fun relay => relay.store.index.All (AttendedBy relay.task)) _ _ reachable
  · intro identity record found
    cases found
  · intro relay event relay' reached attended answerable step
    cases step with
    | submitted body now store stored =>
        cases stored with
        | kept => exact attended
        | queued => exact attended.persistRecord (.inl trivial)
    | ticked now idle =>
        have service := serviced_of_not_delivering attended (by rw [idle]; rfl)
        exact attended_resume (by rintro _ ⟨⟩; exact service) (by rintro _ ⟨⟩)
    | vanished reading now fault identity work ticking =>
        have service := serviced_of_not_delivering attended (by rw [ticking]; rfl)
        exact attended_resume (by rintro _ ⟨⟩; exact service) (by rintro _ ⟨⟩)
    | visited reading now fault identity work record _ ticking found handled =>
        have service : (relay.turn reading).store.index.All Serviceable :=
          serviced_of_not_delivering attended (by rw [ticking]; rfl)
        have next : relay.next = some record := by simp only [Relay.next, ticking, found]
        have filed := Relay.filed reached
        exact handled.attended service filed ⟨identity, found⟩ fun link =>
          answerable record link next
    | deliveryEnded response record now link payload importerUrl work posting =>
        obtain ⟨index, ended⟩ := (exists_finishDelivery_iff relay.store.index).mpr
          (answerable record now link payload importerUrl work posting)
        rw [ended]
        refine attended_resume ?_ (by rintro _ ⟨⟩)
        rintro _ ⟨⟩
        obtain ⟨change, done, rfl⟩ := finishDelivery_eq_ok ended
        refine attended.updateRecord (fun current _ _ => done.serviceable current) ?_
        rintro current other (service | ⟨_, delivering⟩)
        · exact service
        · rw [posting] at delivering
          exact absurd (Option.some.inj delivering).symm other
    | pollEnded response record now importerUrl work polling =>
        have service := serviced_of_not_delivering attended (by rw [polling]; rfl)
        refine attended_resume ?_ fun _ _ => service
        intro index ended
        obtain ⟨change, done, rfl⟩ := finishPoll_eq_ok ended
        exact service.updateRecord (fun _ _ before => done.serviceable before) fun _ _ here => here
    | restarted now =>
        exact attended.normalizeRestartState fun record here =>
          .inl (serviceable_normalizeRecord _ now here)
    | ignored => exact attended

section Stranded

variable (blake2 codec)

theorem visit_strands {reading : UInt64} {fault : Option String} (next : relay.next = some record)
    (due : duty reading record = .attempt)
    (gate : deliveryGate settings now record = .ok (link, none)) (faulty : fault ≠ none) :
    let after := relay.apply settings blake2 codec (.visit reading now fault)
    after.task = .idle ∧ ∃ identity record, after.store.index.record identity = some record ∧
      record.state = .inDelivery := by
  obtain ⟨error, rfl⟩ := Option.ne_none_iff_exists'.mp faulty
  obtain ⟨identity, work, ticking, found⟩ :
      ∃ identity work, relay.task = .ticking (identity :: work) ∧
      relay.store.index.record identity = some record := by
    unfold Relay.next at next
    split at next
    · rename_i identity work ticking
      exact ⟨identity, work, ticking, next⟩
    · cases next
  have known := RelayIndex.identity_of_record found
  have after : relay.apply settings blake2 codec (.visit reading now (some error)) =
      ((relay.turn reading).delivering now record).resume work (.error error) := by
    simp only [Relay.apply, ticking, Relay.turn, found, handle_eq, due, Relay.attemptDelivery, gate]
    rfl
  rw [after]
  refine ⟨rfl, identity, Change.startDelivery.apply record, ?_, rfl⟩
  subst known
  rw [resume_store]
  exact record_updateRecord_self found

theorem respond_strands {response : Response} {payload : Bytes} {importerUrl : String}
    (waiting : relay.Waiting settings)
    (posting : relay.task = .posting record now link payload importerUrl work)
    (unsettled : ¬ response.Settles settings record now link) :
    let after := relay.apply settings blake2 codec (.respond response)
    after.task = .idle ∧ ∃ identity record, after.store.index.record identity = some record ∧
      record.state = .inDelivery := by
  obtain ⟨present, _⟩ := waiting.posting posting
  cases ended : finishDelivery settings record now link response relay.store.index with
  | ok index => exact absurd ((exists_finishDelivery_iff _).mp ⟨index, ended⟩) unsettled
  | error error =>
      have after : relay.apply settings blake2 codec (.respond response) =
          (relay.turn relay.clock).resume work (.error error) := by
        simp only [Relay.apply, posting, Relay.turn, ended]
      rw [after]
      refine ⟨rfl, record.toPackageIdentity, Change.startDelivery.apply record, ?_, rfl⟩
      rw [resume_store]
      exact present

end Stranded

/-- In every run whose handlers can finish, every record that is not finished is in a state that a
later tick acts on whenever no tick is under way; and the first handler that cannot finish ends its
tick with a record in delivery. -/
theorem records_serviceable (settings : RelaySettings) (blake2 : Bytes → Hash32)
    (codec : PackageCodec) :
    (∀ relay, (Relay.runs settings blake2 codec (Answerable settings)).Reachable relay →
      relay.task = .idle →
      relay.store.index.All Serviceable) ∧
    ∀ relay event, (Relay.runs settings blake2 codec (Answerable settings)).Reachable relay →
      ¬ Answerable settings relay event →
      (relay.apply settings blake2 codec event).task = .idle ∧
        ∃ identity record, (relay.apply settings blake2 codec event).store.index.record identity =
          some record ∧
          record.state = .inDelivery := by
  constructor
  · intro relay reachable idle
    exact serviced_of_not_delivering (Relay.attended reachable) (by rw [idle]; rfl)
  · intro relay event reachable unanswerable
    cases event with
    | visit reading now fault =>
        simp only [Answerable, not_forall] at unanswerable
        obtain ⟨record, link, next, due, gate, faulty⟩ := unanswerable
        exact visit_strands blake2 codec next due gate faulty
    | respond response =>
        simp only [Answerable, not_forall] at unanswerable
        obtain ⟨record, now, link, payload, importerUrl, work, posting, unsettled⟩ := unanswerable
        exact respond_strands blake2 codec (Relay.waiting reachable) posting unsettled
    | submit => exact absurd trivial unanswerable
    | tick => exact absurd trivial unanswerable
    | restart => exact absurd trivial unanswerable

def answeredPost (body : Option ImporterPackageStatusView) : List Event :=
  punctualTicks ++ [.respond (.answered ⟨200, "200 OK"⟩ body none)]

theorem records_serviceable_sample :
    ∃ relay, (Relay.runs sampleSettings blankHash sampleCodec (Answerable sampleSettings)).Reachable
      relay ∧
      relay.task = .idle ∧ relay.store.index.packages ≠ [] ∧ relay.store.index.All Serviceable := by
  have follows : Relay.Follows sampleSettings blankHash sampleCodec (Answerable sampleSettings)
      (answeredPost (some ⟨.received, none⟩)) (relayWith .moon) := by
    refine ⟨trivial, fun _ _ _ _ _ => rfl, trivial, fun _ _ _ _ _ => rfl, ?_, trivial⟩
    intro record now link payload importerUrl work posting
    cases posting
    exact rfl
  have taken :
      (Relay.runs sampleSettings blankHash sampleCodec (Answerable sampleSettings)).Reachable
      (relayWith .moon) := Relay.runs_mono (fun _ _ => And.right)
      (relayWith_reachable .moon trivial)
  have reachable := Relay.reachable_run taken follows
  refine ⟨_, reachable, rfl, List.cons_ne_nil _ _, ?_⟩
  exact (records_serviceable sampleSettings blankHash sampleCodec).1 _ reachable rfl

/-- If the body of that answer does not decode, then the tick ends with an error and the record
stays in delivery. -/
theorem undecodable_receipt_strands :
    ∃ relay identity record,
      (Relay.system sampleSettings blankHash sampleCodec fun _ _ => True).Reachable relay ∧
        relay.task = .idle ∧
      relay.log.outcome = some (.error "failed to decode importer ingest receipt") ∧
      relay.store.index.record identity = some record ∧ record.state = .inDelivery ∧
        ¬ Serviceable record := by
  have follows : Relay.Follows sampleSettings blankHash sampleCodec (Relay.Timed fun _ _ => True)
      (answeredPost none) (relayWith .moon) := by
    decide +kernel
  refine ⟨_, envelopeIdentity (envelopeTo .moon), _,
    Relay.reachable_run (relayWith_reachable .moon trivial) follows, rfl, rfl, rfl, rfl, ?_⟩
  exact id

end Service

end Ialp.Services
