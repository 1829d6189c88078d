import Ialp.Services.Relay

/-!
What one action of the relay does, to its records and to its store, said once for all invariants of
its runs.
-/

namespace Ialp.Services

open Scale Deferral

section Index

variable {index : RelayIndex}

def RelayIndex.All (property : RelayPackageRecord → Prop) (index : RelayIndex) : Prop :=
  ∀ identity record, index.record identity = some record → property record

namespace RelayIndex.All

variable {before after : RelayPackageRecord → Prop}

theorem updateRecord {record : RelayPackageRecord} {change : Change} (all : index.All before)
    (changed : ∀ current, current.toPackageIdentity = record.toPackageIdentity → before current →
      after (change.apply current))
    (others : ∀ current, current.toPackageIdentity ≠ record.toPackageIdentity →
      before current → after current) :
    (updateRecord record change index).All after := by
  intro identity current found
  rw [record_updateRecord] at found
  split at found
  · rename_i same
    obtain ⟨previous, present, rfl⟩ := Option.map_eq_some_iff.mp found
    exact changed previous ((identity_of_record present).trans same.symm)
      (all identity previous present)
  · rename_i other
    have known := identity_of_record found
    exact others current (fun same => other (same.symm.trans known)) (all identity current found)

theorem persistRecord {record : RelayPackageRecord} (all : index.All before)
    (holds : before record) : (index.persistRecord record).All before := by
  intro identity current found
  rw [record_persistRecord] at found
  split at found
  · cases found
    exact holds
  · exact all identity current found

theorem normalizeRestartState {ackPollMillis now : UInt64} (all : index.All before)
    (kept : ∀ record, before record → after (normalizeRecord ackPollMillis now record)) :
    (normalizeRestartState ackPollMillis now index).All after := by
  intro identity current found
  rw [record_normalizeRestartState] at found
  obtain ⟨previous, present, rfl⟩ := Option.map_eq_some_iff.mp found
  exact kept previous (all identity previous present)

theorem mono (all : index.All before) (weaker : ∀ record, before record → after record) :
    index.All after :=
  fun identity record found => weaker record (all identity record found)

end RelayIndex.All

end Index

section Duties

inductive Duty where
  | nothing
  | schedule
  | attempt
  | poll
  deriving DecidableEq

def duty (now : UInt64) (record : RelayPackageRecord) : Duty :=
  match record.state with
  | .queued => .schedule
  | .scheduled | .blockedByBlackout | .retrying =>
      if dueNow record.nextDeliveryAtUnixMs now then .attempt else .nothing
  | .delivered => if dueNow record.nextAckPollAtUnixMs now then .poll else .nothing
  | .inDelivery | .importerAcked | .failed => .nothing

variable {settings : RelaySettings} {reading now : UInt64} {fault : Option String}
  {record : RelayPackageRecord} {work : List PackageIdentity} {relay : Relay}
  {link : LinkProfileConfig}

theorem dueNow_iff {next : Option UInt64} :
    dueNow next now = true ↔ ∃ due, next = some due ∧ due ≤ now := by
  cases next <;> simp [dueNow]

theorem duty_eq_schedule : duty now record = .schedule ↔ record.state = .queued := by
  unfold duty
  cases record.state <;> simp [ite_eq_iff]

theorem duty_eq_attempt :
    duty now record = .attempt ↔
      (record.state = .scheduled ∨ record.state = .blockedByBlackout ∨ record.state = .retrying) ∧
        ∃ due, record.nextDeliveryAtUnixMs = some due ∧ due ≤ now := by
  unfold duty
  cases record.state <;> simp [ite_eq_iff, dueNow_iff]

end Duties

section Inversion

variable (settings : RelaySettings) (reading now : UInt64) (fault : Option String)
  (record : RelayPackageRecord) (work : List PackageIdentity) (relay : Relay)

def Relay.delivering : Relay :=
  { relay.noteAttempt now record with
    store.index := updateRecord record .startDelivery relay.store.index }

inductive Handled : Relay → Prop where
  | skipped (none : duty reading record = .nothing) :
      Handled (relay.resume work (.ok relay.store.index))
  | scheduled (link : LinkProfileConfig) (scheduledAt : UInt64)
      (queued : duty reading record = .schedule)
      (routed : linkOf settings record.toPackageIdentity = .ok link)
      (found : nextDeliveryAfter settings link (firstDue link record.relayAcceptedAtUnixMs) =
        .ok scheduledAt) :
      Handled (relay.resume work (.ok (updateRecord record
        (.schedule (firstDue link record.relayAcceptedAtUnixMs) scheduledAt) relay.store.index)))
  | unscheduled (error : String) (queued : duty reading record = .schedule)
      (failed : scheduleRecord settings record relay.store.index = .error error) :
      Handled (relay.resume work (.error error))
  | ungated (error : String) (due : duty reading record = .attempt)
      (failed : deliveryGate settings now record = .error error) :
      Handled ((relay.noteAttempt now record).resume work (.error error))
  | blocked (link : LinkProfileConfig) (blockedUntil : UInt64)
      (due : duty reading record = .attempt)
      (gate : deliveryGate settings now record = .ok (link, some blockedUntil)) :
      Handled ((relay.noteAttempt now record).resume work
        (.ok (updateRecord record (.block blockedUntil) relay.store.index)))
  | unread (link : LinkProfileConfig) (error : String) (due : duty reading record = .attempt)
      (gate : deliveryGate settings now record = .ok (link, none))
      (failed : readDelivery settings fault record relay.store = .error error) :
      Handled ((relay.delivering now record).resume work (.error error))
  | posted (link : LinkProfileConfig) (payload : Bytes) (importerUrl : String)
      (due : duty reading record = .attempt)
      (gate : deliveryGate settings now record = .ok (link, none))
      (read : readDelivery settings fault record relay.store = .ok (payload, importerUrl)) :
      Handled { relay.delivering now record with
        task := .posting record now link payload importerUrl work }
  | unpolled (error : String) (due : duty reading record = .poll)
      (failed : importerBaseUrl settings record.targetDomain = .error error) :
      Handled ((relay.notePoll now record).resume work (.error error))
  | polled (importerUrl : String) (due : duty reading record = .poll)
      (found : importerBaseUrl settings record.targetDomain = .ok importerUrl) :
      Handled { relay.notePoll now record with task := .polling record now importerUrl work }

theorem handle_eq : relay.handle settings reading now fault record work =
    match duty reading record with
    | .nothing => relay.resume work (.ok relay.store.index)
    | .schedule => relay.resume work (scheduleRecord settings record relay.store.index)
    | .attempt => relay.attemptDelivery settings now fault record work
    | .poll => relay.pollImporterStatus settings now record work := by
  unfold Relay.handle duty
  cases record.state <;> simp only
  all_goals split <;> rfl

theorem handled : Handled settings reading now fault record work relay
    (relay.handle settings reading now fault record work) := by
  rw [handle_eq]
  split
  · exact .skipped ‹_›
  · rename_i queued
    cases scheduled : scheduleRecord settings record relay.store.index with
    | error error => exact .unscheduled error queued scheduled
    | ok index =>
        simp only [scheduleRecord, bind_eq_ok] at scheduled
        obtain ⟨link, routed, scheduledAt, found, returned⟩ := scheduled
        cases returned
        exact .scheduled link scheduledAt queued routed found
  · rename_i due
    unfold Relay.attemptDelivery
    split
    · exact .ungated _ due ‹_›
    · exact .blocked _ _ due ‹_›
    · rename_i link gate
      -- the mark in the index does not matter to the payload files
      dsimp only
      split
      · exact .unread link _ due gate ‹_›
      · exact .posted link _ _ due gate ‹_›
  · rename_i due
    unfold Relay.pollImporterStatus
    split
    · exact .unpolled _ due ‹_›
    · exact .polled _ due ‹_›

def Response.reportsTerminal : Response → Bool
  | .answered status (some view) _ => status.isSuccess && view.state.isTerminal
  | _ => false

def Response.isTransient : Response → Bool
  | .answered status _ _ =>
      !decide (status.code = 200 ∨ status.code = 202) && !decide status.isClientError
  | .failed _ => true

def Response.failure : Response → String
  | .answered status _ _ => "importer returned transient status " ++ status.display
  | .failed error => "importer delivery request failed: " ++ error

/-- What `schedule_retry` decides by a count of attempts: to give the record up, or when it is due
again, before blackouts are taken into account. -/
def retryDecision (now : UInt64) (link : LinkProfileConfig) (deliveryAttempts : UInt32) :
    Option UInt64 :=
  if link.maxAttempts ≠ 0 ∧ link.maxAttempts ≤ deliveryAttempts then none
  else some (retryDue now link deliveryAttempts)

inductive DeliveryEnd (copy : RelayPackageRecord) (link : LinkProfileConfig) (response : Response) :
    Change → Prop where
  | acked (status : ImporterPackageStatusView) (reported : response.reportsTerminal = true) :
      DeliveryEnd copy link response (.ackDelivery now status)
  | delivered (status : ImporterPackageStatusView) :
      DeliveryEnd copy link response (.deliver now settings.ackPollMillis status)
  | failed (error : String) : DeliveryEnd copy link response (.failDelivery now error)
  | retried (due nextDeliveryAt : UInt64) (transient : response.isTransient = true)
      (decided : retryDecision now link copy.deliveryAttempts = some due)
      (found : nextDeliveryAfter settings link due = .ok nextDeliveryAt) :
      DeliveryEnd copy link response (.retry due nextDeliveryAt response.failure)

inductive PollEnd (response : Response) : Change → Prop where
  | acked (status : ImporterPackageStatusView) (reported : response.reportsTerminal = true) :
      PollEnd response (.ackPoll now status)
  | noted (status : ImporterPackageStatusView) :
      PollEnd response (.notePoll now settings.ackPollMillis status)
  | failed (error : String) : PollEnd response (.failPoll now error)
  | repeated (error : String) : PollEnd response (.repeatPoll now settings.ackPollMillis error)

variable {settings now record} {link : LinkProfileConfig} {index index' : RelayIndex}
  {response : Response}

theorem deliveryGate_eq_ok {blocked : Option UInt64}
    (gate : deliveryGate settings now record = .ok (link, blocked)) :
    linkOf settings record.toPackageIdentity = .ok link ∧
      (record.nextDeliveryAtUnixMs = none ∧ blocked = none ∨
        ∃ due later, record.nextDeliveryAtUnixMs = some due ∧
          nextDeliveryAfter settings link due = .ok later ∧
          blocked = if now < later then some later else none) := by
  obtain ⟨found, routed, passed⟩ := bind_eq_ok.mp gate
  split at passed
  · rename_i none
    cases passed
    exact ⟨routed, .inl ⟨none, rfl⟩⟩
  · rename_i due stored
    obtain ⟨later, ok, returned⟩ := bind_eq_ok.mp passed
    cases returned
    exact ⟨routed, .inr ⟨due, later, stored, ok, rfl⟩⟩

theorem scheduleRetry_eq (error : String) : scheduleRetry settings record now link error index =
    match retryDecision now link record.deliveryAttempts with
    | none => .ok (updateRecord record (.failDelivery now error) index)
    | some due => do
        let nextDeliveryAt ← nextDeliveryAfter settings link due
        return updateRecord record (.retry due nextDeliveryAt error) index := by
  unfold scheduleRetry retryDecision
  split <;> rfl

theorem finishDelivery_transient (transient : response.isTransient = true) :
    finishDelivery settings record now link response index =
      scheduleRetry settings record now link response.failure index := by
  cases response with
  | answered status body text =>
      simp only [Response.isTransient, Bool.and_eq_true, Bool.not_eq_true', decide_eq_false_iff_not]
        at transient
      rw [finishDelivery, if_neg transient.1, if_neg transient.2]
      rfl
  | failed error => rfl

theorem finishDelivery_eq_ok (ok : finishDelivery settings record now link response index =
    .ok index') : ∃ change, DeliveryEnd settings now record link response change ∧
      index' = updateRecord record change index := by
  cases transient : response.isTransient with
  | true =>
      rw [finishDelivery_transient transient, scheduleRetry_eq] at ok
      cases decided : retryDecision now link record.deliveryAttempts with
      | none =>
          rw [decided] at ok
          cases ok
          exact ⟨_, .failed _, rfl⟩
      | some due =>
          rw [decided] at ok
          obtain ⟨nextDeliveryAt, found, returned⟩ := bind_eq_ok.mp ok
          cases returned
          exact ⟨_, .retried due nextDeliveryAt transient decided found, rfl⟩
  | false =>
      cases response with
      | failed error => cases transient
      | answered status body text =>
          rw [finishDelivery] at ok
          split at ok
          · rename_i received
            simp only [bind_eq_ok, okOr_eq_ok] at ok
            obtain ⟨view, decoded, returned⟩ := ok
            subst decoded
            split at returned
            · rename_i terminal
              cases returned
              have success : status.isSuccess := by
                rw [StatusCode.isSuccess]
                omega
              exact ⟨_, .acked view (by simp [Response.reportsTerminal, success, terminal]), rfl⟩
            · cases returned
              exact ⟨_, .delivered view, rfl⟩
          · rename_i refused
            split at ok
            · cases ok
              exact ⟨_, .failed _, rfl⟩
            · rename_i unblamed
              simp [Response.isTransient, refused, unblamed] at transient

theorem finishPoll_eq_ok (ok : finishPoll settings record now response index = .ok index') :
    ∃ change, PollEnd settings now response change ∧ index' = updateRecord record change index := by
  rw [finishPoll.eq_def] at ok
  split at ok
  · split at ok
    · rename_i success
      simp only [bind_eq_ok, okOr_eq_ok] at ok
      obtain ⟨view, decoded, returned⟩ := ok
      subst decoded
      split at returned
      · rename_i terminal
        cases returned
        exact ⟨_, .acked view (by simp [Response.reportsTerminal, success, terminal]), rfl⟩
      · cases returned
        exact ⟨_, .noted view, rfl⟩
    · split at ok
      · cases ok
        exact ⟨_, .failed _, rfl⟩
      · cases ok
        exact ⟨_, .repeated _, rfl⟩
  · cases ok
    exact ⟨_, .repeated _, rfl⟩

end Inversion

section Steps

variable (settings : RelaySettings) (blake2 : Bytes → Hash32) (codec : PackageCodec) (relay : Relay)

/-- What an action does to the relay, with what it found there. -/
inductive Stepped : Event → Relay → Prop where
  | submitted (body : Bytes) (now : UInt64) (store : RelayStore)
      (stored : Submitted blake2 codec body now relay.store store) :
      Stepped (.submit body now) { relay with clock := now, store }
  | ticked (now : UInt64) (idle : relay.task = .idle) :
      Stepped (.tick now) (relay.schedulerTick now)
  | vanished (reading now : UInt64) (fault : Option String) (identity : PackageIdentity)
      (work : List PackageIdentity) (ticking : relay.task = .ticking (identity :: work))
      (absent : relay.store.index.record identity = none) :
      Stepped (.visit reading now fault) ((relay.turn reading).resume work (.ok relay.store.index))
  | visited (reading now : UInt64) (fault : Option String) (identity : PackageIdentity)
      (work : List PackageIdentity) (record : RelayPackageRecord) (relay' : Relay)
      (ticking : relay.task = .ticking (identity :: work))
      (found : relay.store.index.record identity = some record)
      (handled : Handled settings reading now fault record work (relay.turn reading) relay') :
      Stepped (.visit reading now fault) relay'
  | deliveryEnded (response : Response) (record : RelayPackageRecord) (now : UInt64)
      (link : LinkProfileConfig) (payload : Bytes) (importerUrl : String)
      (work : List PackageIdentity)
      (posting : relay.task = .posting record now link payload importerUrl work) :
      Stepped (.respond response) ((relay.turn relay.clock).resume work
        (finishDelivery settings record now link response relay.store.index))
  | pollEnded (response : Response) (record : RelayPackageRecord) (now : UInt64)
      (importerUrl : String) (work : List PackageIdentity)
      (polling : relay.task = .polling record now importerUrl work) :
      Stepped (.respond response) ((relay.turn relay.clock).resume work
        (finishPoll settings record now response relay.store.index))
  | restarted (now : UInt64) : Stepped (.restart now) { relay with
      clock := now
      task := .idle
      store.index := normalizeRestartState settings.ackPollMillis now relay.store.index }
  | ignored (event : Event) : Stepped event relay

theorem stepped (event : Event) :
    Stepped settings blake2 codec relay event (relay.apply settings blake2 codec event) := by
  unfold Relay.apply
  split
  · exact .submitted _ _ _ (submitPackage_submitted blake2 codec _ _ _)
  · exact .ticked _ ‹_›
  · rename_i reading now fault identity work ticking
    dsimp only
    split
    · exact .vanished _ _ _ _ _ ticking ‹_›
    · exact .visited _ _ _ _ _ _ _ ticking ‹_› (handled ..)
  · exact .deliveryEnded _ _ _ _ _ _ _ ‹_›
  · exact .pollEnded _ _ _ _ _ ‹_›
  · exact .restarted _
  · exact .ignored _

variable {settings blake2 codec relay}

theorem Relay.invariant {admits : Relay → Event → Prop} (property : Relay → Prop)
    (starts : property Relay.initial)
    (keeps : ∀ {relay event relay'}, (Relay.runs settings blake2 codec admits).Reachable relay →
      property relay →
      admits relay event → Stepped settings blake2 codec relay event relay' → property relay')
    (reachable : (Relay.runs settings blake2 codec admits).Reachable relay) : property relay := by
  apply reachable.invariant property
  · intro _ initial
    subst initial
    exact starts
  · rintro relay _ reached holds ⟨event, admitted, rfl⟩
    exact keeps reached holds admitted (stepped settings blake2 codec relay event)

theorem Relay.runs_mono {admits admits' : Relay → Event → Prop}
    (weaker : ∀ relay event, admits relay event → admits' relay event)
    (reachable : (Relay.runs settings blake2 codec admits).Reachable relay) :
    (Relay.runs settings blake2 codec admits').Reachable relay := by
  refine reachable.mono id fun step => ?_
  obtain ⟨event, admitted, same⟩ := step
  exact ⟨event, weaker _ event admitted, same⟩

def Relay.Follows (settings : RelaySettings) (blake2 : Bytes → Hash32) (codec : PackageCodec)
    (admits : Relay → Event → Prop) : List Event → Relay → Prop
  | [], _ => True
  | event :: rest, relay => admits relay event ∧
      Relay.Follows settings blake2 codec admits rest (relay.apply settings blake2 codec event)

instance (settings : RelaySettings) (blake2 : Bytes → Hash32) (codec : PackageCodec)
    (admits : Relay → Event → Prop) [∀ relay event, Decidable (admits relay event)] :
    ∀ events relay, Decidable (Relay.Follows settings blake2 codec admits events relay) :=
  let rec decide
    | [], _ => inferInstanceAs (Decidable True)
    | event :: rest, relay =>
        have := decide rest (relay.apply settings blake2 codec event)
        inferInstanceAs (Decidable (_ ∧ _))
  decide

def Relay.run (settings : RelaySettings) (blake2 : Bytes → Hash32) (codec : PackageCodec) :
    List Event → Relay → Relay
  | [], relay => relay
  | event :: rest, relay =>
      Relay.run settings blake2 codec rest (relay.apply settings blake2 codec event)

theorem Relay.reachable_run {admits : Relay → Event → Prop} {events : List Event}
    (reachable : (Relay.runs settings blake2 codec admits).Reachable relay)
    (follows : Relay.Follows settings blake2 codec admits events relay) :
    (Relay.runs settings blake2 codec admits).Reachable
      (Relay.run settings blake2 codec events relay) := by
  induction events generalizing relay with
  | nil => exact reachable
  | cons event rest ih => exact ih (.next reachable ⟨event, follows.1, rfl⟩) follows.2

end Steps

section Resume

variable {work : List PackageIdentity} {result : Except String RelayIndex} {relay : Relay}

variable (work result relay) in
theorem resume_task : (relay.resume work result).task = .idle ∨
    ∃ next rest, work = next :: rest ∧ (relay.resume work result).task =
      .ticking (next :: rest) := by
  unfold Relay.resume
  split
  · exact .inl rfl
  · split
    · exact .inl rfl
    · exact .inr ⟨_, _, rfl, rfl⟩

theorem resume_not_posting {record : RelayPackageRecord} {now : UInt64}
    {link : LinkProfileConfig} {payload : Bytes} {importerUrl : String}
    {rest : List PackageIdentity} :
    (relay.resume work result).task ≠ .posting record now link payload importerUrl rest := by
  intro posting
  rcases resume_task work result relay with idle | ⟨_, _, _, ticking⟩
  · rw [idle] at posting
    cases posting
  · rw [ticking] at posting
    cases posting

theorem resume_not_polling {record : RelayPackageRecord} {now : UInt64} {importerUrl : String}
    {rest : List PackageIdentity} :
    (relay.resume work result).task ≠ .polling record now importerUrl rest := by
  intro polling
  rcases resume_task work result relay with idle | ⟨_, _, _, ticking⟩
  · rw [idle] at polling
    cases polling
  · rw [ticking] at polling
    cases polling

theorem resume_store : (relay.resume work result).store =
    match result with
    | .ok index => { relay.store with index }
    | .error _ => relay.store := by
  unfold Relay.resume
  split
  · rfl
  · split <;> rfl

theorem resume_times : (relay.resume work result).clock = relay.clock ∧
    (relay.resume work result).log.openedAt = relay.log.openedAt := by
  unfold Relay.resume
  split
  · exact ⟨rfl, rfl⟩
  · split <;> exact ⟨rfl, rfl⟩

end Resume

section Waiting

/-- While the scheduler waits for an answer the record is as it has left it: the one that was copied
with its attempt counted, or one that was delivered. -/
structure Relay.Waiting (settings : RelaySettings) (relay : Relay) : Prop where
  posting : ∀ {copy now link payload importerUrl work},
    relay.task = .posting copy now link payload importerUrl work →
      relay.store.index.record copy.toPackageIdentity = some (Change.startDelivery.apply copy) ∧
        linkOf settings copy.toPackageIdentity = .ok link
  polling : ∀ {copy now importerUrl work}, relay.task = .polling copy now importerUrl work →
    ∃ current, relay.store.index.record copy.toPackageIdentity = some current ∧
      current.state = .delivered

variable {settings : RelaySettings} {blake2 : Bytes → Hash32} {codec : PackageCodec}
  {relay relay' : Relay} {event : Event} {work : List PackageIdentity}
  {result : Except String RelayIndex} {now : UInt64} {record : RelayPackageRecord}

theorem duty_eq_poll (due : duty now record = .poll) : record.state = .delivered := by
  unfold duty at due
  cases state : record.state <;> simp_all [ite_eq_iff]

theorem waiting_resume : (relay.resume work result).Waiting settings :=
  ⟨fun posting => absurd posting resume_not_posting, fun polling =>
    absurd polling resume_not_polling⟩

theorem waiting_idle (idle : relay.task = .idle) : relay.Waiting settings := by
  constructor
  · intro _ _ _ _ _ _ posting
    cases idle.symm.trans posting
  · intro _ _ _ _ polling
    cases idle.symm.trans polling

theorem Stepped.waiting (step : Stepped settings blake2 codec relay event relay')
    (waiting : relay.Waiting settings) : relay'.Waiting settings := by
  cases step with
  | submitted body now store stored =>
      constructor
      · intro _ _ _ _ _ _ posting
        obtain ⟨current, routed⟩ := waiting.posting posting
        exact ⟨(stored.record_kept current).1, routed⟩
      · intro _ _ _ _ polling
        obtain ⟨current, found, delivered⟩ := waiting.polling polling
        exact ⟨current, (stored.record_kept found).1, delivered⟩
  | ticked =>
      unfold Relay.schedulerTick
      exact waiting_resume
  | vanished => exact waiting_resume
  | visited reading now fault identity work record _ ticking found handled =>
      have known := RelayIndex.identity_of_record found
      cases handled with
      | posted link payload importerUrl due gate read =>
          refine ⟨?_, by rintro _ _ _ _ ⟨⟩⟩
          rintro _ _ _ _ _ _ ⟨⟩
          exact ⟨record_updateRecord_self (known.symm ▸ found), (deliveryGate_eq_ok gate).1⟩
      | polled importerUrl due =>
          refine ⟨by rintro _ _ _ _ _ _ ⟨⟩, ?_⟩
          rintro _ _ _ _ ⟨⟩
          exact ⟨record, known.symm ▸ found, duty_eq_poll due⟩
      | _ => exact waiting_resume
  | deliveryEnded => exact waiting_resume
  | pollEnded => exact waiting_resume
  | restarted => exact waiting_idle rfl
  | ignored => exact waiting

theorem Relay.waiting {admits : Relay → Event → Prop}
    (reachable : (Relay.runs settings blake2 codec admits).Reachable relay) :
    relay.Waiting settings :=
  Relay.invariant (fun relay => relay.Waiting settings) (waiting_idle rfl)
    (fun _ waiting _ step => step.waiting waiting) reachable

end Waiting

section Stores

variable {settings : RelaySettings} {blake2 : Bytes → Hash32} {codec : PackageCodec}
  {relay relay' : Relay} {event : Event}

/-- What an action does to the store, when it does not matter which change a handler makes. -/
inductive StoreStep (settings : RelaySettings) (blake2 : Bytes → Hash32)
    (codec : PackageCodec) (event : Event) (store : RelayStore) : RelayStore → Prop where
  | kept : StoreStep settings blake2 codec event store store
  | submitted (body : Bytes) (now : UInt64) (store' : RelayStore) (same : event = .submit body now)
      (stored : Submitted blake2 codec body now store store') :
      StoreStep settings blake2 codec event store store'
  | changed (record : RelayPackageRecord) (change : Change) :
      StoreStep settings blake2 codec event store
        { store with index := updateRecord record change store.index }
  | normalized (now : UInt64) (same : event = .restart now) :
      StoreStep settings blake2 codec event store
        { store with index := normalizeRestartState settings.ackPollMillis now store.index }

inductive VisitChange (reading : UInt64) (record : RelayPackageRecord) : Change → Prop where
  | scheduled (due scheduledAt : UInt64) (queued : duty reading record = .schedule) :
      VisitChange reading record (.schedule due scheduledAt)
  | blocked (blockedUntil : UInt64) (due : duty reading record = .attempt) :
      VisitChange reading record (.block blockedUntil)
  | started (due : duty reading record = .attempt) : VisitChange reading record .startDelivery

/-- What an action does to the store, with the handler that makes the change. -/
inductive StoreChange (settings : RelaySettings) (blake2 : Bytes → Hash32)
    (codec : PackageCodec) (relay : Relay) : Event → RelayStore → Prop where
  | kept (event : Event) : StoreChange settings blake2 codec relay event relay.store
  | submitted (body : Bytes) (now : UInt64) (store : RelayStore)
      (stored : Submitted blake2 codec body now relay.store store) :
      StoreChange settings blake2 codec relay (.submit body now) store
  | visited (reading now : UInt64) (fault : Option String)
      (record : RelayPackageRecord) (change : Change)
      (found : relay.store.index.record record.toPackageIdentity = some record)
      (visit : VisitChange reading record change) :
      StoreChange settings blake2 codec relay (.visit reading now fault)
        { relay.store with index := updateRecord record change relay.store.index }
  | deliveryEnded (response : Response) (record : RelayPackageRecord) (now : UInt64)
      (link : LinkProfileConfig) (payload : Bytes) (importerUrl : String)
      (work : List PackageIdentity) (index : RelayIndex)
      (posting : relay.task = .posting record now link payload importerUrl work)
      (ended : finishDelivery settings record now link response relay.store.index = .ok index) :
      StoreChange settings blake2 codec relay (.respond response) { relay.store with index }
  | pollEnded (response : Response) (record : RelayPackageRecord) (now : UInt64)
      (importerUrl : String) (work : List PackageIdentity) (index : RelayIndex)
      (polling : relay.task = .polling record now importerUrl work)
      (ended : finishPoll settings record now response relay.store.index = .ok index) :
      StoreChange settings blake2 codec relay (.respond response) { relay.store with index }
  | restarted (now : UInt64) : StoreChange settings blake2 codec relay (.restart now)
      { relay.store with
        index := normalizeRestartState settings.ackPollMillis now relay.store.index }

theorem Stepped.changed (step : Stepped settings blake2 codec relay event relay') :
    StoreChange settings blake2 codec relay event relay'.store := by
  cases step with
  | submitted body now store stored => exact .submitted body now store stored
  | ticked =>
      rw [Relay.schedulerTick, resume_store]
      exact .kept _
  | vanished =>
      rw [resume_store]
      exact .kept _
  | visited reading now fault identity work record _ ticking found handled =>
      have known := RelayIndex.identity_of_record found
      subst known
      cases handled with
      | posted link payload importerUrl due =>
          exact .visited reading now fault record _ found (.started due)
      | polled => exact .kept _
      | scheduled link scheduledAt queued =>
          rw [resume_store]
          exact .visited reading now fault record _ found (.scheduled _ _ queued)
      | blocked link blockedUntil due =>
          rw [resume_store]
          exact .visited reading now fault record _ found (.blocked _ due)
      | unread link error due =>
          rw [resume_store]
          exact .visited reading now fault record _ found (.started due)
      | _ =>
          rw [resume_store]
          exact .kept _
  | deliveryEnded response record now link payload importerUrl work posting =>
      rw [resume_store]
      cases ended : finishDelivery settings record now link response relay.store.index with
      | error => exact .kept _
      | ok index =>
          exact .deliveryEnded response record now link payload importerUrl work index posting ended
  | pollEnded response record now importerUrl work polling =>
      rw [resume_store]
      cases ended : finishPoll settings record now response relay.store.index with
      | error => exact .kept _
      | ok index => exact .pollEnded response record now importerUrl work index polling ended
  | restarted now => exact .restarted now
  | ignored => exact .kept _

theorem Stepped.store (step : Stepped settings blake2 codec relay event relay') :
    StoreStep settings blake2 codec event relay.store relay'.store := by
  have changed := step.changed
  generalize relay'.store = store' at changed ⊢
  cases changed with
  | kept => exact .kept
  | submitted body now _ stored => exact .submitted body now store' rfl stored
  | visited reading now fault record change => exact .changed record change
  | deliveryEnded response record now link payload importerUrl work index posting ended =>
      obtain ⟨change, _, rfl⟩ := finishDelivery_eq_ok ended
      exact .changed record change
  | pollEnded response record now importerUrl work index polling ended =>
      obtain ⟨change, _, rfl⟩ := finishPoll_eq_ok ended
      exact .changed record change
  | restarted now => exact .normalized now rfl

def Filed (store : RelayStore) : Prop :=
  store.index.All fun record => ∃ payload, store.payloads record.toPackageIdentity = some payload

theorem StoreStep.filed {store store' : RelayStore} (filed : Filed store)
    (step : StoreStep settings blake2 codec event store store') : Filed store' := by
  cases step with
  | kept => exact filed
  | submitted body now store' _ stored =>
      cases stored with
      | kept => exact filed
      | queued envelope package accepted absent =>
          refine RelayIndex.All.persistRecord ?_ ?_
          · refine filed.mono ?_
            rintro record ⟨payload, present⟩
            by_cases same : record.toPackageIdentity = envelopeIdentity envelope
            · exact ⟨_, update_eq_some.mpr (.inl ⟨same, rfl⟩)⟩
            · exact ⟨payload, update_eq_some.mpr (.inr ⟨same, present⟩)⟩
          · exact ⟨_, update_eq_some.mpr (.inl ⟨rfl, rfl⟩)⟩
  | changed record change =>
      refine filed.updateRecord ?_ ?_
      · intro current _ present
        rw [change.identity]
        exact present
      · intro current _ present
        exact present
  | normalized now =>
      refine filed.normalizeRestartState ?_
      intro record present
      rw [normalizeRecord_identity]
      exact present

theorem Relay.filed {admits : Relay → Event → Prop}
    (reachable : (Relay.runs settings blake2 codec admits).Reachable relay) :
    Filed relay.store := by
  apply Relay.invariant (fun relay => Filed relay.store) _ _ reachable
  · intro identity record found
    cases found
  · intro relay event relay' _ filed _ step
    exact step.store.filed filed

end Stores

end Ialp.Services
