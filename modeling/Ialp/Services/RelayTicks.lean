import Ialp.Services.RelayService

/-!
Ticks that serve every record. The first handler that fails ends the tick, and the records after it
wait for the next one, which fails at the same place; so a package that is accepted but cannot be
routed stops all others behind it. In runs without such packages and with handlers that find what
they need, every tick returns after it has scheduled, attempted or polled every record that called
for it.
-/

namespace Ialp.Services

open Scale Deferral Function

section Health

/-- What ticks that serve every record need of an action: every handler that is called can finish. A
package that is queued has a link and is first due at a representable time, and so is a delivery
that a restart cuts off. -/
structure Working (settings : RelaySettings) (blake2 : Bytes → Hash32)
    (codec : PackageCodec) (relay : Relay) (event : Event) : Prop where
  answerable : Answerable settings relay event
  routed : ∀ body now envelope package, event = .submit body now →
    decodeAndValidateEnvelope blake2 codec body = .ok (envelope, package) →
      envelope.sourceDomain ≠ envelope.targetDomain
  accepted : ∀ body now envelope package link, event = .submit body now →
    decodeAndValidateEnvelope blake2 codec body = .ok (envelope, package) →
      settings.transport.link envelope.sourceDomain envelope.targetDomain = some link →
        (firstDue link now).toNat ≤ settings.maxUtcMillis
  polled : ∀ response record now importerUrl work, event = .respond response →
    relay.task = .polling record now importerUrl work → response.Decodes
  restarted : ∀ now identity record, event = .restart now →
    relay.store.index.record identity = some record →
    record.state = .inDelivery → now.toNat ≤ settings.maxUtcMillis

structure Sound (settings : RelaySettings) (record : RelayPackageRecord) : Prop where
  routed : record.sourceDomain ≠ record.targetDomain
  accepted : ∀ link, linkOf settings record.toPackageIdentity = .ok link →
    (firstDue link record.relayAcceptedAtUnixMs).toNat ≤ settings.maxUtcMillis
  next : ∀ due, record.nextDeliveryAtUnixMs = some due → due.toNat ≤ settings.maxUtcMillis

variable {settings : RelaySettings} {blake2 : Bytes → Hash32} {codec : PackageCodec}
  {relay relay' : Relay} {record : RelayPackageRecord} {now reading due later : UInt64}
  {link : LinkProfileConfig} {change : Change} {work : List PackageIdentity}
  {result : Except String RelayIndex} {fault : Option String} {index : RelayIndex}

theorem nextDeliveryAfter_le (member : link ∈ settings.transport.links)
    (ok : nextDeliveryAfter settings link due = .ok later) :
    later.toNat ≤ settings.maxUtcMillis := by
  have bound := defer_lt member (exists_nextDeliveryAfter_iff.mp ⟨later, ok⟩)
  obtain ⟨_, _, lower, _⟩ := nextDeliveryAfter_eq_ok member ok
  rw [millisInstant] at lower
  omega

theorem Sound.changed (sound : Sound settings record)
    (next : ∀ due, (change.apply record).nextDeliveryAtUnixMs = some due →
      record.nextDeliveryAtUnixMs = some due ∨ due.toNat ≤ settings.maxUtcMillis) :
    Sound settings (change.apply record) := by
  refine ⟨?_, ?_, ?_⟩
  · rw [change.identity]
    exact sound.routed
  · rw [change.acceptedAt, change.identity]
    exact sound.accepted
  · intro due stored
    rcases next due stored with same | fits
    · exact sound.next due same
    · exact fits

theorem DeliveryEnd.sound {copy : RelayPackageRecord} {response : Response}
    (ended : DeliveryEnd settings now copy link response change)
    (member : link ∈ settings.transport.links) (sound : Sound settings record) :
    Sound settings (change.apply record) := by
  cases ended with
  | acked => exact sound.changed fun _ stored => .inl stored
  | delivered => exact sound.changed (by rintro _ ⟨⟩)
  | failed => exact sound.changed (by rintro _ ⟨⟩)
  | retried due nextDeliveryAt transient decided found =>
      refine sound.changed ?_
      rintro _ ⟨⟩
      exact .inr (nextDeliveryAfter_le member found)

theorem PollEnd.sound {response : Response} (ended : PollEnd settings now response change)
    (sound : Sound settings record) : Sound settings (change.apply record) := by
  cases ended <;> exact sound.changed fun _ stored => .inl stored

theorem sound_normalizeRecord (ackPollMillis : UInt64)
    (cut : record.state = .inDelivery → now.toNat ≤ settings.maxUtcMillis)
    (sound : Sound settings record) :
    Sound settings (normalizeRecord ackPollMillis now record) := by
  have origin := normalizeRecord_origin ackPollMillis now record
  have accepted : (normalizeRecord ackPollMillis now record).relayAcceptedAtUnixMs =
      record.relayAcceptedAtUnixMs :=
    congrArg (fun origin => origin.2.2.2.2) origin
  refine ⟨?_, ?_, ?_⟩
  · rw [normalizeRecord_identity]
    exact sound.routed
  · rw [normalizeRecord_identity, accepted]
    exact sound.accepted
  · intro due stored
    rw [normalizeRecord] at stored
    split at stored
    · cases stored
      exact cut ‹_›
    · split at stored <;> exact sound.next due stored
    · exact sound.next due stored

theorem sound_resume (all : ∀ index, result = .ok index → index.All (Sound settings))
    (kept : relay.store.index.All (Sound settings)) :
    (relay.resume work result).store.index.All (Sound settings) := by
  rw [resume_store]
  split
  · exact all _ rfl
  · exact kept

theorem Handled.sound (sound : relay.store.index.All (Sound settings))
    (handled : Handled settings reading now fault record work relay relay') :
    relay'.store.index.All (Sound settings) := by
  have started : (updateRecord record .startDelivery relay.store.index).All (Sound settings) :=
    sound.updateRecord (fun _ _ here => here.changed fun _ stored => .inl stored) fun _ _ here =>
      here
  cases handled with
  | scheduled link scheduledAt queued routed found =>
      refine sound_resume ?_ sound
      rintro _ ⟨⟩
      refine sound.updateRecord (fun current _ here => here.changed ?_) fun _ _ here => here
      rintro _ ⟨⟩
      exact .inr (nextDeliveryAfter_le (mem_links routed) found)
  | blocked link blockedUntil due gate =>
      refine sound_resume ?_ sound
      rintro _ ⟨⟩
      refine sound.updateRecord (fun current _ here => here.changed ?_) fun _ _ here => here
      rintro _ ⟨⟩
      obtain ⟨routed, ⟨_, none⟩ | ⟨_, later, _, found, passed⟩⟩ := deliveryGate_eq_ok gate
      · cases none
      · split at passed
        · cases passed
          exact .inr (nextDeliveryAfter_le (mem_links routed) found)
        · cases passed
  | posted => exact started
  | unread => exact sound_resume (by rintro _ ⟨⟩) started
  | polled => exact sound
  | skipped => exact sound_resume (by rintro _ ⟨⟩; exact sound) sound
  | _ => exact sound_resume (by rintro _ ⟨⟩) sound

theorem Relay.sound {admits : Relay → Event → Prop}
    (working : ∀ relay event, admits relay event → Working settings blake2 codec relay event)
    (reachable : (Relay.runs settings blake2 codec admits).Reachable relay) :
    relay.store.index.All (Sound settings) := by
  apply Relay.invariant (fun relay => relay.store.index.All (Sound settings)) _ _ reachable
  · rintro _ _ ⟨⟩
  · intro relay event relay' reached sound admitted step
    have works := working relay event admitted
    cases step with
    | submitted body now store stored =>
        cases stored with
        | kept => exact sound
        | queued envelope package accepted =>
            refine sound.persistRecord ⟨works.routed body now envelope package rfl accepted,
              ?_, by rintro _ ⟨⟩⟩
            intro link routed
            exact works.accepted body now envelope package link rfl accepted (okOr_eq_ok.mp routed)
    | visited reading now fault identity work record _ ticking found handled =>
        have before : (relay.turn reading).store.index.All (Sound settings) := sound
        exact handled.sound before
    | deliveryEnded response record now link payload importerUrl work posting =>
        refine sound_resume ?_ sound
        intro index ended
        obtain ⟨change, done, rfl⟩ := finishDelivery_eq_ok ended
        have member := mem_links ((Relay.waiting reached).posting posting).2
        exact sound.updateRecord (fun _ _ here => done.sound member here) fun _ _ here => here
    | pollEnded =>
        refine sound_resume ?_ sound
        intro index ended
        obtain ⟨change, done, rfl⟩ := finishPoll_eq_ok ended
        exact sound.updateRecord (fun _ _ here => done.sound here) fun _ _ here => here
    | restarted now =>
        intro identity record' found
        rw [record_normalizeRestartState] at found
        obtain ⟨record, present, rfl⟩ := Option.map_eq_some_iff.mp found
        exact sound_normalizeRecord _ (works.restarted now identity record rfl present)
          (sound identity record present)
    | ignored => exact sound
    | ticked =>
        unfold Relay.schedulerTick
        exact sound_resume (by rintro _ ⟨⟩; exact sound) sound
    | vanished => exact sound_resume (by rintro _ ⟨⟩; exact sound) sound

theorem Sound.linked (sound : Sound settings record) :
    ∃ link, linkOf settings record.toPackageIdentity = .ok link := by
  obtain ⟨link, found⟩ := settings.transport.link_exists sound.routed
  exact ⟨link, okOr_eq_ok.mpr found⟩

theorem scheduleRecord_total (sound : Sound settings record) (index : RelayIndex) :
    ∃ index', scheduleRecord settings record index = .ok index' := by
  obtain ⟨link, routed⟩ := sound.linked
  obtain ⟨scheduledAt, found⟩ :
      ∃ scheduledAt, nextDeliveryAfter settings link (firstDue link record.relayAcceptedAtUnixMs) =
    .ok scheduledAt := exists_nextDeliveryAfter_iff.mpr (sound.accepted link routed)
  simp only [scheduleRecord, routed, ok_bind, found]
  exact ⟨_, rfl⟩

theorem deliveryGate_total (sound : Sound settings record) (now : UInt64) :
    ∃ passed, deliveryGate settings now record = .ok passed := by
  obtain ⟨link, routed⟩ := sound.linked
  simp only [deliveryGate, routed, ok_bind]
  split
  · exact ⟨_, rfl⟩
  · rename_i due stored
    obtain ⟨later, found⟩ : ∃ later, nextDeliveryAfter settings link due = .ok later :=
      exists_nextDeliveryAfter_iff.mpr (sound.next due stored)
    simp only [found, ok_bind]
    exact ⟨_, rfl⟩

end Health

section Progress

def Served (now : UInt64) (log : TickLog) (index : RelayIndex) (identity : PackageIdentity)
    (record : RelayPackageRecord) : Prop :=
  match duty now record with
  | .nothing => True
  | .schedule => ∃ current, index.record identity = some current ∧
      (current.state = .scheduled ∨ current.state = .blockedByBlackout) ∧
        current.nextDeliveryAtUnixMs.isSome
  | .attempt => identity ∈ log.attempted
  | .poll => identity ∈ log.polled

/-- A tick in its course: what it has not come to is as it was at the start, and the rest is served.
A turn takes a record from the work or ends the wait for an answer. -/
structure InTick (log : TickLog) (index : RelayIndex) (work : List PackageIdentity)
    (waiting : Nat) : Prop where
  running : log.outcome = none
  distinct : work.Nodup
  known : ∀ identity ∈ work, ∃ record, log.opening.record identity = some record
  pending : ∀ identity ∈ work, index.record identity = log.opening.record identity
  served : ∀ identity record, log.opening.record identity = some record → identity ∉ work →
    Served log.openedAt log index identity record
  turns : log.turns + waiting + 2 * work.length ≤ 2 * log.opening.packages.length

def Progress (relay : Relay) : Prop :=
  match relay.task with
  | .idle => (∀ error, relay.log.outcome ≠ some (.error error)) ∧
      (relay.log.outcome = some (.ok ()) → ∀ identity record,
        relay.log.opening.record identity = some record →
        Served relay.log.openedAt relay.log relay.store.index identity record)
  | .ticking work => work ≠ [] ∧ InTick relay.log relay.store.index work 0
  | .posting record _ _ _ _ work | .polling record _ _ work =>
      record.state ≠ .queued ∧ relay.log.opening.record record.toPackageIdentity = some record ∧
        record.toPackageIdentity ∉ work ∧ InTick relay.log relay.store.index work 1

variable {settings : RelaySettings} {blake2 : Bytes → Hash32} {codec : PackageCodec}
  {relay relay' : Relay} {record : RelayPackageRecord} {now reading early late : UInt64}
  {log log' : TickLog} {index index' : RelayIndex} {work : List PackageIdentity}
  {identity : PackageIdentity} {waiting : Nat}

theorem duty_mono (le : early ≤ late) (record : RelayPackageRecord) :
    duty early record = .nothing ∨ duty early record = duty late record := by
  have due : ∀ next, dueNow next early = true → dueNow next late = true := by
    intro next reached
    obtain ⟨time, stored, before⟩ := dueNow_iff.mp reached
    exact dueNow_iff.mpr ⟨time, stored, UInt64.le_trans before le⟩
  unfold duty
  cases record.state <;> simp only [or_true]
  all_goals
    split
    · rename_i reached
      rw [if_pos (due _ reached)]
      exact .inr rfl
    · exact .inl rfl

theorem Served.earlier (le : early ≤ late) (served : Served late log index identity record) :
    Served early log index identity record := by
  unfold Served at served ⊢
  rcases duty_mono le record with nothing | same
  · rw [nothing]
    trivial
  · rw [same]
    exact served

theorem Served.mono (attempted : log.attempted ⊆ log'.attempted) (polled : log.polled ⊆ log'.polled)
    (kept : ∀ current, record.state = .queued → index.record identity = some current →
      current.state = .scheduled ∨ current.state = .blockedByBlackout →
        index'.record identity = some current)
    (served : Served now log index identity record) : Served now log' index' identity record := by
  unfold Served at served ⊢
  cases call : duty now record with
  | nothing => trivial
  | schedule =>
      simp only [call] at served
      obtain ⟨current, found, state, next⟩ := served
      exact ⟨current, kept current (duty_eq_schedule.mp call) found state, state, next⟩
  | attempt =>
      simp only [call] at served
      exact attempted served
  | poll =>
      simp only [call] at served
      exact polled served

theorem progress_resume (inTick : InTick relay.log index work 0) :
    Progress (relay.resume work (.ok index)) := by
  cases work with
  | nil =>
      refine ⟨by rintro _ ⟨⟩, fun _ identity record found => ?_⟩
      exact inTick.served identity record found List.not_mem_nil
  | cons next rest => exact ⟨List.cons_ne_nil _ _, inTick⟩

theorem progress_visited (inTick : InTick relay.log index work 1) :
    Progress (relay.resume work (.ok index)) :=
  progress_resume { inTick with turns := le_trans (by omega) inTick.turns }

theorem InTick.visit (inTick : InTick log index (identity :: work) 0)
    (running : log'.outcome = none) (opening : log'.opening = log.opening)
    (openedAt : log'.openedAt = log.openedAt) (turned : log'.turns = log.turns + 1)
    (attempted : log.attempted ⊆ log'.attempted) (polled : log.polled ⊆ log'.polled)
    (others : ∀ other, other ≠ identity → index'.record other = index.record other)
    (served : ∀ record, log.opening.record identity = some record →
      Served log.openedAt log' index' identity record) :
    InTick log' index' work 1 := by
  obtain ⟨fresh, distinct⟩ := List.nodup_cons.mp inTick.distinct
  have turns := inTick.turns
  rw [List.length_cons] at turns
  refine ⟨running, distinct, ?_, ?_, ?_, ?_⟩
  · intro other member
    rw [opening]
    exact inTick.known other (List.mem_cons_of_mem _ member)
  · intro other member
    rw [opening, others other (by rintro rfl; exact fresh member)]
    exact inTick.pending other (List.mem_cons_of_mem _ member)
  · intro other record found left
    rw [opening] at found
    rw [openedAt]
    by_cases same : other = identity
    · subst same
      exact served record found
    · refine (inTick.served other record found ?_).mono attempted polled fun current _ here _ => ?_
      · simp [same, left]
      · rw [others other same]
        exact here
  · rw [opening, turned]
    omega

theorem StoreStep.distinct {event : Event} {store store' : RelayStore}
    (distinct : store.index.identities.Nodup)
    (step : StoreStep settings blake2 codec event store store') :
    store'.index.identities.Nodup := by
  have persisted : ∀ record, (store.index.persistRecord record).identities.Nodup :=
    fun record => Keyed.nodup_upsert distinct
  cases step with
  | kept => exact distinct
  | submitted body now _ _ stored =>
      cases stored with
      | kept => exact distinct
      | queued => exact persisted _
  | changed record change =>
      simp only [updateRecord]
      split
      · exact distinct
      · exact persisted _
  | normalized now =>
      simp only [RelayIndex.identities, normalizeRestartState, List.map_map, comp_def,
        normalizeRecord_identity]
      exact distinct

theorem Relay.distinct {admits : Relay → Event → Prop}
    (reachable : (Relay.runs settings blake2 codec admits).Reachable relay) :
    relay.store.index.identities.Nodup := by
  apply Relay.invariant (fun relay => relay.store.index.identities.Nodup) _ _ reachable
  · exact List.nodup_nil
  · intro relay event relay' _ distinct _ step
    exact step.store.distinct distinct

theorem Relay.opened {admits : Relay → Event → Prop}
    (reachable : (Relay.system settings blake2 codec admits).Reachable relay) :
    relay.log.openedAt ≤ relay.clock := by
  apply Relay.invariant (fun relay => relay.log.openedAt ≤ relay.clock) _ _ reachable
  · exact UInt64.le_refl _
  · rintro relay event relay' _ opened ⟨timely, _⟩ step
    have resumed : ∀ {relay : Relay} {work result}, relay.log.openedAt ≤ relay.clock →
        (relay.resume work result).log.openedAt ≤ (relay.resume work result).clock := by
      intro relay work result before
      rw [resume_times.1, resume_times.2]
      exact before
    cases step with
    | submitted => exact UInt64.le_trans opened timely
    | ticked =>
        unfold Relay.schedulerTick
        exact resumed (UInt64.le_refl _)
    | vanished => exact resumed (UInt64.le_trans opened timely.1)
    | visited reading now fault identity work record _ ticking found handled =>
        have read := UInt64.le_trans opened timely.1
        have started := UInt64.le_trans read timely.2
        cases handled with
        | skipped => exact resumed read
        | scheduled => exact resumed read
        | unscheduled => exact resumed read
        | posted => exact started
        | polled => exact started
        | _ => exact resumed started
    | deliveryEnded => exact resumed opened
    | pollEnded => exact resumed opened
    | restarted => exact UInt64.le_trans opened timely
    | ignored => exact opened

theorem InTick.extend (inTick : InTick log index work waiting)
    (kept : ∀ identity record, index.record identity = some record →
      index'.record identity = some record) :
    InTick log index' work waiting := by
  refine { inTick with pending := ?_, served := ?_ }
  · intro identity member
    obtain ⟨record, known⟩ := inTick.known identity member
    rw [known]
    exact kept identity record ((inTick.pending identity member).trans known)
  · intro identity record found left
    refine (inTick.served identity record found left).mono (List.Subset.refl _)
      (List.Subset.refl _) ?_
    intro current _ here _
    exact kept identity current here

theorem Progress.extend (progress : Progress relay) (task : relay'.task = relay.task)
    (log : relay'.log = relay.log)
    (kept : ∀ identity record, relay.store.index.record identity = some record →
      relay'.store.index.record identity = some record) : Progress relay' := by
  unfold Progress at progress ⊢
  rw [task, log]
  split at progress
  · refine ⟨progress.1, fun returned identity record found => ?_⟩
    refine (progress.2 returned identity record found).mono (List.Subset.refl _)
      (List.Subset.refl _) ?_
    intro current _ here _
    exact kept identity current here
  · exact ⟨progress.1, progress.2.extend kept⟩
  · exact ⟨progress.1, progress.2.1, progress.2.2.1, progress.2.2.2.extend kept⟩
  · exact ⟨progress.1, progress.2.1, progress.2.2.1, progress.2.2.2.extend kept⟩

theorem InTick.answer {change : Change} {clock : UInt64} (notQueued : record.state ≠ .queued)
    (opened : relay.log.opening.record record.toPackageIdentity = some record)
    (left : record.toPackageIdentity ∉ work) (inTick : InTick relay.log relay.store.index work 1) :
    InTick (relay.turn clock).log (updateRecord record change relay.store.index) work 0 := by
  refine ⟨inTick.running, inTick.distinct, inTick.known, ?_, ?_, ?_⟩
  · intro identity member
    rw [record_updateRecord_ne (by rintro rfl; exact left member)]
    exact inTick.pending identity member
  · intro identity record' found done
    refine (inTick.served identity record' found done).mono (List.Subset.refl _)
      (List.Subset.refl _) ?_
    intro current queued here _
    by_cases same : identity = record.toPackageIdentity
    · subst same
      cases opened.symm.trans found
      exact absurd queued notQueued
    · rw [record_updateRecord_ne same]
      exact here
  · have turns := inTick.turns
    simp only [Relay.turn]
    omega

theorem Handled.progress {fault : Option String} (timely : relay.log.openedAt ≤ reading)
    (sound : Sound settings record) (filed : Filed relay.store)
    (readable : ∀ link, duty reading record = .attempt →
      deliveryGate settings now record = .ok (link, none) →
      fault = none)
    (found : relay.store.index.record record.toPackageIdentity = some record)
    (inTick : InTick relay.log relay.store.index (record.toPackageIdentity :: work) 0)
    (handled : Handled settings reading now fault record work (relay.turn reading) relay') :
    Progress relay' := by
  have opening : relay.log.opening.record record.toPackageIdentity = some record :=
    (inTick.pending _ List.mem_cons_self).symm.trans found
  have fresh := (List.nodup_cons.mp inTick.distinct).1
  have noted : relay.log.attempted ⊆ relay.log.attempted ++ [record.toPackageIdentity] :=
    List.subset_append_left _ _
  have asked : relay.log.polled ⊆ relay.log.polled ++ [record.toPackageIdentity] :=
    List.subset_append_left _ _
  have same := List.Subset.refl relay.log.attempted
  have same' := List.Subset.refl relay.log.polled
  have serves : ∀ {log index}, Served reading log index record.toPackageIdentity record → ∀ record',
      relay.log.opening.record record.toPackageIdentity = some record' →
        Served relay.log.openedAt log index record.toPackageIdentity record' := by
    intro log index served record' known
    cases opening.symm.trans known
    exact served.earlier timely
  cases handled with
  | skipped none =>
      apply progress_visited
      refine inTick.visit inTick.running rfl rfl rfl same same' (fun _ _ => rfl) (serves ?_)
      rw [Served, none]
      trivial
  | scheduled link scheduledAt queued routed ok =>
      apply progress_visited
      refine inTick.visit inTick.running rfl rfl rfl same same' (fun _ other =>
        record_updateRecord_ne other) (serves ?_)
      rw [Served, queued]
      refine ⟨_, record_updateRecord_self found, ?_, rfl⟩
      by_cases prompt : scheduledAt = firstDue link record.relayAcceptedAtUnixMs <;>
        simp [Change.schedule, prompt]
  | unscheduled error queued failed =>
      obtain ⟨_, ok⟩ := scheduleRecord_total sound (relay.turn reading).store.index
      rw [ok] at failed
      cases failed
  | ungated error due failed =>
      obtain ⟨_, ok⟩ := deliveryGate_total sound now
      rw [ok] at failed
      cases failed
  | blocked link blockedUntil due gate =>
      apply progress_visited
      refine inTick.visit inTick.running rfl rfl rfl noted same' (fun _ other =>
        record_updateRecord_ne other) (serves ?_)
      rw [Served, due]
      exact List.mem_append_right _ (List.mem_singleton_self _)
  | unread link error due gate failed =>
      obtain ⟨payload, present⟩ := filed _ record found
      obtain ⟨loaded, read⟩ := readDelivery_total settings present
      rw [readable link due gate] at failed
      cases failed.symm.trans read
  | posted link payload importerUrl due gate read =>
      refine ⟨?_, opening, fresh, inTick.visit inTick.running rfl rfl rfl noted same'
        (fun _ other => record_updateRecord_ne other) (serves ?_)⟩
      · intro queued
        rw [duty_eq_schedule.mpr queued] at due
        cases due
      · rw [Served, due]
        exact List.mem_append_right _ (List.mem_singleton_self _)
  | unpolled error due failed =>
      obtain ⟨_, ok⟩ := importerBaseUrl_total settings record.targetDomain
      rw [ok] at failed
      cases failed
  | polled importerUrl due =>
      refine ⟨?_, opening, fresh,
        inTick.visit inTick.running rfl rfl rfl same asked (fun _ _ => rfl) (serves ?_)⟩
      · intro queued
        rw [duty_eq_schedule.mpr queued] at due
        cases due
      · rw [Served, due]
        exact List.mem_append_right _ (List.mem_singleton_self _)

theorem progress_schedulerTick (distinct : relay.store.index.identities.Nodup) (now : UInt64) :
    Progress (relay.schedulerTick now) := by
  unfold Relay.schedulerTick
  refine progress_resume ⟨rfl, distinct, ?_, fun _ _ => rfl, ?_, ?_⟩
  · intro identity member
    exact Keyed.exists_lookup member
  · intro identity record found left
    exact absurd (RelayIndex.mem_identities found) left
  · simp [RelayIndex.identities]

theorem progress_restart (progress : Progress relay) (ackPollMillis now : UInt64) :
    Progress { relay with
      clock := now
      task := .idle
      store.index := normalizeRestartState ackPollMillis now relay.store.index } := by
  unfold Progress at progress
  have given : ∀ {work waiting}, InTick relay.log relay.store.index work waiting →
      Progress { relay with
      clock := now
      task := .idle
      store.index := normalizeRestartState ackPollMillis now relay.store.index } := by
    intro work waiting inTick
    have running := inTick.running
    simp [Progress, running]
  split at progress
  · refine ⟨progress.1, fun returned identity record found => ?_⟩
    refine (progress.2 returned identity record found).mono (List.Subset.refl _)
      (List.Subset.refl _) ?_
    intro current _ here state
    rw [record_normalizeRestartState, here, Option.map_some]
    rcases state with scheduled | blocked
    · rw [normalizeRecord, scheduled]
    · rw [normalizeRecord, blocked]
  · exact given progress.2
  · exact given progress.2.2.2
  · exact given progress.2.2.2

theorem Relay.progress
    (reachable : (Relay.system settings blake2 codec (Working settings blake2 codec)).Reachable
      relay) :
    Progress relay := by
  apply Relay.invariant Progress _ _ reachable
  · exact ⟨by rintro _ ⟨⟩, by rintro ⟨⟩⟩
  · rintro relay event relay' reached progress ⟨timely, working⟩ step
    cases step with
    | submitted body now store stored =>
        refine progress.extend rfl rfl ?_
        cases stored with
        | kept => exact fun _ _ found => found
        | queued envelope package accepted absent =>
            intro identity record found
            rw [RelayIndex.record_persistRecord, if_neg]
            · exact found
            · rintro rfl
              cases absent.symm.trans found
    | ticked now idle => exact progress_schedulerTick (Relay.distinct reached) now
    | vanished reading now fault identity work ticking absent =>
        rw [Progress, ticking] at progress
        obtain ⟨record, known⟩ := progress.2.known identity List.mem_cons_self
        cases absent.symm.trans ((progress.2.pending identity List.mem_cons_self).trans known)
    | visited reading now fault identity work record _ ticking found handled =>
        rw [Progress, ticking] at progress
        have opened := UInt64.le_trans (Relay.opened reached) timely.1
        have sound := Relay.sound (fun _ _ => And.right) reached identity record found
        have next : relay.next = some record := by simp only [Relay.next, ticking, found]
        obtain rfl := RelayIndex.identity_of_record found
        exact handled.progress opened sound (Relay.filed reached)
          (fun link => working.answerable record link next) found progress.2
    | deliveryEnded response record now link payload importerUrl work posting =>
        rw [Progress, posting] at progress
        obtain ⟨index, ended⟩ := (exists_finishDelivery_iff relay.store.index).mpr
          (working.answerable record now link payload importerUrl work posting)
        obtain ⟨change, _, rfl⟩ := finishDelivery_eq_ok ended
        rw [ended]
        exact progress_resume (InTick.answer progress.1 progress.2.1 progress.2.2.1 progress.2.2.2)
    | pollEnded response record now importerUrl work polling =>
        rw [Progress, polling] at progress
        obtain ⟨index, ended⟩ := finishPoll_total settings record now relay.store.index
          (working.polled response record now importerUrl work rfl polling)
        obtain ⟨change, _, rfl⟩ := finishPoll_eq_ok ended
        rw [ended]
        exact progress_resume (InTick.answer progress.1 progress.2.1 progress.2.2.1 progress.2.2.2)
    | restarted now => exact progress_restart progress _ now
    | ignored => exact progress

/-- In every run in which the handlers find what they need and no accepted envelope is for its own
source, no tick fails; one that has returned has scheduled, attempted or polled every record that
called for it at its start; one that is under way has taken less than two turns for each of its
records; and every record has a link. -/
theorem tick_serves_all (settings : RelaySettings) (blake2 : Bytes → Hash32)
    (codec : PackageCodec) (relay : Relay)
    (reachable : (Relay.system settings blake2 codec (Working settings blake2 codec)).Reachable
      relay) :
    (∀ error, relay.log.outcome ≠ some (.error error)) ∧
      (relay.log.outcome = some (.ok ()) → ∀ identity record,
        relay.log.opening.record identity = some record →
        Served relay.log.openedAt relay.log relay.store.index identity record) ∧
      (relay.task ≠ .idle → relay.log.turns < 2 * relay.log.opening.packages.length) ∧
      ∀ identity record, relay.store.index.record identity = some record →
        ∃ link, settings.transport.link record.sourceDomain record.targetDomain = some link := by
  have linked : ∀ identity record, relay.store.index.record identity = some record →
      ∃ link, settings.transport.link record.sourceDomain record.targetDomain = some link :=
    fun identity record found =>
      settings.transport.link_exists
        (Relay.sound (fun _ _ => And.right) reachable identity record found).routed
  have underWay : ∀ {work waiting}, InTick relay.log relay.store.index work waiting →
      0 < waiting + work.length →
      (∀ error, relay.log.outcome ≠ some (.error error)) ∧ relay.log.outcome ≠ some (.ok ()) ∧
        relay.log.turns < 2 * relay.log.opening.packages.length := by
    intro work waiting inTick more
    have running := inTick.running
    have turns := inTick.turns
    exact ⟨by simp [running], by simp [running], by omega⟩
  have progress := Relay.progress reachable
  unfold Progress at progress
  split at progress
  · rename_i idle
    exact ⟨progress.1, progress.2, fun busy => absurd idle busy, linked⟩
  · obtain ⟨sound, running, bound⟩ :=
      underWay progress.2 (by simpa using List.length_pos_iff.mpr progress.1)
    exact ⟨sound, fun returned => absurd returned running, fun _ => bound, linked⟩
  · obtain ⟨sound, running, bound⟩ := underWay progress.2.2.2 (by omega)
    exact ⟨sound, fun returned => absurd returned running, fun _ => bound, linked⟩
  · obtain ⟨sound, running, bound⟩ := underWay progress.2.2.2 (by omega)
    exact ⟨sound, fun returned => absurd returned running, fun _ => bound, linked⟩

end Progress

section Sample

theorem working_submit {relay : Relay} (target : DomainId) (now : UInt64) (away : .earth ≠ target)
    (fits : ∀ link, sampleSettings.transport.link .earth target = some link →
      (firstDue link now).toNat ≤ sampleSettings.maxUtcMillis) :
    Working sampleSettings blankHash sampleCodec relay (.submit (bodyTo target) now) where
  answerable := trivial
  routed := by
    rintro _ _ envelope package ⟨⟩ accepted
    cases (envelopeTo_accepted target).symm.trans accepted
    exact away
  accepted := by
    rintro _ _ envelope package link ⟨⟩ accepted routed
    cases (envelopeTo_accepted target).symm.trans accepted
    exact fits link routed
  polled := by rintro _ _ _ _ _ ⟨⟩
  restarted := by rintro _ _ _ ⟨⟩

theorem working_tick (relay : Relay) (now : UInt64) :
    Working sampleSettings blankHash sampleCodec relay (.tick now) :=
  ⟨trivial, by rintro _ _ _ _ ⟨⟩, by rintro _ _ _ _ _ ⟨⟩, by
    rintro _ _ _ _ _ ⟨⟩, by rintro _ _ _ ⟨⟩⟩

theorem working_visit (relay : Relay) (reading now : UInt64) :
    Working sampleSettings blankHash sampleCodec relay (.visit reading now none) :=
  ⟨fun _ _ _ _ _ => rfl, by rintro _ _ _ _ ⟨⟩, by rintro _ _ _ _ _ ⟨⟩, by rintro _ _ _ _ _ ⟨⟩,
    by rintro _ _ _ ⟨⟩⟩

noncomputable def relayWithTwo : Relay :=
  let relay := Relay.run sampleSettings blankHash sampleCodec [.tick 0,
    .visit 0 0 none] (relayWith .moon)
  { relay with
    clock := 1000
    store.index := relay.store.index.persistRecord (newRecord (envelopeTo .mars) 1000)
    store.payloads := update relay.store.payloads (envelopeIdentity (envelopeTo .mars))
      (some (bodyTo .mars)) }

theorem relayWithTwo_reachable :
    (Relay.system sampleSettings blankHash sampleCodec
      (Working sampleSettings blankHash sampleCodec)).Reachable relayWithTwo := by
  have moon := relayWith_reachable .moon (working_submit .moon 0 (by decide) (by decide +kernel))
  have follows : Relay.Follows sampleSettings blankHash sampleCodec
      (Relay.Timed (Working sampleSettings blankHash sampleCodec)) [.tick 0, .visit 0 0 none]
      (relayWith .moon) :=
    ⟨⟨by decide +kernel, working_tick _ _⟩, ⟨by decide +kernel, working_visit _ _ _⟩, trivial⟩
  refine .next (Relay.reachable_run moon follows) ⟨.submit (bodyTo .mars) 1000, ⟨by decide +kernel,
    working_submit .mars 1000 (by decide) (by decide +kernel)⟩, ?_⟩
  have absent : (Relay.run sampleSettings blankHash sampleCodec [.tick 0, .visit 0 0 none]
    (relayWith .moon)).store.index.record (envelopeIdentity (envelopeTo .mars)) = none := by rfl
  simp only [Relay.apply, submitPackage_new (envelopeTo_accepted .mars) absent]
  rfl

/-- One tick delivers the package for Moon, which is due, and schedules the one for Mars, which is
queued. -/
def servingTick : List Event :=
  [.tick 1000, .visit 1000 1000 none,
    .respond (.answered ⟨200, "200 OK"⟩ (some ⟨.received, none⟩) none), .visit 1000 1000 none]

theorem tick_serves_all_sample :
    ∃ relay, (Relay.system sampleSettings blankHash sampleCodec
        (Working sampleSettings blankHash sampleCodec)).Reachable relay ∧
      relay.log.outcome = some (.ok ()) ∧
      relay.log.opening.identities =
        [envelopeIdentity (envelopeTo .moon), envelopeIdentity (envelopeTo .mars)] ∧
      relay.log.attempted = [envelopeIdentity (envelopeTo .moon)] ∧
      ∀ identity record, relay.log.opening.record identity = some record →
        Served relay.log.openedAt relay.log relay.store.index identity record := by
  have follows : Relay.Follows sampleSettings blankHash sampleCodec
      (Relay.Timed (Working sampleSettings blankHash sampleCodec)) servingTick relayWithTwo := by
    refine ⟨⟨by decide +kernel, working_tick _ _⟩, ⟨by decide +kernel, working_visit _ _ _⟩,
      ⟨trivial, ?_⟩, ⟨by decide +kernel, working_visit _ _ _⟩, trivial⟩
    refine ⟨?_, by rintro _ _ _ _ ⟨⟩, by rintro _ _ _ _ _ ⟨⟩, ?_, by rintro _ _ _ ⟨⟩⟩
    · intro record now link payload importerUrl work posting
      exact rfl
    · rintro _ _ _ _ _ ⟨⟩ _ _
      rfl
  have reachable := Relay.reachable_run relayWithTwo_reachable follows
  refine ⟨_, reachable, rfl, rfl, rfl, ?_⟩
  exact (tick_serves_all sampleSettings blankHash sampleCodec _ reachable).2.1 rfl

noncomputable def relayWithBoth : Relay :=
  { relayWith .earth with
    store.index := { packages := [newRecord (envelopeTo .earth) 0, newRecord (envelopeTo .moon) 0] }
    store.payloads := update (relayWith .earth).store.payloads (envelopeIdentity (envelopeTo .moon))
      (some (bodyTo .moon)) }

/-- There is no link from Earth to Earth. The tick ends at the first package, and the second stays
queued. -/
theorem unroutable_package_starves :
    ∃ relay identity record,
      (Relay.system sampleSettings blankHash sampleCodec fun _ _ => True).Reachable relay ∧
      relay.log.outcome = some (.error "missing link profile") ∧
      relay.log.opening.record identity = some record ∧ record.state = .queued ∧
      relay.store.index.record identity = some record ∧
      (∃ link, sampleSettings.transport.link record.sourceDomain record.targetDomain = some link) ∧
      ¬ Served relay.log.openedAt relay.log relay.store.index identity record := by
  have queued : (Relay.system sampleSettings blankHash sampleCodec fun _ _ => True).Reachable
      relayWithBoth := by
    refine .next (relayWith_reachable .earth trivial) ⟨.submit (bodyTo .moon) 0,
      ⟨UInt64.le_refl _, trivial⟩, ?_⟩
    have absent : (relayWith .earth).store.index.record (envelopeIdentity (envelopeTo .moon)) =
        none := by rfl
    simp only [Relay.apply, submitPackage_new (envelopeTo_accepted .moon) absent]
    rfl
  have follows : Relay.Follows sampleSettings blankHash sampleCodec (Relay.Timed fun _ _ => True)
      [.tick 0, .visit 0 0 none] relayWithBoth := by
    decide +kernel
  refine ⟨_, envelopeIdentity (envelopeTo .moon), _, Relay.reachable_run queued follows, rfl, rfl,
    rfl, rfl, ⟨_, rfl⟩, ?_⟩
  rintro ⟨current, found, state, _⟩
  cases found
  rcases state with scheduled | blocked
  · cases scheduled
  · cases blocked

end Sample

end Ialp.Services
