import Ialp.Services.RelayQueue

/-!
Deliveries that fail for now. `schedule_retry` is handed the copy of the record that was made before
the attempt was counted, so that the attempt that has just failed is missing from the count it
decides on: the first two retries come after the same delay, and the record is given up one attempt
late.
-/

namespace Ialp.Services

open Scale Function Transition

section Decision

variable {settings : RelaySettings} {record : RelayPackageRecord} {now : UInt64}
  {link : LinkProfileConfig} {response : Response} {index : RelayIndex} {attempts : Nat}

def plannedDue (now : UInt64) (link : LinkProfileConfig) (attempt : Nat) : Nat :=
  min (now.toNat + min (link.initialRetryDelaySeconds.toNat * 2 ^ min (attempt - 1) 16)
    link.maxRetryDelaySeconds.toNat * 1000) (2 ^ 64 - 1)

def plannedRetry (now : UInt64) (link : LinkProfileConfig) (attempt : Nat) : Option Nat :=
  if link.maxAttempts ≠ 0 ∧ link.maxAttempts.toNat ≤ attempt then none
    else some (plannedDue now link attempt)

theorem toNat_retryDelaySeconds (link : LinkProfileConfig) (deliveryAttempts : UInt32) :
    (retryDelaySeconds link deliveryAttempts).toNat =
      min (link.initialRetryDelaySeconds.toNat * 2 ^ min (deliveryAttempts.toNat - 1) 16)
        link.maxRetryDelaySeconds.toNat := by
  have failures : (max deliveryAttempts 1).toNat - 1 = deliveryAttempts.toNat - 1 := by
    have one : (1 : UInt32).toNat = 1 := rfl
    rw [UInt32.max_def]
    split
    · rename_i le
      rw [UInt32.le_iff_toNat_le] at le
      omega
    · rfl
  have multiplier : (UInt64.ofNat (2 ^ min (deliveryAttempts.toNat - 1) 16)).toNat =
      2 ^ min (deliveryAttempts.toNat - 1) 16 := by
    have small : 2 ^ min (deliveryAttempts.toNat - 1) 16 ≤ 2 ^ 16 :=
      Nat.pow_le_pow_right (by decide) (Nat.min_le_right _ _)
    exact UInt64.toNat_ofNat_of_lt' (by rw [UInt64.size]; omega)
  have bound := link.maxRetryDelaySeconds.toNat_lt
  rw [retryDelaySeconds, UInt64.toNat_min, toNat_saturatingMul64, failures, multiplier]
  omega

theorem toNat_retryDue (now : UInt64) (link : LinkProfileConfig) (deliveryAttempts : UInt32) :
    (retryDue now link deliveryAttempts).toNat = plannedDue now link deliveryAttempts.toNat := by
  have thousand : (1000 : UInt64).toNat = 1000 := rfl
  rw [retryDue, plannedDue, toNat_saturatingAdd64, toNat_saturatingMul64,
    toNat_retryDelaySeconds, thousand]
  omega

theorem retryDecision_planned (now : UInt64) (link : LinkProfileConfig)
    (deliveryAttempts : UInt32) : (retryDecision now link deliveryAttempts).map UInt64.toNat =
      plannedRetry now link deliveryAttempts.toNat := by
  simp only [retryDecision, plannedRetry, UInt32.le_iff_toNat_le, ← toNat_retryDue]
  split <;> rfl

def DelayIndifferent (now : UInt64) (link : LinkProfileConfig) (attempts : Nat) : Prop :=
  attempts = 0 ∨ 17 ≤ attempts ∨
    link.maxRetryDelaySeconds.toNat ≤ link.initialRetryDelaySeconds.toNat * 2 ^ (attempts - 1) ∨
    2 ^ 64 - 1 ≤ now.toNat + link.initialRetryDelaySeconds.toNat * 2 ^ (attempts - 1) * 1000

/-- The failed attempt makes no difference to the decision: the record was to be given up before it
already, or it is not to be given up yet and the delay is the same. -/
def AttemptIndifferent (now : UInt64) (link : LinkProfileConfig) (attempts : Nat) : Prop :=
  link.maxAttempts ≠ 0 ∧ link.maxAttempts.toNat ≤ attempts ∨
    (link.maxAttempts = 0 ∨ attempts + 1 < link.maxAttempts.toNat) ∧
      DelayIndifferent now link attempts

theorem plannedDue_succ_iff (positive : link.initialRetryDelaySeconds ≠ 0) :
    plannedDue now link attempts = plannedDue now link (attempts + 1) ↔
      DelayIndifferent now link attempts := by
  have initial : link.initialRetryDelaySeconds.toNat ≠ 0 := by
    intro zero
    exact positive (UInt64.toNat_inj.mp zero)
  unfold plannedDue DelayIndifferent
  rcases Nat.eq_zero_or_pos attempts with zero | counted
  · simp [zero]
  by_cases many : 17 ≤ attempts
  · rw [Nat.min_eq_right (by omega : 16 ≤ attempts - 1),
      Nat.min_eq_right (by omega : 16 ≤ attempts + 1 - 1)]
    exact iff_of_true rfl (.inr (.inl many))
  · have doubled : link.initialRetryDelaySeconds.toNat * 2 ^ attempts =
        link.initialRetryDelaySeconds.toNat * 2 ^ (attempts - 1) * 2 := by
      rw [Nat.mul_assoc, Nat.two_pow_pred_mul_two counted]
    have nonzero : link.initialRetryDelaySeconds.toNat * 2 ^ (attempts - 1) ≠ 0 :=
      Nat.mul_ne_zero initial (Nat.pow_pos (by decide)).ne'
    rw [Nat.min_eq_left (by omega : attempts - 1 ≤ 16), Nat.add_sub_cancel,
      Nat.min_eq_left (by omega : attempts ≤ 16), doubled]
    omega

theorem plannedRetry_succ_iff (positive : link.initialRetryDelaySeconds ≠ 0) :
    plannedRetry now link attempts = plannedRetry now link (attempts + 1) ↔
      AttemptIndifferent now link attempts := by
  unfold plannedRetry AttemptIndifferent
  by_cases unlimited : link.maxAttempts = 0
  · simp [unlimited, plannedDue_succ_iff positive]
  · by_cases given : link.maxAttempts.toNat ≤ attempts
    · simp [unlimited, given, Nat.le_succ_of_le given]
    · by_cases next : link.maxAttempts.toNat ≤ attempts + 1
      · simp [unlimited, given, next]
      · simp [unlimited, given, next, Nat.lt_of_not_le next, plannedDue_succ_iff positive]

/-- The count that `schedule_retry` decides on is as good as the right one exactly when the attempt
makes no difference. -/
theorem retryDecision_planned_iff (positive : link.initialRetryDelaySeconds ≠ 0)
    (attempts : UInt32) : (retryDecision now link attempts).map UInt64.toNat =
      plannedRetry now link (saturatingAdd32 attempts 1).toNat ↔
      AttemptIndifferent now link attempts.toNat := by
  have one : (1 : UInt32).toNat = 1 := rfl
  have bound := attempts.toNat_lt
  have limit := link.maxAttempts.toNat_lt
  rw [retryDecision_planned, toNat_saturatingAdd32, one]
  by_cases room : attempts.toNat + 1 < 2 ^ 32
  · rw [Nat.min_eq_left (by omega)]
    exact plannedRetry_succ_iff positive
  · rw [Nat.min_eq_right (by omega), show 2 ^ 32 - 1 = attempts.toNat by omega]
    refine iff_of_true rfl ?_
    by_cases unlimited : link.maxAttempts = 0
    · exact .inr ⟨.inl unlimited, .inr (.inl (by omega))⟩
    · exact .inl ⟨unlimited, by omega⟩

end Decision

section Runs

variable (settings : RelaySettings) (blake2 : Bytes → Hash32) (codec : PackageCodec)

namespace Traced

/-- A step of a run whose actions meet a condition, unless they leave the index as it is. -/
inductive StepWith (admits : Relay → Event → Prop) (traced : Traced) : Traced → Prop where
  | acted (event : Event) (admitted : admits traced.relay event) :
      StepWith admits traced (traced.act settings blake2 codec event)
  | aside {traced' : Traced} (step : Step settings blake2 codec traced traced')
      (same : traced'.relay.store.index = traced.relay.store.index) : StepWith admits traced traced'

def runs (admits : Relay → Event → Prop) : System Traced where
  initial traced := traced = initial
  step := StepWith settings blake2 codec admits

variable {settings blake2 codec} {admits : Relay → Event → Prop} {traced traced' : Traced}

theorem StepWith.step (step : StepWith settings blake2 codec admits traced traced') :
    Step settings blake2 codec traced traced' := by
  cases step with
  | acted event _ => exact .acted event
  | aside step _ => exact step

theorem reachable_of_runs (reachable : (runs settings blake2 codec admits).Reachable traced) :
    (system settings blake2 codec).Reachable traced := by
  induction reachable with
  | start initial => exact .start initial
  | next _ step reached => exact .next reached (StepWith.step step)

theorem act_recordMove {identity : PackageIdentity} {record : RelayPackageRecord} (event : Event)
    (reachable : (system settings blake2 codec).Reachable traced)
    (found : traced.relay.store.index.record identity = some record) :
    ∃ record', (traced.act settings blake2 codec event).relay.store.index.record identity =
      some record' ∧
      RecordMove settings traced.relay event record record' :=
  (stepped settings blake2 codec traced.relay event).recordMove
    (consistent_of_reachable reachable).waiting found

theorem act_origin {identity : PackageIdentity} {record' : RelayPackageRecord} (event : Event)
    (reachable : (system settings blake2 codec).Reachable traced)
    (found : (traced.act settings blake2 codec event).relay.store.index.record identity =
      some record') :
    (∃ record, traced.relay.store.index.record identity = some record ∧
      RecordMove settings traced.relay event record record') ∨
    traced.relay.store.index.record identity = none ∧ ∃ envelope now,
      record' = newRecord envelope now := by
  cases before : traced.relay.store.index.record identity with
  | none =>
      obtain ⟨_, now, envelope, _, _, _, _, rfl, _⟩ :=
        (stepped settings blake2 codec traced.relay event).newRecord before found
      exact .inr ⟨rfl, envelope, now, rfl⟩
  | some record =>
      obtain ⟨after, found', move⟩ := act_recordMove event reachable before
      obtain rfl : after = record' := Option.some.inj (found'.symm.trans found)
      exact .inl ⟨record, rfl, move⟩

end Traced

end Runs

section Attempts

variable {settings : RelaySettings} {blake2 : Bytes → Hash32} {codec : PackageCodec}
  {relay : Relay} {event : Event} {record record' : RelayPackageRecord}
  {identity : PackageIdentity} {traced : Traced}

/-- No failed attempt makes a difference that `schedule_retry` misses, and no delivery is cut off by
a restart. -/
def OnPlan (relay : Relay) (event : Event) : Prop :=
  (∀ response copy now link payload importerUrl work, event = .respond response →
    response.isTransient = true →
    relay.task = .posting copy now link payload importerUrl work →
    AttemptIndifferent now link copy.deliveryAttempts.toNat) ∧
  ∀ now identity record, event = .restart now → relay.store.index.record identity = some record →
    record.state ≠ .inDelivery

def RelayPackageRecord.Open (record : RelayPackageRecord) : Prop :=
  record.state = .queued ∨ record.state = .scheduled ∨ record.state = .blockedByBlackout ∨
    record.state = .retrying

theorem VisitChange.waits {reading : UInt64} {change : Change}
    (visit : VisitChange reading record change) : record.Open := by
  cases visit with
  | scheduled _ _ queued => exact .inl (duty_eq_schedule.mp queued)
  | blocked _ due => exact .inr (duty_eq_attempt.mp due).1
  | started due => exact .inr (duty_eq_attempt.mp due).1

def Budgeted (settings : RelaySettings) (record : RelayPackageRecord) : Prop :=
  ∀ link, linkOf settings record.toPackageIdentity = .ok link → link.maxAttempts ≠ 0 →
    record.deliveryAttempts.toNat ≤ link.maxAttempts.toNat ∧
      (record.Open → record.deliveryAttempts.toNat < link.maxAttempts.toNat)

theorem normalizeRecord_history (ackPollMillis now : UInt64) (record : RelayPackageRecord) :
    (normalizeRecord ackPollMillis now record).deliveryAttempts = record.deliveryAttempts ∧
      (normalizeRecord ackPollMillis now record).everBlockedByBlackout =
        record.everBlockedByBlackout := by
  rw [normalizeRecord]
  split
  · exact ⟨rfl, rfl⟩
  · split <;> exact ⟨rfl, rfl⟩
  · exact ⟨rfl, rfl⟩

theorem normalizeRecord_state (ackPollMillis now : UInt64) (idle : record.state ≠ .inDelivery) :
    (normalizeRecord ackPollMillis now record).state = record.state := by
  rw [normalizeRecord]
  split
  · exact absurd ‹_› idle
  · split <;> rfl
  · rfl

theorem Closes.not_open (closes : Closes record record') : ¬ record'.Open := by
  rcases closes.state with state | state | state <;> simp [RelayPackageRecord.Open, state]

theorem RecordMove.budgeted (move : RecordMove settings relay event record record')
    (same : record'.toPackageIdentity = record.toPackageIdentity) (waiting : relay.Waiting settings)
    (onPlan : OnPlan relay event) (found : relay.store.index.record identity = some record)
    (budgeted : Budgeted settings record) : Budgeted settings record' := by
  intro link routed limited
  rw [same] at routed
  obtain ⟨within, next⟩ := budgeted link routed limited
  have one : (1 : UInt32).toNat = 1 := rfl
  cases move with
  | kept => exact ⟨within, next⟩
  | visited reading change visit =>
      have room := next visit.waits
      cases visit with
      | scheduled => exact ⟨within, fun _ => room⟩
      | blocked => exact ⟨within, fun _ => room⟩
      | started =>
          refine ⟨?_, fun waits => ?_⟩
          · simp only [Change.startDelivery, toNat_saturatingAdd32, one]
            omega
          · simp [RelayPackageRecord.Open, Change.startDelivery] at waits
  | retried response copy now link' payload importerUrl work due nextDeliveryAt posting
      answered transient counted decided =>
      obtain ⟨_, routed'⟩ := waiting.posting posting
      subst counted
      rw [Change.identity, routed'] at routed
      cases routed
      refine ⟨within, fun _ => ?_⟩
      rcases onPlan.1 _ _ _ _ _ _ _ answered transient posting with
        ⟨_, given⟩ | ⟨unlimited | more, _⟩
      · rw [retryDecision, if_pos ⟨limited, UInt32.le_iff_toNat_le.mpr given⟩] at decided
        cases decided
      · exact absurd unlimited limited
      · simp only [Change.retry, Change.startDelivery, toNat_saturatingAdd32, one]
        omega
  | closed change _ closes =>
      exact ⟨closes.attempts.symm ▸ within, fun waits => absurd waits closes.not_open⟩
  | normalized now restarted =>
      have idle := onPlan.2 now identity record restarted found
      obtain ⟨attempts, _⟩ := normalizeRecord_history settings.ackPollMillis now record
      rw [attempts]
      refine ⟨within, fun waits => next ?_⟩
      rw [RelayPackageRecord.Open, normalizeRecord_state _ _ idle] at waits
      exact waits

theorem newRecord_budgeted (settings : RelaySettings) (envelope : RelayPackageEnvelopeV1)
    (now : UInt64) : Budgeted settings (newRecord envelope now) := by
  intro link _ limited
  have positive : 0 < link.maxAttempts.toNat := by
    rw [Nat.pos_iff_ne_zero]
    intro zero
    exact limited (UInt32.toNat_inj.mp zero)
  exact ⟨Nat.zero_le _, fun _ => positive⟩

theorem Traced.budgeted_of_runs (reachable : (runs settings blake2 codec OnPlan).Reachable traced) :
    traced.relay.store.index.All (Budgeted settings) := by
  apply reachable.invariant fun traced => traced.relay.store.index.All (Budgeted settings)
  · intro traced initial identity record found
    subst initial
    cases found
  · intro traced traced' reached budgeted step
    have reached' := reachable_of_runs reached
    cases step with
    | aside _ same =>
        rw [same]
        exact budgeted
    | acted event onPlan =>
        intro identity record' found'
        rcases act_origin event reached' found' with ⟨record, found, move⟩ | ⟨_, envelope, now, rfl⟩
        · have same := (RelayIndex.identity_of_record found').trans
            (RelayIndex.identity_of_record found).symm
          exact move.budgeted same (consistent_of_reachable reached').waiting onPlan found
            (budgeted identity record found)
        · exact newRecord_budgeted settings envelope now

section Transient

variable {response : Response} {copy current : RelayPackageRecord} {now due nextDeliveryAt : UInt64}
  {link : LinkProfileConfig} {payload : Bytes} {importerUrl : String} {work : List PackageIdentity}

variable (settings blake2 codec) in
theorem Traced.act_transient (posting : traced.relay.task =
    .posting copy now link payload importerUrl work) (transient : response.isTransient = true) :
    (traced.act settings blake2 codec (.respond response)).relay.store =
      match scheduleRetry settings copy now link response.failure traced.relay.store.index with
      | .ok index => { traced.relay.store with index }
      | .error _ => traced.relay.store := by
  simp only [Traced.act, Relay.apply, posting]
  rw [finishDelivery_transient transient, resume_store]
  rfl

variable (blake2 codec) in
theorem Traced.act_retried (posting : traced.relay.task =
    .posting copy now link payload importerUrl work) (transient : response.isTransient = true)
    (found : traced.relay.store.index.record copy.toPackageIdentity = some current)
    (decided : retryDecision now link copy.deliveryAttempts = some due)
    (deferred : nextDeliveryAfter settings link due = .ok nextDeliveryAt) :
    (traced.act settings blake2 codec (.respond response)).relay.store.index.record
      copy.toPackageIdentity =
      some ((Change.retry due nextDeliveryAt response.failure).apply current) := by
  have retried : scheduleRetry settings copy now link response.failure traced.relay.store.index =
      .ok (updateRecord copy (.retry due nextDeliveryAt response.failure)
        traced.relay.store.index) := by
    rw [scheduleRetry_eq, decided]
    simp only [deferred]
    rfl
  rw [act_transient settings blake2 codec posting transient, retried]
  simp only [record_updateRecord, found, if_true, Option.map_some]

variable (settings blake2 codec) in
theorem Traced.act_failed_iff (posting : traced.relay.task =
    .posting copy now link payload importerUrl work) (transient : response.isTransient = true)
    (found : traced.relay.store.index.record copy.toPackageIdentity = some current)
    (delivering : current.state = .inDelivery) :
    ∃ after, (traced.act settings blake2 codec (.respond response)).relay.store.index.record
      copy.toPackageIdentity =
        some after ∧
      (after.state = .failed ↔ retryDecision now link copy.deliveryAttempts = none) := by
  cases decided : retryDecision now link copy.deliveryAttempts with
  | none =>
      refine ⟨(Change.failDelivery now response.failure).apply current, ?_, iff_of_true rfl rfl⟩
      rw [act_transient settings blake2 codec posting transient, scheduleRetry_eq, decided]
      simp only [record_updateRecord, found, if_true, Option.map_some]
  | some due =>
      cases deferred : nextDeliveryAfter settings link due with
      | error error =>
          refine ⟨current, ?_, iff_of_false (by simp [delivering]) (by simp)⟩
          rw [act_transient settings blake2 codec posting transient, scheduleRetry_eq, decided]
          simp only [deferred]
          exact found
      | ok nextDeliveryAt =>
          refine ⟨_, act_retried blake2 codec posting transient found decided deferred,
            iff_of_false ?_ (by simp)⟩
          simp only [Change.retry]
          split <;> simp

end Transient

/-- The retry policy, with what `schedule_retry` makes of it. At every transient failure the record
is given up or due again by a decision that agrees with the policy exactly when the attempt that
failed makes no difference to it; and in a run of such failures no record is delivered more often
than its link allows. -/
theorem retry_policy (settings : RelaySettings) (blake2 : Bytes → Hash32) (codec : PackageCodec) :
    (∀ traced, (Traced.system settings blake2 codec).Reachable traced →
      ∀ copy now link payload importerUrl work,
        traced.relay.task = .posting copy now link payload importerUrl work →
      ∀ response, response.isTransient = true →
        ∃ current after, traced.relay.store.index.record copy.toPackageIdentity = some current ∧
          settings.transport.link copy.sourceDomain copy.targetDomain = some link ∧
          current.deliveryAttempts = saturatingAdd32 copy.deliveryAttempts 1 ∧
          (traced.act settings blake2 codec (.respond response)).relay.store.index.record
            copy.toPackageIdentity =
            some after ∧
          (after.state = .failed ↔ retryDecision now link copy.deliveryAttempts = none) ∧
          (∀ due nextDeliveryAt, retryDecision now link copy.deliveryAttempts = some due →
            nextDeliveryAfter settings link due = .ok nextDeliveryAt →
            after.nextDeliveryAtUnixMs = some nextDeliveryAt) ∧
          ((retryDecision now link copy.deliveryAttempts).map UInt64.toNat =
              plannedRetry now link current.deliveryAttempts.toNat ↔
            AttemptIndifferent now link copy.deliveryAttempts.toNat)) ∧
    ∀ traced, (Traced.runs settings blake2 codec OnPlan).Reachable traced →
      ∀ record ∈ traced.relay.store.index.packages, ∀ link,
        settings.transport.link record.sourceDomain record.targetDomain = some link →
          link.maxAttempts ≠ 0 →
        record.deliveryAttempts ≤ link.maxAttempts := by
  constructor
  · intro traced reachable copy now link payload importerUrl work posting response transient
    obtain ⟨found, routed⟩ := (Traced.consistent_of_reachable reachable).waiting.posting posting
    obtain ⟨after, found', failed⟩ :=
      Traced.act_failed_iff settings blake2 codec posting transient found rfl
    have positive := settings.transport.initialRetry_ne_zero (mem_links routed)
    refine ⟨_, after, found, okOr_eq_ok.mp routed, rfl, found', failed, ?_,
      retryDecision_planned_iff positive _⟩
    intro due nextDeliveryAt decided deferred
    have retried := Traced.act_retried blake2 codec posting transient found decided deferred
    rw [Option.some.inj (found'.symm.trans retried)]
    rfl
  · intro traced reachable record member link routed limited
    have consistent := Traced.consistent_of_reachable (Traced.reachable_of_runs reachable)
    have found := Keyed.lookup_of_mem consistent.distinct member
    have budgeted := Traced.budgeted_of_runs reachable _ record found
    exact UInt32.le_iff_toNat_le.mpr (budgeted link (okOr_eq_ok.mpr routed) limited).1

def singleAttempt : RelaySettings where
  transport := {
    sampleTransport with
    links := sampleTransport.links.map fun link => { link with maxAttempts := 1 }
    valid := by rfl }
  maxUtcMillis := 8210266876799999
  bounded := sampleSettings.bounded
  representable := by decide

noncomputable def Traced.after (settings : RelaySettings) (events : List Event) (traced : Traced) :
    Traced :=
  events.foldl (fun traced event => traced.act settings blankHash sampleCodec event) traced

theorem Traced.reachable_after (settings : RelaySettings) (target : DomainId) (now : UInt64)
    (events : List Event) : (Traced.system settings blankHash sampleCodec).Reachable
      ((tracedAt target now).after settings events) :=
  Traced.reachable_run events (tracedAt_reachable settings target now)

def Event.isQuiet : Event → Bool
  | .respond _ | .restart _ => false
  | .submit _ _ | .tick _ | .visit _ _ _ => true

theorem onPlan_quiet (relay : Relay) (quiet : event.isQuiet = true) : OnPlan relay event := by
  constructor
  · intro response _ _ _ _ _ _ answered
    subst answered
    cases quiet
  · intro now _ _ restarted
    subst restarted
    cases quiet

theorem Traced.runs_after {admits : Relay → Event → Prop}
    (admitted : ∀ relay event, event.isQuiet = true → admits relay event)
    (settings : RelaySettings) (target : DomainId) (now : UInt64) (events : List Event)
    (quiet : events.all Event.isQuiet = true) :
    (Traced.runs settings blankHash sampleCodec admits).Reachable
      ((tracedAt target now).after settings events) := by
  have steps : ∀ events traced, events.all Event.isQuiet = true →
      (Traced.runs settings blankHash sampleCodec admits).Reachable traced →
      (Traced.runs settings blankHash sampleCodec admits).Reachable
        (Traced.after settings events traced) := by
    intro events
    induction events with
    | nil => exact fun _ _ reachable => reachable
    | cons event rest ih =>
        intro traced quiet reachable
        simp only [List.all_cons, Bool.and_eq_true] at quiet
        exact ih _ quiet.2 (.next reachable (.acted event (admitted _ _ quiet.1)))
  refine steps events _ quiet ?_
  rw [← act_submit settings target now]
  exact .next (.start rfl) (.acted _ (admitted _ _ rfl))

theorem retry_policy_sample :
    (∃ traced copy link payload importerUrl,
      (Traced.system sampleSettings blankHash sampleCodec).Reachable traced ∧
      traced.relay.task = .posting copy 1000 link payload importerUrl [] ∧
      (retryDecision 1000 link copy.deliveryAttempts).map UInt64.toNat = plannedRetry 1000 link 1) ∧
    ∃ traced, (Traced.runs singleAttempt blankHash sampleCodec OnPlan).Reachable traced ∧
      ∃ record ∈ traced.relay.store.index.packages, record.deliveryAttempts = 1 ∧
        record.deliveryAttempts ≤ 1 := by
  constructor
  · have reachable := Traced.reachable_after sampleSettings .moon 0 punctualTicks
    refine ⟨_, _, _, _, _, reachable, rfl, ?_⟩
    obtain ⟨current, _, found, _, _, _, _, _, planned⟩ :=
      (retry_policy sampleSettings blankHash sampleCodec).1 _ reachable _ _ _ _ _ _ rfl
        (.failed "timeout") rfl
    cases found
    exact planned.mpr (.inr ⟨.inl rfl, .inl rfl⟩)
  · have reachable := Traced.runs_after (fun relay _ => onPlan_quiet relay) singleAttempt .moon
      0 punctualTicks rfl
    refine ⟨_, reachable, _, List.mem_singleton_self _, rfl, ?_⟩
    exact (retry_policy singleAttempt blankHash sampleCodec).2 _ reachable _
      (List.mem_singleton_self _) _ rfl (by decide +kernel)

/-- The first attempt is the last one the link allows, and it fails; yet the package is posted once
more. -/
theorem last_attempt_repeated :
    ∃ traced copy link payload importerUrl,
      (Traced.system singleAttempt blankHash sampleCodec).Reachable traced ∧
      traced.relay.task = .posting copy 1000 link payload importerUrl [] ∧ link.maxAttempts = 1 ∧
      (traced.relay.store.index.record copy.toPackageIdentity).map (·.deliveryAttempts) = some 1 ∧
      plannedRetry 1000 link 1 = none ∧
      ((traced.after singleAttempt [.respond (.failed "timeout")]).relay.store.index.record
        copy.toPackageIdentity).map (·.state) = some .retrying ∧
      ((traced.after singleAttempt [.respond (.failed "timeout"), .tick 2000,
        .visit 2000 2000 none]).relay.store.index.record
        copy.toPackageIdentity).map (·.deliveryAttempts) = some 2 := by
  refine ⟨_, _, _, _, _, Traced.reachable_after singleAttempt .moon 0 punctualTicks, rfl, rfl, ?_⟩
  decide +kernel

end Attempts

section History

variable {settings : RelaySettings} {blake2 : Bytes → Hash32} {codec : PackageCodec}
  {relay : Relay} {event : Event} {record record' : RelayPackageRecord}
  {identity : PackageIdentity} {traced : Traced} {admits : Relay → Event → Prop}
  {run : Traced × Set PackageIdentity}

def blockedIn (traced : Traced) : Set PackageIdentity :=
  { identity | ∃ record, traced.relay.store.index.record identity = some record ∧
    record.state = .blockedByBlackout }

def FlagsFaithful (run : Traced × Set PackageIdentity) : Prop :=
  ∀ record ∈ run.1.relay.store.index.packages,
    (record.everBlockedByBlackout = true ↔ record.toPackageIdentity ∈ run.2)

/-- A retry is deferred by a blackout only if the record has been blocked before. -/
def KeepsFlag (settings : RelaySettings) (relay : Relay) (event : Event) : Prop :=
  ∀ response copy now link payload importerUrl work due nextDeliveryAt, event = .respond response →
    response.isTransient = true → relay.task = .posting copy now link payload importerUrl work →
    retryDecision now link copy.deliveryAttempts = some due → nextDeliveryAfter settings link due =
      .ok nextDeliveryAt →
    nextDeliveryAt ≠ due → copy.everBlockedByBlackout = true

theorem flagsFaithful_iff (distinct : run.1.relay.store.index.identities.Nodup) :
    FlagsFaithful run ↔ ∀ identity record, run.1.relay.store.index.record identity = some record →
      (record.everBlockedByBlackout = true ↔ identity ∈ run.2) := by
  constructor
  · intro faithful identity record found
    have member := faithful record (List.mem_of_find?_eq_some found)
    rwa [RelayIndex.identity_of_record found] at member
  · intro faithful record member
    exact faithful _ record (Keyed.lookup_of_mem distinct member)

theorem normalizeRecord_blocked (ackPollMillis now : UInt64) (record : RelayPackageRecord) :
    (normalizeRecord ackPollMillis now record).state = .blockedByBlackout ↔
      record.state = .blockedByBlackout := by
  by_cases delivering : record.state = .inDelivery
  · simp [normalizeRecord, delivering]
  · rw [normalizeRecord_state _ _ delivering]

theorem RecordMove.flag (move : RecordMove settings relay event record record')
    (keeps : KeepsFlag settings relay event)
    (marked : record.state = .blockedByBlackout → record.everBlockedByBlackout = true) :
    record'.everBlockedByBlackout = true ↔
      record.everBlockedByBlackout = true ∨ record'.state = .blockedByBlackout := by
  cases move with
  | kept => simpa using marked
  | visited reading change visit =>
      cases visit with
      | scheduled due scheduledAt =>
          by_cases same : scheduledAt = due <;> simp [Change.schedule, same]
      | blocked => simp [Change.block]
      | started => simp [Change.startDelivery]
  | retried response copy now link payload importerUrl work due nextDeliveryAt posting
      answered transient counted decided found =>
      subst counted
      by_cases same : nextDeliveryAt = due
      · simp [Change.retry, same]
      · have set := keeps _ _ _ _ _ _ _ _ _ answered transient posting decided found same
        simp [Change.retry, Change.startDelivery, set]
  | closed change _ closes =>
      rw [closes.flag]
      rcases closes.state with state | state | state <;> simp [state]
  | normalized now =>
      rw [(normalizeRecord_history _ _ _).2, normalizeRecord_blocked]
      simpa using marked

theorem known_of_seen (reachable :
    ((Traced.system settings blake2 codec).remembering blockedIn).Reachable run) :
    ∀ identity ∈ run.2, ∃ record, run.1.relay.store.index.record identity = some record := by
  apply reachable.invariant fun run => ∀ identity ∈ run.2,
    ∃ record, run.1.relay.store.index.record identity = some record
  · intro run initial identity seen
    rw [initial.2] at seen
    obtain ⟨record, found, _⟩ := seen
    exact ⟨record, found⟩
  · intro run run' reached known step identity seen
    rw [step.2] at seen
    rcases seen with before | ⟨record, found, _⟩
    · obtain ⟨record, found⟩ := known identity before
      have consistent := Traced.consistent_of_reachable reached.forget
      obtain ⟨record', found', _⟩ := Traced.Step.kept step.1 consistent found
      exact ⟨record', found'⟩
    · exact ⟨record, found⟩

variable (run) in
def actRemembering (settings : RelaySettings) (blake2 : Bytes → Hash32)
    (codec : PackageCodec) (event : Event) : Traced × Set PackageIdentity :=
  (run.1.act settings blake2 codec event, run.2 ∪ blockedIn (run.1.act settings blake2 codec event))

theorem mem_seen_iff {traced' : Traced} (seen : Set PackageIdentity)
    (found : traced'.relay.store.index.record identity = some record') :
    identity ∈ seen ∪ blockedIn traced' ↔ identity ∈ seen ∨ record'.state = .blockedByBlackout := by
  have blocked : identity ∈ blockedIn traced' ↔ record'.state = .blockedByBlackout := by
    constructor
    · intro ⟨other, found', state⟩
      obtain rfl : other = record' := Option.some.inj (found'.symm.trans found)
      exact state
    · intro state
      exact ⟨record', found, state⟩
  rw [Set.mem_union, blocked]

/-- From faithful flags an action leads to faithful flags exactly if it keeps them. -/
theorem flagsFaithful_act
    (reachable : ((Traced.system settings blake2 codec).remembering blockedIn).Reachable run)
    (faithful : FlagsFaithful run) (event : Event) :
    FlagsFaithful (actRemembering run settings blake2 codec event) ↔
      KeepsFlag settings run.1.relay event := by
  have reached := reachable.forget
  have distinct := (Traced.consistent_of_reachable reached).distinct
  have distinct' := (Traced.consistent_of_reachable (.next reached (.acted event))).distinct
  rw [flagsFaithful_iff distinct] at faithful
  rw [flagsFaithful_iff distinct']
  constructor
  · intro faithful' response copy now link payload importerUrl work due nextDeliveryAt
      answered transient posting decided deferred moved
    subst answered
    obtain ⟨found, _⟩ := (Traced.consistent_of_reachable reached).waiting.posting posting
    have retried := Traced.act_retried blake2 codec posting transient found decided deferred
    have blocked := (mem_seen_iff run.2 retried).mpr (.inr (by simp [Change.retry, moved]))
    exact (faithful' _ _ retried).mpr blocked
  · intro keeps identity record' found'
    refine Iff.trans ?_ (mem_seen_iff run.2 found').symm
    rcases Traced.act_origin event reached found' with
      ⟨record, found, move⟩ | ⟨absent, envelope, now, rfl⟩
    · have marked : record.state = .blockedByBlackout → record.everBlockedByBlackout = true :=
        fun state => (faithful identity record found).mpr
          (reachable.observed ⟨record, found, state⟩)
      rw [move.flag keeps marked, faithful identity record found]
    · refine iff_of_false (by simp [newRecord]) ?_
      rintro (seen | state)
      · obtain ⟨record, found⟩ := known_of_seen reachable identity seen
        rw [absent] at found
        cases found
      · cases state

theorem flagsFaithful_of_runs
    (reachable : ((Traced.runs settings blake2 codec (KeepsFlag settings)).remembering
      blockedIn).Reachable run) :
    ((Traced.system settings blake2 codec).remembering blockedIn).Reachable run ∧
      FlagsFaithful run := by
  induction reachable with
  | @start run initial =>
      refine ⟨.start initial, ?_⟩
      obtain ⟨traced, seen⟩ := run
      obtain ⟨rfl, _⟩ := initial
      intro record member
      cases member
  | @next run run' _ step held =>
      obtain ⟨reached, faithful⟩ := held
      obtain ⟨traced', seen'⟩ := run'
      obtain ⟨step, remembered⟩ := step
      change seen' = run.2 ∪ blockedIn traced' at remembered
      subst remembered
      refine ⟨.next reached ⟨Traced.StepWith.step step, rfl⟩, ?_⟩
      cases step with
      | acted event keeps => exact (flagsFaithful_act reached faithful event).mpr keeps
      | aside _ same =>
          -- what is blocked is what was blocked before
          have seen : run.2 ∪ blockedIn traced' = run.2 := by
            refine Set.union_eq_self_of_subset_right fun identity blocked => reached.observed ?_
            obtain ⟨record, found, state⟩ := blocked
            exact ⟨record, same ▸ found, state⟩
          intro record member
          rw [seen]
          exact faithful record (same ▸ member)

/-- In every run of the relay in which no retry is the first to be deferred by a blackout, the flags
tell what has been blocked; and the first retry that is deferred spoils them. -/
theorem blackout_history (settings : RelaySettings) (blake2 : Bytes → Hash32)
    (codec : PackageCodec) :
    (∀ run, ((Traced.runs settings blake2 codec (KeepsFlag settings)).remembering
      blockedIn).Reachable run →
      FlagsFaithful run) ∧
    ∀ run, ((Traced.system settings blake2 codec).remembering blockedIn).Reachable run →
      FlagsFaithful run →
      ∀ event, FlagsFaithful (actRemembering run settings blake2 codec event) ↔
        KeepsFlag settings run.1.relay event := by
  refine ⟨fun run reachable => (flagsFaithful_of_runs reachable).2, ?_⟩
  intro run reachable faithful event
  exact flagsFaithful_act reachable faithful event

variable (settings) in
theorem keepsFlag_quiet (relay : Relay) (quiet : event.isQuiet = true) :
    KeepsFlag settings relay event := by
  intro response _ _ _ _ _ _ _ _ answered
  subst answered
  cases quiet

theorem blackout_history_sample :
    ∃ run,
      ((Traced.runs sampleSettings blankHash sampleCodec (KeepsFlag sampleSettings)).remembering
        blockedIn).Reachable run ∧
      ∃ record ∈ run.1.relay.store.index.packages, record.everBlockedByBlackout = true ∧
        record.toPackageIdentity ∈ run.2 := by
  obtain ⟨seen, reachable⟩ :=
    (Traced.runs_after (fun relay _ => keepsFlag_quiet sampleSettings relay)
    sampleSettings .moon 4500 [.tick 4500, .visit 4500 4500 none] rfl).remember blockedIn
  have faithful := (blackout_history sampleSettings blankHash sampleCodec).1 _ reachable
  exact ⟨_, reachable, _, List.mem_singleton_self _, rfl,
    (faithful _ (List.mem_singleton_self _)).mp rfl⟩

/-- The delivery fails just before the blackout, and its retry is deferred past it without a
mark. -/
theorem deferred_retry_unmarked :
    ∃ run, ((Traced.system sampleSettings blankHash sampleCodec).remembering blockedIn).Reachable
      run ∧
      ∃ record ∈ run.1.relay.store.index.packages, record.state = .blockedByBlackout ∧
        record.everBlockedByBlackout = false ∧ record.toPackageIdentity ∈ run.2 := by
  obtain ⟨seen, reachable⟩ :=
    (Traced.reachable_after sampleSettings .moon 0 [.tick 0, .visit 0 0 none, .tick 4500,
      .visit 4500 4500 none, .respond (.failed "timeout")]).remember blockedIn
  refine ⟨_, reachable, _, List.mem_singleton_self _, rfl, rfl, reachable.observed ?_⟩
  exact ⟨_, rfl, rfl⟩

end History

end Ialp.Services
