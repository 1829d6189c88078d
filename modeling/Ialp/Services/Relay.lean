import Ialp.Services.RelayStore
import Ialp.Services.Transport

/-!
What the relay's scheduler does with one record: it schedules a queued one, attempts the delivery of
one that is due, and polls the importer about a delivered one. A handler works on the copy of the
record it was called with, and writes through a change of the record that is in the index by then.
-/

namespace Ialp.Services

open Scale

section Changes

def RelayPackageRecord.origin (record : RelayPackageRecord) :
    PackageIdentity × Hash32 × UInt32 × UInt64 × UInt64 :=
  (record.toPackageIdentity, record.summaryHash, record.exportCount, record.relaySubmittedAtUnixMs,
    record.relayAcceptedAtUnixMs)

structure Change where
  apply : RelayPackageRecord → RelayPackageRecord
  keeps : ∀ record, (apply record).origin = record.origin

structure ImporterPackageStatusView where
  state : ImporterPackageState
  reason : Option String
  deriving DecidableEq

namespace Change

def schedule (due scheduledAt : UInt64) : Change where
  apply current := { current with
    state := if scheduledAt = due then .scheduled else .blockedByBlackout
    everBlockedByBlackout := current.everBlockedByBlackout || scheduledAt ≠ due
    nextDeliveryAtUnixMs := some scheduledAt
    lastDeliveryError := none }
  keeps _ := rfl

def block (blockedUntil : UInt64) : Change where
  apply current := { current with
    state := .blockedByBlackout
    everBlockedByBlackout := true
    nextDeliveryAtUnixMs := some blockedUntil }
  keeps _ := rfl

def startDelivery : Change where
  apply current := { current with
    state := .inDelivery
    deliveryAttempts := saturatingAdd32 current.deliveryAttempts 1
    lastDeliveryError := none }
  keeps _ := rfl

def ackDelivery (now : UInt64) (status : ImporterPackageStatusView) : Change where
  apply current := { current with
    state := .importerAcked
    deliveredAtUnixMs := some (current.deliveredAtUnixMs.getD now)
    completedAtUnixMs := some now
    importerState := some status.state
    importerReason := status.reason
    lastImporterStatusAtUnixMs := some now
    nextAckPollAtUnixMs := none }
  keeps _ := rfl

def deliver (now ackPollMillis : UInt64) (status : ImporterPackageStatusView) : Change where
  apply current := { current with
    state := .delivered
    deliveredAtUnixMs := some (current.deliveredAtUnixMs.getD now)
    importerState := some status.state
    importerReason := status.reason
    lastImporterStatusAtUnixMs := some now
    nextAckPollAtUnixMs := some (saturatingAdd64 now ackPollMillis)
    nextDeliveryAtUnixMs := none }
  keeps _ := rfl

def failDelivery (now : UInt64) (error : String) : Change where
  apply current := { current with
    state := .failed
    lastDeliveryError := some error
    completedAtUnixMs := some now
    nextDeliveryAtUnixMs := none
    nextAckPollAtUnixMs := none }
  keeps _ := rfl

/-- A retry, which does not set `ever_blocked_by_blackout` when it is blocked. -/
def retry (due nextDeliveryAt : UInt64) (error : String) : Change where
  apply current := { current with
    state := if nextDeliveryAt = due then .retrying else .blockedByBlackout
    lastDeliveryError := some error
    nextDeliveryAtUnixMs := some nextDeliveryAt
    nextAckPollAtUnixMs := none }
  keeps _ := rfl

def ackPoll (now : UInt64) (status : ImporterPackageStatusView) : Change where
  apply current := { current with
    state := .importerAcked
    importerState := some status.state
    importerReason := status.reason
    lastImporterStatusAtUnixMs := some now
    completedAtUnixMs := some now
    nextAckPollAtUnixMs := none }
  keeps _ := rfl

def notePoll (now ackPollMillis : UInt64) (status : ImporterPackageStatusView) : Change where
  apply current := { current with
    importerState := some status.state
    importerReason := status.reason
    lastImporterStatusAtUnixMs := some now
    nextAckPollAtUnixMs := some (saturatingAdd64 now ackPollMillis) }
  keeps _ := rfl

def failPoll (now : UInt64) (error : String) : Change where
  apply current := { current with
    state := .failed
    lastDeliveryError := some error
    completedAtUnixMs := some now
    nextAckPollAtUnixMs := none }
  keeps _ := rfl

def repeatPoll (now ackPollMillis : UInt64) (error : String) : Change where
  apply current := { current with
    lastDeliveryError := some error
    nextAckPollAtUnixMs := some (saturatingAdd64 now ackPollMillis) }
  keeps _ := rfl

end Change

def updateRecord (record : RelayPackageRecord) (mutator : Change) (index : RelayIndex) :
    RelayIndex :=
  match index.record record.toPackageIdentity with
  | none => index
  | some current => index.persistRecord (mutator.apply current)

theorem Change.identity (change : Change) (record : RelayPackageRecord) :
    (change.apply record).toPackageIdentity = record.toPackageIdentity :=
      congrArg Prod.fst (change.keeps record)

theorem Change.acceptedAt (change : Change) (record : RelayPackageRecord) :
    (change.apply record).relayAcceptedAtUnixMs = record.relayAcceptedAtUnixMs :=
  congrArg (fun origin => origin.2.2.2.2) (change.keeps record)

theorem record_updateRecord (record : RelayPackageRecord) (change : Change) (index : RelayIndex)
    (identity : PackageIdentity) :
    (updateRecord record change index).record identity =
      if record.toPackageIdentity = identity then (index.record identity).map change.apply
      else index.record identity := by
  rw [updateRecord]
  split
  · rename_i absent
    split
    · rename_i same
      rw [← same, absent]
      rfl
    · rfl
  · rename_i current found
    have known := RelayIndex.identity_of_record found
    rw [RelayIndex.record_persistRecord, change.identity, known]
    split
    · rename_i same
      rw [← same, found]
      rfl
    · rfl

theorem record_updateRecord_ne {change : Change} {record : RelayPackageRecord} {index : RelayIndex}
    {other : PackageIdentity} (distinct : other ≠ record.toPackageIdentity) :
    (updateRecord record change index).record other = index.record other := by
  rw [record_updateRecord, if_neg (Ne.symm distinct)]

theorem record_updateRecord_self {change : Change} {record : RelayPackageRecord}
    {index : RelayIndex} (found : index.record record.toPackageIdentity = some record) :
    (updateRecord record change index).record record.toPackageIdentity =
      some (change.apply record) := by
  rw [record_updateRecord, if_pos rfl, found]
  rfl

end Changes

section Handlers

variable (settings : RelaySettings)

def linkOf (identity : PackageIdentity) : Except String LinkProfileConfig :=
  okOr (settings.transport.link identity.sourceDomain identity.targetDomain) "missing link profile"

def importerBaseUrl (targetDomain : DomainId) : Except String String := do
  let listenAddr ← okOr (settings.transport.importers targetDomain)
    ("missing importer endpoint for " ++ targetDomain.asStr)
  return "http://" ++ listenAddr

def dueNow (nextDueAtUnixMs : Option UInt64) (now : UInt64) : Bool :=
  match nextDueAtUnixMs with
  | some due => due ≤ now
  | none => false

def firstDue (link : LinkProfileConfig) (relayAcceptedAtUnixMs : UInt64) : UInt64 :=
  saturatingAdd64 relayAcceptedAtUnixMs (saturatingMul64 link.baseOneWayDelaySeconds 1000)

def scheduleRecord (record : RelayPackageRecord) (index : RelayIndex) :
    Except String RelayIndex := do
  let link ← linkOf settings record.toPackageIdentity
  let due := firstDue link record.relayAcceptedAtUnixMs
  let scheduledAt ← nextDeliveryAfter settings link due
  return updateRecord record (.schedule due scheduledAt) index

def deliveryGate (now : UInt64) (record : RelayPackageRecord) :
    Except String (LinkProfileConfig × Option UInt64) := do
  let link ← linkOf settings record.toPackageIdentity
  match record.nextDeliveryAtUnixMs with
  | none => return (link, none)
  | some nextDeliveryAt =>
      let blockedUntil ← nextDeliveryAfter settings link nextDeliveryAt
      return (link, if now < blockedUntil then some blockedUntil else none)

def RelayStore.loadPayload (identity : PackageIdentity) (store : RelayStore) :
    Except String Bytes :=
  okOr (store.payloads identity) ("failed to read relay payload " ++ payloadPath identity)

/-- The record is marked as in delivery before the payload is read. `fault` is the error of that
read, if it has one. -/
def readDelivery (fault : Option String) (record : RelayPackageRecord) (store : RelayStore) :
    Except String (Bytes × String) := do
  let payload ← match fault with
    | some error => throw error
    | none => store.loadPayload record.toPackageIdentity
  let importerUrl ← importerBaseUrl settings record.targetDomain
  return (payload, importerUrl)

def retryDelaySeconds (link : LinkProfileConfig) (deliveryAttempts : UInt32) : UInt64 :=
  let failures := (max deliveryAttempts 1).toNat - 1
  let multiplier := UInt64.ofNat (2 ^ min failures 16)
  min (saturatingMul64 link.initialRetryDelaySeconds multiplier) link.maxRetryDelaySeconds

def retryDue (now : UInt64) (link : LinkProfileConfig) (deliveryAttempts : UInt32) : UInt64 :=
  saturatingAdd64 now (saturatingMul64 (retryDelaySeconds link deliveryAttempts) 1000)

def scheduleRetry (record : RelayPackageRecord) (now : UInt64)
    (link : LinkProfileConfig) (error : String) (index : RelayIndex) : Except String RelayIndex :=
  if link.maxAttempts ≠ 0 ∧ link.maxAttempts ≤ record.deliveryAttempts then
    return updateRecord record (.failDelivery now error) index
  else do
    let due := retryDue now link record.deliveryAttempts
    let nextDeliveryAt ← nextDeliveryAfter settings link due
    return updateRecord record (.retry due nextDeliveryAt error) index

structure StatusCode where
  code : Nat
  display : String

def StatusCode.isSuccess (status : StatusCode) : Prop := 200 ≤ status.code ∧ status.code < 300

def StatusCode.isClientError (status : StatusCode) : Prop := 400 ≤ status.code ∧ status.code < 500

instance (status : StatusCode) : Decidable status.isSuccess := inferInstanceAs (Decidable (_ ∧ _))

instance (status : StatusCode) : Decidable status.isClientError :=
  inferInstanceAs (Decidable (_ ∧ _))

/-- How a request to the importer ends. `body` is the package status that the body decodes to,
`text` the body as a text; either can fail. -/
inductive Response where
  | answered (status : StatusCode) (body : Option ImporterPackageStatusView) (text : Option String)
  | failed (error : String)

def finishDelivery (record : RelayPackageRecord) (now : UInt64) (link : LinkProfileConfig)
    (response : Response) (index : RelayIndex) : Except String RelayIndex :=
  match response with
  | .answered status body text =>
      if status.code = 200 ∨ status.code = 202 then do
        let view ← okOr body "failed to decode importer ingest receipt"
        if view.state.isTerminal then return updateRecord record (.ackDelivery now view) index
        else return updateRecord record (.deliver now settings.ackPollMillis view) index
      else if status.isClientError then
        return updateRecord record (.failDelivery now
          ("importer returned " ++ status.display ++ ": " ++ text.getD "<non-utf8 importer error>"))
          index
      else
        scheduleRetry settings record now link
          ("importer returned transient status " ++ status.display) index
  | .failed error =>
      scheduleRetry settings record now link ("importer delivery request failed: " ++ error) index

def finishPoll (record : RelayPackageRecord) (now : UInt64) (response : Response)
    (index : RelayIndex) : Except String RelayIndex :=
  match response with
  | .answered status body text =>
      if status.isSuccess then do
        let view ← okOr body "failed to decode importer package status"
        if view.state.isTerminal then return updateRecord record (.ackPoll now view) index
        else return updateRecord record (.notePoll now settings.ackPollMillis view) index
      else if status.isClientError then
        return updateRecord record (.failPoll now
          ("importer status returned " ++ status.display ++ ": " ++
            text.getD "<non-utf8 importer status error>")) index
      else
        return updateRecord record (.repeatPoll now settings.ackPollMillis
          ("importer status polling returned " ++ status.display)) index
  | .failed error =>
      return updateRecord record
        (.repeatPoll now settings.ackPollMillis ("importer status polling failed: " ++ error)) index

def normalizeRecord (ackPollMillis now : UInt64) (record : RelayPackageRecord) :
    RelayPackageRecord :=
  match record.state with
  | .inDelivery => { record with state := .retrying, nextDeliveryAtUnixMs := some now }
  | .delivered =>
      if record.nextAckPollAtUnixMs.isNone then
        { record with nextAckPollAtUnixMs := some (saturatingAdd64 now ackPollMillis) }
      else record
  | _ => record

def normalizeRestartState (ackPollMillis now : UInt64) (index : RelayIndex) : RelayIndex where
  packages := index.packages.map (normalizeRecord ackPollMillis now)

theorem normalizeRecord_origin (ackPollMillis now : UInt64) (record : RelayPackageRecord) :
    (normalizeRecord ackPollMillis now record).origin = record.origin := by
  rw [normalizeRecord]
  split
  · rfl
  · split <;> rfl
  · rfl

theorem normalizeRecord_identity (ackPollMillis now : UInt64) (record : RelayPackageRecord) :
    (normalizeRecord ackPollMillis now record).toPackageIdentity = record.toPackageIdentity :=
  congrArg Prod.fst (normalizeRecord_origin ackPollMillis now record)

theorem record_normalizeRestartState (ackPollMillis now : UInt64) (index : RelayIndex)
    (identity : PackageIdentity) : (normalizeRestartState ackPollMillis now index).record identity =
      (index.record identity).map (normalizeRecord ackPollMillis now) :=
  Keyed.lookup_map _ (normalizeRecord_identity ackPollMillis now)

end Handlers

section Machine

/-- What the scheduler is doing. While it waits for an answer it holds the copy of the record it
took from the index, the time it read at the start, and what is left of the tick's work. -/
inductive Task where
  | idle
  | ticking (work : List PackageIdentity)
  | posting (record : RelayPackageRecord) (now : UInt64)
      (link : LinkProfileConfig) (payload : Bytes) (importerUrl : String)
      (work : List PackageIdentity)
  | polling (record : RelayPackageRecord) (now : UInt64) (importerUrl : String)
      (work : List PackageIdentity)

/-- What is remembered of the last tick: the index and the time it started with, whose delivery it
attempted, whom it polled, the number of its turns so far, and how it returned. -/
structure TickLog where
  opening : RelayIndex
  openedAt : UInt64
  attempted : List PackageIdentity
  polled : List PackageIdentity
  turns : Nat
  outcome : Option (Except String Unit)

structure Relay where
  store : RelayStore
  clock : UInt64
  task : Task
  log : TickLog

/-- The relay's next action. `visit` takes the scheduler to the next record of its work: `reading`
is the time at which it looks whether the record is due, `now` the one read by the handler.
Submissions come between the scheduler's actions; they change no record that is in the index, so
that where exactly they come inside of one makes no difference. -/
inductive Event where
  | submit (body : Bytes) (now : UInt64)
  | tick (now : UInt64)
  | visit (reading now : UInt64) (fault : Option String)
  | respond (response : Response)
  | restart (now : UInt64)

namespace Relay

variable (settings : RelaySettings)

def resume (work : List PackageIdentity) (result : Except String RelayIndex) (relay : Relay) :
    Relay :=
  match result with
  | .error error => { relay with task := .idle, log.outcome := some (.error error) }
  | .ok index =>
      match work with
      | [] => { relay with store.index := index, task := .idle, log.outcome := some (.ok ()) }
      | next :: rest => { relay with store.index := index, task := .ticking (next :: rest) }

def noteAttempt (now : UInt64) (record : RelayPackageRecord) (relay : Relay) : Relay :=
  { relay with clock := now, log.attempted := relay.log.attempted ++ [record.toPackageIdentity] }

def notePoll (now : UInt64) (record : RelayPackageRecord) (relay : Relay) : Relay :=
  { relay with clock := now, log.polled := relay.log.polled ++ [record.toPackageIdentity] }

def attemptDelivery (now : UInt64) (fault : Option String) (record : RelayPackageRecord)
    (work : List PackageIdentity) (relay : Relay) : Relay :=
  let relay := relay.noteAttempt now record
  match deliveryGate settings now record with
  | .error error => relay.resume work (.error error)
  | .ok (_, some blockedUntil) =>
      relay.resume work (.ok (updateRecord record (.block blockedUntil) relay.store.index))
  | .ok (link, none) =>
      let relay :=
        { relay with store.index := updateRecord record .startDelivery relay.store.index }
      match readDelivery settings fault record relay.store with
      | .error error => relay.resume work (.error error)
      | .ok (payload, importerUrl) =>
          { relay with task := .posting record now link payload importerUrl work }

def pollImporterStatus (now : UInt64) (record : RelayPackageRecord)
    (work : List PackageIdentity) (relay : Relay) : Relay :=
  let relay := relay.notePoll now record
  match importerBaseUrl settings record.targetDomain with
  | .error error => relay.resume work (.error error)
  | .ok importerUrl => { relay with task := .polling record now importerUrl work }

def handle (reading now : UInt64) (fault : Option String) (record : RelayPackageRecord)
    (work : List PackageIdentity) (relay : Relay) : Relay :=
  match record.state with
  | .queued => relay.resume work (scheduleRecord settings record relay.store.index)
  | .scheduled | .blockedByBlackout | .retrying =>
      if dueNow record.nextDeliveryAtUnixMs reading then
        relay.attemptDelivery settings now fault record work
      else relay.resume work (.ok relay.store.index)
  | .delivered =>
      if dueNow record.nextAckPollAtUnixMs reading then
        relay.pollImporterStatus settings now record work
      else relay.resume work (.ok relay.store.index)
  | .inDelivery | .importerAcked | .failed => relay.resume work (.ok relay.store.index)

def schedulerTick (now : UInt64) (relay : Relay) : Relay :=
  let relay := { relay with
    clock := now
    log := {
      opening := relay.store.index
      openedAt := now
      attempted := []
      polled := []
      turns := 0
      outcome := none } }
  relay.resume relay.store.index.identities (.ok relay.store.index)

def turn (clock : UInt64) (relay : Relay) : Relay :=
  { relay with clock, log.turns := relay.log.turns + 1 }

variable (blake2 : Bytes → Hash32) (codec : PackageCodec)

def apply (event : Event) (relay : Relay) : Relay :=
  match event, relay.task with
  | .submit body now, _ =>
      { relay with clock := now, store := (submitPackage blake2 codec body now relay.store).2 }
  | .tick now, .idle => relay.schedulerTick now
  | .visit reading now fault, .ticking (identity :: work) =>
      let relay := relay.turn reading
      match relay.store.index.record identity with
      | none => relay.resume work (.ok relay.store.index)
      | some record => relay.handle settings reading now fault record work
  | .respond response, .posting record now link _ _ work =>
      let relay := relay.turn relay.clock
      relay.resume work (finishDelivery settings record now link response relay.store.index)
  | .respond response, .polling record now _ work =>
      let relay := relay.turn relay.clock
      relay.resume work (finishPoll settings record now response relay.store.index)
  | .restart now, _ =>
      { relay with
        clock := now
        task := .idle
        store.index := normalizeRestartState settings.ackPollMillis now relay.store.index }
  | _, _ => relay

/-- The clock readings of the action continue those before it. -/
def Timely (relay : Relay) : Event → Prop
  | .submit _ now | .tick now | .restart now => relay.clock ≤ now
  | .visit reading now _ => relay.clock ≤ reading ∧ reading ≤ now
  | .respond _ => True

instance (relay : Relay) : ∀ event, Decidable (relay.Timely event)
  | .submit _ now | .tick now | .restart now => inferInstanceAs (Decidable (relay.clock ≤ now))
  | .visit reading now _ => inferInstanceAs (Decidable (relay.clock ≤ reading ∧ reading ≤ now))
  | .respond _ => inferInstanceAs (Decidable True)

def initial : Relay where
  store := { index := { packages := [] }, payloads := fun _ => none }
  clock := 0
  task := .idle
  log := {
    opening := { packages := [] }, openedAt := 0, attempted := [], polled := [], turns := 0
    outcome := none }

/-- The runs of a relay all of whose actions meet a condition. The clock may read any time. -/
def runs (admits : Relay → Event → Prop) : Transition.System Relay where
  initial relay := relay = initial
  step relay relay' := ∃ event, admits relay event ∧
    relay' = relay.apply settings blake2 codec event

def Timed (admits : Relay → Event → Prop) (relay : Relay) (event : Event) : Prop :=
  relay.Timely event ∧ admits relay event

instance (admits : Relay → Event → Prop) [∀ relay event, Decidable (admits relay event)]
    (relay : Relay) (event : Event) : Decidable (Timed admits relay event) :=
      inferInstanceAs (Decidable (_ ∧ _))

def system (admits : Relay → Event → Prop) : Transition.System Relay :=
  runs settings blake2 codec (Timed admits)

end Relay

end Machine

end Ialp.Services
