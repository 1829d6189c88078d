import Ialp.Services.PackageBytes

/-!
The relay's store: the queue of packages and the payload files. The index is saved after every
change, so that what is in memory is what a restart loads; reading a file that is there and writing
a file succeed, except where a read is said to fail.
-/

namespace Ialp.Services

open Scale Function

inductive RelayQueueState where
  | queued
  | scheduled
  | blockedByBlackout
  | inDelivery
  | delivered
  | importerAcked
  | retrying
  | failed
  deriving DecidableEq, Repr

def relayStateName : RelayQueueState → String
  | .queued => "queued"
  | .scheduled => "scheduled"
  | .blockedByBlackout => "blocked_by_blackout"
  | .inDelivery => "in_delivery"
  | .delivered => "delivered"
  | .importerAcked => "importer_acked"
  | .retrying => "retrying"
  | .failed => "failed"

structure RelayPackageRecord extends PackageIdentity where
  summaryHash : Hash32
  exportCount : UInt32
  state : RelayQueueState
  relaySubmittedAtUnixMs : UInt64
  relayAcceptedAtUnixMs : UInt64
  everBlockedByBlackout : Bool
  nextDeliveryAtUnixMs : Option UInt64
  nextAckPollAtUnixMs : Option UInt64
  deliveryAttempts : UInt32
  lastDeliveryError : Option String
  deliveredAtUnixMs : Option UInt64
  completedAtUnixMs : Option UInt64
  importerState : Option ImporterPackageState
  importerReason : Option String
  lastImporterStatusAtUnixMs : Option UInt64
  deriving DecidableEq

structure RelayIndex where
  packages : List RelayPackageRecord
  deriving DecidableEq

namespace RelayIndex

def record (index : RelayIndex) (identity : PackageIdentity) : Option RelayPackageRecord :=
  Keyed.lookup RelayPackageRecord.toPackageIdentity identity index.packages

def persistRecord (record : RelayPackageRecord) (index : RelayIndex) : RelayIndex where
  packages := Keyed.upsert RelayPackageRecord.toPackageIdentity record index.packages

def identities (index : RelayIndex) : List PackageIdentity :=
  index.packages.map RelayPackageRecord.toPackageIdentity

end RelayIndex

structure RelayStore where
  index : RelayIndex
  payloads : PackageIdentity → Option Bytes

def payloadPath (identity : PackageIdentity) : String :=
  "payloads/" ++ identity.sourceDomain.asStr ++ "-" ++ identity.targetDomain.asStr ++ "-epoch-" ++
    toString identity.epochId ++ "-" ++ hexEncode identity.packageHash ++ ".scale"

section Accept

variable (blake2 : Bytes → Hash32) (codec : PackageCodec)

def newRecord (envelope : RelayPackageEnvelopeV1) (relayAcceptedAtUnixMs : UInt64) :
    RelayPackageRecord where
  toPackageIdentity := envelopeIdentity envelope
  summaryHash := envelope.summaryHash
  exportCount := envelope.exportCount
  state := .queued
  relaySubmittedAtUnixMs := envelope.relaySubmittedAtUnixMs
  relayAcceptedAtUnixMs := relayAcceptedAtUnixMs
  everBlockedByBlackout := false
  nextDeliveryAtUnixMs := none
  nextAckPollAtUnixMs := none
  deliveryAttempts := 0
  lastDeliveryError := none
  deliveredAtUnixMs := none
  completedAtUnixMs := none
  importerState := none
  importerReason := none
  lastImporterStatusAtUnixMs := none

def conflictMessage (packageHash : Hash32) : String :=
  "relay package identity already exists with " ++
    ("different payload bytes" ++ (" for " ++ hexHash packageHash))

def RelayStore.acceptEnvelope (envelope : RelayPackageEnvelopeV1) (relayAcceptedAtUnixMs : UInt64)
    (store : RelayStore) : Except String (RelayPackageRecord × Bool × RelayStore) :=
  let encodedEnvelope := codec.envelope.encode envelope
  match store.index.record (envelopeIdentity envelope) with
  | some existing => do
      let current ← okOr (store.payloads existing.toPackageIdentity)
        ("failed to read " ++ payloadPath existing.toPackageIdentity)
      ensure (current = encodedEnvelope) (conflictMessage existing.packageHash)
      return (existing, true, store)
  | none =>
      let record := newRecord envelope relayAcceptedAtUnixMs
      return (record, false, {
        payloads := update store.payloads (envelopeIdentity envelope) (some encodedEnvelope)
        index := store.index.persistRecord record })

structure RelaySubmitReceipt where
  accepted : Bool
  idempotent : Bool
  state : String
  deriving DecidableEq

structure SubmitReply where
  status : Nat
  receipt : Except String RelaySubmitReceipt

def RelayStore.acceptBody (body : Bytes) (now : UInt64) (store : RelayStore) :
    Except String (RelayPackageRecord × Bool × RelayStore) := do
  let (envelope, _) ← decodeAndValidateEnvelope blake2 codec body
  store.acceptEnvelope codec envelope now

def submitPackage (body : Bytes) (now : UInt64) (store : RelayStore) : SubmitReply × RelayStore :=
  match store.acceptBody blake2 codec body now with
  | .ok (record, idempotent, store) =>
      ({ status := if idempotent then 200 else 202
         receipt := .ok { accepted := true, idempotent, state := relayStateName record.state } },
         store)
  | .error error =>
      ({ status := if "different payload bytes".toList <:+: error.toList then 409 else 400
         receipt := .error error }, store)

end Accept

section Lookups

variable {index : RelayIndex} {record : RelayPackageRecord} {identity : PackageIdentity}

theorem RelayIndex.identity_of_record (found : index.record identity = some record) :
    record.toPackageIdentity = identity := Keyed.key_of_lookup found

theorem RelayIndex.record_persistRecord (record : RelayPackageRecord) (index : RelayIndex)
    (identity : PackageIdentity) : (index.persistRecord record).record identity =
      if record.toPackageIdentity = identity then some record else index.record identity :=
  Keyed.lookup_upsert _ _ _ _

theorem RelayIndex.mem_identities (found : index.record identity = some record) :
    identity ∈ index.identities := by
  have member := List.mem_of_find?_eq_some found
  exact RelayIndex.identity_of_record found ▸ List.mem_map_of_mem member

end Lookups

section Accepted

variable (blake2 : Bytes → Hash32) (codec : PackageCodec)

/-- What a submission does to the store: nothing, or it queues a package that is not there yet. -/
inductive Submitted (body : Bytes) (now : UInt64) (store : RelayStore) : RelayStore → Prop where
  | kept : Submitted body now store store
  | queued (envelope : RelayPackageEnvelopeV1) (package : CertifiedSummaryPackage)
      (accepted : decodeAndValidateEnvelope blake2 codec body = .ok (envelope, package))
      (absent : store.index.record (envelopeIdentity envelope) = none) :
      Submitted body now store {
        payloads := update store.payloads (envelopeIdentity envelope)
          (some (codec.envelope.encode envelope))
        index := store.index.persistRecord (newRecord envelope now) }

theorem submitPackage_submitted (body : Bytes) (now : UInt64) (store : RelayStore) :
    Submitted blake2 codec body now store (submitPackage blake2 codec body now store).2 := by
  rw [submitPackage]
  split
  · rename_i record idempotent after accepted
    obtain ⟨⟨envelope, package⟩, decoded, stored⟩ := bind_eq_ok.mp accepted
    simp only [RelayStore.acceptEnvelope] at stored
    split at stored
    · simp only [bind_eq_ok, okOr_eq_ok, ensure_eq_ok] at stored
      obtain ⟨_, _, _, _, returned⟩ := stored
      cases returned
      exact .kept
    · rename_i absent
      cases stored
      exact .queued envelope package decoded absent
  · exact .kept

variable {blake2 codec} {store : RelayStore} {body : Bytes} {now : UInt64}
  {envelope : RelayPackageEnvelopeV1} {package : CertifiedSummaryPackage}

theorem Submitted.record_kept {store' : RelayStore} {identity : PackageIdentity}
    {record : RelayPackageRecord} (stored : Submitted blake2 codec body now store store')
    (found : store.index.record identity = some record) :
    store'.index.record identity = some record ∧ store'.payloads identity =
      store.payloads identity := by
  cases stored with
  | kept => exact ⟨found, rfl⟩
  | queued envelope package accepted absent =>
      have other : envelopeIdentity envelope ≠ identity := by
        intro same
        rw [same, found] at absent
        cases absent
      refine ⟨?_, update_of_ne (Ne.symm other) _ _⟩
      change (store.index.persistRecord (newRecord envelope now)).record identity = some record
      rw [RelayIndex.record_persistRecord]
      exact (if_neg other).trans found

theorem submitPackage_new
    (accepted : decodeAndValidateEnvelope blake2 codec body = .ok (envelope, package))
    (absent : store.index.record (envelopeIdentity envelope) = none) :
    submitPackage blake2 codec body now store =
      ({ status := 202
         receipt := .ok { accepted := true, idempotent := false, state := "queued" } },
        { payloads := update store.payloads (envelopeIdentity envelope)
            (some (codec.envelope.encode envelope))
          index := store.index.persistRecord (newRecord envelope now) }) := by
  simp only [submitPackage, RelayStore.acceptBody, accepted, ok_bind,
    RelayStore.acceptEnvelope, absent]
  rfl

theorem infix_append_text (before text after : String) :
    text.toList <:+: (before ++ (text ++ after)).toList := by
  rw [String.toList_append, String.toList_append]
  exact List.infix_append' _ _ _

theorem conflictMessage_mentions (packageHash : Hash32) :
    "different payload bytes".toList <:+: (conflictMessage packageHash).toList :=
  infix_append_text _ _ _

/-- A further envelope of an identity must have the bytes of the first. -/
theorem submitPackage_known {existing : RelayPackageRecord} {current : Bytes}
    (accepted : decodeAndValidateEnvelope blake2 codec body = .ok (envelope, package))
    (known : store.index.record (envelopeIdentity envelope) = some existing)
    (stored : store.payloads (envelopeIdentity envelope) = some current) :
    submitPackage blake2 codec body now store =
      (if current = codec.envelope.encode envelope then
        { status := 200
          receipt := .ok {
            accepted := true, idempotent := true, state := relayStateName existing.state } }
      else { status := 409, receipt := .error (conflictMessage existing.packageHash) }, store) := by
  have identity := RelayIndex.identity_of_record known
  simp only [submitPackage, RelayStore.acceptBody, accepted, ok_bind, RelayStore.acceptEnvelope,
    known, identity, stored, okOr]
  by_cases same : current = codec.envelope.encode envelope
  · simp [same]
  · have refused : ensure (current = codec.envelope.encode envelope)
        (conflictMessage (envelopeIdentity envelope).packageHash) = .error _ :=
          ensure_eq_error.mpr ⟨same, rfl⟩
    rw [refused, if_neg same]
    exact congrArg (fun status => (SubmitReply.mk status _, store))
      (if_pos (conflictMessage_mentions _))

end Accepted

end Ialp.Services
