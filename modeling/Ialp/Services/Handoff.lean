import Ialp.Services.RelayDelivery

/-!
The handoff of packages from the exporter to the relay. Every submission of a package is built anew,
with the time of the submission in it, while the relay compares the bytes of a further envelope of a
package with those of the first. So a submission that is repeated after its answer was lost is
refused, unless it bears the time of the first.
-/

namespace Ialp.Services

open Scale Function

section Exporter

inductive RelaySubmissionState where
  | notSubmitted
  | submitted
  | submissionRetrying
  | submissionFailed
  deriving DecidableEq

structure StoredPackage where
  targetDomain : DomainId
  package : CertifiedSummaryPackage

namespace StoredPackage

def key (stored : StoredPackage) : EpochId × DomainId :=
  (stored.package.header.epochId, stored.targetDomain)

def identity (stored : StoredPackage) : PackageIdentity where
  sourceDomain := stored.package.header.domainId
  targetDomain := stored.targetDomain
  epochId := stored.package.header.epochId
  packageHash := stored.package.packageHash

end StoredPackage

structure PackageFiles where
  packages : List StoredPackage
  distinct : (packages.map StoredPackage.key).Nodup

structure ExporterPackageRecord extends StoredPackage where
  relaySubmissionState : RelaySubmissionState
  relayLastSubmittedAtUnixMs : Option UInt64
  relaySubmissionAttempts : UInt32
  relayLastError : Option String

def ExporterPackageRecord.key (record : ExporterPackageRecord) : EpochId × DomainId :=
  record.toStoredPackage.key

structure ExporterIndex where
  packages : List ExporterPackageRecord

namespace ExporterIndex

def record (key : EpochId × DomainId) (index : ExporterIndex) : Option ExporterPackageRecord :=
  Keyed.lookup ExporterPackageRecord.key key index.packages

def markRelaySubmitted (record : ExporterPackageRecord) (submittedAtUnixMs : UInt64)
    (index : ExporterIndex) : ExporterIndex where
  packages := Keyed.upsert ExporterPackageRecord.key { record with
    relaySubmissionState := .submitted
    relayLastSubmittedAtUnixMs := some submittedAtUnixMs
    relaySubmissionAttempts := saturatingAdd32 record.relaySubmissionAttempts 1
    relayLastError := none } index.packages

def markRelaySubmissionError (record : ExporterPackageRecord)
    (submittedAtUnixMs : UInt64) (retryable : Bool) (error : String) (index : ExporterIndex) :
    ExporterIndex where
  packages := Keyed.upsert ExporterPackageRecord.key { record with
    relaySubmissionState := if retryable then .submissionRetrying else .submissionFailed
    relayLastSubmittedAtUnixMs := some submittedAtUnixMs
    relaySubmissionAttempts := saturatingAdd32 record.relaySubmissionAttempts 1
    relayLastError := some error } index.packages

end ExporterIndex

structure RelaySubmitError where
  retryable : Bool
  message : String

/-- What becomes of a request: it does not reach the relay, its answer does not come back, the body
of the answer breaks off, or the answer arrives. -/
inductive Fate where
  | requestLost (error : String)
  | responseLost (error : String)
  | bodyLost (error : String)
  | answered

def isServerError (status : Nat) : Bool := 500 ≤ status ∧ status < 600

def statusText : Nat → String
  | 200 => "200 OK"
  | 202 => "202 Accepted"
  | 400 => "400 Bad Request"
  | 409 => "409 Conflict"
  | status => toString status

/-- `RelayHttpClient::submit_package`, given the relay's reply. -/
def submissionResult (fate : Fate) (reply : SubmitReply) :
    Except RelaySubmitError RelaySubmitReceipt :=
  match fate with
  | .requestLost error | .responseLost error =>
      .error { retryable := true, message := "failed to submit package to relay: " ++ error }
  | .bodyLost error =>
      .error {
        retryable := isServerError reply.status
        message := "failed to read relay response body: " ++ error }
  | .answered =>
      if reply.status = 200 ∨ reply.status = 202 then
        match reply.receipt with
        | .ok receipt => .ok receipt
        | .error text =>
            .error { retryable := false, message := "failed to decode relay receipt: " ++ text }
      else
        .error {
          retryable := isServerError reply.status || reply.status = 429
          message := "relay rejected package with status " ++ statusText reply.status ++ ": " ++
            match reply.receipt with
            | .ok receipt => receipt.state
            | .error text => text }

end Exporter

section Machine

/-- A pass of `submit_certified_packages_to_relay` over the packages that are not submitted. It
works on a copy of the index, which is saved when the pass is over. -/
structure Pass where
  index : ExporterIndex
  work : List (EpochId × DomainId)

structure Handoff where
  relay : Relay
  saved : ExporterIndex
  pass : Option Pass

/-- `submit` is the next request of the pass, built at `now` and handled by the relay at `relayNow`;
`stop` ends the pass before the index is saved. -/
inductive HandoffEvent where
  | relay (event : Event)
  | poll
  | submit (now relayNow : UInt64) (fate : Fate)
  | save
  | stop

namespace Handoff

variable (settings : RelaySettings) (blake2 : Bytes → Hash32) (codec : PackageCodec)

def reached (fate : Fate) (body : Bytes) (relayNow : UInt64) (relay : Relay) : Relay :=
  match fate with
  | .requestLost _ => relay
  | _ => relay.apply settings blake2 codec (.submit body relayNow)

def submitRecord (now relayNow : UInt64) (fate : Fate) (record : ExporterPackageRecord)
    (pass : Pass) (handoff : Handoff) : Handoff :=
  match relayEnvelope codec record.targetDomain record.package now with
  | .error _ => { handoff with pass := none }
  | .ok envelope =>
      let body := codec.envelope.encode envelope
      let handoff' :=
        { handoff with relay := reached settings blake2 codec fate body relayNow handoff.relay }
      match submissionResult fate
        (submitPackage blake2 codec body relayNow handoff.relay.store).1 with
      | .ok receipt =>
          if receipt.accepted then
            { handoff' with
              pass := some { pass with index := pass.index.markRelaySubmitted record now } }
          else { handoff' with pass := none }
      | .error error =>
          { handoff' with pass := some { pass with
            index :=
              pass.index.markRelaySubmissionError record now error.retryable error.message } }

def apply (event : HandoffEvent) (handoff : Handoff) : Handoff :=
  match event, handoff.pass with
  | .relay event, _ => { handoff with relay := handoff.relay.apply settings blake2 codec event }
  | .poll, none => { handoff with pass := some {
      index := handoff.saved
      work :=
        (handoff.saved.packages.filter fun record => record.relaySubmissionState ≠ .submitted).map
        ExporterPackageRecord.key } }
  | .submit now relayNow fate, some { index, work := key :: work } =>
      match index.record key with
      | none => { handoff with pass := some { index, work } }
      | some record =>
          handoff.submitRecord settings blake2 codec now relayNow fate record { index, work }
  | .save, some { index, work := [] } => { handoff with saved := index, pass := none }
  | .stop, _ => { handoff with pass := none }
  | _, _ => handoff

def system (files : PackageFiles) (admits : Handoff → HandoffEvent → Prop) :
    Transition.System Handoff where
  initial handoff := handoff.relay = Relay.initial ∧ handoff.pass = none ∧
    ∀ record ∈ handoff.saved.packages,
    record.toStoredPackage ∈ files.packages ∧ record.relaySubmissionState = .notSubmitted
  step handoff handoff' :=
    ∃ event, admits handoff event ∧ handoff' = handoff.apply settings blake2 codec event

def next (handoff : Handoff) : Option ExporterPackageRecord :=
  match handoff.pass with
  | some { index, work := key :: _ } => index.record key
  | _ => none

/-- The submissions of a package that get to the relay bear one time, the body of no receipt breaks
off, and nobody else submits an envelope of other bytes for a package of the exporter. -/
def Steady (files : PackageFiles) (stamp : EpochId × DomainId → UInt64) (handoff : Handoff) :
    HandoffEvent → Prop
  | .submit now relayNow fate => ∀ record, handoff.next = some record →
      ((∀ error, fate ≠ .requestLost error) → now = stamp record.key) ∧
      ∀ envelope error, relayEnvelope codec record.targetDomain record.package now = .ok envelope →
        fate = .bodyLost error →
        let reply :=
          (submitPackage blake2 codec (codec.envelope.encode envelope) relayNow
            handoff.relay.store).1
        reply.status ≠ 200 ∧ reply.status ≠ 202
  | .relay (.submit body _) => ∀ envelope package,
      decodeAndValidateEnvelope blake2 codec body = .ok (envelope, package) →
        ∀ stored ∈ files.packages, envelopeIdentity envelope = stored.identity →
          relayEnvelope codec stored.targetDomain stored.package (stamp stored.key) = .ok envelope ∧
            body = codec.envelope.encode envelope
  | _ => True

end Handoff

end Machine

section Resubmission

variable {settings : RelaySettings} {blake2 : Bytes → Hash32} {codec : PackageCodec}
  {files : PackageFiles} {stamp : EpochId × DomainId → UInt64} {handoff handoff' : Handoff}
  {stored : StoredPackage} {envelope : RelayPackageEnvelopeV1} {now relayNow : UInt64}
  {record : ExporterPackageRecord} {store store' : RelayStore}

def Sendable (blake2 : Bytes → Hash32) (codec : PackageCodec) (stamp : EpochId × DomainId → UInt64)
    (stored : StoredPackage) (envelope : RelayPackageEnvelopeV1) : Prop :=
  relayEnvelope codec stored.targetDomain stored.package (stamp stored.key) = .ok envelope ∧
    ∃ package, decodeAndValidateEnvelope blake2 codec (codec.envelope.encode envelope) =
      .ok (envelope, package)

def Matches (blake2 : Bytes → Hash32) (codec : PackageCodec) (files : PackageFiles)
    (stamp : EpochId × DomainId → UInt64) (store : RelayStore) : Prop :=
  ∀ stored ∈ files.packages, ∀ existing, store.index.record stored.identity = some existing →
    ∃ envelope, Sendable blake2 codec stamp stored envelope ∧
      store.payloads stored.identity = some (codec.envelope.encode envelope)

def Handoff.Holds (handoff : Handoff) (record : ExporterPackageRecord) : Prop :=
  record ∈ handoff.saved.packages ∨ ∃ pass, handoff.pass = some pass ∧ record ∈ pass.index.packages

structure Agreed (blake2 : Bytes → Hash32) (codec : PackageCodec) (files : PackageFiles)
    (stamp : EpochId × DomainId → UInt64) (handoff : Handoff) : Prop where
  known : ∀ record, handoff.Holds record → record.toStoredPackage ∈ files.packages
  matched : Matches blake2 codec files stamp handoff.relay.store
  failed : ∀ record, handoff.Holds record → record.relaySubmissionState = .submissionFailed →
    ∀ envelope, ¬ Sendable blake2 codec stamp record.toStoredPackage envelope

theorem identity_of_relayEnvelope
    (built : relayEnvelope codec stored.targetDomain stored.package now = .ok envelope) :
    envelopeIdentity envelope = stored.identity := by
  simp only [relayEnvelope, bind_eq_ok] at built
  obtain ⟨_, _, returned⟩ := built
  cases returned
  rfl

theorem PackageFiles.eq_of_identity {other : StoredPackage} (member : stored ∈ files.packages)
    (member' : other ∈ files.packages) (same : stored.identity = other.identity) :
    stored = other := by
  have keys : stored.key = other.key := by
    rw [StoredPackage.key, StoredPackage.key, show stored.package.header.epochId =
      _ from congrArg PackageIdentity.epochId same,
      show stored.targetDomain = _ from congrArg PackageIdentity.targetDomain same]
    rfl
  exact List.inj_on_of_nodup_map files.distinct member member' keys

variable (relayNow) in
theorem submit_sendable (matched : Matches blake2 codec files stamp store)
    (member : stored ∈ files.packages) (sendable : Sendable blake2 codec stamp stored envelope) :
    ∃ receipt, receipt.accepted = true ∧
      (submitPackage blake2 codec (codec.envelope.encode envelope) relayNow store).1.receipt =
        .ok receipt ∧
      ((submitPackage blake2 codec (codec.envelope.encode envelope) relayNow store).1.status = 200 ∨
        (submitPackage blake2 codec (codec.envelope.encode envelope) relayNow store).1.status =
          202) := by
  obtain ⟨built, package, accepted⟩ := sendable
  have identity := identity_of_relayEnvelope built
  cases found : store.index.record stored.identity with
  | none =>
      rw [submitPackage_new accepted (identity ▸ found)]
      exact ⟨_, rfl, rfl, .inr rfl⟩
  | some existing =>
      obtain ⟨other, ⟨rebuilt, _⟩, payload⟩ := matched stored member existing found
      cases built.symm.trans rebuilt
      rw [submitPackage_known accepted (identity ▸ found) (identity ▸ payload), if_pos rfl]
      exact ⟨_, rfl, rfl, .inl rfl⟩

theorem envelope_of_accepted {decoded : RelayPackageEnvelopeV1} {package : CertifiedSummaryPackage}
    (accepted : decodeAndValidateEnvelope blake2 codec (codec.envelope.encode envelope) =
      .ok (decoded, package)) :
    decoded = envelope := by
  simp only [decodeAndValidateEnvelope, decodeAs_encode, ok_bind, bind_eq_ok] at accepted
  obtain ⟨_, _, _, _, _, _, _, _, _, _, _, _, _, _, _, _, _, _, returned⟩ := accepted
  cases returned
  rfl

theorem Matches.submitted (matched : Matches blake2 codec files stamp store)
    (member : stored ∈ files.packages)
    (built : relayEnvelope codec stored.targetDomain stored.package (stamp stored.key) =
      .ok envelope)
    (step : Submitted blake2 codec (codec.envelope.encode envelope) relayNow store store') :
    Matches blake2 codec files stamp store' := by
  cases step with
  | kept => exact matched
  | queued decoded package accepted absent =>
      obtain rfl := envelope_of_accepted accepted
      intro other listed existing found
      rw [RelayIndex.record_persistRecord] at found
      split at found
      · rename_i here
        have identity : stored.identity = other.identity :=
          (identity_of_relayEnvelope built).symm.trans here
        obtain rfl := PackageFiles.eq_of_identity member listed identity
        exact ⟨_, ⟨built, package, accepted⟩, update_eq_some.mpr (.inl ⟨here.symm, rfl⟩)⟩
      · rename_i elsewhere
        obtain ⟨envelope, sendable, payload⟩ := matched other listed existing found
        exact ⟨envelope, sendable, update_eq_some.mpr (.inr ⟨Ne.symm elsewhere, payload⟩)⟩

theorem Matches.relay {event : Event} (matched : Matches blake2 codec files stamp store)
    (foreign : ∀ body now, event = .submit body now → ∀ envelope package,
      decodeAndValidateEnvelope blake2 codec body = .ok (envelope, package) →
        ∀ stored ∈ files.packages, envelopeIdentity envelope = stored.identity →
          relayEnvelope codec stored.targetDomain stored.package (stamp stored.key) = .ok envelope ∧
            body = codec.envelope.encode envelope)
    (step : StoreStep settings blake2 codec event store store') :
    Matches blake2 codec files stamp store' := by
  cases step with
  | kept => exact matched
  | submitted body now _ same submission =>
      cases submission with
      | kept => exact matched
      | queued envelope package accepted absent =>
          intro stored listed existing found
          rw [RelayIndex.record_persistRecord] at found
          split at found
          · rename_i here
            obtain ⟨built, encoded⟩ :=
              foreign body now same envelope package accepted stored listed here
            subst encoded
            exact ⟨envelope, ⟨built, package, accepted⟩, update_eq_some.mpr (.inl ⟨here.symm, rfl⟩)⟩
          · rename_i elsewhere
            obtain ⟨envelope, sendable, payload⟩ := matched stored listed existing found
            exact ⟨envelope, sendable, update_eq_some.mpr (.inr ⟨Ne.symm elsewhere, payload⟩)⟩
  | changed record change =>
      intro stored listed existing found
      rw [record_updateRecord] at found
      split at found
      · obtain ⟨previous, present, _⟩ := Option.map_eq_some_iff.mp found
        exact matched stored listed previous present
      · exact matched stored listed existing found
  | normalized now =>
      intro stored listed existing found
      rw [record_normalizeRestartState] at found
      obtain ⟨previous, present, _⟩ := Option.map_eq_some_iff.mp found
      exact matched stored listed previous present

theorem Agreed.marked {relay : Relay} {pass : Pass} {marked : ExporterPackageRecord}
    {work : List (EpochId × DomainId)} (agreed : Agreed blake2 codec files stamp handoff)
    (passing : handoff.pass = some pass) (matched : Matches blake2 codec files stamp relay.store)
    (member : marked.toStoredPackage ∈ files.packages)
    (failed : marked.relaySubmissionState = .submissionFailed →
      ∀ envelope, ¬ Sendable blake2 codec stamp marked.toStoredPackage envelope) :
    Agreed blake2 codec files stamp { handoff with
      relay
      pass := some {
        index := { packages := Keyed.upsert ExporterPackageRecord.key marked pass.index.packages }
        work } } := by
  have held : ∀ record, Handoff.Holds { handoff with
      relay
      pass := some {
        index := { packages := Keyed.upsert ExporterPackageRecord.key marked pass.index.packages }
        work } }
      record → record = marked ∨ handoff.Holds record := by
    rintro record (saved | ⟨_, ⟨⟩, listed⟩)
    · exact .inr (.inl saved)
    · rcases Keyed.mem_of_mem_upsert listed with same | before
      · exact .inl same
      · exact .inr (.inr ⟨pass, passing, before⟩)
  refine ⟨?_, matched, ?_⟩
  · intro record here
    rcases held record here with rfl | before
    · exact member
    · exact agreed.known record before
  · intro record here state
    rcases held record here with rfl | before
    · exact failed state
    · exact agreed.failed record before state

theorem Agreed.fewer {handoff' : Handoff} (agreed : Agreed blake2 codec files stamp handoff)
    (held : ∀ record, handoff'.Holds record → handoff.Holds record)
    (matched : Matches blake2 codec files stamp handoff'.relay.store) :
    Agreed blake2 codec files stamp handoff' where
  known record here := agreed.known record (held record here)
  matched := matched
  failed record here := agreed.failed record (held record here)

theorem Agreed.dropped {relay : Relay} (agreed : Agreed blake2 codec files stamp handoff)
    (matched : Matches blake2 codec files stamp relay.store) :
    Agreed blake2 codec files stamp { handoff with relay, pass := none } := by
  refine agreed.fewer (fun record here => ?_) matched
  rcases here with saved | ⟨_, none, _⟩
  · exact .inl saved
  · cases none

section Fates

variable {fate : Fate} {relay : Relay}

variable (settings relayNow) in
theorem Matches.reached (matched : Matches blake2 codec files stamp relay.store)
    (member : stored ∈ files.packages)
    (built : (∀ error, fate ≠ .requestLost error) →
      relayEnvelope codec stored.targetDomain stored.package (stamp stored.key) = .ok envelope) :
    Matches blake2 codec files stamp (Handoff.reached settings blake2 codec fate
      (codec.envelope.encode envelope) relayNow relay).store := by
  cases fate with
  | requestLost => exact matched
  | _ =>
      exact matched.submitted member (built fun _ => Fate.noConfusion)
        (submitPackage_submitted blake2 codec _ relayNow _)

/-- A refusal that is not to be retried is a sign that the package is not sendable. -/
theorem not_sendable_of_refused {error : RelaySubmitError}
    (matched : Matches blake2 codec files stamp store) (member : stored ∈ files.packages)
    (built : (∀ error, fate ≠ .requestLost error) →
      relayEnvelope codec stored.targetDomain stored.package (stamp stored.key) = .ok envelope)
    (whole : ∀ error, fate = .bodyLost error →
      let reply := (submitPackage blake2 codec (codec.envelope.encode envelope) relayNow store).1
      reply.status ≠ 200 ∧ reply.status ≠ 202)
    (failed : submissionResult fate
      (submitPackage blake2 codec (codec.envelope.encode envelope) relayNow store).1 = .error error)
    (final : error.retryable = false) (other : RelayPackageEnvelopeV1) :
    ¬ Sendable blake2 codec stamp stored other := by
  intro sendable
  cases fate with
  | requestLost =>
      cases failed
      cases final
  | responseLost =>
      cases failed
      cases final
  | bodyLost error =>
      cases (built fun _ => Fate.noConfusion).symm.trans sendable.1
      obtain ⟨_, _, _, status⟩ := submit_sendable relayNow matched member sendable
      obtain ⟨first, second⟩ := whole error rfl
      exact status.elim first second
  | answered =>
      cases (built fun _ => Fate.noConfusion).symm.trans sendable.1
      obtain ⟨receipt, _, granted, status⟩ := submit_sendable relayNow matched member sendable
      rw [submissionResult, if_pos status, granted] at failed
      cases failed

theorem Agreed.submitRecord {pass : Pass} {work : List (EpochId × DomainId)}
    (agreed : Agreed blake2 codec files stamp handoff) (passing : handoff.pass = some pass)
    (listed : record ∈ pass.index.packages)
    (stamped : (∀ error, fate ≠ .requestLost error) → now = stamp record.key)
    (whole : ∀ envelope error,
      relayEnvelope codec record.targetDomain record.package now = .ok envelope →
      fate = .bodyLost error →
      let reply :=
        (submitPackage blake2 codec (codec.envelope.encode envelope) relayNow handoff.relay.store).1
      reply.status ≠ 200 ∧ reply.status ≠ 202) :
    Agreed blake2 codec files stamp
      (handoff.submitRecord settings blake2 codec now relayNow fate record
        { index := pass.index, work }) := by
  have member := agreed.known record (.inr ⟨pass, passing, listed⟩)
  rw [Handoff.submitRecord]
  split
  · exact agreed.dropped agreed.matched
  · rename_i envelope built
    have built' : (∀ error, fate ≠ .requestLost error) →
        relayEnvelope codec record.targetDomain record.package (stamp record.toStoredPackage.key) =
          .ok envelope :=
      fun sent => stamped sent ▸ built
    have matched := agreed.matched.reached settings relayNow member built'
    cases result : submissionResult fate
      (submitPackage blake2 codec (codec.envelope.encode envelope) relayNow
        handoff.relay.store).1 with
    | ok receipt =>
        simp only [result]
        split
        · exact agreed.marked passing matched member (by rintro ⟨⟩)
        · exact agreed.dropped matched
    | error error =>
        simp only [result]
        refine agreed.marked passing matched member fun state =>
          not_sendable_of_refused agreed.matched member built'
            (fun error lost => whole envelope error built lost) result ?_
        by_contra retryable
        rw [Bool.not_eq_false] at retryable
        simp [retryable] at state

end Fates

theorem Handoff.agreed
    (reachable : (Handoff.system settings blake2 codec files
      (Handoff.Steady blake2 codec files stamp)).Reachable handoff) :
    Agreed blake2 codec files stamp handoff := by
  apply reachable.invariant (Agreed blake2 codec files stamp)
  · intro handoff initial
    obtain ⟨relay, pass, fresh⟩ := initial
    have held : ∀ record, handoff.Holds record → record ∈ handoff.saved.packages := by
      intro record here
      rcases here with saved | ⟨_, passing, _⟩
      · exact saved
      · rw [pass] at passing
        cases passing
    refine ⟨fun record here => (fresh record (held record here)).1, ?_, fun record here state => ?_⟩
    · intro stored _ existing found
      rw [relay] at found
      cases found
    · rw [(fresh record (held record here)).2] at state
      cases state
  · intro handoff handoff' _ agreed step
    obtain ⟨event, steady, same⟩ := step
    subst same
    unfold Handoff.apply
    split
    · rename_i event
      refine ⟨agreed.known, agreed.matched.relay ?_
        (stepped settings blake2 codec handoff.relay event).store, agreed.failed⟩
      rintro body now rfl
      exact steady
    · refine agreed.fewer (fun record here => ?_) agreed.matched
      rcases here with saved | ⟨_, started, listed⟩
      · exact .inl saved
      · cases started
        exact .inl listed
    · rename_i now relayNow fate index key work passing
      split
      · refine agreed.fewer (fun record here => ?_) agreed.matched
        rcases here with saved | ⟨_, goesOn, listed⟩
        · exact .inl saved
        · cases goesOn
          exact .inr ⟨_, passing, listed⟩
      · rename_i record found
        obtain ⟨stamped, whole⟩ := steady record (by simp only [Handoff.next, passing, found])
        exact agreed.submitRecord passing (List.mem_of_find?_eq_some found) stamped whole
    · rename_i index passing
      refine agreed.fewer (fun record here => ?_) agreed.matched
      rcases here with saved | ⟨_, ended, _⟩
      · exact .inr ⟨_, passing, saved⟩
      · cases ended
    · exact agreed.dropped agreed.matched
    · exact agreed

/-- In every run whose submissions of a package bear one time where they get to the relay, and in
which no receipt breaks off and nobody else submits other bytes for the exporter's packages, a
package that the relay has accepted is not marked as failed, and a further submission of it is
answered as idempotent and leaves the relay as it is. -/
theorem handoff_idempotent (settings : RelaySettings) (blake2 : Bytes → Hash32)
    (codec : PackageCodec) (files : PackageFiles) (stamp : EpochId × DomainId → UInt64)
    (handoff : Handoff)
    (reachable : (Handoff.system settings blake2 codec files
      (Handoff.Steady blake2 codec files stamp)).Reachable handoff)
    (record : ExporterPackageRecord) (held : handoff.Holds record) (existing : RelayPackageRecord)
    (accepted : handoff.relay.store.index.record record.identity = some existing) :
    record.relaySubmissionState ≠ .submissionFailed ∧
      ∃ envelope, relayEnvelope codec record.targetDomain record.package (stamp record.key) =
        .ok envelope ∧
        ∀ relayNow, submitPackage blake2 codec (codec.envelope.encode envelope) relayNow
          handoff.relay.store =
          ({ status := 200
             receipt := .ok {
               accepted := true, idempotent := true, state := relayStateName existing.state } },
            handoff.relay.store) := by
  have agreed := Handoff.agreed reachable
  obtain ⟨envelope, sendable, payload⟩ :=
    agreed.matched _ (agreed.known record held) existing accepted
  refine ⟨fun failed => agreed.failed record held failed envelope sendable, envelope, sendable.1,
    fun relayNow => ?_⟩
  obtain ⟨built, package, decoded⟩ := sendable
  have identity := identity_of_relayEnvelope built
  rw [submitPackage_known decoded (identity ▸ accepted) (identity ▸ payload), if_pos rfl]

theorem accepted_at {package : CertifiedSummaryPackage}
    (accepted : decodeAndValidateEnvelope blake2 codec (codec.envelope.encode envelope) =
      .ok (envelope, package))
    (time : UInt64) :
    let sent := { envelope with relaySubmittedAtUnixMs := time }
    decodeAndValidateEnvelope blake2 codec (codec.envelope.encode sent) = .ok (sent, package) := by
  simp only [decodeAndValidateEnvelope, decodeAs_encode, ok_bind, bind_eq_ok, ensure_eq_ok]
    at accepted ⊢
  obtain ⟨decoded, read, _, hashed, _, named, _, domain, _, epoch, _, summary, scanned, derived,
      _, target, _, count,
    returned⟩ := accepted
  cases returned
  exact ⟨package, read, (), hashed, (), named, (), domain, (), epoch, (), summary, scanned,
    derived, (), target, (), count, rfl⟩

theorem submitPackage_other_time {package : CertifiedSummaryPackage} {existing : RelayPackageRecord}
    {first time : UInt64} (accepted : decodeAndValidateEnvelope blake2 codec
      (codec.envelope.encode envelope) = .ok (envelope, package))
    (known : store.index.record (envelopeIdentity envelope) = some existing)
    (payload : store.payloads (envelopeIdentity envelope) =
      some (codec.envelope.encode { envelope with relaySubmittedAtUnixMs := first }))
      (differ : first ≠ time) :
    submitPackage blake2 codec
      (codec.envelope.encode { envelope with relaySubmittedAtUnixMs := time }) now store =
      ({ status := 409, receipt := .error (conflictMessage existing.packageHash) }, store) := by
  rw [submitPackage_known (accepted_at accepted time) known payload, if_neg]
  intro same
  exact differ (congrArg RelayPackageEnvelopeV1.relaySubmittedAtUnixMs
    (codec.envelope.encode_injective same))

variable (settings handoff) in
theorem apply_submit_failed (fate : Fate) {index : ExporterIndex} {key : EpochId × DomainId}
    {work : List (EpochId × DomainId)} {reply : SubmitReply} {error : RelaySubmitError}
    (passing : handoff.pass = some { index, work := key :: work })
    (found : index.record key = some record)
    (built : relayEnvelope codec record.targetDomain record.package now = .ok envelope)
    (arrived : ∀ lost, fate ≠ .requestLost lost)
    (replied : submitPackage blake2 codec (codec.envelope.encode envelope) relayNow
      handoff.relay.store = (reply, store))
    (failed : submissionResult fate reply = .error error) :
    handoff.apply settings blake2 codec (.submit now relayNow fate) = {
      relay := { handoff.relay with clock := relayNow, store }
      saved := handoff.saved
      pass := some {
        index := index.markRelaySubmissionError record now error.retryable error.message
        work } } := by
  have relay : Handoff.reached settings blake2 codec fate (codec.envelope.encode envelope)
      relayNow handoff.relay =
      { handoff.relay with clock := relayNow, store } := by
    cases fate with
    | requestLost lost => exact absurd rfl (arrived lost)
    | _ => simp only [Handoff.reached, Relay.apply, replied]
  simp only [Handoff.apply, passing, found, Handoff.submitRecord, built, replied, failed, relay]

end Resubmission

section Sample

noncomputable def sampleRecord : ExporterPackageRecord where
  targetDomain := .moon
  package := packageTo .moon
  relaySubmissionState := .notSubmitted
  relayLastSubmittedAtUnixMs := none
  relaySubmissionAttempts := 0
  relayLastError := none

noncomputable def sampleFiles : PackageFiles where
  packages := [sampleRecord.toStoredPackage]
  distinct := List.nodup_singleton _

noncomputable def sampleHandoff : Handoff where
  relay := Relay.initial
  saved := { packages := [sampleRecord] }
  pass := none

noncomputable def sentAt (now : UInt64) : RelayPackageEnvelopeV1 :=
  { envelopeTo .moon with relaySubmittedAtUnixMs := now }

theorem sentAt_built (now : UInt64) :
    relayEnvelope sampleCodec .moon (packageTo .moon) now = .ok (sentAt now) := rfl

noncomputable def takenStore : RelayStore where
  payloads := update (fun _ => none) sampleRecord.identity
    (some (sampleCodec.envelope.encode (sentAt 1)))
  index := { packages := [newRecord (sentAt 1) 1] }

def lostReply : Fate := .responseLost "connection reset"

noncomputable def retriedIndex : ExporterIndex :=
  sampleHandoff.saved.markRelaySubmissionError sampleRecord 1 true
    "failed to submit package to relay: connection reset"

noncomputable def taken : Handoff where
  relay := { Relay.initial with clock := 1, store := takenStore }
  saved := sampleHandoff.saved
  pass := some { index := retriedIndex, work := [] }

theorem taken_reachable {admits : Handoff → HandoffEvent → Prop}
    (polled : admits sampleHandoff .poll)
    (submitted : admits (sampleHandoff.apply sampleSettings blankHash sampleCodec .poll)
      (.submit 1 1 lostReply)) :
    (Handoff.system sampleSettings blankHash sampleCodec sampleFiles admits).Reachable taken := by
  refine .next (.next (.start ⟨rfl, rfl, ?_⟩) ⟨.poll, polled, rfl⟩) ⟨_, submitted, ?_⟩
  · intro record member
    obtain rfl := List.mem_singleton.mp member
    exact ⟨List.mem_singleton_self _, rfl⟩
  · have replied : submitPackage blankHash sampleCodec (sampleCodec.envelope.encode (sentAt 1)) 1
        Relay.initial.store = _ :=
      submitPackage_new (accepted_at (envelopeTo_accepted .moon) 1) rfl
    exact (apply_submit_failed sampleSettings
      (sampleHandoff.apply sampleSettings blankHash sampleCodec .poll) lostReply
      rfl rfl (sentAt_built 1) (fun _ => Fate.noConfusion) replied rfl).symm

theorem handoff_idempotent_sample :
    ∃ handoff record existing,
      (Handoff.system sampleSettings blankHash sampleCodec sampleFiles
        (Handoff.Steady blankHash sampleCodec sampleFiles fun _ => 1)).Reachable handoff ∧
      handoff.Holds record ∧ handoff.relay.store.index.record record.identity = some existing ∧
      record.relaySubmissionState ≠ .submissionFailed ∧
      ∃ envelope, relayEnvelope sampleCodec record.targetDomain record.package 1 = .ok envelope ∧
        ∀ relayNow, submitPackage blankHash sampleCodec (sampleCodec.envelope.encode envelope)
          relayNow handoff.relay.store =
          ({ status := 200
             receipt := .ok {
               accepted := true, idempotent := true, state := relayStateName existing.state } },
            handoff.relay.store) := by
  have reachable : (Handoff.system sampleSettings blankHash sampleCodec sampleFiles
      (Handoff.Steady blankHash sampleCodec sampleFiles fun _ => 1)).Reachable taken := by
    refine taken_reachable trivial fun record _ => ⟨fun _ => rfl, ?_⟩
    rintro envelope error _ ⟨⟩
  refine ⟨taken, _, newRecord (sentAt 1) 1, reachable, .inl (List.mem_singleton_self _), rfl, ?_⟩
  exact handoff_idempotent sampleSettings blankHash sampleCodec sampleFiles (fun _ => 1) taken
    reachable sampleRecord (.inl (List.mem_singleton_self _)) (newRecord (sentAt 1) 1) rfl

/-- The next submission is built a millisecond later, and the relay refuses it. -/
theorem resubmission_conflicts :
    ∃ handoff record existing,
      (Handoff.system sampleSettings blankHash sampleCodec sampleFiles fun _ _ =>
        True).Reachable handoff ∧
      record ∈ handoff.saved.packages ∧
        handoff.relay.store.index.record record.identity = some existing ∧
      record.relaySubmissionState = .submissionFailed ∧
      (submitPackage blankHash sampleCodec (sampleCodec.envelope.encode (sentAt 2)) 2
        takenStore).1.receipt =
        .error (conflictMessage existing.packageHash) := by
  have known : takenStore.index.record (envelopeIdentity (envelopeTo .moon)) =
      some (newRecord (sentAt 1) 1) := rfl
  have same : envelopeIdentity (envelopeTo .moon) = sampleRecord.identity := rfl
  have payload : takenStore.payloads (envelopeIdentity (envelopeTo .moon)) =
      some (sampleCodec.envelope.encode (sentAt 1)) := by
    simp only [takenStore, same, update_self]
  have replied : submitPackage blankHash sampleCodec (sampleCodec.envelope.encode (sentAt 2))
      2 takenStore = _ :=
    submitPackage_other_time (envelopeTo_accepted .moon) known payload (by decide)
  let system := Handoff.system sampleSettings blankHash sampleCodec sampleFiles fun _ _ => True
  have saved : system.Reachable { taken with saved := retriedIndex, pass := none } :=
    .next (taken_reachable trivial trivial) ⟨.save, trivial, rfl⟩
  have refused : system.Reachable _ := .next (.next saved ⟨.poll, trivial, rfl⟩)
    ⟨.submit 2 2 .answered, trivial,
      (apply_submit_failed sampleSettings _ .answered rfl rfl (sentAt_built 2)
        (fun _ => Fate.noConfusion) replied rfl).symm⟩
  refine ⟨_, _, _, .next refused ⟨.save, trivial, rfl⟩, List.mem_singleton_self _, known, rfl, ?_⟩
  rw [replied]

end Sample

end Ialp.Services
