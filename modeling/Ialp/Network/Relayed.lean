import Ialp.Network.Acknowledged
import Ialp.Services.RelayDelivery

/-!
The relay between the domains. It posts payloads to the importers and asks them about packages;
requests and answers can be lost, an answer can be cut short, and both sides can restart. What the
relay notes about a package is what the importer said of it at some time, and the effects that an
acknowledgement stands for are on the chains.
-/

namespace Ialp.Services

open Scale

section Replies

variable (blake2 : Bytes → Hash32) (codec : PackageCodec)

/-- `package_status_view`, as far as the relay reads it. -/
def packageStatusView (record : PackageRecord) : ImporterPackageStatusView where
  state := record.state
  reason := record.reason

def ingestResponse (body : Bytes) (now : UInt64) (importer : Importer) : Response :=
  match receivePackage blake2 codec body now importer.memory importer.store with
  | .ok (receipt, _, _) =>
      .answered (if receipt.idempotent then ⟨200, "200 OK"⟩ else ⟨202, "202 Accepted"⟩)
        (some (packageStatusView receipt.status)) none
  | .error error => .answered ⟨400, "400 Bad Request"⟩ none (some error)

def packageStatus (identity : PackageIdentity) (importer : Importer) : Response :=
  match importer.memory.package identity with
  | some record => .answered ⟨200, "200 OK"⟩ (some (packageStatusView record)) none
  | none => .answered ⟨404, "404 Not Found"⟩ none (some "importer package not found")

/-- What arrives of an answer that was sent, if one was. -/
inductive Arrives (sent : Option Response) : Response → Prop where
  | whole (response : Response) (same : sent = some response) : Arrives sent response
  | cut (status : StatusCode) (body : Option ImporterPackageStatusView) (text : Option String)
      (same : sent = some (.answered status body text)) : Arrives sent (.answered status none none)
  | lost (error : String) : Arrives sent (.failed error)

def Response.view? : Response → Option ImporterPackageStatusView
  | .answered _ body _ => body
  | .failed _ => none

theorem Arrives.view {sent : Option Response} {response : Response}
    {view : ImporterPackageStatusView} (arrives : Arrives sent response)
    (given : response.view? = some view) : sent.bind Response.view? = some view := by
  cases arrives with
  | whole _ same =>
      rw [same]
      exact given
  | cut => cases given
  | lost => cases given

end Replies

section Notes

variable {settings : RelaySettings} {record : RelayPackageRecord} {now : UInt64}
  {link : LinkProfileConfig} {response : Response} {index index' : RelayIndex}

def Change.Notes (change : Change) (view? : Option ImporterPackageStatusView) : Prop :=
  ∀ current, (change.apply current).importerState = current.importerState ∨
    ∃ view, view? = some view ∧ (change.apply current).importerState = some view.state

theorem scheduleRetry_notes {error : String}
    (ok : scheduleRetry settings record now link error index = .ok index')
    (view? : Option ImporterPackageStatusView) :
    ∃ change : Change, change.Notes view? ∧ index' = updateRecord record change index := by
  rw [scheduleRetry] at ok
  split at ok
  · cases ok
    exact ⟨_, fun _ => .inl rfl, rfl⟩
  · obtain ⟨_, _, returned⟩ := bind_eq_ok.mp ok
    cases returned
    exact ⟨_, fun _ => .inl rfl, rfl⟩

theorem finishDelivery_notes (ok : finishDelivery settings record now link response index =
    .ok index') :
    ∃ change : Change, change.Notes response.view? ∧ index' = updateRecord record change index := by
  rw [finishDelivery.eq_def] at ok
  split at ok
  · split at ok
    · obtain ⟨view, decoded, returned⟩ := bind_eq_ok.mp ok
      have given := okOr_eq_ok.mp decoded
      split at returned
      · cases returned
        exact ⟨_, fun _ => .inr ⟨view, given, rfl⟩, rfl⟩
      · cases returned
        exact ⟨_, fun _ => .inr ⟨view, given, rfl⟩, rfl⟩
    · split at ok
      · cases ok
        exact ⟨_, fun _ => .inl rfl, rfl⟩
      · exact scheduleRetry_notes ok _
  · exact scheduleRetry_notes ok _

theorem finishPoll_notes (ok : finishPoll settings record now response index = .ok index') :
    ∃ change : Change, change.Notes response.view? ∧ index' = updateRecord record change index := by
  rw [finishPoll.eq_def] at ok
  split at ok
  · split at ok
    · obtain ⟨view, decoded, returned⟩ := bind_eq_ok.mp ok
      have given := okOr_eq_ok.mp decoded
      split at returned
      · cases returned
        exact ⟨_, fun _ => .inr ⟨view, given, rfl⟩, rfl⟩
      · cases returned
        exact ⟨_, fun _ => .inr ⟨view, given, rfl⟩, rfl⟩
    · split at ok
      · cases ok
        exact ⟨_, fun _ => .inl rfl, rfl⟩
      · cases ok
        exact ⟨_, fun _ => .inl rfl, rfl⟩
  · cases ok
    exact ⟨_, fun _ => .inl rfl, rfl⟩

theorem VisitChange.notes {reading : UInt64} {change : Change}
    (visit : VisitChange reading record change) (view? : Option ImporterPackageStatusView) :
    change.Notes view? := by
  cases visit <;> exact fun _ => .inl rfl

theorem normalizeRecord_importerState (ackPollMillis now : UInt64) (record : RelayPackageRecord) :
    (normalizeRecord ackPollMillis now record).importerState = record.importerState := by
  unfold normalizeRecord
  split
  · rfl
  · split <;> rfl
  · rfl

end Notes

section Tasks

def Task.record? : Task → Option RelayPackageRecord
  | posting record _ _ _ _ _ => some record
  | polling record _ _ _ => some record
  | idle | ticking _ => none

def RelayIndex.Noted (fact : PackageIdentity → Prop) (index : RelayIndex) : Prop :=
  index.All fun record => ∀ state, record.importerState = some state → state.Acknowledges →
    fact record.toPackageIdentity

variable {settings : RelaySettings} {blake2 : Bytes → Hash32} {codec : PackageCodec}
  {relay relay' : Relay} {event : Event} {fact : PackageIdentity → Prop}

theorem RelayIndex.Noted.update {index : RelayIndex} {record : RelayPackageRecord} {change : Change}
    {view? : Option ImporterPackageStatusView} (noted : index.Noted fact)
    (notes : change.Notes view?) (said : ∀ view, view? = some view → view.state.Acknowledges →
      fact record.toPackageIdentity) :
    (updateRecord record change index).Noted fact := by
  refine RelayIndex.All.updateRecord noted ?_ ?_
  · intro current same before state noted acknowledges
    rw [change.identity]
    rcases notes current with kept | ⟨view, given, written⟩
    · exact before state (kept.symm.trans noted) acknowledges
    · rw [written] at noted
      cases noted
      exact same ▸ said view given acknowledges
  · exact fun _ _ before => before

theorem RelayIndex.Noted.mono {fact' : PackageIdentity → Prop} {index : RelayIndex}
    (noted : index.Noted fact) (later : ∀ identity, fact identity → fact' identity) :
    index.Noted fact' :=
  fun identity record found state told acknowledges =>
    later _ (noted identity record found state told acknowledges)

theorem Stepped.noted (step : Stepped settings blake2 codec relay event relay')
    (noted : relay.store.index.Noted fact)
    (said : ∀ response record view, event = .respond response → relay.task.record? = some record →
      response.view? = some view → view.state.Acknowledges → fact record.toPackageIdentity) :
    relay'.store.index.Noted fact := by
  have changed := step.changed
  generalize relay'.store = store' at changed
  cases changed with
  | kept => exact noted
  | submitted body now _ stored =>
      cases stored with
      | kept => exact noted
      | queued envelope =>
          refine RelayIndex.All.persistRecord noted ?_
          intro state none
          cases none
  | visited reading now fault record change found visit =>
      exact noted.update (visit.notes none) fun _ given => by cases given
  | deliveryEnded response record now link payload importerUrl work index posting ended =>
      obtain ⟨change, notes, same⟩ := finishDelivery_notes ended
      subst same
      exact noted.update notes fun view given =>
        said response record view rfl (by rw [posting]; rfl) given
  | pollEnded response record now importerUrl work index polling ended =>
      obtain ⟨change, notes, same⟩ := finishPoll_notes ended
      subst same
      exact noted.update notes fun view given =>
        said response record view rfl (by rw [polling]; rfl) given
  | restarted now =>
      refine RelayIndex.All.normalizeRestartState noted ?_
      intro record before state
      rw [normalizeRecord_importerState, normalizeRecord_identity]
      exact before state

variable (blake2 codec) in
def SealedAs (identity : PackageIdentity) (payload : Bytes) : Prop :=
  ∃ envelope package, payload = codec.envelope.encode envelope ∧
    decodeAndValidateEnvelope blake2 codec payload = .ok (envelope, package) ∧
      envelopeIdentity envelope = identity

theorem sealedAs_of_accepted {body : Bytes} {envelope : RelayPackageEnvelopeV1}
    {package : CertifiedSummaryPackage}
    (accepted : decodeAndValidateEnvelope blake2 codec body = .ok (envelope, package)) :
    SealedAs blake2 codec (envelopeIdentity envelope) (codec.envelope.encode envelope) := by
  refine ⟨envelope, package, rfl, ?_, rfl⟩
  simp only [decodeAndValidateEnvelope, bind_eq_ok] at accepted ⊢
  obtain ⟨read, _, rest⟩ := accepted
  have same : read = envelope := by
    obtain ⟨_, _, _, _, _, _, _, _, _, _, _, _, _, _, _, _, _, _, returned⟩ := rest
    cases returned
    rfl
  subst same
  exact ⟨read, decodeAs_encode _ _ _, rest⟩

theorem Stepped.payloads (step : Stepped settings blake2 codec relay event relay')
    (filed : ∀ identity payload, relay.store.payloads identity = some payload →
      SealedAs blake2 codec identity payload)
    (identity : PackageIdentity) (payload : Bytes)
    (stored : relay'.store.payloads identity = some payload) :
    SealedAs blake2 codec identity payload := by
  have changed := step.store
  generalize relay'.store = store' at changed stored
  cases changed with
  | kept | changed | normalized => exact filed identity payload stored
  | submitted body now _ _ submission =>
      cases submission with
      | kept => exact filed identity payload stored
      | queued envelope package accepted =>
          rcases update_eq_some.mp stored with ⟨here, now⟩ | ⟨_, before⟩
          · subst here now
            exact sealedAs_of_accepted accepted
          · exact filed identity payload before

variable (blake2 codec) in
def Task.Sealed (task : Task) : Prop :=
  ∀ record now link payload importerUrl work,
    task = .posting record now link payload importerUrl work →
    SealedAs blake2 codec record.toPackageIdentity payload

theorem Stepped.sealed (step : Stepped settings blake2 codec relay event relay')
    (filed : ∀ identity payload, relay.store.payloads identity = some payload →
      SealedAs blake2 codec identity payload)
    (posted : relay.task.Sealed blake2 codec) : relay'.task.Sealed blake2 codec := by
  intro record now link payload importerUrl work posting
  cases step with
  | submitted => exact posted _ _ _ _ _ _ posting
  | restarted => cases posting
  | ignored => exact posted _ _ _ _ _ _ posting
  | visited reading now' fault identity work' record' _ ticking found handled =>
      cases handled with
      | polled => cases posting
      | posted link' payload' importerUrl' attempt gate read =>
          cases posting
          cases fault with
          | some error => cases read
          | none =>
              obtain ⟨loaded, found, rest⟩ := bind_eq_ok.mp read
              obtain ⟨_, _, returned⟩ := bind_eq_ok.mp rest
              cases returned
              exact filed _ _ (okOr_eq_ok.mp found)
      | _ => exact absurd posting resume_not_posting
  | _ => exact absurd posting resume_not_posting

end Tasks

section Answers

variable {blake2 : Bytes → Hash32} {codec : PackageCodec} {identity : PackageIdentity}
  {payload : Bytes} {now : UInt64} {importer : Importer} {view : ImporterPackageStatusView}

theorem packageStatus_view (given : (packageStatus identity importer).view? = some view) :
    ∃ record, importer.memory.package identity = some record ∧ view.state = record.state := by
  unfold packageStatus at given
  split at given
  · rename_i record known
    cases given
    exact ⟨record, known, rfl⟩
  · cases given

theorem ingestResponse_view (shape : SealedAs blake2 codec identity payload)
    (given : (ingestResponse blake2 codec payload now importer).view? = some view) :
    view.state = .received ∨ ∃ record, importer.memory.package identity = some record ∧
      view.state = record.state := by
  unfold ingestResponse at given
  split at given
  · rename_i receipt _ _ received
    cases given
    obtain ⟨envelope, package, packageView, opened, known, _⟩ :=
      (receivePackage_ingested received).opened
    obtain ⟨relayed, _, encoded, _, named⟩ := shape
    have read : envelope = relayed := by
      simp only [openEnvelope, bind_eq_ok, decodeAs_eq_ok] at opened
      obtain ⟨decoded, again, _, _, _, _, _, _, _, _, returned⟩ := opened
      cases returned
      rw [encoded, codec.envelope.decode_encode] at again
      exact (Except.ok.inj again).symm
    rw [(labelled_of_opened opened).1, read, named] at known
    cases found : importer.memory.package identity with
    | none =>
        rw [found] at known
        exact .inl (congrArg PackageRecord.state known)
    | some record =>
        rw [found] at known
        exact .inr ⟨record, rfl, congrArg PackageRecord.state known⟩
  · cases given

theorem ingestResponse_known {envelope : RelayPackageEnvelopeV1} {package : CertifiedSummaryPackage}
    {packageView : PackageIngestView} {record : PackageRecord}
    (opened : openEnvelope blake2 codec importer.store.domainId payload =
      .ok (envelope, package, packageView))
    (known : importer.memory.package (packageView.identity package.packageHash) = some record)
    (stored : importer.store.payloads (packageView.identity package.packageHash) =
      some envelope.packageBytes)
    (same : importer.memory.domainId = importer.store.domainId) :
    ingestResponse blake2 codec payload now importer =
      .answered (if record.receivedAtUnixMs ≠ now then ⟨200, "200 OK"⟩ else ⟨202, "202 Accepted"⟩)
        (some (packageStatusView record)) none := by
  have label : record.toPackageIdentity = packageView.identity package.packageHash :=
    Keyed.key_of_lookup known
  have persisted : importer.store.persistPayload record.toPackageIdentity envelope.packageBytes =
      .ok importer.store := by
    simp only [Store.persistPayload, label, stored, ensure_true, ok_bind]
    rfl
  have received : receivePackage blake2 codec payload now importer.memory importer.store =
      .ok (⟨true, decide (record.receivedAtUnixMs ≠ now), record⟩,
        importer.memory.upsertPackage record, importer.store.filed record importer.memory) := by
    simp only [receivePackage, opened, ok_bind, ensurePackageRecord, known, Option.getD_some,
      Store.persistPackage, persisted, pure_bind]
    rw [Store.saveIndex_filed _ (by exact same)]
    rfl
  simp only [ingestResponse, received, decide_eq_true_eq]

end Answers

end Ialp.Services

namespace Ialp

open Scale Function Transition Relation Hashing Services

namespace World

variable {Balances Header Justification Authority : Type}
  {setting : Setting Balances Header Justification Authority}
  {config : DomainId → GenesisConfig Balances}
  {world world' : World Balances Justification setting.primitives.headers}

theorem Vouches.step {domain : DomainId} {identity : PackageIdentity}
    (vouches : world.Vouches setting domain identity)
    (reachable : (system setting config).Reachable world) (step : world.Step setting True world')
    (free : ¬ Collides setting.blake2 (world'.network.recorded setting.blake2)) :
    world'.Vouches setting domain identity := by
  obtain ⟨payload, package, items, stored, checked, applied⟩ := vouches
  refine ⟨payload, package, items, ?_, checked,
    applied.mono (nodeView_step reachable step free domain)⟩
  have earlier := free_of_step reachable step free
  cases step with
  | serve acting deployment served =>
      change (update world.importers acting _ domain).store.payloads identity = _
      by_cases here : domain = acting
      · subst here
        have draws := ((packaged_of_reachable reachable earlier).2.1.importers domain).draws
        rw [update_self]
        exact (Deployment.advances_step served draws).kept identity payload stored
      · rwa [update_of_ne here]
  | act | finalize | justify | submit => exact stored

end World

/-- The deployed network with a relay. `reply` is the answer that an importer has sent to the
relay's request, if it has got that far. -/
structure Relayed (Balances Justification : Type) {Header : Type}
    (headers : HeaderCodec Header) where
  world : World Balances Justification headers
  relay : Relay
  reply : Option Response

namespace Relayed

variable {Balances Header Justification Authority : Type}

section Runs

variable (settings : RelaySettings) (setting : Setting Balances Header Justification Authority)

def delivered (world : World Balances Justification setting.primitives.headers)
    (domain : DomainId) (payload : Bytes) (now : UInt64) :
    World Balances Justification setting.primitives.headers :=
  world.served setting domain { world.deployment domain with
    importer := (world.importers domain).receive setting.blake2 setting.codec payload now }

inductive Step (relayed : Relayed Balances Justification setting.primitives.headers) :
    Relayed Balances Justification setting.primitives.headers → Prop where
  | world (world' : World Balances Justification setting.primitives.headers)
      (step : relayed.world.Step setting True world') :
      Step relayed { relayed with world := world' }
  | submit (body : Bytes) (now : UInt64) :
      Step relayed { relayed with
        relay := relayed.relay.apply settings setting.blake2 setting.codec (.submit body now) }
  | schedule (event : Event) (own : ∀ response, event ≠ .respond response) :
      Step relayed { relayed with
        relay := relayed.relay.apply settings setting.blake2 setting.codec event
        reply := none }
  | post (record : RelayPackageRecord) (now received : UInt64)
      (link : LinkProfileConfig) (payload : Bytes) (importerUrl : String)
      (work : List PackageIdentity)
      (posting : relayed.relay.task = .posting record now link payload importerUrl work) :
      Step relayed
        { relayed with
          world := delivered setting relayed.world record.targetDomain payload received
          reply := some (ingestResponse setting.blake2 setting.codec payload received
            (relayed.world.importers record.targetDomain)) }
  | ask (record : RelayPackageRecord) (now : UInt64) (importerUrl : String)
      (work : List PackageIdentity)
      (polling : relayed.relay.task = .polling record now importerUrl work) :
      Step relayed
        { relayed with
          reply :=
            some (packageStatus record.toPackageIdentity
              (relayed.world.importers record.targetDomain)) }
  | respond (response : Response) (arrives : Arrives relayed.reply response) :
      Step relayed
        { relayed with
          relay := relayed.relay.apply settings setting.blake2 setting.codec (.respond response),
            reply := none }

def system (config : DomainId → GenesisConfig Balances) :
    System (Relayed Balances Justification setting.primitives.headers) where
  initial relayed := relayed.world.Initial setting config ∧ relayed.relay = .initial ∧
    relayed.reply = none
  step relayed relayed' := relayed.Step settings setting relayed'

end Runs

variable {settings : RelaySettings} {setting : Setting Balances Header Justification Authority}
  {config : DomainId → GenesisConfig Balances}
  {relayed relayed' : Relayed Balances Justification setting.primitives.headers}

theorem delivered_step (world : World Balances Justification setting.primitives.headers)
    (domain : DomainId) (payload : Bytes) (now : UInt64) :
    world.Step setting True (delivered setting world domain payload now) :=
  .serve domain _ (.receive payload now) rfl

theorem world_step (step : relayed.Step settings setting relayed') :
    relayed'.world = relayed.world ∨ relayed.world.Step setting True relayed'.world := by
  cases step with
  | world world' step => exact .inr step
  | post record now received link payload => exact .inr (delivered_step _ _ payload received)
  | submit | schedule | ask | respond => exact .inl rfl

theorem world_reachable (reachable : (system settings setting config).Reachable relayed) :
    (World.system setting config).Reachable relayed.world := by
  apply reachable.project Relayed.world
  · exact fun initial => initial.1
  · intro before after _ step
    rcases world_step step with same | step
    · rw [same]
    · exact .single step

structure Faithful (setting : Setting Balances Header Justification Authority)
    (relayed : Relayed Balances Justification setting.primitives.headers) : Prop where
  filed : ∀ identity payload, relayed.relay.store.payloads identity = some payload →
    SealedAs setting.blake2 setting.codec identity payload
  posted : relayed.relay.task.Sealed setting.blake2 setting.codec
  replied : ∀ view, relayed.reply.bind Response.view? = some view → view.state.Acknowledges →
    ∃ record, relayed.relay.task.record? = some record ∧
      relayed.world.Vouches setting record.targetDomain record.toPackageIdentity
  noted : relayed.relay.store.index.Noted fun identity =>
    relayed.world.Vouches setting identity.targetDomain identity

theorem free_of_step (reachable : (system settings setting config).Reachable relayed)
    (step : relayed.Step settings setting relayed')
    (free : ¬ Collides setting.blake2 (relayed'.world.network.recorded setting.blake2)) :
    ¬ Collides setting.blake2 (relayed.world.network.recorded setting.blake2) := by
  rcases world_step step with same | step
  · rwa [same] at free
  · exact World.free_of_step (world_reachable reachable) step free

theorem vouches_of_answer (reachable : (system settings setting config).Reachable relayed)
    (free : ¬ Collides setting.blake2 (relayed.world.network.recorded setting.blake2))
    {domain : DomainId} {identity : PackageIdentity} {state : ImporterPackageState}
    (acknowledges : state.Acknowledges) (answered : state = .received ∨ ∃ record,
      (relayed.world.importers domain).memory.package identity = some record ∧
        state = record.state) :
    relayed.world.Vouches setting domain identity := by
  rcases answered with new | ⟨record, known, same⟩
  · subst new
    cases acknowledges
  · subst same
    exact World.vouches_of_record (world_reachable reachable) free (.inr known) acknowledges

theorem Faithful.step (faithful : relayed.Faithful setting)
    (reachable : (system settings setting config).Reachable relayed)
    (step : relayed.Step settings setting relayed')
    (free : ¬ Collides setting.blake2 (relayed'.world.network.recorded setting.blake2)) :
    relayed'.Faithful setting := by
  have earlier := free_of_step reachable step free
  have kept : ∀ domain identity, relayed.world.Vouches setting domain identity →
      relayed'.world.Vouches setting domain identity := by
    intro domain identity vouches
    rcases world_step step with same | step
    · rwa [same]
    · exact vouches.step (world_reachable reachable) step free
  have noted := faithful.noted.mono fun identity => kept identity.targetDomain identity
  cases step with
  | world world' step =>
      refine ⟨faithful.filed, faithful.posted, fun view given acknowledges => ?_, noted⟩
      obtain ⟨record, asked, vouches⟩ := faithful.replied view given acknowledges
      exact ⟨record, asked, kept _ _ vouches⟩
  | submit body now =>
      have stepped := stepped settings setting.blake2 setting.codec relayed.relay (.submit body now)
      refine ⟨stepped.payloads faithful.filed, stepped.sealed faithful.filed faithful.posted,
        faithful.replied, ?_⟩
      exact stepped.noted noted fun _ _ _ submitted => by cases submitted
  | schedule event own =>
      have stepped := stepped settings setting.blake2 setting.codec relayed.relay event
      refine ⟨stepped.payloads faithful.filed, stepped.sealed faithful.filed faithful.posted,
        fun view given => ?_, ?_⟩
      · cases given
      · exact stepped.noted noted fun response _ _ responds => absurd responds (own response)
  | post record now received link payload importerUrl work posting =>
      refine ⟨faithful.filed, faithful.posted, fun view given acknowledges =>
        ⟨record, by rw [posting]; rfl, ?_⟩, noted⟩
      have sealed := faithful.posted _ _ _ _ _ _ posting
      exact kept _ _ (vouches_of_answer reachable earlier acknowledges
        (ingestResponse_view sealed given))
  | ask record now importerUrl work polling =>
      refine ⟨faithful.filed, faithful.posted, fun view given acknowledges =>
        ⟨record, by rw [polling]; rfl, ?_⟩, noted⟩
      exact vouches_of_answer reachable earlier acknowledges (.inr (packageStatus_view given))
  | respond response arrives =>
      have stepped := stepped settings setting.blake2 setting.codec relayed.relay
        (.respond response)
      refine ⟨stepped.payloads faithful.filed, stepped.sealed faithful.filed faithful.posted,
        fun view given => ?_, ?_⟩
      · cases given
      · refine stepped.noted noted fun answer record view responds asked given acknowledges => ?_
        cases responds
        obtain ⟨record', asked', vouches⟩ := faithful.replied view (arrives.view given) acknowledges
        cases asked.symm.trans asked'
        exact vouches

theorem faithful_of_reachable (reachable : (system settings setting config).Reachable relayed)
    (free : ¬ Collides setting.blake2 (relayed.world.network.recorded setting.blake2)) :
    relayed.Faithful setting := by
  refine reachable.guarded_invariant
    (fun relayed => ¬ Collides setting.blake2 (relayed.world.network.recorded setting.blake2))
    (fun relayed => relayed.Faithful setting) free_of_step ?_ ?_ free
  · intro start initial
    obtain ⟨_, fresh, unanswered⟩ := initial
    refine ⟨?_, ?_, ?_, ?_⟩
    · rw [fresh]
      intro identity payload stored
      cases stored
    · rw [fresh]
      intro record now link payload importerUrl work posting
      cases posting
    · rw [unanswered]
      intro view given
      cases given
    · rw [fresh]
      intro identity record found
      cases found
  · intro before after reached free faithful step
    exact faithful.step reached step free

theorem relay_reachable (reachable : (system settings setting config).Reachable relayed) :
    (Relay.runs settings setting.blake2 setting.codec fun _ _ => True).Reachable relayed.relay := by
  apply reachable.project Relayed.relay
  · exact fun initial => initial.2.1
  · intro before after _ step
    cases step with
    | world | post | ask => exact .refl
    | submit body now => exact .single ⟨.submit body now, trivial, rfl⟩
    | schedule event => exact .single ⟨event, trivial, rfl⟩
    | respond response => exact .single ⟨.respond response, trivial, rfl⟩

/-- The envelope that the relay holds under an identity was delivered in effect. The importer of its
target has stored a package with the same hash input, or with one that collides with it, has found
it in order, and its proofs have had their effects. -/
def Redeemed (setting : Setting Balances Header Justification Authority)
    (relayed : Relayed Balances Justification setting.primitives.headers)
    (identity : PackageIdentity) : Prop :=
  ∃ envelope package payload imported items,
    relayed.relay.store.payloads identity = some (setting.codec.envelope.encode envelope) ∧
    decodeAndValidateEnvelope setting.blake2 setting.codec
      (setting.codec.envelope.encode envelope) =
      .ok (envelope, package) ∧
    (relayed.world.importers identity.targetDomain).store.payloads identity = some payload ∧
    checkPackage setting.blake2 setting.codec (World.certified setting)
      identity.targetDomain payload =
      .ok (imported, items) ∧
    (setting.codec.hashInput imported.hashInput = setting.codec.hashInput package.hashInput ∨
      Collides setting.blake2 [setting.codec.hashInput imported.hashInput,
        setting.codec.hashInput package.hashInput]) ∧
    relayed.world.Effected identity.targetDomain items

end Relayed

/-- With a relay between the domains, whatever of its requests and the importers' answers is lost or
cut short, whatever its clock reads and whenever services restart: if the relay has noted that the
importer acknowledged a package, then the package was delivered and has had all its effects. -/
theorem relay_acknowledgement_paid {Balances Header Justification Authority : Type}
    (settings : RelaySettings) (setting : Setting Balances Header Justification Authority)
    (config : DomainId → GenesisConfig Balances)
    (relayed : Relayed Balances Justification setting.primitives.headers)
    (reachable : (Relayed.system settings setting config).Reachable relayed)
    (free : ¬ Collides setting.blake2 (relayed.world.network.recorded setting.blake2))
    (identity : PackageIdentity) (record : RelayPackageRecord)
    (known : relayed.relay.store.index.record identity = some record) (state : ImporterPackageState)
    (noted : record.importerState = some state) (acknowledged : state.Acknowledges) :
    relayed.Redeemed setting identity := by
  have faithful := Relayed.faithful_of_reachable reachable free
  have label : record.toPackageIdentity = identity := Keyed.key_of_lookup known
  subst label
  obtain ⟨relayPayload, filed⟩ := Relay.filed (Relayed.relay_reachable reachable) _ record known
  obtain ⟨envelope, package, rfl, accepted, named⟩ := faithful.filed _ _ filed
  obtain ⟨payload, imported, items, stored, checked, same, effected⟩ :=
    (faithful.noted _ record known state noted acknowledged).fulfilled
      (Relayed.world_reachable reachable) free
  obtain ⟨-, hashed, label⟩ := package_of_accepted accepted
  refine ⟨envelope, package, payload, imported, items, filed, accepted, stored,
    checked, ?_, effected⟩
  apply eq_or_collides List.mem_cons_self (List.mem_cons_of_mem _ List.mem_cons_self)
  have computed := (checkPackage_eq_ok.mp checked).2.1
  have hashes : package.packageHash = imported.packageHash :=
    label.trans (congrArg PackageIdentity.packageHash (named.trans same))
  exact computed.symm.trans (hashes.symm.trans hashed.symm)

namespace Relayed

section Scenarios

variable {Balances Header Justification Authority : Type} {settings : RelaySettings}
  {setting : Setting Balances Header Justification Authority}
  {config : DomainId → GenesisConfig Balances}
  {relayed : Relayed Balances Justification setting.primitives.headers}

theorem reachable_of_world {world : World Balances Justification setting.primitives.headers}
    (reachable : (World.system setting config).Reachable world) :
    (system settings setting config).Reachable ⟨world, .initial, none⟩ := by
  induction reachable with
  | start initial => exact .start ⟨initial, rfl, rfl⟩
  | next _ step reached => exact .next reached (.world _ step)

theorem reachable_of_work {relay : Relay}
    {world : World Balances Justification setting.primitives.headers}
    (reachable : (system settings setting config).Reachable ⟨world, relay, none⟩)
    {events : List Event} (follows : Relay.Follows settings setting.blake2 setting.codec
      (fun _ event => ∀ response, event ≠ .respond response) events relay) :
    (system settings setting config).Reachable
      ⟨world, Relay.run settings setting.blake2 setting.codec events relay, none⟩ := by
  induction events generalizing relay with
  | nil => exact reachable
  | cons event rest ih =>
      obtain ⟨own, later⟩ := follows
      exact ih (.next reachable (.schedule event own)) later

end Scenarios

end Relayed

namespace World

noncomputable def moonServing : Importer :=
  moonDone.apply sampleHash plainCodec (certified sampleSetting) .install

theorem attained_serving : Attained importedChains (earthItems.strings sampleHash)
    ⟨moonServing, moonChain.nodeView, none⟩ [finalization, observation] :=
  attained_done.serve (fun _ _ => .work .install trivial (.inr rfl)) rfl (List.append_nil _)

theorem ingestResponse_moonServing :
    ∃ reason, ingestResponse sampleHash plainCodec earthBody 1000 moonServing =
    .answered ⟨200, "200 OK"⟩ (some ⟨.ackedVerified, reason⟩) none := by
  have identity : PackageIngestView.identity ⟨.earth, .moon, 0, 1⟩ earthPackage.packageHash =
      earthIdentity := by
    rw [earthPackage_hash]
    rfl
  obtain ⟨record, known, state, received⟩ :
      ∃ record, moonServing.memory.package earthIdentity = some record ∧
      record.state = .ackedVerified ∧ record.receivedAtUnixMs = 0 := ⟨_, rfl, rfl, rfl⟩
  refine ⟨record.reason, ?_⟩
  have answered : ingestResponse sampleHash plainCodec earthBody 1000 moonServing = _ :=
    ingestResponse_known earthBody_opened (identity ▸ known) (identity ▸ rfl) rfl
  rw [answered, received, packageStatusView, state]
  rfl

theorem earthBody_accepted :
    decodeAndValidateEnvelope sampleHash plainCodec earthBody =
      .ok (earthEnvelope, earthPackage) := by
  have source : earthPackage.header.domainId = .earth := by decide +kernel
  have epoch : earthPackage.header.epochId = 0 := by decide +kernel
  have envelope : earthEnvelope =
      .create earthPackage.header.domainId .moon earthPackage.header.epochId
      earthPackage.header.summaryHash earthPackage.packageHash
        (plainCodec.package.encode earthPackage)
      (UInt32.ofNat earthItems.proofs.length) 0 := by
    rw [source, epoch, earthPackage_hash]
    rfl
  rw [earthBody, envelope]
  apply decodeAndValidateEnvelope_accepts (packageOf_inclusionProofs _ _ _ _ _) _ earthItems_checked
  · decide
  · decide +kernel
  · exact List.cons_ne_nil _ _

noncomputable def earthRelay : Relay where
  store := {
    index := { packages := [newRecord earthEnvelope 0] }
    payloads := update (fun _ => none) (envelopeIdentity earthEnvelope) (some earthBody) }
  clock := 0
  task := .idle
  log := Relay.initial.log

theorem submit_earthBody :
    Relay.initial.apply sampleSettings sampleHash plainCodec (.submit earthBody 0) =
      earthRelay := by
  simp only [Relay.apply,
    submitPackage_new earthBody_accepted (rfl : Relay.initial.store.index.record _ = none)]
  rfl

theorem earthRelay_follows : Relay.Follows sampleSettings sampleHash plainCodec
    (fun _ event => ∀ response, event ≠ .respond response) punctualTicks earthRelay := by
  refine ⟨?_, ?_, ?_, ?_, trivial⟩ <;> exact fun _ same => by cases same

end World

/-- The relay posts Earth's package to Moon's importer, which has imported it already. -/
theorem relay_acknowledgement_paid_sample :
    ∃ relayed record,
      (Relayed.system sampleSettings World.sampleSetting Network.sampleConfig).Reachable relayed ∧
      relayed.relay.store.index.record World.earthIdentity = some record ∧
        record.state = .importerAcked ∧
      relayed.Redeemed World.sampleSetting World.earthIdentity := by
  obtain ⟨world, stands⟩ := World.attained_serving
  have importer : world.importers .moon = World.moonServing :=
    congrArg Deployment.importer stands.deployment
  let posting := Relay.run sampleSettings sampleHash World.plainCodec punctualTicks World.earthRelay
  let later := Relayed.delivered World.sampleSetting world .moon World.earthBody 1000
  have submitted :
      (Relayed.system sampleSettings World.sampleSetting Network.sampleConfig).Reachable
      ⟨world, Relay.initial.apply sampleSettings sampleHash World.plainCodec
        (.submit World.earthBody 0), none⟩ :=
    .next (Relayed.reachable_of_world stands.reachable) (.submit World.earthBody 0)
  rw [World.submit_earthBody] at submitted
  have posted : (Relayed.system sampleSettings World.sampleSetting Network.sampleConfig).Reachable
      ⟨world, posting, none⟩ := Relayed.reachable_of_work submitted World.earthRelay_follows
  obtain ⟨record, link, importerUrl, task, target⟩ : ∃ record link importerUrl,
      posting.task = .posting record 1000 link World.earthBody importerUrl [] ∧
        record.targetDomain = .moon :=
    ⟨_, _, _, rfl, rfl⟩
  have step : Relayed.Step sampleSettings World.sampleSetting ⟨world, posting, none⟩ _ :=
    .post record 1000 1000 link World.earthBody importerUrl [] task
  rw [target] at step
  have answered : (Relayed.system sampleSettings World.sampleSetting Network.sampleConfig).Reachable
      ⟨later, posting, some (ingestResponse sampleHash World.plainCodec World.earthBody 1000
        (world.importers .moon))⟩ :=
    .next posted step
  obtain ⟨reason, response⟩ := World.ingestResponse_moonServing
  rw [importer, response] at answered
  have acknowledged :
      (Relayed.system sampleSettings World.sampleSetting Network.sampleConfig).Reachable
      ⟨later, posting.apply sampleSettings sampleHash World.plainCodec (.respond _), none⟩ :=
    .next answered (.respond _ (.whole _ rfl))
  have network : later.network = ⟨World.importedChains, World.earthItems.strings sampleHash⟩ := by
    change (⟨world.network.chains,
      world.network.checked ++ World.hashedNext World.sampleSetting (world.importers .moon)⟩ :
      Network World.Purses) = _
    rw [importer, stands.network]
    exact congrArg _ (List.append_nil _)
  refine ⟨_, _, acknowledged, rfl, rfl, ?_⟩
  apply relay_acknowledgement_paid sampleSettings World.sampleSetting
    Network.sampleConfig _ acknowledged _ World.earthIdentity _ rfl .ackedVerified rfl trivial
  rw [network]
  exact World.importedChains_facts.2.1

end Ialp
