import Ialp.Services.RelayRuns

/-!
Deliveries and blackouts. Whether a link may be used is decided from the stored due time and not
from the clock, so that a tick that comes late, after a further window has opened, posts inside that
window.
-/

namespace Ialp.Services

open Scale Deferral Function

section Blackout

variable {settings : RelaySettings} {relay : Relay} {record : RelayPackageRecord}
  {link : LinkProfileConfig} {now due later : UInt64} {identity : PackageIdentity}

def WholeMilliseconds (settings : RelaySettings) : Prop :=
  ∀ link ∈ settings.transport.links, ∀ window ∈ link.blackoutWindows, 1000000 ∣ window.stop

def Relay.next (relay : Relay) : Option RelayPackageRecord :=
  match relay.task with
  | .ticking (identity :: _) => relay.store.index.record identity
  | _ => none

/-- When a delivery is attempted, no window of the link that has opened since the record was due is
still open. -/
def Punctual (settings : RelaySettings) (relay : Relay) : Event → Prop
  | .visit reading now _ =>
      ∀ record due link, relay.next = some record → duty reading record = .attempt →
        record.nextDeliveryAtUnixMs = some due →
        settings.transport.link record.sourceDomain record.targetDomain = some link →
        ∀ window ∈ link.blackoutWindows,
          ¬ (millisInstant due < window.start ∧ window.Covers (millisInstant now))
  | _ => True

theorem mem_links (routed : linkOf settings identity = .ok link) :
    link ∈ settings.transport.links :=
  List.mem_of_find?_eq_some (okOr_eq_ok.mp routed)

theorem millisInstant_le (le : due ≤ now) : millisInstant due ≤ millisInstant now := by
  have nat := UInt64.le_iff_toNat_le.mp le
  rw [millisInstant, millisInstant]
  omega

theorem millisInstant_nextDelivery (whole : WholeMilliseconds settings)
    (member : link ∈ settings.transport.links)
    (ok : nextDeliveryAfter settings link due = .ok later) :
    millisInstant later = defer link.blackoutWindows (millisInstant due) := by
  obtain ⟨_, _, lower, upper⟩ := nextDeliveryAfter_eq_ok member ok
  have divides : (1000000 : Int) ∣ defer link.blackoutWindows (millisInstant due) := by
    rcases search_mem _ link.blackoutWindows (millisInstant due) with
      same | ⟨window, listed, stopped⟩
    · rw [defer, same, millisInstant]
      exact Dvd.intro_left _ rfl
    · rw [defer, stopped]
      exact whole link member window listed
  obtain ⟨quotient, multiple⟩ := divides
  rw [multiple] at lower upper ⊢
  rw [millisInstant] at lower upper ⊢
  omega

theorem outside_of_gate (whole : WholeMilliseconds settings)
    (stored : record.nextDeliveryAtUnixMs = some due)
    (gate : deliveryGate settings now record = .ok (link, none))
    (quiet : ∀ window ∈ link.blackoutWindows,
      ¬ (millisInstant due < window.start ∧ window.Covers (millisInstant now))) :
    ∀ window ∈ link.blackoutWindows, ¬ window.Covers (millisInstant now) := by
  obtain ⟨routed, ⟨none, _⟩ | ⟨_, blockedUntil, same, ok, passed⟩⟩ := deliveryGate_eq_ok gate
  · rw [stored] at none
    cases none
  rw [stored] at same
  cases same
  have past : blockedUntil ≤ now := by
    rw [← UInt64.not_lt]
    intro early
    rw [if_pos early] at passed
    cases passed
  have member := mem_links routed
  obtain ⟨after, outside, _, _⟩ := nextDeliveryAfter_eq_ok member ok
  have stops := millisInstant_nextDelivery whole member ok
  have order := millisInstant_le past
  intro window listed covered
  -- the window was open at the due time already, so the deferral went past its end
  have opened : window.start ≤ millisInstant due := by
    by_contra later
    exact quiet window listed ⟨not_le.mp later, covered⟩
  exact outside window listed
    ⟨le_trans opened after, by rw [← stops]; exact lt_of_le_of_lt order covered.2⟩

/-- In every run of a relay whose ticks are punctual, a payload is posted at a time that is in no
window of the record's link. -/
theorem delivery_outside_blackout (settings : RelaySettings) (blake2 : Bytes → Hash32)
    (codec : PackageCodec) (whole : WholeMilliseconds settings) (relay : Relay)
    (reachable : (Relay.runs settings blake2 codec (Punctual settings)).Reachable relay)
    (record : RelayPackageRecord) (now : UInt64) (link : LinkProfileConfig) (payload : Bytes)
    (importerUrl : String) (work : List PackageIdentity)
    (posting : relay.task = .posting record now link payload importerUrl work) :
    settings.transport.link record.sourceDomain record.targetDomain = some link ∧
      ∀ window ∈ link.blackoutWindows, ¬ window.Covers (millisInstant now) := by
  revert record now link payload importerUrl work
  apply Relay.invariant _ _ _ reachable
  · intro _ _ _ _ _ _ posting
    cases posting
  · intro relay event relay' _ holds punctual step record now link payload importerUrl work posting
    cases step with
    | submitted => exact holds _ _ _ _ _ _ posting
    | restarted => cases posting
    | ignored => exact holds _ _ _ _ _ _ posting
    | visited reading now' fault identity work' record' _ ticking found handled =>
        cases handled with
        | polled => cases posting
        | posted link' payload' importerUrl' attempt gate read =>
            cases posting
            obtain ⟨_, due, stored, _⟩ := duty_eq_attempt.mp attempt
            have routed := okOr_eq_ok.mp (deliveryGate_eq_ok gate).1
            have next : relay.next = some record := by
              simp only [Relay.next, ticking, found]
            exact ⟨routed, outside_of_gate whole stored gate
              (punctual record due link next attempt stored routed)⟩
        | _ => exact absurd posting resume_not_posting
    | _ => exact absurd posting resume_not_posting

end Blackout

section Sample

def sampleLink (source target : DomainId) (blackoutWindows : List (Window Int)) :
    LinkProfileConfig where
  sourceDomain := source
  targetDomain := target
  baseOneWayDelaySeconds := 1
  initialRetryDelaySeconds := 1
  maxRetryDelaySeconds := 8
  maxAttempts := 0
  blackoutWindows

/-- All links take a second; the one from Earth to Moon has a blackout from the fifth second to the
tenth. -/
def sampleTransport : TransportConfig where
  relay := {
    listenAddr := "127.0.0.1:9950", storeDir := "var/relay", schedulerTickMillis :=
      500, ackPollMillis := 1000 }
  importers
    | .earth => some "127.0.0.1:9960"
    | .moon => some "127.0.0.1:9961"
    | .mars => some "127.0.0.1:9962"
  links := [
    sampleLink .earth .moon [⟨5000000000, 10000000000⟩], sampleLink .earth .mars [],
    sampleLink .moon .earth [],
    sampleLink .moon .mars [], sampleLink .mars .earth [], sampleLink .mars .moon []]

def sampleSettings : RelaySettings where
  transport := { sampleTransport with valid := by rfl }
  maxUtcMillis := 8210266876799999
  bounded := by decide
  representable := by decide

theorem sampleSettings_whole : WholeMilliseconds sampleSettings := by
  unfold WholeMilliseconds
  decide

noncomputable def relayWith (target : DomainId) : Relay where
  store := {
    index := { packages := [newRecord (envelopeTo target) 0] }
    payloads := update (fun _ => none) (envelopeIdentity (envelopeTo target))
      (some (bodyTo target)) }
  clock := 0
  task := .idle
  log := Relay.initial.log

theorem relayWith_reachable {admits : Relay → Event → Prop} (target : DomainId)
    (admitted : admits Relay.initial (.submit (bodyTo target) 0)) :
    (Relay.system sampleSettings blankHash sampleCodec admits).Reachable (relayWith target) := by
  refine .next (.start rfl) ⟨.submit (bodyTo target) 0, ⟨UInt64.le_refl _, admitted⟩, ?_⟩
  simp only [Relay.apply,
    submitPackage_new (envelopeTo_accepted target)
    (rfl : Relay.initial.store.index.record _ = none)]
  rfl

def punctualTicks : List Event := [.tick 0, .visit 0 0 none, .tick 1000, .visit 1000 1000 none]

theorem delivery_outside_blackout_sample :
    ∃ relay record link payload importerUrl,
      (Relay.system sampleSettings blankHash sampleCodec (Punctual sampleSettings)).Reachable
        relay ∧
      relay.task = .posting record 1000 link payload importerUrl [] ∧ link.blackoutWindows ≠ [] ∧
      ∀ window ∈ link.blackoutWindows, ¬ window.Covers (millisInstant 1000) := by
  have follows : Relay.Follows sampleSettings blankHash sampleCodec
      (Relay.Timed (Punctual sampleSettings)) punctualTicks (relayWith .moon) := by
    refine ⟨⟨by decide +kernel, trivial⟩, ⟨by decide +kernel, ?_⟩, ⟨by decide +kernel, trivial⟩,
      ⟨by decide +kernel, ?_⟩, trivial⟩
    · intro record due link next attempt stored
      cases next
      cases stored
    · intro record due link next attempt stored routed window listed
      cases next
      cases stored
      cases routed
      obtain rfl := List.mem_singleton.mp listed
      decide +kernel
  have reachable := Relay.reachable_run (relayWith_reachable .moon trivial) follows
  refine ⟨_, _, _, _, _, reachable, rfl, List.cons_ne_nil _ _, ?_⟩
  exact (delivery_outside_blackout sampleSettings blankHash sampleCodec sampleSettings_whole _
    (Relay.runs_mono (fun _ _ => And.right) reachable) _ _ _ _ _ _ rfl).2

def lateTick : List Event := [.tick 0, .visit 0 0 none, .tick 6000, .visit 6000 6000 none]

/-- It posts the package in the middle of the blackout. -/
theorem late_tick_posts_in_blackout :
    ∃ relay record link payload importerUrl window,
      (Relay.system sampleSettings blankHash sampleCodec fun _ _ => True).Reachable relay ∧
      relay.task = .posting record 6000 link payload importerUrl [] ∧
      sampleSettings.transport.link record.sourceDomain record.targetDomain = some link ∧
      window ∈ link.blackoutWindows ∧ window.Covers (millisInstant 6000) := by
  have follows : Relay.Follows sampleSettings blankHash sampleCodec
      (Relay.Timed fun _ _ => True) lateTick (relayWith .moon) := by
    decide +kernel
  refine ⟨_, _, _, _, _, _, Relay.reachable_run (relayWith_reachable .moon trivial) follows, rfl,
    rfl, List.mem_singleton_self _, ?_⟩
  decide +kernel

end Sample

end Ialp.Services
