import Ialp.Lib.Deferral
import Ialp.Pallets.Frame
import Ialp.Types.Package

/-!
The transport configuration: where the services listen and, for every directed link, its delays and
its blackout windows; and the search for the first instant after a given one at which a link may be
used.
-/

namespace Ialp.Services

open Deferral

structure RelayTransportConfig where
  listenAddr : String
  storeDir : String
  schedulerTickMillis : UInt64
  ackPollMillis : UInt64

/-- Blackout windows are of instants in UTC, in nanoseconds from the Unix epoch. -/
structure LinkProfileConfig where
  sourceDomain : DomainId
  targetDomain : DomainId
  baseOneWayDelaySeconds : UInt64
  initialRetryDelaySeconds : UInt64
  maxRetryDelaySeconds : UInt64
  maxAttempts : UInt32
  blackoutWindows : List (Window Int)

structure TransportConfig where
  relay : RelayTransportConfig
  importers : DomainId → Option String
  links : List LinkProfileConfig

section Validation

def expectedDomains : List DomainId := [.earth, .moon, .mars]

/-- The code points that `str::trim` takes for white space. -/
def whiteSpace (point : ℕ) : Bool :=
  (0x09 ≤ point && point ≤ 0x0d) || (0x2000 ≤ point && point ≤ 0x200a) ||
    [0x20, 0x85, 0xa0, 0x1680, 0x2028, 0x2029, 0x202f, 0x205f, 0x3000].contains point

def isBlank (text : String) : Bool := text.toList.all fun c => whiteSpace c.toNat

def LinkProfileConfig.title (link : LinkProfileConfig) : String :=
  "link " ++ link.sourceDomain.asStr ++ " -> " ++ link.targetDomain.asStr

def LinkProfileConfig.direction (link : LinkProfileConfig) : DomainId × DomainId :=
  (link.sourceDomain, link.targetDomain)

def validateImporter (config : TransportConfig) (domain : DomainId) : Except String Unit := do
  let listenAddr ← okOr (config.importers domain)
      ("missing importer.listen_addr for domain " ++ domain.asStr)
  ensure (isBlank listenAddr = false)
    ("importer.listen_addr for domain " ++ domain.asStr ++ " must not be empty")

def validateLink (seenLinks : List (DomainId × DomainId)) (link : LinkProfileConfig) :
    Except String (List (DomainId × DomainId)) := do
  ensure (link.sourceDomain ≠ link.targetDomain) (link.title ++ " must not target the same domain")
  ensure (link.baseOneWayDelaySeconds ≠ 0)
    (link.title ++ " base_one_way_delay_seconds must be greater than zero")
  ensure (link.initialRetryDelaySeconds ≠ 0)
    (link.title ++ " initial_retry_delay_seconds must be greater than zero")
  ensure (link.initialRetryDelaySeconds ≤ link.maxRetryDelaySeconds)
    (link.title ++ " max_retry_delay_seconds must be >= initial_retry_delay_seconds")
  ensure (∀ window ∈ link.blackoutWindows, window.start < window.stop)
    (link.title ++ " blackout window start must be before end")
  ensure (link.direction ∉ seenLinks) ("duplicate directed " ++ link.title)
  return seenLinks ++ [link.direction]

def directedPairs : List (DomainId × DomainId) :=
  (expectedDomains.flatMap fun source => expectedDomains.map fun target => (source, target)).filter
    fun pair => pair.1 ≠ pair.2

def TransportConfig.validate (config : TransportConfig) : Except String Unit := do
  ensure (isBlank config.relay.listenAddr = false) "relay.listen_addr must not be empty"
  ensure (config.relay.storeDir ≠ "") "relay.store_dir must not be empty"
  ensure (config.relay.schedulerTickMillis ≠ 0)
    "relay.scheduler_tick_millis must be greater than zero"
  ensure (config.relay.ackPollMillis ≠ 0) "relay.ack_poll_millis must be greater than zero"
  expectedDomains.forM (validateImporter config)
  let importerAddresses := expectedDomains.filterMap config.importers
  ensure ((dedup (sortBy compare importerAddresses)).length = importerAddresses.length)
    "importer.listen_addr values must be unique"
  ensure (config.links.length = 6) "transport config must declare exactly 6 directed links"
  let seenLinks ← config.links.foldlM validateLink []
  directedPairs.forM fun pair => ensure (pair ∈ seenLinks)
    ("missing directed link " ++ pair.1.asStr ++ " -> " ++ pair.2.asStr)

def TransportConfig.link (config : TransportConfig) (sourceDomain targetDomain : DomainId) :
    Option LinkProfileConfig :=
  config.links.find? fun link => link.sourceDomain = sourceDomain ∧ link.targetDomain = targetDomain

structure ValidTransport extends TransportConfig where
  valid : toTransportConfig.validate = .ok ()

theorem forM_eq_ok {α : Type} {check : α → Except String Unit} {items : List α}
    (ok : items.forM check = .ok ()) : ∀ item ∈ items, check item = .ok () := by
  induction items with
  | nil => simp
  | cons first rest ih =>
      obtain ⟨_, checked, others⟩ := bind_eq_ok.mp ok
      exact List.forall_mem_cons.mpr ⟨checked, ih others⟩

theorem validateLinks_eq_ok {links : List LinkProfileConfig}
    {before seen : List (DomainId × DomainId)} (ok : links.foldlM validateLink before = .ok seen) :
    seen = before ++ links.map LinkProfileConfig.direction := by
  induction links generalizing before with
  | nil =>
      cases ok
      simp
  | cons link rest ih =>
      obtain ⟨after, checked, others⟩ := bind_eq_ok.mp ok
      simp only [validateLink, bind_eq_ok] at checked
      obtain ⟨_, _, _, _, _, _, _, _, _, _, _, _, returned⟩ := checked
      cases returned
      rw [ih others]
      simp

theorem validateLinks_mem {links : List LinkProfileConfig}
    {before seen : List (DomainId × DomainId)} (ok : links.foldlM validateLink before = .ok seen) :
    ∀ link ∈ links, ∃ earlier after, validateLink earlier link = .ok after := by
  induction links generalizing before with
  | nil => simp
  | cons link rest ih =>
      obtain ⟨after, checked, others⟩ := bind_eq_ok.mp ok
      exact List.forall_mem_cons.mpr ⟨⟨before, after, checked⟩, ih others⟩

namespace ValidTransport

variable (transport : ValidTransport)

theorem link_exists {source target : DomainId} (distinct : source ≠ target) :
    ∃ link, transport.link source target = some link := by
  have checked := transport.valid
  simp only [TransportConfig.validate, bind_eq_ok] at checked
  obtain ⟨_, _, _, _, _, _, _, _, _, _, _, _, _, _, seen, folded, all⟩ := checked
  have listed : (source, target) ∈ directedPairs := by
    revert distinct
    cases source <;> cases target <;> decide
  have member := ensure_eq_ok.mp (forM_eq_ok all _ listed)
  rw [validateLinks_eq_ok folded, List.nil_append, List.mem_map] at member
  obtain ⟨link, present, direction⟩ := member
  rw [TransportConfig.link, ← Option.isSome_iff_exists, List.find?_isSome]
  obtain ⟨sourced, targeted⟩ := Prod.mk.inj direction
  exact ⟨link, present, by simp [sourced, targeted]⟩

theorem importer_exists (domain : DomainId) :
    ∃ listenAddr, transport.importers domain = some listenAddr := by
  have checked := transport.valid
  simp only [TransportConfig.validate, bind_eq_ok] at checked
  obtain ⟨_, _, _, _, _, _, _, _, _, importers, _⟩ := checked
  have listed : domain ∈ expectedDomains := by cases domain <;> decide
  have present := forM_eq_ok importers domain listed
  simp only [validateImporter, bind_eq_ok, okOr_eq_ok] at present
  obtain ⟨listenAddr, found, _⟩ := present
  exact ⟨listenAddr, found⟩

theorem initialRetry_ne_zero {link : LinkProfileConfig} (member : link ∈ transport.links) :
    link.initialRetryDelaySeconds ≠ 0 := by
  have checked := transport.valid
  simp only [TransportConfig.validate, bind_eq_ok] at checked
  obtain ⟨_, _, _, _, _, _, _, _, _, _, _, _, _, _, seen, folded, _⟩ := checked
  obtain ⟨_, _, linkChecked⟩ := validateLinks_mem folded link member
  simp only [validateLink, bind_eq_ok, ensure_eq_ok] at linkChecked
  obtain ⟨_, _, _, _, _, nonzero, _⟩ := linkChecked
  exact nonzero

end ValidTransport

end Validation

section Deferral

/-- The relay's settings. `maxUtcMillis` is the last millisecond that an instant can be in. -/
structure RelaySettings where
  transport : ValidTransport
  maxUtcMillis : Nat
  bounded : maxUtcMillis < 2 ^ 63
  representable : ∀ link ∈ transport.links, ∀ window ∈ link.blackoutWindows,
    window.stop < (maxUtcMillis + 1) * 1000000

variable (settings : RelaySettings)

def RelaySettings.ackPollMillis : UInt64 := settings.transport.relay.ackPollMillis

def millisInstant (unixMs : UInt64) : Int := unixMs.toNat * 1000000

def unixMsToUtc (unixMs : UInt64) : Except String Int := do
  ensure (unixMs.toNat < 2 ^ 63) "out of range integral type conversion attempted"
  ensure (unixMs.toNat ≤ settings.maxUtcMillis)
    ("timestamp " ++ toString unixMs ++ " is out of range")
  return millisInstant unixMs

def utcToUnixMillis (timestamp : Int) : Except String UInt64 := do
  ensure (0 ≤ timestamp) ("timestamp " ++ toString timestamp ++ " does not fit into u64")
  return UInt64.ofNat (timestamp / 1000000).toNat

def nextDeliveryAfter (link : LinkProfileConfig) (unixMs : UInt64) : Except String UInt64 := do
  let candidate ← unixMsToUtc settings unixMs
  utcToUnixMillis (defer link.blackoutWindows candidate)

variable {settings} {link : LinkProfileConfig} {unixMs later : UInt64}

theorem defer_lt (member : link ∈ settings.transport.links)
    (fits : unixMs.toNat ≤ settings.maxUtcMillis) :
    defer link.blackoutWindows (millisInstant unixMs) < (settings.maxUtcMillis + 1) * 1000000 := by
  rcases search_mem _ link.blackoutWindows (millisInstant unixMs) with
    same | ⟨window, listed, stopped⟩
  · rw [defer, same, millisInstant]
    omega
  · rw [defer, stopped]
    exact settings.representable link member window listed

theorem nextDeliveryAfter_eq_ok (member : link ∈ settings.transport.links)
    (ok : nextDeliveryAfter settings link unixMs = .ok later) :
    let instant := defer link.blackoutWindows (millisInstant unixMs)
    millisInstant unixMs ≤ instant ∧ (∀ window ∈ link.blackoutWindows, ¬ window.Covers instant) ∧
      millisInstant later ≤ instant ∧ instant < millisInstant later + 1000000 := by
  intro instant
  simp only [nextDeliveryAfter, unixMsToUtc, utcToUnixMillis, bind_eq_ok, ensure_eq_ok] at ok
  obtain ⟨candidate, ⟨_, _, _, fits, converted⟩, _, nonnegative, returned⟩ := ok
  cases converted
  cases returned
  obtain ⟨after, outside⟩ := defer_outside link.blackoutWindows (millisInstant unixMs)
  have bound := defer_lt member fits
  have limit := settings.bounded
  have small : (instant / 1000000).toNat < 2 ^ 64 := by omega
  refine ⟨after, outside, ?_⟩
  rw [millisInstant, UInt64.toNat_ofNat', Nat.mod_eq_of_lt small]
  omega

theorem exists_nextDeliveryAfter_iff :
    (∃ later, nextDeliveryAfter settings link unixMs = .ok later) ↔
      unixMs.toNat ≤ settings.maxUtcMillis := by
  simp only [nextDeliveryAfter, unixMsToUtc, utcToUnixMillis, bind_eq_ok, ensure_eq_ok]
  constructor
  · rintro ⟨_, _, ⟨_, _, _, fits, _⟩, _⟩
    exact fits
  · intro fits
    have limit := settings.bounded
    have start : (0 : Int) ≤ millisInstant unixMs := by
      rw [millisInstant]
      omega
    have nonnegative := le_trans start (defer_outside link.blackoutWindows (millisInstant unixMs)).1
    exact ⟨_, _, ⟨(), by omega, (), fits, rfl⟩, (), nonnegative, rfl⟩

/-- The loop of `next_delivery_after` returns from every instant, with the earliest one from there
on that lies in no blackout window, however the windows overlap. -/
theorem nextDeliveryAfter_earliest (settings : RelaySettings) (link : LinkProfileConfig) :
    (∀ unixMs, nextDeliveryAfter settings link unixMs = do
      let start ← unixMsToUtc settings unixMs
      utcToUnixMillis (defer link.blackoutWindows start)) ∧
    (∀ start final, Returns link.blackoutWindows start final ↔
      final = defer link.blackoutWindows start) ∧
    (∀ start, IsLeast { instant | start ≤ instant ∧ ∀ window ∈ link.blackoutWindows,
      ¬ window.Covers instant } (defer link.blackoutWindows start)) ∧
    (∀ start, defer link.blackoutWindows (defer link.blackoutWindows start) =
      defer link.blackoutWindows start) ∧
    ∀ earlier later, earlier ≤ later → defer link.blackoutWindows earlier ≤
      defer link.blackoutWindows later := by
  refine ⟨fun unixMs => rfl, fun start final => returns_iff, defer_isLeast _, defer_defer _, ?_⟩
  intro earlier later le
  exact defer_mono link.blackoutWindows le

-- the third window leads to the second, and that one into the first, which stands before both
example : defer [⟨8, 12⟩, ⟨5, 9⟩, ⟨0, 6⟩] (1 : Int) = 12 := by decide

end Deferral

end Ialp.Services
