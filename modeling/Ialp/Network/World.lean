import Ialp.Network.Packages
import Ialp.Services.ChainContext
import Ialp.Services.ImporterChain

/-!
The chains with their finality and with an importer at each of them. Relays may bring an importer
any bytes, at any time; the importer checks what it has stored and submits transactions, which the
chain may execute at any time and any number of times. The chains of every such run are those of a
network with honest importers.
-/

namespace Ialp

open Scale Function Transition Relation Hashing Services

/-- What all domains share: the hash function, the currency, the codecs, GRANDPA, and the seeds of
the authorities that the importers are configured with. -/
structure Setting (Balances Header Justification Authority : Type) where
  blake2 : Bytes → Hash32
  currency : Currency Balances
  codec : PackageCodec
  primitives : Primitives Header
  build : Build
  grandpa : Grandpa Justification Authority
  loadSeeds : DomainId → Except String (List String)

/-- The state of everything. Of each chain: its states after every block, the blocks that are final,
and the justifications that its authorities have signed. Of each importer: its files and its
processor, what is left of the iteration under way, and the calls it has submitted. -/
structure World (Balances Justification : Type) {Header : Type} (headers : HeaderCodec Header) where
  network : Network Balances
  states : DomainId → List (Chain Balances)
  ledgers : DomainId → Ledger headers
  signed : DomainId → List Justification
  importers : DomainId → Importer
  pending : DomainId → Option (NodeProgram Answer)
  submitted : DomainId → List RuntimeCall

namespace World

variable {Balances Header Justification Authority : Type}

def deployment {headers : HeaderCodec Header} (world : World Balances Justification headers)
    (domain : DomainId) : Deployment where
  importer := world.importers domain
  view := (world.network.chains domain).nodeView
  pending := world.pending domain

section Runs

variable (setting : Setting Balances Header Justification Authority)

def certified (package : CertifiedSummaryPackage) : Except Halt Unit :=
  verifyCertification setting.primitives setting.codec setting.build setting.grandpa
    setting.loadSeeds package

/-- Final blocks are blocks that were executed, and their state has the headers that the epochs
pallet stored. -/
structure Finalized (states : List (Chain Balances)) (ledger : Ledger setting.primitives.headers) :
    Prop where
  executed : ledger.height < states.length
  stored : ∀ n ≤ ledger.height, ∀ state, states[n]? = some state → ∀ epochId,
    ledger.storage n (summaryHeaderStorageKey setting.primitives.hashers epochId) =
      (state.epochs.summaryHeaders epochId).map encode

variable (world : World Balances Justification setting.primitives.headers)

/-- Nothing in a package is forged. If its justification verifies for the authorities of its domain,
they have signed it; and what it shows of a block that is final there is so. -/
structure Unforged (package : CertifiedSummaryPackage) : Prop where
  signed : ∀ certificate seeds authorities justification,
    package.certificate = .grandpaV1 certificate →
    setting.loadSeeds package.header.domainId = .ok seeds →
    grandpaAuthorities setting.grandpa seeds = .ok authorities →
    JustifiedFor setting.grandpa authorities certificate justification →
    justification ∈ world.signed package.header.domainId
  genuine : Genuine setting.primitives setting.codec (world.ledgers package.header.domainId) package

def Admits (importer : Importer) : ImporterEvent → Prop
  | .start _ => ∀ identity queue payload package, importer.processor = .ready (identity :: queue) →
      importer.store.payloads identity = some payload →
        setting.codec.package.decode payload = .ok package →
      world.Unforged setting package
  | _ => True

def extended (states : List (Chain Balances)) (chain : Chain Balances) :
    Chain.Action Balances → List (Chain Balances)
  | .closeBlock _ => states ++ [chain]
  | _ => states

def acted (domain : DomainId) (action : Chain.Action Balances) :
    World Balances Justification setting.primitives.headers :=
  { world with
    network := world.network.act setting.blake2 setting.currency domain action []
    states := update world.states domain (extended (world.states domain)
      ((world.network.chains domain).apply setting.blake2 setting.currency action) action) }

/-- The strings of the proofs of the package that is next in the queue, if it passes its checks: the
importer hashes them when it takes the package up. -/
def hashedNext (importer : Importer) : List Bytes :=
  match importer.processor with
  | .ready (identity :: _) => (importer.store.payloads identity).toList.flatMap fun payload =>
      (checkPackage setting.blake2 setting.codec (certified setting) importer.store.domainId
        payload).toOption.toList.flatMap fun checked => checked.2.strings setting.blake2
  | _ => []

def served (domain : DomainId) (deployment : Deployment) :
    World Balances Justification setting.primitives.headers :=
  { world with
    network := { world.network with
      checked := world.network.checked ++ hashedNext setting (world.importers domain) }
    importers := update world.importers domain deployment.importer
    pending := update world.pending domain deployment.pending }

/-- One step. If the nodes are `honest`, they answer an importer from the state of their chain. -/
inductive Step (honest : Prop) :
    World Balances Justification setting.primitives.headers → Prop where
  | act (domain : DomainId) (action : Chain.Action Balances)
      (enabled : (world.network.chains domain).Enabled setting.currency action)
      (signed : ∀ runtimeCall, (world.network.chains domain).Imports action runtimeCall →
        runtimeCall.Ordinary ∨ runtimeCall ∈ world.submitted domain) :
      Step honest (world.acted setting domain action)
  | finalize (domain : DomainId) (ledger : Ledger setting.primitives.headers)
      (finalized : Finalized setting (world.states domain) ledger)
      (grown : ∀ hash number, (world.ledgers domain).Has hash number → ledger.Has hash number) :
      Step honest { world with ledgers := update world.ledgers domain ledger }
  | justify (domain : DomainId) (justification : Justification)
      (final : (world.ledgers domain).Has (setting.grandpa.targetHash justification)
        (setting.grandpa.targetNumber justification)) :
      Step honest { world with
        signed := update world.signed domain (justification :: world.signed domain) }
  | serve (domain : DomainId) (deployment : Deployment)
      (step : Deployment.Step setting.blake2 setting.codec (certified setting)
        (world.Admits setting) honest (world.deployment domain) deployment)
      (same : deployment.view = (world.network.chains domain).nodeView) :
      Step honest (world.served setting domain deployment)
  | submit (domain : DomainId) (nonce : UInt32) (runtimeCall : RuntimeCall)
      (resume : Except String String → NodeProgram Answer)
      (asking : world.pending domain = some (.ask (.submitExtrinsic nonce runtimeCall) resume)) :
      Step honest { world with
        submitted := update world.submitted domain (runtimeCall :: world.submitted domain) }

structure Initial (config : DomainId → GenesisConfig Balances) : Prop where
  network : world.network = Network.genesis config
  states : ∀ domain, world.states domain = [world.network.chains domain]
  finalized : ∀ domain, Finalized setting (world.states domain) (world.ledgers domain)
  signed : ∀ domain, world.signed domain = []
  importers : ∀ domain, world.importers domain = .initial domain
  pending : ∀ domain, world.pending domain = none
  submitted : ∀ domain, world.submitted domain = []

def runs (honest : Prop) (config : DomainId → GenesisConfig Balances) :
    System (World Balances Justification setting.primitives.headers) where
  initial world := world.Initial setting config
  step world world' := world.Step setting honest world'

def system (config : DomainId → GenesisConfig Balances) :
    System (World Balances Justification setting.primitives.headers) := runs setting True config

end Runs

section Steps

variable {setting : Setting Balances Header Justification Authority} {honest : Prop}
  {config : DomainId → GenesisConfig Balances}
  {world world' : World Balances Justification setting.primitives.headers} {domain : DomainId}

theorem chain_reachable (reachable : (runs setting honest config).Reachable world)
    (domain : DomainId) : (Chain.system setting.blake2 setting.currency
      { config domain with domainId := domain }).Reachable (world.network.chains domain) := by
  apply reachable.project fun world => world.network.chains domain
  · intro world initial
    change world.network.chains domain = _
    rw [initial.network]
    rfl
  · intro world world' _ step
    cases step with
    | act acting action enabled =>
        change ReflTransGen _ (world.network.chains domain)
          (update world.network.chains acting _ domain)
        by_cases same : domain = acting
        · subst same
          rw [update_self]
          exact .single ⟨action, enabled, rfl⟩
        · rw [update_of_ne same]
    | finalize | justify | serve | submit => exact .refl

theorem reachable_of_honest (reachable : (system setting config).Reachable world) :
    (runs setting honest config).Reachable world := by
  refine reachable.mono id fun step => ?_
  cases step with
  | act domain action enabled signed => exact .act domain action enabled signed
  | finalize domain ledger finalized grown => exact .finalize domain ledger finalized grown
  | justify domain justification final => exact .justify domain justification final
  | serve domain deployment step same =>
      exact .serve domain deployment (step.mono (fun _ => id) fun _ => trivial) same
  | submit domain nonce runtimeCall resume asking =>
      exact .submit domain nonce runtimeCall resume asking

theorem recorded_step (reachable : (runs setting honest config).Reachable world)
    (step : world.Step setting honest world')
    (free : ¬ Collides setting.blake2 (world'.network.recorded setting.blake2)) :
    world.network.recorded setting.blake2 ⊆ world'.network.recorded setting.blake2 := by
  cases step with
  | act domain action enabled =>
      exact List.Subset.trans (List.subset_append_left _ _)
        (Network.recorded_act (chain_reachable reachable domain) enabled free)
  | serve => exact Network.recorded_subset _ (List.subset_append_left _ _)
  | finalize | justify | submit => exact List.Subset.refl _

theorem free_of_step (reachable : (runs setting honest config).Reachable world)
    (step : world.Step setting honest world')
    (free : ¬ Collides setting.blake2 (world'.network.recorded setting.blake2)) :
    ¬ Collides setting.blake2 (world.network.recorded setting.blake2) := by
  intro collides
  exact free (collides.mono (recorded_step reachable step free))

/-- What is final is and stays part of the chain, and only final blocks are justified. -/
structure Final (setting : Setting Balances Header Justification Authority)
    (world : World Balances Justification setting.primitives.headers) : Prop where
  finalized : ∀ domain, Finalized setting (world.states domain) (world.ledgers domain)
  justified : ∀ domain, ∀ justification ∈ world.signed domain, (world.ledgers domain).Has
    (setting.grandpa.targetHash justification) (setting.grandpa.targetNumber justification)
  kept : ∀ domain, ∀ state ∈ world.states domain, ∀ epochId header,
    state.epochs.summaryHeaders epochId = some header →
      (world.network.chains domain).epochs.summaryHeaders epochId = some header

theorem Final.certified_of_accepted (final : world.Final setting)
    {package : CertifiedSummaryPackage} (unforged : world.Unforged setting package)
    (accepted : certified setting package = .ok ()) : world.network.Certified package := by
  obtain ⟨certificate, shape⟩ : ∃ certificate, package.certificate = .grandpaV1 certificate := by
    cases package.certificate with
    | grandpaV1 certificate => exact ⟨certificate, rfl⟩
  obtain ⟨⟨proof, header, context⟩, _, seeds, authorities, justification, loaded,
      derived, justifies⟩ :=
    (verifyCertification_eq_ok shape).mp accepted
  let domain := package.header.domainId
  have signed := unforged.signed certificate seeds authorities justification shape
    loaded derived justifies
  have block := final.justified domain justification signed
  rw [justifies.hash, justifies.number] at block
  have finalized := final.finalized domain
  have stored := unforged.genuine.stored context block
  -- the block of the certificate was executed, and its state is one of the chain's
  have executed := Nat.lt_of_le_of_lt block.1 finalized.executed
  obtain ⟨state, here⟩ :
      ∃ state, (world.states domain)[certificate.proofBlockNumber.toNat]? = some state :=
    ⟨_, List.getElem?_eq_getElem executed⟩
  rw [finalized.stored _ block.1 state here] at stored
  obtain ⟨written, found, same⟩ := Option.map_eq_some_iff.mp stored
  have equal : written = package.header := encode_injective same
  subst equal
  exact ⟨domain, _, final.kept domain state (List.mem_of_getElem? here) _ _ found⟩

theorem headers_step (reachable : (runs setting honest config).Reachable world)
    (step : world.Step setting honest world')
    (free : ¬ Collides setting.blake2 (world.network.recorded setting.blake2)) (domain : DomainId)
    {epochId : EpochId} {header : EpochSummaryHeader}
    (stored : (world.network.chains domain).epochs.summaryHeaders epochId = some header) :
    (world'.network.chains domain).epochs.summaryHeaders epochId = some header := by
  cases step with
  | act acting action enabled =>
      by_cases same : domain = acting
      · subst same
        have unbroken : ¬ Collides setting.blake2 (world.network.chains domain).log :=
          Network.free_chain free (List.subset_append_left _ _) domain
        have kept := Chain.header_kept (chain_reachable reachable domain) ⟨action, enabled,
          rfl⟩ unbroken stored
        change (update world.network.chains domain _ domain).epochs.summaryHeaders epochId = _
        rwa [update_self]
      · change (update world.network.chains acting _ domain).epochs.summaryHeaders epochId = _
        rwa [update_of_ne same]
  | finalize | justify | serve | submit => exact stored

theorem mem_extended {states : List (Chain Balances)} {chain state : Chain Balances}
    {action : Chain.Action Balances} (member : state ∈ extended states chain action) :
    state ∈ states ∨ state = chain := by
  cases action with
  | closeBlock => simpa [extended] using member
  | openBlock | transfers | governance | external => exact .inl member

theorem Finalized.extend {states : List (Chain Balances)}
    {ledger : Ledger setting.primitives.headers} (finalized : Finalized setting states ledger)
    (chain : Chain Balances) (action : Chain.Action Balances) :
    Finalized setting (extended states chain action) ledger := by
  cases action with
  | closeBlock =>
      refine ⟨?_, fun n within state here => finalized.stored n within state ?_⟩
      · rw [extended, List.length_append]
        exact Nat.lt_add_right _ finalized.executed
      · rwa [extended, List.getElem?_append_left (Nat.lt_of_le_of_lt within finalized.executed)]
          at here
  | openBlock | transfers | governance | external => exact finalized

theorem Final.step (final : world.Final setting)
    (reachable : (runs setting honest config).Reachable world)
    (step : world.Step setting honest world')
    (free : ¬ Collides setting.blake2 (world.network.recorded setting.blake2)) :
    world'.Final setting := by
  have headers : ∀ {domain epochId header},
      (world.network.chains domain).epochs.summaryHeaders epochId = some header →
        (world'.network.chains domain).epochs.summaryHeaders epochId = some header :=
    fun stored => headers_step reachable step free _ stored
  cases step with
  | act acting action enabled =>
      refine ⟨?_, final.justified, fun domain state listed epochId header found => ?_⟩
      · exact (forall_update_iff world.states fun domain states =>
          Finalized setting states (world.ledgers domain)).mpr
          ⟨(final.finalized acting).extend _ action, fun domain _ => final.finalized domain⟩
      · change state ∈ update world.states acting _ domain at listed
        by_cases same : domain = acting
        · subst same
          rw [update_self] at listed
          rcases mem_extended listed with before | now
          · exact headers (final.kept domain state before epochId header found)
          · change (update world.network.chains domain _ domain).epochs.summaryHeaders epochId = _
            rw [update_self, ← now, found]
        · rw [update_of_ne same] at listed
          exact headers (final.kept domain state listed epochId header found)
  | finalize acting ledger finalized grown =>
      refine ⟨?_, ?_, final.kept⟩
      · exact (forall_update_iff world.ledgers fun domain ledger =>
          Finalized setting (world.states domain) ledger).mpr
          ⟨finalized, fun domain _ => final.finalized domain⟩
      · exact (forall_update_iff world.ledgers fun domain ledger =>
          ∀ justification ∈ world.signed domain, ledger.Has
            (setting.grandpa.targetHash justification)
            (setting.grandpa.targetNumber justification)).mpr
          ⟨fun justification listed => grown _ _ (final.justified acting justification listed),
            fun domain _ => final.justified domain⟩
  | justify acting justification block =>
      refine ⟨final.finalized, ?_, final.kept⟩
      exact (forall_update_iff world.signed fun domain signed => ∀ justification ∈ signed,
        (world.ledgers domain).Has (setting.grandpa.targetHash justification)
          (setting.grandpa.targetNumber justification)).mpr
        ⟨List.forall_mem_cons.mpr ⟨block, final.justified acting⟩,
          fun domain _ => final.justified domain⟩
  | serve => exact ⟨final.finalized, final.justified, final.kept⟩
  | submit => exact ⟨final.finalized, final.justified, final.kept⟩

/-- An importer only has a package in process that a chain has certified, and only asks for what the
package says. -/
structure Careful (setting : Setting Balances Header Justification Authority)
    (network : Network Balances) (domain : DomainId) (importer : Importer)
    (pending : Option (NodeProgram Answer)) : Prop where
  draws : importer.processor.Draws
  asks : ∀ program, pending = some program → ∃ job, importer.processor.job? = some job ∧
    program.Confined (NodeRequest.Keeps (Submission job.package job.items))
  verified : Deployment.Verified setting.blake2 setting.codec (certified setting) domain importer
  sourced : ∀ job, importer.processor.job? = some job →
    network.Certified job.package ∧ job.items.strings setting.blake2 ⊆ network.checked

theorem certified_step (reachable : (runs setting honest config).Reachable world)
    (step : world.Step setting honest world')
    (free : ¬ Collides setting.blake2 (world.network.recorded setting.blake2))
    {package : CertifiedSummaryPackage} (certified : world.network.Certified package) :
    world'.network.Certified package := by
  obtain ⟨source, epoch, stored⟩ := certified
  exact ⟨source, epoch, headers_step reachable step free source stored⟩

theorem checked_step (step : world.Step setting honest world') :
    world.network.checked ⊆ world'.network.checked := by
  cases step with
  | act => exact List.subset_append_left _ _
  | serve => exact List.subset_append_left _ _
  | finalize | justify | submit => exact List.Subset.refl _

theorem warranted_step (reachable : (runs setting honest config).Reachable world)
    (step : world.Step setting honest world')
    (free : ¬ Collides setting.blake2 (world.network.recorded setting.blake2)) {domain : DomainId}
    {runtimeCall : RuntimeCall}
    (warranted : world.network.Warranted setting.blake2 setting.codec domain runtimeCall
      world.network.checked) :
    world'.network.Warranted setting.blake2 setting.codec domain runtimeCall
      world'.network.checked := by
  obtain ⟨package, items, certified, accepted, submission, logged⟩ := warranted
  exact ⟨package, items, certified_step reachable step free certified, accepted, submission,
    List.Subset.trans logged (checked_step step)⟩

theorem Final.certified_of_started (final : world.Final setting)
    {importer : Importer} {now : UInt64} {identity : PackageIdentity} {queue : List PackageIdentity}
    {payload : Bytes} {package : CertifiedSummaryPackage} {items : VerifiedPackageItems}
    {domain : DomainId} (admitted : world.Admits setting importer (.start now))
    (ready : importer.processor = .ready (identity :: queue))
    (stored : importer.store.payloads identity = some payload)
    (checked : checkPackage setting.blake2 setting.codec (certified setting) domain payload =
      .ok (package, items)) :
    world.network.Certified package ∧
      verifyPackageFlow setting.blake2 setting.codec package domain = .ok items := by
  obtain ⟨decoded, _, accepted, flow⟩ := checkPackage_eq_ok.mp checked
  exact ⟨final.certified_of_accepted (admitted identity queue payload _ ready stored decoded)
    accepted, flow⟩

theorem Careful.warranted {network : Network Balances} {domain : DomainId}
    {importer : Importer} {nonce : UInt32} {runtimeCall : RuntimeCall}
    {resume : Except String String → NodeProgram Answer}
    (careful : Careful setting network domain importer
      (some (.ask (.submitExtrinsic nonce runtimeCall) resume))) :
    network.Warranted setting.blake2 setting.codec domain runtimeCall network.checked := by
  obtain ⟨job, busy, confined⟩ := careful.asks _ rfl
  obtain ⟨certified, logged⟩ := careful.sourced job busy
  obtain ⟨_, _, _, checked⟩ := careful.verified.passed job busy
  obtain ⟨_, _, _, accepted⟩ := checkPackage_eq_ok.mp checked
  exact ⟨job.package, job.items, certified, accepted, confined.1, logged⟩

theorem hashedNext_eq {importer : Importer} {identity : PackageIdentity}
    {queue : List PackageIdentity} {payload : Bytes} {package : CertifiedSummaryPackage}
    {items : VerifiedPackageItems} (ready : importer.processor = .ready (identity :: queue))
    (stored : importer.store.payloads identity = some payload)
    (checked : checkPackage setting.blake2 setting.codec (certified setting)
      importer.store.domainId payload =
      .ok (package, items)) : hashedNext setting importer = items.strings setting.blake2 := by
  simp only [hashedNext, ready, stored, checked, Except.toOption,
    Option.toList_some, List.flatMap_cons, List.flatMap_nil, List.append_nil]

theorem Careful.serve (careful : Careful setting world.network domain (world.importers domain)
    (world.pending domain)) (final : world.Final setting) {deployment : Deployment}
    (step : Deployment.Step setting.blake2 setting.codec (World.certified setting)
      (world.Admits setting) honest (world.deployment domain) deployment) :
    Careful setting (world.served setting domain deployment).network domain deployment.importer
      deployment.pending := by
  have advances := Deployment.advances_step step careful.draws
  have authorized : deployment.Authorized :=
    Deployment.Authorized.step ⟨careful.draws, careful.asks⟩ step
  refine ⟨authorized.draws, authorized.asks, careful.verified.step careful.draws step,
    fun job busy => ?_⟩
  rcases advances.job job busy with before | ⟨event, admitted, taken⟩
  · obtain ⟨certified, logged⟩ := careful.sourced job before
    exact ⟨certified, List.subset_append_of_subset_left _ logged⟩
  · obtain ⟨_, _, _, _, started, ready, stored, checked⟩ := taken
    subst started
    refine ⟨(final.certified_of_started admitted ready stored checked).1, ?_⟩
    rw [← hashedNext_eq ready stored checked]
    exact List.subset_append_right _ _

structure Diligent (setting : Setting Balances Header Justification Authority)
    (world : World Balances Justification setting.primitives.headers) : Prop where
  importers : ∀ domain, Careful setting world.network domain (world.importers domain)
    (world.pending domain)
  warranted : ∀ domain, ∀ runtimeCall ∈ world.submitted domain,
    world.network.Warranted setting.blake2 setting.codec domain runtimeCall world.network.checked

theorem Diligent.step (diligent : world.Diligent setting) (final : world.Final setting)
    (reachable : (runs setting honest config).Reachable world)
    (step : world.Step setting honest world')
    (free : ¬ Collides setting.blake2 (world.network.recorded setting.blake2)) :
    world'.Diligent setting := by
  have checked := checked_step step
  have careful : ∀ domain,
      Careful setting world'.network domain (world.importers domain) (world.pending domain) := by
    intro domain
    have before := diligent.importers domain
    refine ⟨before.draws, before.asks, before.verified, fun job busy => ?_⟩
    obtain ⟨certified, logged⟩ := before.sourced job busy
    exact ⟨certified_step reachable step free certified, List.Subset.trans logged checked⟩
  have warranted : ∀ domain, ∀ runtimeCall ∈ world.submitted domain,
      world'.network.Warranted setting.blake2 setting.codec domain runtimeCall
        world'.network.checked :=
    fun domain runtimeCall listed =>
      warranted_step reachable step free (diligent.warranted domain runtimeCall listed)
  cases step with
  | act => exact ⟨careful, warranted⟩
  | finalize => exact ⟨careful, warranted⟩
  | justify => exact ⟨careful, warranted⟩
  | serve acting deployment served same =>
      refine ⟨fun domain => ?_, warranted⟩
      change Careful setting _ domain (update world.importers acting _ domain)
        (update world.pending acting _ domain)
      by_cases here : domain = acting
      · subst here
        rw [update_self, update_self]
        exact (diligent.importers domain).serve final served
      · rw [update_of_ne here, update_of_ne here]
        exact careful domain
  | submit acting nonce submitted resume asking =>
      refine ⟨careful, ?_⟩
      exact (forall_update_iff world.submitted fun domain submitted => ∀ runtimeCall ∈ submitted,
        world.network.Warranted setting.blake2 setting.codec domain runtimeCall
          world.network.checked).mpr
        ⟨List.forall_mem_cons.mpr ⟨(asking ▸ careful acting).warranted, warranted acting⟩,
          fun domain _ => warranted domain⟩

end Steps

section Refinement

variable {setting : Setting Balances Header Justification Authority} {honest : Prop}
  {config : DomainId → GenesisConfig Balances}
  {world : World Balances Justification setting.primitives.headers}

/-- The chains are those of a network whose importers act on packages, and which have hashed what is
on record. -/
def Packaged (setting : Setting Balances Header Justification Authority)
    (config : DomainId → GenesisConfig Balances)
    (world : World Balances Justification setting.primitives.headers) : Prop :=
  ∃ log ⊆ world.network.checked, (Network.system setting.blake2 setting.currency
    (Network.packagePermits setting.blake2 setting.codec) config).Reachable
    ⟨world.network.chains, log⟩

theorem Packaged.step {world' : World Balances Justification setting.primitives.headers}
    (packaged : world.Packaged setting config) (diligent : world.Diligent setting)
    (step : world.Step setting honest world') : world'.Packaged setting config := by
  obtain ⟨log, logged, reached⟩ := packaged
  have checked := checked_step step
  cases step with
  | act domain action enabled signed =>
      refine ⟨log ++ world.network.checked, ?_,
        .next reached ⟨domain, action, world.network.checked, enabled, ?_, rfl⟩⟩
      · exact List.append_subset.mpr ⟨List.Subset.trans logged checked, checked⟩
      · intro runtimeCall imports
        exact (signed runtimeCall imports).imp_right fun listed =>
          diligent.warranted domain runtimeCall listed
  | serve => exact ⟨log, List.Subset.trans logged checked, reached⟩
  | finalize | justify | submit => exact ⟨log, logged, reached⟩

theorem initial_diligent (initial : world.Initial setting config) : world.Diligent setting := by
  refine ⟨fun domain => ?_, fun domain runtimeCall listed => ?_⟩
  · rw [initial.importers, initial.pending]
    refine ⟨Processor.draws_idle rfl, fun program asked => ?_,
      ⟨rfl, fun identity payload stored => ?_, fun job busy => ?_⟩, fun job busy => ?_⟩
    · cases asked
    · cases stored
    · cases busy
    · cases busy
  · rw [initial.submitted] at listed
    cases listed

theorem initial_final (initial : world.Initial setting config) : world.Final setting := by
  refine ⟨initial.finalized, fun domain justification listed => ?_,
    fun domain state listed epochId header found => ?_⟩
  · rw [initial.signed] at listed
    cases listed
  · rw [initial.states, List.mem_singleton] at listed
    exact listed ▸ found

theorem hashed_subset {chains : DomainId → Chain Balances} {checked checked' : List Bytes}
    (sub : checked ⊆ checked') : (⟨chains, checked⟩ : Network Balances).hashed ⊆
      (⟨chains, checked'⟩ : Network Balances).recorded setting.blake2 :=
  List.Subset.trans (List.subset_append_left _ _) (Network.recorded_subset _ sub)

theorem free_of_log {chains : DomainId → Chain Balances} {checked checked' : List Bytes}
    (free : ¬ Collides setting.blake2
      ((⟨chains, checked'⟩ : Network Balances).recorded setting.blake2))
    (sub : checked ⊆ checked') :
    ¬ Collides setting.blake2 (⟨chains, checked⟩ : Network Balances).hashed := by
  intro collides
  exact free (collides.mono (hashed_subset sub))

variable (reachable : (runs setting honest config).Reachable world)
  (free : ¬ Collides setting.blake2 (world.network.recorded setting.blake2))
include reachable free

theorem packaged_of_reachable :
    world.Final setting ∧ world.Diligent setting ∧ world.Packaged setting config := by
  refine reachable.guarded_invariant (fun world =>
    ¬ Collides setting.blake2 (world.network.recorded setting.blake2))
    (fun world => world.Final setting ∧ world.Diligent setting ∧ world.Packaged setting config) ?_
      ?_ ?_ free
  · intro before after reached step
    exact free_of_step reached step
  · intro world initial
    refine ⟨initial_final initial, initial_diligent initial, [], List.nil_subset _, .start ?_⟩
    change (⟨world.network.chains, []⟩ : Network Balances) = _
    rw [initial.network]
    rfl
  · intro before after reached free held step
    have earlier := free_of_step reached step free
    exact ⟨held.1.step reached step earlier, held.2.1.step held.1 reached step earlier,
      held.2.2.step held.2.1 step⟩

theorem honest_of_reachable :
    ∃ log ⊆ world.network.checked, (Network.system setting.blake2 setting.currency
      (Network.honestPermits setting.blake2 setting.codec) config).Reachable
      ⟨world.network.chains, log⟩ := by
  obtain ⟨_, _, log, logged, reached⟩ := packaged_of_reachable reachable free
  exact ⟨log, logged, Network.packages_refine _ _ _ _ _ reached fun collides =>
    free (collides.mono (Network.recorded_subset _ logged))⟩

end Refinement

end World

end Ialp
