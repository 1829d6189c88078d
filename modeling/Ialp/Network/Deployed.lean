import Ialp.Network.World

/-!
What holds between the chains of the deployed network. On the way to an example, in which a transfer
is delivered: how a world goes on when one chain acts, when its importer goes on by itself, and when
a transaction is passed on.
-/

namespace Ialp

open Scale Function Transition Relation Hashing Services

namespace World

variable {Balances Header Justification Authority : Type}

section Actions

variable (setting : Setting Balances Header Justification Authority)
  {config : DomainId → GenesisConfig Balances}
  (world : World Balances Justification setting.primitives.headers) (domain : DomainId)
  (actions : List (Chain.Action Balances))

def actedAll : World Balances Justification setting.primitives.headers :=
  actions.foldl (fun world action => world.acted setting domain action) world

theorem actedAll_eq :
    ∃ states, world.actedAll setting domain actions = { world with
      network := ⟨update world.network.chains domain
        (actions.foldl (Chain.apply setting.blake2 setting.currency) (world.network.chains domain)),
        world.network.checked⟩
      states } := by
  induction actions generalizing world with
  | nil => exact ⟨world.states, by simp [actedAll]⟩
  | cons action rest ih =>
      obtain ⟨states, same⟩ := ih (world.acted setting domain action)
      refine ⟨states, same.trans ?_⟩
      simp [acted, Network.act]

variable {setting world domain actions}

theorem actedAll_reachable
    (permitted : ∀ action ∈ actions, ∀ chain runtimeCall, Chain.Imports chain action runtimeCall →
      runtimeCall.Ordinary ∨ runtimeCall ∈ world.submitted domain)
    (ran : (Chain.runScript setting.blake2 setting.currency
      (world.network.chains domain) actions).isSome)
    (reachable : (system setting config).Reachable world) :
    (system setting config).Reachable (world.actedAll setting domain actions) := by
  induction actions generalizing world with
  | nil => exact reachable
  | cons action rest ih =>
      obtain ⟨last, ran⟩ := Option.isSome_iff_exists.mp ran
      obtain ⟨next, applied, later⟩ := Option.bind_eq_some_iff.mp ran
      obtain ⟨enabled, rfl⟩ := Chain.tryApply_eq_some applied
      refine ih (fun action member => permitted action (List.mem_cons_of_mem _ member)) ?_ ?_
      · change (Chain.runScript _ _ (update world.network.chains domain _ domain) rest).isSome
        rw [update_self]
        exact Option.isSome_iff_exists.mpr ⟨last, later⟩
      · exact .next reachable (.act domain action enabled fun runtimeCall imports =>
          permitted action List.mem_cons_self _ runtimeCall imports)

end Actions

section Scenarios

structure Finality (setting : Setting Balances Header Justification Authority) where
  ledgers : DomainId → Ledger setting.primitives.headers
  signed : DomainId → List Justification

def finality {setting : Setting Balances Header Justification Authority}
    (world : World Balances Justification setting.primitives.headers) : Finality setting :=
  ⟨world.ledgers, world.signed⟩

/-- A world that can be reached, with these chains and strings on record, and with the importer of a
domain as given. -/
structure Stands (setting : Setting Balances Header Justification Authority)
    (config : DomainId → GenesisConfig Balances) (domain : DomainId)
    (chains : DomainId → Chain Balances) (strings : List Bytes) (deployment : Deployment)
    (submitted : List RuntimeCall) (final : Finality setting)
    (world : World Balances Justification setting.primitives.headers) : Prop where
  reachable : (system setting config).Reachable world
  network : world.network = ⟨chains, strings⟩
  deployment : world.deployment domain = deployment
  submitted : world.submitted domain = submitted
  final : world.finality = final

variable (setting : Setting Balances Header Justification Authority)
  (config : DomainId → GenesisConfig Balances) (domain : DomainId)
  (chains : DomainId → Chain Balances) (strings : List Bytes) (deployment : Deployment)
  (submitted : List RuntimeCall) (final : Finality setting)

def Attains : Prop := ∃ world,
    Stands setting config domain chains strings deployment submitted final world

variable {setting config domain chains strings deployment submitted final}
  {deployment' : Deployment}
  (attains : Attains setting config domain chains strings deployment submitted final)
include attains

theorem Attains.serve
    (step : ∀ world : World Balances Justification setting.primitives.headers,
      world.finality = final →
      Deployment.Step setting.blake2 setting.codec (certified setting)
      (world.Admits setting) True deployment deployment')
    (same : deployment'.view = deployment.view) {strings' : List Bytes}
    (hashed : strings ++ hashedNext setting deployment.importer = strings') :
    Attains setting config domain chains strings' deployment' submitted final := by
  obtain ⟨world, stands⟩ := attains
  have here := stands.deployment
  have view : deployment.view = (chains domain).nodeView := by
    rw [← here, World.deployment, stands.network]
  refine ⟨world.served setting domain deployment',
    .next stands.reachable (.serve domain _ (here ▸ step world stands.final) ?_), ?_, ?_,
    stands.submitted, stands.final⟩
  · rw [same, view, stands.network]
  · rw [served, stands.network, ← hashed, ← here]
    rfl
  · rw [World.deployment, served, stands.network]
    simp only [update_self, ← view, ← same]

theorem Attains.reply (request : NodeRequest) (reply : request.Reply)
    {resume : request.Reply → NodeProgram Answer}
    (asking : deployment.pending = some (.ask request resume))
    (answered : deployment.view.Answers request reply)
    (quiet : hashedNext setting deployment.importer = []) :
    Attains setting config domain chains strings { deployment with pending := some (resume reply) }
      submitted final :=
  attains.serve (fun _ _ => .reply request resume reply asking fun _ => answered) rfl
    (by rw [quiet, List.append_nil])

theorem Attains.submit {nonce : UInt32} {runtimeCall : RuntimeCall}
    {resume : Except String String → NodeProgram Answer}
    (asking : deployment.pending = some (.ask (.submitExtrinsic nonce runtimeCall) resume)) :
    Attains setting config domain chains strings deployment (runtimeCall :: submitted) final := by
  obtain ⟨world, stands⟩ := attains
  have pending : world.pending domain =
      some (.ask (.submitExtrinsic nonce runtimeCall) resume) := by
    rw [← asking, ← stands.deployment]
    rfl
  refine ⟨_, .next stands.reachable (.submit domain nonce runtimeCall resume pending),
    stands.network, stands.deployment, ?_, stands.final⟩
  change update world.submitted domain (runtimeCall :: world.submitted domain) domain = _
  rw [update_self, stands.submitted]

theorem Attains.acts {actions : List (Chain.Action Balances)}
    (ran : (Chain.runScript setting.blake2 setting.currency (chains domain) actions).isSome)
    (permitted : ∀ action ∈ actions, ∀ chain runtimeCall, Chain.Imports chain action runtimeCall →
      runtimeCall.Ordinary ∨ runtimeCall ∈ submitted) :
    let chain := actions.foldl (Chain.apply setting.blake2 setting.currency) (chains domain)
    Attains setting config domain (update chains domain chain) strings
      { deployment with view := chain.nodeView } submitted final := by
  intro chain
  obtain ⟨world, stands⟩ := attains
  have here : world.network.chains domain = chains domain := by rw [stands.network]
  obtain ⟨states, same⟩ := actedAll_eq setting world domain actions
  refine ⟨world.actedAll setting domain actions, actedAll_reachable ?_ ?_ stands.reachable, ?_, ?_,
    ?_, ?_⟩
  · rw [stands.submitted]
    exact permitted
  · rw [here]
    exact ran
  · rw [same, stands.network]
  · rw [same, ← stands.deployment, World.deployment, here]
    simp only [update_self, chain]
    rfl
  · rw [same]
    exact stands.submitted
  · rw [same]
    exact stands.final

end Scenarios

section Sample

abbrev Purses := AccountId → Chain.Purse

def earthActions : List (Chain.Action Purses) :=
  let openBlock := .openBlock { parentHash := emptyHash, validatorSetHash := emptyHash }
  let closeBlock := .closeBlock {
    stateRoot := emptyHash, extrinsicCount := 1, allExtrinsicsLen := 100, eventCount := 1 }
  [openBlock, .transfers (.signed emptyHash) (.createCrossDomainTransfer .moon emptyHash 5),
    closeBlock, openBlock, closeBlock]

def earthChain : Chain Purses :=
  earthActions.foldl (Chain.apply sampleHash Chain.sampleCurrency)
    (Chain.genesis (Network.sampleConfig .earth))

def earthSummary : EpochSummaryHeader := (earthChain.epochs.summaryHeaders 0).getD finalSummary

def earthLeaf : ExportLeaf :=
  ((Transfers.canonicalEpochExports earthChain.transfers 0).head?).getD
    (moonExport emptyHash 0).leaf

noncomputable def plainCodec : PackageCodec := { sampleCodec with hashInput := fun _ => [] }

def earthBundle : SummaryCertificationBundle where
  certificate := .grandpaV1 { byteCertificate 2 2 2 2 [] with justification := [2] }
  summaryHeaderStorageProof := {
    version := 1, proofBlockNumber := 2, proofBlockHash := byteHeaders.hash 2, proofBlockHeader :=
      [2]
    storageKey := summaryHeaderStorageKey StorageItem.sampleHashers 0, trieNodes := [] }

def earthItems : VerifiedPackageItems := Network.forwardItems earthLeaf

noncomputable def earthPackage : CertifiedSummaryPackage :=
  packageOf sampleHash plainCodec earthSummary earthBundle earthItems

theorem earthItems_checked : Checked sampleHash earthPackage .moon earthItems := by
  refine ⟨fun proof member => ?_, fun _ member => absurd member List.not_mem_nil,
    fun _ member => absurd member List.not_mem_nil⟩
  obtain rfl := List.mem_singleton.mp member
  decide +kernel

/-- Storage proofs for the state of the second block show its summary. -/
noncomputable def stagedPrimitives : Primitives UInt8 where
  headers := byteHeaders
  stateRoot := byteHeaders.hash
  slots := .ofCountable _
  hashers := StorageItem.sampleHashers
  readProofCheck root _ key :=
    if root = byteHeaders.hash 2 ∧ key = summaryHeaderStorageKey StorageItem.sampleHashers 0 then
      .ok (some (encode earthSummary))
    else .error "not in the state"
  display _ := "client error"

def stagedGrandpa : Grandpa Bytes String where
  decode bytes := .ok bytes
  targetHash bytes := byteHeaders.hash (bytes.headD 0)
  targetNumber bytes := (bytes.headD 0).toUInt32
  verify bytes _ _ := ensure (bytes = [2]) "not signed"
  fromSeed seed := .ok seed

noncomputable def sampleSetting : Setting Purses UInt8 Bytes String where
  blake2 := sampleHash
  currency := Chain.sampleCurrency
  codec := plainCodec
  primitives := stagedPrimitives
  build := .checked
  grandpa := stagedGrandpa
  loadSeeds _ := .ok ["//Alice"]

theorem stagedPrimitives_reads {header : UInt8} {nodes : List Bytes} {key value : Bytes} :
    stagedPrimitives.readProofCheck (byteHeaders.hash header) nodes key = .ok (some value) ↔
      header = 2 ∧ key = summaryHeaderStorageKey StorageItem.sampleHashers 0 ∧
        value = encode earthSummary := by
  simp only [stagedPrimitives]
  constructor
  · intro shown
    split at shown
    · rename_i here
      cases shown
      exact ⟨byteHash_injective here.1, here.2, rfl⟩
    · cases shown
  · rintro ⟨rfl, rfl, rfl⟩
    rw [if_pos ⟨rfl, rfl⟩]

theorem earthPackage_certified : certified sampleSetting earthPackage = .ok () := by
  refine (verifyCertification_eq_ok rfl).mpr
    ⟨⟨_, 2, rfl, ⟨_, rfl, plainCodec.proof.decode_encode _⟩, rfl, rfl, rfl, rfl, rfl, ?_, ?_⟩, ?_,
      ["//Alice"], [("//Alice", 1)], [2], rfl, rfl, rfl, rfl, rfl, rfl⟩
  · change _ = summaryHeaderStorageKey _ earthSummary.epochId
    rw [show earthSummary.epochId = 0 by decide +kernel]
    rfl
  · exact stagedPrimitives_reads.mpr ⟨rfl, rfl, rfl⟩
  · change verifyAncestryChain byteHeaders .checked { byteCertificate 2 2 2 2 [] with
      justification := [2] } = .ok ()
    decide +kernel

theorem summaryHeaderStorageKey_inj {epochId epochId' : EpochId}
    (same : summaryHeaderStorageKey StorageItem.sampleHashers epochId =
      summaryHeaderStorageKey StorageItem.sampleHashers epochId') : epochId = epochId' := by
  have entries : (⟨.summaryHeaders, epochId⟩ : (item : StorageItem) × item.Key) =
      ⟨.summaryHeaders, epochId'⟩ :=
    StorageItem.storageKey_injective StorageItem.sampleHashers_distinct same
  exact eq_of_heq (Sigma.mk.inj entries).2

open Classical in
noncomputable def ledgerOf (states : List (Chain Purses)) (height : Nat) (low : height < 256) :
    Ledger byteHeaders where
  height
  header := UInt8.ofNat
  storage n key := states[n]?.bind fun state =>
    if known : ∃ epochId, key = summaryHeaderStorageKey StorageItem.sampleHashers epochId then
      (state.epochs.summaryHeaders known.choose).map encode
    else none
  numbered n within := by
    change (UInt8.ofNat n).toUInt32.toNat = n
    rw [UInt8.toNat_toUInt32, UInt8.toNat_ofNat']
    omega
  linked n below := by
    change sampleHash [UInt8.ofNat (n + 1) - 1] = sampleHash [UInt8.ofNat n]
    congr 2
    simp

theorem storage_ledgerOf {states : List (Chain Purses)} {height n : Nat} {low : height < 256}
    {state : Chain Purses} (here : states[n]? = some state) (epochId : EpochId) :
    (ledgerOf states height low).storage n
      (summaryHeaderStorageKey StorageItem.sampleHashers epochId) =
      (state.epochs.summaryHeaders epochId).map encode := by
  have known : ∃ epochId', summaryHeaderStorageKey StorageItem.sampleHashers epochId =
      summaryHeaderStorageKey StorageItem.sampleHashers epochId' := ⟨epochId, rfl⟩
  simp only [ledgerOf, here, Option.bind_some, dif_pos known]
  rw [← summaryHeaderStorageKey_inj known.choose_spec]

theorem trusted_ledgerOf {states : List (Chain Purses)} {height : Nat} (low : height < 256)
    (second : 2 ≤ height → (states[2]?.bind fun state => state.epochs.summaryHeaders 0) =
      some earthSummary) :
    Trusted stagedPrimitives (ledgerOf states height low) := by
  refine ⟨fun _ _ _ same => byteHash_injective same, fun n within nodes key value shown => ?_⟩
  obtain ⟨byte, rfl, rfl⟩ := stagedPrimitives_reads.mp shown
  change n ≤ height at within
  obtain rfl : n = 2 := by
    have number : (UInt8.ofNat n).toNat = 2 := congrArg UInt8.toNat byte
    rw [UInt8.toNat_ofNat'] at number
    omega
  obtain ⟨state, here, stored⟩ := Option.bind_eq_some_iff.mp (second within)
  rw [storage_ledgerOf here, stored]
  rfl

theorem finalized_ledgerOf {states : List (Chain Purses)} {height : Nat} (low : height < 256)
    (executed : height < states.length) :
    Finalized sampleSetting states (ledgerOf states height low) where
  executed
  stored _ _ _ here epochId := storage_ledgerOf here epochId

abbrev SampleWorld := World Purses Bytes sampleSetting.primitives.headers

noncomputable def initialWorld : SampleWorld where
  network := Network.genesis Network.sampleConfig
  states domain := [(Network.genesis Network.sampleConfig).chains domain]
  ledgers domain := ledgerOf [(Network.genesis Network.sampleConfig).chains domain] 0 (by decide)
  signed _ := []
  importers := .initial
  pending _ := none
  submitted _ := []

theorem initialWorld_initial : initialWorld.Initial sampleSetting Network.sampleConfig where
  network := rfl
  states _ := rfl
  finalized _ := finalized_ledgerOf (by decide) Nat.one_pos
  signed _ := rfl
  importers _ := rfl
  pending _ := rfl
  submitted _ := rfl

/-- Earth has executed its two blocks, which are final, and its authorities have signed the
second. -/
noncomputable def certifiedWorld : SampleWorld :=
  let world := initialWorld.actedAll sampleSetting .earth earthActions
  { world with
    ledgers := update world.ledgers .earth (ledgerOf (world.states .earth) 2 (by decide))
    signed := update world.signed .earth [[2]] }

theorem certifiedWorld_reachable :
    (system sampleSetting Network.sampleConfig).Reachable certifiedWorld := by
  let earthDone := initialWorld.actedAll sampleSetting .earth earthActions
  have acted : (system sampleSetting Network.sampleConfig).Reachable earthDone := by
    refine actedAll_reachable ?_ (by decide +kernel) (.start initialWorld_initial)
    intro action member chain runtimeCall imports
    refine .inl ?_
    cases runtimeCall with
    | transfers call =>
        obtain ⟨who, rfl, _⟩ := imports
        simp only [earthActions, List.mem_cons, List.not_mem_nil, or_false, reduceCtorEq,
          false_or, or_false, Chain.Action.transfers.injEq] at member
        exact ⟨_, _, _, member.2⟩
    | governance call =>
        obtain ⟨who, rfl, _⟩ := imports
        simp [earthActions] at member
  have finalized := Transition.System.Reachable.next acted
    (.finalize .earth (ledgerOf (earthDone.states .earth) 2 (by decide)) ?_ ?_)
  exact .next finalized (.justify .earth [2] ⟨le_refl 2, rfl⟩)
  · exact finalized_ledgerOf (by decide) (by decide +kernel)
  · intro hash number has
    obtain ⟨low, rfl⟩ := has
    change _ ≤ 0 at low
    exact ⟨by change _ ≤ 2; omega, rfl⟩

def earthIdentity : PackageIdentity where
  sourceDomain := .earth
  targetDomain := .moon
  epochId := 0
  packageHash := emptyHash

noncomputable def earthPayload : Bytes := plainCodec.package.encode earthPackage

noncomputable def earthEnvelope : RelayPackageEnvelopeV1 :=
  .create .earth .moon 0 earthSummary.summaryHash emptyHash earthPayload 1 0

noncomputable def earthBody : Bytes := plainCodec.envelope.encode earthEnvelope

theorem earthPackage_hash : earthPackage.packageHash = emptyHash := by
  decide +kernel

theorem earthPackage_checked :
    checkPackage sampleHash plainCodec (certified sampleSetting) .moon earthPayload =
      .ok (earthPackage, earthItems) := by
  have flow : verifyPackageFlow sampleHash plainCodec earthPackage .moon = .ok earthItems :=
    verifyPackageFlow_accepts (packageOf_inclusionProofs _ _ _ _ _)
      (List.cons_ne_nil _ _) earthItems_checked
  exact checkPackage_eq_ok.mpr ⟨plainCodec.package.decode_encode _, by decide +kernel,
    earthPackage_certified, flow⟩

theorem earthBody_opened :
    openEnvelope sampleHash plainCodec .moon earthBody =
      .ok (earthEnvelope, earthPackage, ⟨.earth, .moon, 0, 1⟩) := by
  have inspected : inspectPackageForIngest plainCodec earthPackage .moon =
      .ok ⟨earthPackage.header.domainId, .moon, earthPackage.header.epochId, 1⟩ :=
    inspectPackageForIngest_accepts (packageOf_inclusionProofs _ _ _ _ _)
      (List.cons_ne_nil _ _) earthItems_checked (by decide)
  have source : earthPackage.header.domainId = .earth := by decide +kernel
  have epoch : earthPackage.header.epochId = 0 := by decide +kernel
  have hashed : verifyPackageHash sampleHash plainCodec earthPackage = .ok () := by decide +kernel
  have payload : earthEnvelope.packageBytes = plainCodec.package.encode earthPackage := rfl
  rw [source, epoch] at inspected
  simp only [openEnvelope, earthBody, decodeAs_encode, ok_bind, payload, hashed, inspected,
    bind_eq_ok, ensure_eq_ok]
  exact ⟨(), ⟨rfl, rfl, rfl, rfl, earthPackage_hash.symm, rfl⟩, rfl⟩

def earthRecord : PackageRecord :=
  Store.buildPackageRecord earthIdentity earthSummary.summaryHash 1 0

noncomputable def arrivedStore : Store :=
  ({ (Importer.initial .moon).store with
    payloads := update (fun _ => none) earthIdentity (some earthPayload) } : Store).filed
      earthRecord (.create .moon)

noncomputable def moonImporter (queue : List PackageIdentity) : Importer where
  memory := (ImporterIndex.create .moon).upsertPackage earthRecord
  store := arrivedStore
  processor := .ready queue
  accepted := [earthIdentity]

theorem receive_earthBody :
    (Importer.initial .moon).receive sampleHash plainCodec earthBody 0 = moonImporter [] := by
  have identity : PackageIngestView.identity ⟨.earth, .moon, 0, 1⟩ earthPackage.packageHash =
      earthIdentity := by
    rw [earthPackage_hash]
    rfl
  have received : receivePackage sampleHash plainCodec earthBody 0 (Importer.initial .moon).memory
      (Importer.initial .moon).store = _ := receivePackage_new earthBody_opened rfl rfl rfl
  rw [identity] at received
  rw [Importer.receive, received]
  rfl

noncomputable def moonContacting : Importer where
  memory := (moonImporter []).memory
  store := arrivedStore.filed (earthRecord.verifying 1) (moonImporter []).memory
  processor := .contacting {
    record := earthRecord.verifying 1
    index := (moonImporter []).memory.upsertPackage (earthRecord.verifying 1)
    package := earthPackage
    items := earthItems
    queue := [] }
  accepted := [earthIdentity]

theorem moonImporter_start :
    (moonImporter [earthIdentity]).apply sampleHash plainCodec (certified sampleSetting)
    (.start 1) = moonContacting := by
  have started : beginPackage sampleHash plainCodec (certified sampleSetting) earthIdentity
      [] 1 arrivedStore = _ :=
    beginPackage_contacting (rfl : arrivedStore.loadIndex = .ok (moonImporter []).memory)
      (rfl : (moonImporter []).memory.package earthIdentity = some earthRecord) rfl rfl
        earthPackage_checked [] 1
  have proceeded : (moonImporter [earthIdentity]).apply sampleHash plainCodec
      (certified sampleSetting) (.start 1) =
      (moonImporter [earthIdentity]).proceed
        (beginPackage sampleHash plainCodec (certified sampleSetting) earthIdentity [] 1
        arrivedStore) := rfl
  rw [proceeded, started]
  rfl

def deliveredChains : DomainId → Chain Purses :=
  update (Network.genesis Network.sampleConfig).chains .earth earthChain

def deploymentOf (importer : Importer) (pending : Option (NodeProgram Answer)) : Deployment :=
  ⟨importer, (deliveredChains .moon).nodeView, pending⟩

def Attained (chains : DomainId → Chain Purses) (strings : List Bytes) (deployment : Deployment)
    (submitted : List RuntimeCall) : Prop :=
  Attains sampleSetting Network.sampleConfig .moon chains strings deployment submitted
    certifiedWorld.finality

theorem attained_certified :
    Attained deliveredChains [] (deploymentOf (.initial .moon) none) [] := by
  refine ⟨certifiedWorld, certifiedWorld_reachable, ?_, ?_, ?_, ?_⟩
  · obtain ⟨states, same⟩ := actedAll_eq sampleSetting initialWorld .earth earthActions
    exact congrArg World.network same
  · rfl
  · rfl
  · rfl

theorem earthPackage_unforged {world : SampleWorld}
    (same : world.finality = certifiedWorld.finality) :
    world.Unforged sampleSetting earthPackage := by
  have source : earthPackage.header.domainId = .earth := by decide +kernel
  refine ⟨fun certificate seeds authorities justification shape _ _ justified => ?_, ?_⟩
  · cases shape
    have signed : world.signed = certifiedWorld.signed := congrArg Finality.signed same
    rw [source, signed]
    have decoded : stagedGrandpa.decode [2] = .ok justification := justified.decoded
    cases decoded
    exact List.mem_cons_self
  · have ledgers : world.ledgers = certifiedWorld.ledgers := congrArg Finality.ledgers same
    rw [source, ledgers]
    exact (trusted_ledgerOf (by decide) fun _ => by decide +kernel).genuine earthPackage

theorem attained_contacting :
    Attained deliveredChains (earthItems.strings sampleHash) (deploymentOf moonContacting none)
    [] := by
  have received : Attained deliveredChains [] (deploymentOf (moonImporter []) none) [] := by
    rw [← receive_earthBody]
    exact attained_certified.serve (fun _ _ => .receive earthBody 0) rfl rfl
  have ticked : Attained deliveredChains [] (deploymentOf (moonImporter [earthIdentity]) none) [] :=
    received.serve (fun _ _ => .work .tick trivial (.inr rfl)) rfl rfl
  have hashed : hashedNext sampleSetting (moonImporter [earthIdentity]) =
      earthItems.strings sampleHash :=
    hashedNext_eq rfl (rfl : (moonImporter [earthIdentity]).store.payloads earthIdentity =
      some earthPayload) earthPackage_checked
  have started : ∀ world : SampleWorld, world.finality = certifiedWorld.finality →
      Deployment.Step sampleHash plainCodec (certified sampleSetting)
      (world.Admits sampleSetting) True
        (deploymentOf (moonImporter [earthIdentity]) none) (deploymentOf moonContacting none) := by
    intro world same
    have step : Deployment.Step sampleHash plainCodec (certified sampleSetting)
        (world.Admits sampleSetting) True
        (deploymentOf (moonImporter [earthIdentity]) none) _ := .work (.start 1) ?_ (.inr rfl)
    · rw [Deployment.goOn, deploymentOf, moonImporter_start] at step
      exact step
    intro identity queue payload package ready stored decoded
    cases ready
    cases stored
    have read : plainCodec.package.decode earthPayload = .ok earthPackage :=
      plainCodec.package.decode_encode _
    cases read.symm.trans decoded
    exact earthPackage_unforged same
  exact ticked.serve started rfl hashed

noncomputable def moonImporting : Importer :=
  moonContacting.apply sampleHash plainCodec (certified sampleSetting) (.contact .made 1)

def earthTransfer : TransferItem := exportItem (Network.soleProof earthLeaf)

noncomputable def observation : RuntimeCall :=
  .transfers (.observeVerifiedImport (observedImportClaim earthPackage earthTransfer))

def finalization : RuntimeCall := .transfers (.finalizeVerifiedImport earthTransfer.exportId)

theorem attained_submitted : Attained deliveredChains (earthItems.strings sampleHash)
    (deploymentOf moonImporting
      (some (waitForObservedImportStatus earthTransfer.exportId >>= fun _ =>
      pure (.recorded ["0x01"] "0x02")))) [finalization, observation] := by
  have importing : Attained deliveredChains (earthItems.strings sampleHash)
      (deploymentOf moonImporting (some (processForwardExport earthPackage earthTransfer))) [] :=
    attained_contacting.serve (fun _ _ => .work (.contact .made 1) trivial (.inr rfl)) rfl
      (List.append_nil _)
  have unknown : (deliveredChains .moon).nodeView.observedImportsById earthTransfer.exportId =
      none := by decide +kernel
  have looked := importing.reply (.observedImport earthTransfer.exportId) (.ok none)
    rfl unknown.symm rfl
  have numbered := looked.reply .accountNextIndex (.ok (0 : UInt32)) rfl trivial rfl
  have observing := numbered.reply (.buildExtrinsic 0 observation) (.ok ()) rfl trivial rfl
  have observed := (observing.submit rfl).reply (.submitExtrinsic 0 observation)
    (.ok "0x01") rfl trivial rfl
  have finalizing := observed.reply (.buildExtrinsic 1 finalization) (.ok ()) rfl trivial rfl
  exact (finalizing.submit rfl).reply (.submitExtrinsic 1 finalization) (.ok "0x02") rfl trivial rfl

noncomputable def moonActions : List (Chain.Action Purses) :=
  [.openBlock { parentHash := emptyHash, validatorSetHash := emptyHash },
    .transfers (.signed emptyHash)
    (.observeVerifiedImport (observedImportClaim earthPackage earthTransfer)),
    .transfers (.signed emptyHash) (.finalizeVerifiedImport earthTransfer.exportId)]

noncomputable def moonChain : Chain Purses :=
  moonActions.foldl (Chain.apply sampleHash Chain.sampleCurrency) (deliveredChains .moon)

noncomputable def importedChains : DomainId → Chain Purses := update deliveredChains .moon moonChain

theorem importedChains_facts :
    (moonChain.nodeView.observedImportsById earthTransfer.exportId).map
      ObservedImportRecord.status =
        some .remoteFinalized ∧
      ¬ Collides sampleHash (Network.recorded sampleHash ⟨importedChains,
        earthItems.strings sampleHash⟩) ∧
      Network.totalMinted ⟨importedChains, earthItems.strings sampleHash⟩ = 5 := by
  decide +kernel

noncomputable def moonDone : Importer :=
  moonImporting.apply sampleHash plainCodec (certified sampleSetting)
    (.answer (.recorded ["0x01"] "0x02") 2)

theorem attained_done :
    Attained importedChains (earthItems.strings sampleHash) ⟨moonDone, moonChain.nodeView, none⟩
    [finalization, observation] := by
  have finalized :=
    attained_submitted.acts (by decide +kernel : (Chain.runScript sampleHash Chain.sampleCurrency
    (deliveredChains .moon) moonActions).isSome) ?_
  · obtain ⟨record, stored, final⟩ := Option.map_eq_some_iff.mp importedChains_facts.1
    cases record
    cases final
    have seen := finalized.reply (.observedImport earthTransfer.exportId) (.ok (some _))
      rfl stored.symm rfl
    exact seen.serve (fun _ _ => .answer _ (.recorded ["0x01"] "0x02") 2 rfl (.done _)) rfl
      (List.append_nil _)
  · intro action member chain runtimeCall imports
    refine .inr ?_
    cases runtimeCall with
    | transfers call =>
        obtain ⟨who, rfl, _⟩ := imports
        simp only [moonActions, List.mem_cons, List.not_mem_nil, or_false, reduceCtorEq, false_or,
          Chain.Action.transfers.injEq] at member
        rcases member with ⟨_, rfl⟩ | ⟨_, rfl⟩
        · exact List.mem_cons_of_mem _ List.mem_cons_self
        · exact List.mem_cons_self
    | governance call =>
        obtain ⟨who, rfl, _⟩ := imports
        simp [moonActions] at member

theorem moonDone_acknowledged :
    ∃ record, moonDone.store.packages earthIdentity = some record ∧ record.state = .ackedVerified :=
      ⟨_, rfl, rfl⟩

end Sample

end World

/-- What holds between the chains of the deployed network, whatever relays deliver, nodes answer and
whenever services restart, as long as nothing in a package that an importer takes up is forged and
no two of the hashed strings collide. Each export is minted for and burned as `ExactlyOnce` says,
the chains have together minted what they burned and what is in transit, and what the chains hold
about proposals is in accord. -/
theorem deployed_safe {Balances Header Justification Authority : Type}
    (setting : Setting Balances Header Justification Authority)
    (config : DomainId → GenesisConfig Balances)
    (world : World Balances Justification setting.primitives.headers)
    (reachable : (World.runs setting False config).Reachable world)
    (free : ¬ Collides setting.blake2 (world.network.recorded setting.blake2)) :
    (∀ source id record, (world.network.chains source).transfers.exportsById id = some record →
      world.network.ExactlyOnce source id record) ∧
    world.network.totalMinted = world.network.totalBurned + ∑ source, ∑ id,
      world.network.inTransit source id ∧
    (IdInjective setting.blake2 →
      Governance.Assembly.Accord setting.blake2 world.network.assembly) := by
  obtain ⟨log, logged, honest⟩ := World.honest_of_reachable reachable free
  have transfers := Network.reachable_mono (fun _ _ _ _ permitted => permitted.1) honest
  have assembled :=
    Network.assembly_reachable
      (Network.reachable_mono (fun _ _ _ _ permitted => permitted.2) honest)
  have apart := World.free_of_log free logged
  have conserved := Network.minted_conserved transfers apart
  refine ⟨fun source id record stored => ?_, conserved, fun injective => ?_⟩
  · have once := Network.exactlyOnce_of_export transfers apart stored
    exact ⟨once.minted_once, once.minted_as, once.burned_once, once.burned_as, once.burned_after⟩
  · exact Governance.Assembly.accord_of_reachable injective assembled

theorem deployed_safe_sample :
    ∃ world, (World.runs World.sampleSetting False Network.sampleConfig).Reachable world ∧
      world.network.totalMinted = 5 ∧
      (∀ source id record, (world.network.chains source).transfers.exportsById id = some record →
        world.network.ExactlyOnce source id record) ∧
      world.network.totalMinted = world.network.totalBurned + ∑ source, ∑ id,
        world.network.inTransit source id ∧
      Governance.Assembly.Accord sampleHash world.network.assembly := by
  obtain ⟨world, stands⟩ := World.attained_done
  obtain ⟨_, free, minted⟩ := World.importedChains_facts
  rw [← stands.network] at free minted
  have reachable : (World.runs World.sampleSetting False Network.sampleConfig).Reachable world :=
    World.reachable_of_honest stands.reachable
  obtain ⟨once, conserved, accord⟩ :=
    deployed_safe World.sampleSetting Network.sampleConfig world reachable free
  exact ⟨world, reachable, minted, once, conserved, accord sampleHash_idInjective⟩

end Ialp
