import Ialp.Network.Acknowledged
import Ialp.Runtime.Blocks

/-!
No transfer is ever stuck. From every state of the network the services alone can complete each
export: its epoch closes, the exporter's package takes it to the target, where it is observed and
paid, and the package of the target takes the completion back.
-/

namespace Ialp

open Scale Function Transition Relation Hashing Services

namespace Network

variable {Balances : Type} {blake2 : Bytes → Hash32} {currency : Currency Balances}
  {codec : PackageCodec} {config : DomainId → GenesisConfig Balances}
  {given : DomainId → Chain.Surroundings}
  {bundles : DomainId → EpochId → SummaryCertificationBundle} {network network' : Network Balances}
  {domain : DomainId}

section Steps

def advanced (network : Network Balances) (domain : DomainId) (chain : Chain Balances)
    (strings : List Bytes) : Network Balances where
  chains := update network.chains domain chain
  checked := network.checked ++ strings

@[simp] theorem advanced_self (network : Network Balances) (domain : DomainId)
    (chain : Chain Balances) (strings : List Bytes) :
    (network.advanced domain chain strings).chains domain = chain :=
  update_self _ _ _

theorem advanced_of_ne {other : DomainId} (apart : other ≠ domain) (chain : Chain Balances)
    (strings : List Bytes) :
    (network.advanced domain chain strings).chains other = network.chains other :=
  update_of_ne apart _ _

/-- A package that the exporter of a chain builds for a domain, and that the importer of the domain
accepts. -/
structure Parcel (blake2 : Bytes → Hash32) (codec : PackageCodec)
    (bundles : EpochId → SummaryCertificationBundle) (origin : Chain Balances) (domain : DomainId)
    (package : CertifiedSummaryPackage) (items : VerifiedPackageItems) : Prop where
  built : ∃ e packages, origin.epochs.summaryHeaders e = some package.header ∧
    certifyEpoch blake2 codec package.header (bundles e) e (epochAnswers origin e) = .ok packages ∧
    (domain, package) ∈ packages
  accepted : verifyPackageFlow blake2 codec package domain = .ok items

/-- The work of the services: empty blocks, and the calls that the exporters' packages ask the
importers for. Nobody else acts, and importers hash nothing but the proofs of these packages. -/
inductive Serves (blake2 : Bytes → Hash32) (currency : Currency Balances) (codec : PackageCodec)
    (given : DomainId → Chain.Surroundings)
    (bundles : DomainId → EpochId → SummaryCertificationBundle) (network : Network Balances) :
    Network Balances → Prop where
  | block {domain : DomainId} {chain : Chain Balances}
      (idles : Chain.Idles blake2 (given domain) (network.chains domain) chain) :
      Serves blake2 currency codec given bundles network (network.advanced domain chain [])
  | call {origin domain : DomainId} {package : CertifiedSummaryPackage}
      {items : VerifiedPackageItems} {runtimeCall : RuntimeCall} {action : Chain.Action Balances}
      (parcel : Parcel blake2 codec (bundles origin) (network.chains origin) domain package items)
      (asked : Submission package items runtimeCall)
      (imports : (network.chains domain).Imports action runtimeCall)
      (enabled : (network.chains domain).Enabled currency action) :
      Serves blake2 currency codec given bundles network
        (network.act blake2 currency domain action (items.strings blake2))

variable (blake2 currency codec config given bundles) in
def services : System (Network Balances) where
  initial := (system blake2 currency (packagePermits blake2 codec) config).Reachable
  step := Serves blake2 currency codec given bundles

theorem imports_unique {chain : Chain Balances} {action : Chain.Action Balances}
    {runtimeCall other : RuntimeCall} (imports : chain.Imports action runtimeCall)
    (others : chain.Imports action other) : other = runtimeCall := by
  cases runtimeCall with
  | transfers =>
      obtain ⟨_, acting, _⟩ := imports
      cases other with
      | transfers => obtain ⟨_, same, _⟩ := others; cases acting.symm.trans same; rfl
      | governance => obtain ⟨_, same, _⟩ := others; cases acting.symm.trans same
  | governance =>
      obtain ⟨_, acting, _⟩ := imports
      cases other with
      | transfers => obtain ⟨_, same, _⟩ := others; cases acting.symm.trans same
      | governance => obtain ⟨_, same, _⟩ := others; cases acting.symm.trans same; rfl

theorem block_permitted {action : Chain.Action Balances}
    (block : ∀ runtimeCall, ¬ (network.chains domain).Imports action runtimeCall) :
    network.packagePermits blake2 codec domain action [] :=
  fun runtimeCall imports => absurd imports (block runtimeCall)

theorem step_of_serves (serves : Serves blake2 currency codec given bundles network network') :
    (system blake2 currency (packagePermits blake2 codec) config).step network network' := by
  cases serves with
  | block idles =>
      cases idles with
      | opens idle room =>
          refine ⟨_, .openBlock _, [], ⟨idle, room⟩, block_permitted ?_, rfl⟩
          rintro (_ | _) ⟨_, other, _⟩ <;> cases other
      | closes inBlock =>
          refine ⟨_, .closeBlock _, [], inBlock, block_permitted ?_, rfl⟩
          rintro (_ | _) ⟨_, other, _⟩ <;> cases other
  | call parcel asked imports enabled =>
      obtain ⟨e, _, closed, _⟩ := parcel.built
      refine ⟨_, _, _, enabled, fun other others => .inr ?_, rfl⟩
      obtain rfl := imports_unique imports others
      exact ⟨_, _, ⟨_, e, closed⟩, parcel.accepted, asked, List.Subset.refl _⟩

theorem reachable_of_serves
    (reachable : (system blake2 currency (packagePermits blake2 codec) config).Reachable network)
    (steps : ReflTransGen (Serves blake2 currency codec given bundles) network network') :
    (system blake2 currency (packagePermits blake2 codec) config).Reachable network' := by
  induction steps with
  | refl => exact reachable
  | tail _ serves reached => exact .next reached (step_of_serves serves)

theorem serves_of_idles {chain : Chain Balances}
    (idles : ReflTransGen (Chain.Idles blake2 (given domain)) (network.chains domain) chain) :
    ReflTransGen (Serves blake2 currency codec given bundles) network
      (network.advanced domain chain []) := by
  induction idles with
  | refl =>
      have same : network.advanced domain (network.chains domain) [] = network := by
        simp only [advanced, update_eq_self, List.append_nil]
      rw [same]
  | @tail middle last _ step steps =>
      have next : Chain.Idles blake2 (given domain)
          ((network.advanced domain middle []).chains domain) last := by
        rwa [advanced_self]
      have served : Serves blake2 currency codec given bundles
          (network.advanced domain middle []) _ := .block next
      simp only [advanced, update_idem, List.append_nil] at served
      simp only [advanced, List.append_nil] at steps ⊢
      exact steps.tail served

def called (chain : Chain Balances) (transfers : Transfers.State) (balances : Balances) :
    Chain Balances :=
  { chain with transfers, balances, extrinsicIndex := chain.extrinsicIndex + 1 }

theorem serves_of_call {origin : DomainId} {package : CertifiedSummaryPackage}
    {items : VerifiedPackageItems} {who : AccountId} {call : Transfers.Call}
    {transfers : Transfers.State} {balances : Balances}
    (parcel : Parcel blake2 codec (bundles origin) (network.chains origin) domain package items)
    (asked : Submission package items (.transfers call))
    (importer : (network.chains domain).transfers.importerAccount = some who)
    (inBlock : (network.chains domain).inBlock = true)
    (room : (network.chains domain).extrinsicIndex.toNat + 1 < 2 ^ 32)
    (dispatched : Transfers.dispatch blake2 currency (network.chains domain).callContext
      (.signed who) call
      (network.chains domain).transfers (network.chains domain).balances =
        .ok (transfers, balances)) :
    Serves blake2 currency codec given bundles network
      (network.advanced domain (called (network.chains domain) transfers balances)
        (items.strings blake2)) := by
  have result : network.act blake2 currency domain (.transfers (.signed who) call)
      (items.strings blake2) =
      network.advanced domain (called (network.chains domain) transfers balances)
      (items.strings blake2) := by
    simp only [act, advanced, Chain.apply, Chain.applyTransfers, dispatched, called]
  rw [← result]
  exact .call parcel asked ⟨who, rfl, importer⟩ ⟨inBlock, room⟩

end Steps

section Parcels

def entries (chain : Chain Balances) (e : EpochId) : ℕ :=
  (chain.transfers.epochExportIds e).length + (chain.transfers.epochFinalizedImportIds e).length +
    (chain.governance.epochGovernanceLeafIds e).length

theorem entries_rested {chain chain' : Chain Balances} (rested : Chain.Rested chain chain') :
    entries chain' = entries chain := by
  funext e
  simp only [entries, rested.exportIds, rested.importIds, rested.leafStore]

theorem sortLeaves_length_le {Leaf : Type} (family : LeafFamily Leaf)
    (lookup : Hash32 → Option Leaf) (ids : List Hash32) :
    (family.sortLeaves (ids.filterMap lookup)).length ≤ ids.length := by
  rw [LeafFamily.sortLeaves, sortBy_length]
  exact List.length_filterMap_le _ _

theorem committedLeaves_count_le (chain : Chain Balances) (e : EpochId) :
    (committedLeaves blake2 chain e).count ≤ entries chain e :=
  Nat.add_le_add (Nat.add_le_add (sortLeaves_length_le _ _ _) (sortLeaves_length_le _ _ _))
    (sortLeaves_length_le _ _ _)

variable {chain : Chain Balances} {genesisConfig : GenesisConfig Balances}
  (running : (Chain.system blake2 currency genesisConfig).Reachable chain)
  (free : ¬ Collides blake2 chain.log) (codec) (bundles : EpochId → SummaryCertificationBundle)
include running free

theorem parcel_of_closed {e : EpochId} (passed : e < chain.epochs.currentEpoch)
    (few : entries chain e < 2 ^ 32)
    (nonempty : inputsFor (committedLeaves blake2 chain e) domain ≠ default) :
    ∃ package items, Parcel blake2 codec bundles chain domain package items ∧
      Carries items (inputsFor (committedLeaves blake2 chain e) domain) := by
  obtain ⟨header, stored⟩ := (Chain.closedEpochs_of_reachable running free).certified passed
  have committed := epochCommitted_of_reachable running free stored
  have read := readEpochLeaves_eq_ok running free stored
  choose items certified carries checked using certifyTarget_eq_ok codec committed
    (Nat.lt_of_le_of_lt (committedLeaves_count_le chain e) few) (bundles e) e
  have listed : domain ∈ targets (committedLeaves blake2 chain e) :=
    List.mem_filter.mpr ⟨by cases domain <;> decide, decide_eq_true nonempty⟩
  refine ⟨packageOf blake2 codec header (bundles e) (items domain), items domain,
    ⟨⟨e, _, stored, certifyEpoch_eq_ok read certified, ?_⟩, ?_⟩, carries domain⟩
  · exact List.mem_map_of_mem listed
  · exact verifyPackageFlow_accepts (packageOf_inclusionProofs _ _ _ _ _)
      ((carries domain).nonempty nonempty) (checked domain)

theorem export_parcel {id : ExportId} {record : ExportRecord}
    (stored : chain.transfers.exportsById id = some record)
    (passed : record.leaf.sourceEpochId < chain.epochs.currentEpoch)
    (few : entries chain record.leaf.sourceEpochId < 2 ^ 32) :
    ∃ package items, Parcel blake2 codec bundles chain record.leaf.targetDomain package items ∧
      ∃ proof ∈ items.exportProofs, proof.leaf = record.leaf := by
  have exports := exports_of_chain running free
  have committed : record.leaf ∈ (committedLeaves blake2 chain record.leaf.sourceEpochId).exports :=
    (Transfers.mem_canonicalEpochExports exports).mpr ⟨record,
      (exports.entry stored).keyed ▸ stored, rfl, rfl⟩
  have member : record.leaf ∈
      (inputsFor (committedLeaves blake2 chain record.leaf.sourceEpochId)
        record.leaf.targetDomain).exportLeaves :=
    List.mem_filter.mpr ⟨committed, decide_eq_true rfl⟩
  have nonempty : inputsFor (committedLeaves blake2 chain record.leaf.sourceEpochId)
      record.leaf.targetDomain ≠ default := by
    intro none
    rw [none] at member
    cases member
  obtain ⟨package, items, parcel, carries⟩ :=
    parcel_of_closed codec running free bundles passed few nonempty
  rw [← carries.exports] at member
  exact ⟨package, items, parcel, List.mem_map.mp member⟩

theorem import_parcel {id : ExportId} {record : ObservedImportRecord} {e : EpochId}
    (stored : chain.transfers.observedImportsById id = some record)
    (final : record.status = .remoteFinalized)
    (listed : id ∈ chain.transfers.epochFinalizedImportIds e)
    (passed : e < chain.epochs.currentEpoch) (few : entries chain e < 2 ^ 32) :
    ∃ package items, Parcel blake2 codec bundles chain record.sourceDomain package items ∧
      ∃ proof ∈ items.finalizedImportProofs, record.finalizedLeaf blake2 = some proof.leaf := by
  obtain ⟨leaf, finalized⟩ : ∃ leaf, record.finalizedLeaf blake2 = some leaf :=
    ⟨_, if_neg (not_not.mpr final)⟩
  have committed : leaf ∈ (committedLeaves blake2 chain e).finalizedImports :=
    LeafFamily.mem_sortLeaves.mpr
      (List.mem_filterMap.mpr ⟨id, listed, Option.bind_eq_some_iff.mpr ⟨record, stored, finalized⟩⟩)
  have named : leaf.sourceDomain = record.sourceDomain :=
    (ObservedImportRecord.finalizedLeaf_eq_some finalized).2.2.2.1
  have member :
      leaf ∈ (inputsFor (committedLeaves blake2 chain e)
        record.sourceDomain).finalizedImportLeaves :=
    List.mem_filter.mpr ⟨committed, decide_eq_true named⟩
  have nonempty : inputsFor (committedLeaves blake2 chain e) record.sourceDomain ≠ default := by
    intro none
    rw [none] at member
    cases member
  obtain ⟨package, items, parcel, carries⟩ :=
    parcel_of_closed codec running free bundles passed few nonempty
  rw [← carries.imports] at member
  obtain ⟨proof, carried, same⟩ := List.mem_map.mp member
  exact ⟨package, items, parcel, proof, carried, same ▸ finalized⟩

end Parcels

section Calls

variable {context : CallContext} {state : Transfers.State} {balances balances' : Balances}
  {who : AccountId}

def observedState (context : CallContext) (who : AccountId) (claim : ObservedImportClaim)
    (state : Transfers.State) : Transfers.State :=
  { state with
    observedImportsById := update state.observedImportsById claim.exportId
      (some (ObservedImportRecord.fromClaim claim context.blockNumber (accountToBytes who))) }

theorem dispatch_observe {claim : ObservedImportClaim} (importer : state.importerAccount = some who)
    (targeted : claim.targetDomain = context.domainId)
    (fresh : state.observedImportsById claim.exportId = none) :
    Transfers.dispatch blake2 currency context (.signed who)
    (.observeVerifiedImport claim) state balances =
      .ok (observedState context who claim state, balances) := by
  simp only [Transfers.dispatch, Transfers.observeVerifiedImport, bind_eq_ok,
    Transfers.ensureImporter_eq_ok, ensure_eq_ok, exists_const]
  exact ⟨_, ⟨who, ⟨rfl, importer⟩, targeted, fresh, rfl⟩, rfl⟩

def finalizedState (context : CallContext) (who : AccountId) (id : ExportId)
    (record : ObservedImportRecord) (state : Transfers.State) : Transfers.State :=
  { state with
    observedImportsById :=
      update state.observedImportsById id (some (Transfers.finalizedRecord context who record))
    epochFinalizedImportIds := update state.epochFinalizedImportIds context.currentEpoch
      (appendOnce id (state.epochFinalizedImportIds context.currentEpoch))
    journal := state.journal ++ [.minted id record.recipient record.amount] }

theorem entries_finalized (chain : Chain Balances) (id : ExportId) (record : ObservedImportRecord)
    (e : EpochId) :
    entries (called chain (finalizedState context who id record chain.transfers) balances') e ≤
      entries chain e + 1 := by
  simp only [entries, called, finalizedState]
  by_cases current : e = context.currentEpoch
  · subst current
    rw [update_self]
    have grown := length_appendOnce_le id
      (chain.transfers.epochFinalizedImportIds context.currentEpoch)
    omega
  · rw [update_of_ne current]
    exact Nat.le_succ _

theorem dispatch_finalize {id : ExportId} {record : ObservedImportRecord}
    (importer : state.importerAccount = some who)
    (found : state.observedImportsById id = some record)
    (targeted : record.targetDomain = context.domainId) (pending : record.status = .remoteObserved)
    (minted : currency.mintInto balances record.recipient record.amount = some balances') :
    Transfers.dispatch blake2 currency context (.signed who)
    (.finalizeVerifiedImport id) state balances =
      .ok (finalizedState context who id record state, balances') := by
  simp only [Transfers.dispatch, Transfers.finalizeVerifiedImport, bind_eq_ok,
    Transfers.ensureImporter_eq_ok, okOr_eq_ok, ensure_eq_ok, exists_const,
    accountFromBytes, Option.some.injEq]
  exact ⟨who, ⟨rfl, importer⟩, record, found, targeted, pending, _, rfl, balances', minted, rfl⟩

theorem dispatch_acknowledge {claim : RemoteFinalizationClaim} {record : ExportRecord}
    (importer : state.importerAccount = some who) (sourced : claim.sourceDomain = context.domainId)
    (found : state.exportsById claim.exportId = some record)
    (source : record.leaf.sourceDomain = claim.sourceDomain)
    (target : record.leaf.targetDomain = claim.targetDomain)
    (facts : record.leaf.sourceEpochId = claim.sourceEpochId ∧
      record.leaf.recipient = claim.recipient ∧
      record.leaf.amount = claim.amount)
    (exported : record.status = .exported)
    (burned : currency.burnHeld balances record.leaf.sender record.leaf.amount = some balances') :
    Transfers.dispatch blake2 currency context (.signed who)
    (.acknowledgeRemoteFinalization claim) state balances =
      .ok ({ state with
        exportsById := update state.exportsById claim.exportId
          (some (Transfers.resolvedRecord context who claim record))
        journal := state.journal ++ [.burned claim.exportId record.leaf.sender record.leaf.amount]
          }, balances') := by
  simp only [Transfers.dispatch, Transfers.acknowledgeRemoteFinalization, bind_eq_ok,
    Transfers.ensureImporter_eq_ok, okOr_eq_ok, ensure_eq_ok, exists_const,
    accountFromBytes, Option.some.injEq]
  exact ⟨who, ⟨rfl, importer⟩, sourced, record, found, source, target,
    facts, by simp [exported], exported, _, rfl, balances', burned, rfl⟩

end Calls

section Stages

structure Departed (chain : Chain Balances) (id : ExportId) (leaf : ExportLeaf) : Prop where
  fresh : chain.Fresh
  passed : leaf.sourceEpochId < chain.epochs.currentEpoch
  stored : ∃ record, chain.transfers.exportsById id = some record ∧ record.leaf = leaf
  importer : ∃ who, chain.transfers.importerAccount = some who
  few : entries chain leaf.sourceEpochId < 2 ^ 32

theorem departs {genesisConfig : GenesisConfig Balances} {chain : Chain Balances} {id : ExportId}
    {record : ExportRecord} (given : Chain.Surroundings)
    (running : (Chain.system blake2 currency genesisConfig).Reachable chain)
    (stored : chain.transfers.exportsById id = some record)
    (opened : record.leaf.sourceEpochId ≤ chain.epochs.currentEpoch)
    (room : chain.number.toNat + 1 + (max genesisConfig.epochLengthBlocks 1).toNat < 2 ^ 32)
    (importer : ∃ who, chain.transfers.importerAccount = some who)
    (few : entries chain record.leaf.sourceEpochId < 2 ^ 32) :
    ∃ chain', ReflTransGen (Chain.Idles blake2 given) chain chain' ∧
      Departed chain' id record.leaf := by
  have kept : ∀ chain', Chain.Ahead blake2 given chain chain' →
      record.leaf.sourceEpochId < chain'.epochs.currentEpoch →
      Departed chain' id record.leaf := by
    intro chain' ahead passed
    exact ⟨ahead.fresh, passed, ahead.rested.leaf stored, ahead.rested.importer ▸ importer,
      entries_rested ahead.rested ▸ few⟩
  have near : chain.number.toNat + 1 < 2 ^ 32 := by omega
  obtain ⟨first, ahead, number⟩ := Chain.ahead_block given running near
  by_cases passed : record.leaf.sourceEpochId < first.epochs.currentEpoch
  · exact ⟨first, ahead.idles, kept first ahead passed⟩
  · have reached := Chain.reachable_of_idles running ahead.idles
    have count : first.number.toNat = chain.number.toNat + 1 := number ▸ UInt32.toNat_succ near
    obtain ⟨last, later, grown⟩ :=
      Chain.ahead_epoch given reached ahead.fresh.inBlock (count.symm ▸ room)
    exact ⟨last, ahead.idles.trans later.idles, kept last (ahead.trans later)
      (UInt64.lt_of_le_of_lt (UInt64.le_trans opened ahead.epoch) grown)⟩

structure Arrived (length : ℕ) (chain : Chain Balances) (id : ExportId) : Prop where
  inBlock : chain.inBlock = true
  room : chain.number.toNat + length < 2 ^ 32
  paid : ∃ record, chain.transfers.observedImportsById id = some record ∧
    record.status = .remoteFinalized
  few : ∀ e, entries chain e < 2 ^ 32

/-- What a target needs to pay for an export: an importer, blocks, room in its lists, and an amount
that can be minted. -/
structure Payable (currency : Currency Balances) (length : ℕ) (chain : Chain Balances)
    (leaf : ExportLeaf) : Prop where
  importer : ∃ who, chain.transfers.importerAccount = some who
  room : chain.number.toNat + 1 + length < 2 ^ 32
  few : ∀ e, entries chain e + 1 < 2 ^ 32
  mintable : ∃ balances, currency.mintInto chain.balances leaf.recipient leaf.amount = some balances

section Payment

variable {source target : DomainId} {chain : Chain Balances} {id : ExportId} {who : AccountId}
  {balances' : Balances} {length : ℕ} {package : CertifiedSummaryPackage}
  {items : VerifiedPackageItems}
  (reachable : (system blake2 currency (packagePermits blake2 codec) config).Reachable network)
  (parcel : Parcel blake2 codec (bundles source) (network.chains source) target package items)
  (here : network.chains target = chain) (inBlock : chain.inBlock = true)
  (room : chain.number.toNat + length < 2 ^ 32)
  (importer : chain.transfers.importerAccount = some who) (few : ∀ e, entries chain e + 1 < 2 ^ 32)
include reachable parcel here inBlock room importer few

theorem pays_observed {record : ObservedImportRecord}
    (index : chain.extrinsicIndex.toNat + 1 < 2 ^ 32)
    (found : chain.transfers.observedImportsById id = some record)
    (pending : record.status = .remoteObserved)
    (minted : currency.mintInto chain.balances record.recipient record.amount = some balances')
    (asked : Submission package items (.transfers (.finalizeVerifiedImport id))) :
    ∃ chain', Serves blake2 currency codec given bundles network
      (network.advanced target chain' (items.strings blake2)) ∧ Arrived length chain' id := by
  subst here
  have running := chain_reachable reachable target
  have same : (network.chains target).domainId = target := Chain.domainId_of_reachable running
  have targeted : record.targetDomain = (network.chains target).domainId :=
    ((Transfers.imports_of_reachable (Chain.ledger_reachable running)).targeted found).trans
      same.symm
  have dispatched : Transfers.dispatch blake2 currency (network.chains target).callContext
      (.signed who) (.finalizeVerifiedImport id)
      (network.chains target).transfers (network.chains target).balances = _ :=
    dispatch_finalize importer found targeted pending minted
  exact ⟨_, serves_of_call parcel asked importer inBlock index dispatched, inBlock, room,
    ⟨_, update_self _ _ _, rfl⟩, fun e => Nat.lt_of_le_of_lt (entries_finalized _ _ _ e) (few e)⟩

theorem pays {leaf : ExportLeaf} {proof : ExportInclusionProof} (index : chain.extrinsicIndex = 0)
    (minted : currency.mintInto chain.balances leaf.recipient leaf.amount = some balances')
    (targeted : leaf.targetDomain = target)
    (agrees : ∀ observed, chain.transfers.observedImportsById id = some observed →
      observed.recipient = leaf.recipient ∧ observed.amount = leaf.amount)
    (apart : source ≠ target) (carried : proof ∈ items.exportProofs) (same : proof.leaf = leaf)
    (keyed : leaf.exportId = id) :
    ∃ network', ReflTransGen (Serves blake2 currency codec given bundles) network network' ∧
      Arrived length (network'.chains target) id ∧ network'.chains source =
        network.chains source := by
  subst here
  have finalizing : Submission package items (.transfers (.finalizeVerifiedImport id)) :=
    keyed ▸ same ▸ .finalize proof carried
  have first : (network.chains target).extrinsicIndex.toNat + 1 < 2 ^ 32 := by
    rw [index]
    decide
  have domain : (network.chains target).domainId = target :=
    Chain.domainId_of_reachable (chain_reachable reachable target)
  cases found : (network.chains target).transfers.observedImportsById id with
  | some observed =>
      obtain ⟨recipient, amount⟩ := agrees observed found
      cases status : observed.status with
      | remoteFinalized =>
          exact ⟨network, .refl,
            ⟨inBlock, room, ⟨observed, found, status⟩, fun e => Nat.lt_of_succ_lt (few e)⟩, rfl⟩
      | remoteObserved =>
          rw [← recipient, ← amount] at minted
          obtain ⟨last, step, arrived⟩ :=
            pays_observed reachable parcel rfl inBlock room importer few first found
              status minted finalizing
          exact ⟨_, .single step, by rwa [advanced_self], advanced_of_ne apart _ _⟩
  | none =>
      let claim := observedImportClaim package (exportItem proof)
      have claimed : claim.targetDomain = (network.chains target).domainId := by
        rw [domain, ← targeted, ← same]
        rfl
      have named : claim.exportId = id := by
        rw [← keyed, ← same]
        rfl
      have absent : (network.chains target).transfers.observedImportsById claim.exportId = none :=
        named ▸ found
      have dispatched : Transfers.dispatch blake2 currency (network.chains target).callContext
          (.signed who) (.observeVerifiedImport claim)
          (network.chains target).transfers (network.chains target).balances = _ :=
        dispatch_observe importer claimed absent
      let next := called (network.chains target)
        (observedState (network.chains target).callContext who claim
          (network.chains target).transfers)
        (network.chains target).balances
      have observing : Serves blake2 currency codec given bundles network
          (network.advanced target next (items.strings blake2)) :=
        serves_of_call parcel (.observe proof carried) importer inBlock first dispatched
      have unchanged : (network.advanced target next (items.strings blake2)).chains source =
          network.chains source :=
        advanced_of_ne apart _ _
      have recorded : next.transfers.observedImportsById id =
          some (.fromClaim claim (network.chains target).number (accountToBytes who)) :=
        update_eq_some.mpr (.inl ⟨named.symm, rfl⟩)
      have second : next.extrinsicIndex.toNat + 1 < 2 ^ 32 := by
        rw [show next.extrinsicIndex = (network.chains target).extrinsicIndex + 1 from rfl, index]
        decide
      rw [← same] at minted
      obtain ⟨last, finalized, arrived⟩ :=
        pays_observed (.next reachable (step_of_serves observing)) (unchanged.symm ▸ parcel)
        (advanced_self _ _ _ _) inBlock room importer few second recorded rfl minted finalizing
      exact ⟨_, .tail (.single observing) finalized, by rwa [advanced_self],
        (advanced_of_ne apart _ _).trans unchanged⟩

end Payment

section Arrival

variable {source : DomainId} {id : ExportId} {leaf : ExportLeaf} {length : ℕ}
  (reachable : (system blake2 currency (packagePermits blake2 codec) config).Reachable network)
  (free : ¬ Collides blake2 network.hashed)
include reachable free

theorem observed_as_exported {record : ExportRecord} {observed : ObservedImportRecord}
    {target : DomainId} (stored : (network.chains source).transfers.exportsById id = some record)
    (found : (network.chains target).transfers.observedImportsById id = some observed) :
    observed.sourceDomain = source ∧ observed.sourceEpochId = record.leaf.sourceEpochId ∧
      record.leaf.targetDomain = target ∧ observed.recipient = record.leaf.recipient ∧
      observed.amount = record.leaf.amount := by
  have honest := reachable_mono (fun _ _ _ _ => transferPermits_of_package) reachable
  obtain ⟨other, entry, announced, targeted, recipient, amount⟩ :=
    (settled_of_reachable honest free).imported found
  obtain ⟨entry', issued, epoch⟩ := sourced_of_reachable honest free found
  have same := source_unique honest free announced stored
  subst same
  have named := source_unique honest free issued stored
  rw [named] at issued
  cases announced.symm.trans stored
  cases issued.symm.trans stored
  exact ⟨named, epoch.symm, targeted, recipient.symm, amount.symm⟩

variable (given bundles) in
theorem arrives (apart : source ≠ leaf.targetDomain)
    (departed : Departed (network.chains source) id leaf)
    (payable : Payable currency length (network.chains leaf.targetDomain) leaf) :
    ∃ network', ReflTransGen (Serves blake2 currency codec given bundles) network network' ∧
      Arrived length (network'.chains leaf.targetDomain) id ∧
      network'.chains source = network.chains source := by
  obtain ⟨record, stored, rfl⟩ := departed.stored
  obtain ⟨who, importer⟩ := payable.importer
  obtain ⟨balances, minted⟩ := payable.mintable
  have running := chain_reachable reachable source
  have unbroken := free_chain free (List.Subset.refl _) source
  obtain ⟨package, items, parcel, proof, carried, same⟩ :=
    export_parcel codec running unbroken (bundles source) stored departed.passed departed.few
  have keyed : record.leaf.exportId = id := ((exports_of_chain running unbroken).entry stored).keyed
  let target := record.leaf.targetDomain
  have near := Nat.lt_of_le_of_lt (Nat.le_add_right _ _) payable.room
  obtain ⟨chain, ahead, number⟩ :=
    Chain.ahead_block (given target) (chain_reachable reachable target) near
  have count : chain.number.toNat = (network.chains target).number.toNat + 1 :=
    number ▸ UInt32.toNat_succ near
  have steps : ReflTransGen (Serves blake2 currency codec given bundles) network
      (network.advanced target chain []) :=
    serves_of_idles ahead.idles
  have unchanged : (network.advanced target chain []).chains source = network.chains source :=
    advanced_of_ne apart _ _
  have agrees : ∀ observed, chain.transfers.observedImportsById id = some observed →
      observed.recipient = record.leaf.recipient ∧ observed.amount = record.leaf.amount := by
    intro observed found
    rw [ahead.rested.imports] at found
    obtain ⟨_, _, _, recipient, amount⟩ := observed_as_exported reachable free stored found
    exact ⟨recipient, amount⟩
  obtain ⟨network', later, arrived, kept⟩ :=
    pays (reachable_of_serves reachable steps) (unchanged.symm ▸ parcel)
    (advanced_self network target chain []) ahead.fresh.inBlock (count.symm ▸ payable.room)
    (ahead.rested.importer.trans importer)
    (entries_rested ahead.rested ▸ payable.few) ahead.fresh.index
    (ahead.rested.balances.symm ▸ minted) rfl agrees apart carried same keyed
  exact ⟨network', steps.trans later, arrived, kept.trans unchanged⟩

end Arrival

structure Provable (chain : Chain Balances) (id : ExportId) : Prop where
  paid : ∃ record, chain.transfers.observedImportsById id = some record ∧
    record.status = .remoteFinalized
  listed : ∃ e < chain.epochs.currentEpoch, id ∈ chain.transfers.epochFinalizedImportIds e ∧
    entries chain e < 2 ^ 32

theorem provable_of_arrived {genesisConfig : GenesisConfig Balances}
    {chain : Chain Balances} {id : ExportId} (given : Chain.Surroundings)
    (running : (Chain.system blake2 currency genesisConfig).Reachable chain)
    (arrived : Arrived (max genesisConfig.epochLengthBlocks 1).toNat chain id) :
    ∃ chain', ReflTransGen (Chain.Idles blake2 given) chain chain' ∧ Provable chain' id := by
  obtain ⟨record, stored, final⟩ := arrived.paid
  have imports := Transfers.imports_of_reachable (Chain.ledger_reachable running)
  obtain ⟨e, listed⟩ := imports.listed stored final
  have opened : e ≤ chain.epochs.currentEpoch := imports.opened listed
  by_cases passed : e < chain.epochs.currentEpoch
  · exact ⟨chain, .refl, ⟨record, stored, final⟩, e, passed, listed, arrived.few e⟩
  · obtain ⟨chain', ahead, grown⟩ := Chain.ahead_epoch given running arrived.inBlock arrived.room
    refine ⟨chain', ahead.idles, ⟨record, ahead.rested.imports ▸ stored, final⟩, e,
      UInt64.lt_of_le_of_lt opened grown, ?_⟩
    rw [ahead.rested.importIds, entries_rested ahead.rested]
    exact ⟨listed, arrived.few e⟩

structure Resolved (network : Network Balances) (source : DomainId) (id : ExportId)
    (leaf : ExportLeaf) : Prop where
  resolved : ∃ record, (network.chains source).transfers.exportsById id = some record ∧
    record.leaf = leaf ∧
    record.status = .remoteFinalized
  paid : network.Paid leaf.targetDomain id

/-- The transfer is completed. The export is resolved. The target has minted its amount once, for
its recipient; the source has burned it once, from the hold of its sender; and what is still on hold
there is for other exports. -/
structure Completed (currency : Currency Balances) (network : Network Balances)
    (source : DomainId) (id : ExportId) (leaf : ExportLeaf) :
    Prop extends Resolved network source id leaf where
  minted : ((network.chains leaf.targetDomain).transfers.mints.filter fun entry => entry.1 = id) =
    [(id, leaf.recipient, leaf.amount)]
  burned : ((network.chains source).transfers.burns.filter fun entry => entry.1 = id) =
    [(id, leaf.sender, leaf.amount)]
  released : (currency.balanceOnHold (network.chains source).balances leaf.sender).toNat =
    ∑ other ∈ Finset.univ.erase id,
      Transfers.heldAmount leaf.sender ((network.chains source).transfers.exportsById other)

theorem held_eq_outstanding {genesisConfig : GenesisConfig Balances} {chain : Chain Balances}
    (running : (Chain.system blake2 currency genesisConfig).Reachable chain)
    (unheld : ∀ account, currency.balanceOnHold genesisConfig.balances account = 0)
    (free : ¬ Collides blake2 chain.log) (account : AccountId) :
    (currency.balanceOnHold chain.balances account).toNat =
      Transfers.outstanding chain.transfers.exportsById account :=
  Transfers.backed_of_reachable unheld (Chain.ledger_reachable running)
    (Chain.idsDistinct_of_free running free) account

theorem Resolved.completed {source : DomainId} {id : ExportId} {leaf : ExportLeaf}
    (done : network.Resolved source id leaf)
    (reachable : (system blake2 currency (packagePermits blake2 codec) config).Reachable network)
    (free : ¬ Collides blake2 network.hashed)
    (unheld : ∀ account, currency.balanceOnHold (config source).balances account = 0) :
    network.Completed currency source id leaf := by
  have honest := reachable_mono (fun _ _ _ _ => transferPermits_of_package) reachable
  obtain ⟨record, stored, rfl, status⟩ := done.resolved
  obtain ⟨observed, found, final⟩ := done.paid
  obtain ⟨_, _, _, recipient, amount⟩ := observed_as_exported reachable free stored found
  refine ⟨done, ?_, ?_, ?_⟩
  · apply (journal_of_network honest free record.leaf.targetDomain).mints.filter_eq
    exact Transfers.finalizedPayment_eq_some.mpr ⟨observed, found, final, by rw [recipient, amount]⟩
  · apply (journal_of_network honest free source).burns.filter_eq
    exact Transfers.resolvedPayment_eq_some.mpr ⟨record, stored, status, rfl⟩
  · have held := held_eq_outstanding (chain_reachable reachable source) unheld
      (free_chain free (List.Subset.refl _) source) record.leaf.sender
    have none : Transfers.heldAmount record.leaf.sender
        ((network.chains source).transfers.exportsById id) = 0 := by
      simp [stored, Transfers.heldAmount, status]
    calc (currency.balanceOnHold (network.chains source).balances record.leaf.sender).toNat
        = Transfers.outstanding (network.chains source).transfers.exportsById record.leaf.sender :=
          held
      _ = _ := by
        rw [Transfers.outstanding, ← Finset.add_sum_erase _ _ (Finset.mem_univ id),
          none, Nat.zero_add]

theorem amount_le_held {genesisConfig : GenesisConfig Balances}
    {chain : Chain Balances} {id : ExportId} {record : ExportRecord}
    (running : (Chain.system blake2 currency genesisConfig).Reachable chain)
    (unheld : ∀ account, currency.balanceOnHold genesisConfig.balances account = 0)
    (free : ¬ Collides blake2 chain.log) (stored : chain.transfers.exportsById id = some record)
    (exported : record.status = .exported) :
    record.leaf.amount ≤ currency.balanceOnHold chain.balances record.leaf.sender := by
  have unresolved : record.status ≠ .remoteFinalized := by simp [exported]
  have held := Transfers.heldAmount_le_outstanding chain.transfers.exportsById id record.leaf.sender
  rw [stored, Transfers.heldAmount_unresolved unresolved, if_pos rfl] at held
  rw [BitVec.le_def]
  exact held_eq_outstanding running unheld free record.leaf.sender ▸ held

variable (given bundles) in
theorem completes {source : DomainId} {id : ExportId} {leaf : ExportLeaf}
    (reachable : (system blake2 currency (packagePermits blake2 codec) config).Reachable network)
    (free : ¬ Collides blake2 network.hashed)
    (unheld : ∀ account, currency.balanceOnHold (config source).balances account = 0)
    (burns : ∀ balances who amount, amount ≤ currency.balanceOnHold balances who →
      ∃ balances', currency.burnHeld balances who amount = some balances')
    (apart : source ≠ leaf.targetDomain) (departed : Departed (network.chains source) id leaf)
    (provable : Provable (network.chains leaf.targetDomain) id) :
    ∃ network', ReflTransGen (Serves blake2 currency codec given bundles) network network' ∧
      network'.Resolved source id leaf := by
  obtain ⟨record, stored, rfl⟩ := departed.stored
  obtain ⟨observed, found, final⟩ := provable.paid
  have running := chain_reachable reachable source
  have unbroken := free_chain free (List.Subset.refl _) source
  have entry := (exports_of_chain running unbroken).entry stored
  cases status : record.status with
  | localFinal =>
      have current := entry.localFinal_iff.mp status
      exact absurd departed.passed (by rw [current]; exact UInt64.lt_irrefl _)
  | remoteFinalized => exact ⟨network, .refl, ⟨record, stored, rfl, status⟩, observed, found, final⟩
  | exported =>
      obtain ⟨e, passed, listed, few⟩ := provable.listed
      obtain ⟨named, epoch, _, recipient, amount⟩ :=
        observed_as_exported reachable free stored found
      obtain ⟨package, items, parcel, proof, carried, finalized⟩ := import_parcel codec
        (chain_reachable reachable record.leaf.targetDomain)
        (free_chain free (List.Subset.refl _) _)
        (bundles record.leaf.targetDomain) found final listed passed few
      rw [named] at parcel
      obtain ⟨who, importer⟩ := departed.importer
      obtain ⟨balances, burned⟩ :=
        burns _ _ _ (amount_le_held running unheld unbroken stored status)
      let claim := remoteFinalizationClaim package (completionItem proof)
      have imports := Transfers.imports_of_reachable
        (Chain.ledger_reachable (chain_reachable reachable record.leaf.targetDomain))
      obtain ⟨_, _, exportId, sourceDomain, targetDomain, sameRecipient, sameAmount⟩ :=
        ObservedImportRecord.finalizedLeaf_eq_some finalized
      have sourceEpochId := ObservedImportRecord.finalizedLeaf_sourceEpochId finalized
      have here : (network.chains source).domainId = source := Chain.domainId_of_reachable running
      have filed : claim.exportId = id := exportId.trans (imports.keyed found)
      have sourced : claim.sourceDomain = source := sourceDomain.trans named
      have dispatched : Transfers.dispatch blake2 currency (network.chains source).callContext
          (.signed who) (.acknowledgeRemoteFinalization claim)
          (network.chains source).transfers (network.chains source).balances = _ :=
        dispatch_acknowledge importer (sourced.trans here.symm) (filed.symm ▸ stored)
          (entry.sourced.trans sourced.symm) ((imports.targeted found).symm.trans targetDomain.symm)
          ⟨(sourceEpochId.trans epoch).symm, (sameRecipient.trans recipient).symm,
            (sameAmount.trans amount).symm⟩
          status burned
      have index : (network.chains source).extrinsicIndex.toNat + 1 < 2 ^ 32 := by
        rw [departed.fresh.index]
        decide
      refine ⟨_, .single (serves_of_call parcel (.complete proof carried) importer
        departed.fresh.inBlock index dispatched),
        ⟨Transfers.resolvedRecord (network.chains source).callContext who claim record, ?_, rfl,
          rfl⟩, observed, ?_, final⟩
      · rw [advanced_self]
        exact update_eq_some.mpr (.inl ⟨filed.symm, rfl⟩)
      · rw [advanced_of_ne apart.symm]
        exact found

end Stages

end Network

open Network

/-- No transfer is ever stuck. Take any state that the network can be in, and any export in it. If
blocks and list entries are left, both chains have an importer, and the target can mint the amount,
then empty blocks and the calls that the exporters' packages ask for lead to a state in which the
transfer is completed, or to one in which two of the strings that the network has hashed collide. -/
theorem transfer_completable {Balances : Type} (blake2 : Bytes → Hash32)
    (currency : Currency Balances) (codec : PackageCodec)
    (config : DomainId → GenesisConfig Balances) (given : DomainId → Chain.Surroundings)
    (bundles : DomainId → EpochId → SummaryCertificationBundle)
    (burns : ∀ balances who amount, amount ≤ currency.balanceOnHold balances who →
      ∃ balances', currency.burnHeld balances who amount = some balances')
    (network : Network Balances)
    (reachable : (system blake2 currency (packagePermits blake2 codec) config).Reachable network)
    (source : DomainId) (unheld : ∀ account,
      currency.balanceOnHold (config source).balances account = 0)
    (id : ExportId) (record : ExportRecord)
    (stored : (network.chains source).transfers.exportsById id = some record)
    (importer : ∃ who, (network.chains source).transfers.importerAccount = some who)
    (room : (network.chains source).number.toNat + 1 +
      (max (config source).epochLengthBlocks 1).toNat < 2 ^ 32)
    (few : entries (network.chains source) record.leaf.sourceEpochId < 2 ^ 32)
    (payable : Payable currency (max (config record.leaf.targetDomain).epochLengthBlocks 1).toNat
      (network.chains record.leaf.targetDomain) record.leaf) :
    (services blake2 currency codec config given bundles).Leads
      (fun network => network.Completed currency source id record.leaf ∨
        Collides blake2 network.hashed)
      network := by
  refine .unless fun free => ?_
  let target := record.leaf.targetDomain
  have running := chain_reachable reachable source
  have entry := (exports_of_chain running (free_chain free (List.Subset.refl _) source)).entry
    stored
  have apart : source ≠ target := entry.targeted.symm
  -- the source closes the epoch of the export
  obtain ⟨closed, idles, departed⟩ :=
    departs (given source) running stored entry.opened room importer few
  have leaving : ReflTransGen (Serves blake2 currency codec given bundles) network
      (network.advanced source closed []) :=
    serves_of_idles idles
  have afterLeaving := reachable_of_serves reachable leaving
  refine .after leaving (.unless fun free => ?_)
  -- the target pays for it
  rw [← advanced_self network source closed []] at departed
  rw [← advanced_of_ne apart.symm closed []] at payable
  obtain ⟨middle, arriving, arrived, kept⟩ :=
    arrives given bundles afterLeaving free apart departed payable
  have afterArriving := reachable_of_serves afterLeaving arriving
  -- the target closes the epoch in which it has paid
  obtain ⟨ended, idles, provable⟩ :=
    provable_of_arrived (given target) (chain_reachable afterArriving target) arrived
  have ending : ReflTransGen (Serves blake2 currency codec given bundles) middle
      (middle.advanced target ended []) :=
    serves_of_idles idles
  refine .after (arriving.trans ending) (.unless fun free => ?_)
  -- the source takes the completion
  rw [← kept, ← advanced_of_ne apart ended []] at departed
  rw [← advanced_self middle target ended []] at provable
  have afterEnding := reachable_of_serves afterArriving ending
  obtain ⟨last, resolving, resolved⟩ :=
    completes given bundles afterEnding free unheld burns apart departed provable
  refine .after resolving (.unless fun free => .now (.inl ?_))
  exact resolved.completed (reachable_of_serves afterEnding resolving) free unheld

section Sample

def departureScript : List (Turn (AccountId → Chain.Purse)) :=
  [opens .earth,
    (.earth, fun _ => (.transfers (.signed emptyHash)
      (.createCrossDomainTransfer .moon emptyHash 5), []))]

theorem departureScript_permitted :
    ∀ turn ∈ departureScript, ∀ network : Network (AccountId → Chain.Purse),
    packagePermits sampleHash sampleCodec network turn.1 (turn.2 network).1 (turn.2 network).2 := by
  simp only [departureScript, List.forall_mem_cons]
  refine ⟨?_, ?_, fun _ member => absurd member List.not_mem_nil⟩
  · rintro network (_ | _) ⟨_, acting, _⟩ <;> cases acting
  · rintro network (_ | _) ⟨_, acting, _⟩
    · cases acting
      exact .inl ⟨_, _, _, rfl⟩
    · cases acting

def sampleSurroundings : Chain.Surroundings where
  context _ := ⟨emptyHash, emptyHash⟩
  totals _ := ⟨emptyHash, 0, 0, 0⟩

theorem transfer_completable_sample :
    ∃ network record, runScript sampleHash Chain.sampleCurrency (fun _ _ _ _ => true)
    (genesis sampleConfig)
        departureScript = some network ∧
      (network.chains .earth).transfers.exportsById (exportId sampleHash .earth 0) = some record ∧
      record.leaf.targetDomain = .moon ∧ record.status = .localFinal ∧
      (services sampleHash Chain.sampleCurrency sampleCodec sampleConfig (fun _ =>
        sampleSurroundings) fun _ _ => sampleBundle).Leads
        (fun network => network.Completed Chain.sampleCurrency .earth
          (exportId sampleHash .earth 0) record.leaf ∨
          Collides sampleHash network.hashed) network := by
  refine ⟨_, _, rfl, rfl, rfl, rfl, ?_⟩
  apply transfer_completable
  · intro balances who amount enough
    exact ⟨_, if_pos enough⟩
  · exact reachable_of_script (fun turn member network _ =>
      departureScript_permitted turn member network) (.start rfl)
      (rfl : runScript _ _ (fun _ _ _ _ => true) _ departureScript = some _)
  · exact fun _ => rfl
  · rfl
  · exact ⟨_, rfl⟩
  · decide
  · decide
  · exact ⟨⟨_, rfl⟩, by decide, fun _ => (by decide : 0 + 1 < 2 ^ 32), ⟨_, rfl⟩⟩

end Sample

end Ialp
