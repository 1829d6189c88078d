import Ialp.Lib.Tally
import Ialp.Network.Settlement

/-!
What the chains of a network have minted and burned for exports. Each export is settled once, and
together they have minted what they burned and what is in transit.
-/

namespace Ialp.Network

open Scale Function Transition Relation Hashing Books Services

section Totals

variable {Balances : Type}

def minted (network : Network Balances) (domain : DomainId) : List ExportId :=
  (network.chains domain).transfers.mints.map Prod.fst

def burned (network : Network Balances) (domain : DomainId) : List ExportId :=
  (network.chains domain).transfers.burns.map Prod.fst

def totalMinted (network : Network Balances) : ℕ :=
  ∑ domain, ((network.chains domain).transfers.mints.map fun mint => mint.2.2.toNat).sum

def totalBurned (network : Network Balances) : ℕ :=
  ∑ domain, ((network.chains domain).transfers.burns.map fun burn => burn.2.2.toNat).sum

/-- The amount of an export that was minted on its target and is not yet burned on its source. -/
def inTransit (network : Network Balances) (source : DomainId) (id : ExportId) : ℕ :=
  match (network.chains source).transfers.exportsById id with
  | some record =>
      if id ∈ network.minted record.leaf.targetDomain ∧ id ∉ network.burned source then
        record.leaf.amount.toNat
      else 0
  | none => 0

def amountOf (payment : Option (AccountId × U128)) : ℕ :=
  (payment.map fun paid => paid.2.toNat).getD 0

@[simp] theorem amountOf_none : amountOf none = 0 := rfl

@[simp] theorem amountOf_some (paid : AccountId × U128) : amountOf (some paid) = paid.2.toNat := rfl

/-- An export is minted for at most once, on its target, to its recipient and for its amount; its
hold is burned at most once, on its source and for its amount, and not before it was minted for. -/
structure ExactlyOnce (network : Network Balances) (source : DomainId) (id : ExportId)
    (record : ExportRecord) : Prop where
  minted_once : (network.minted record.leaf.targetDomain).count id ≤ 1
  minted_as : ∀ {target recipient amount},
    (id, recipient, amount) ∈ (network.chains target).transfers.mints →
    target = record.leaf.targetDomain ∧ recipient = record.leaf.recipient ∧
      amount = record.leaf.amount
  burned_once : (network.burned source).count id ≤ 1
  burned_as : ∀ {domain sender amount},
    (id, sender, amount) ∈ (network.chains domain).transfers.burns →
    domain = source ∧ sender = record.leaf.sender ∧ amount = record.leaf.amount
  burned_after : id ∈ network.burned source → id ∈ network.minted record.leaf.targetDomain

variable {blake2 : Bytes → Hash32} {currency : Currency Balances} {codec : PackageCodec}
  {config : DomainId → GenesisConfig Balances} {network : Network Balances}
  (reachable : (system blake2 currency (transferPermits blake2 codec) config).Reachable network)
  (free : ¬ Collides blake2 network.hashed)
include reachable free

theorem mem_minted_iff {target : DomainId} {id : ExportId} :
    id ∈ network.minted target ↔ network.Paid target id := by
  rw [minted, (journal_of_network reachable free target).mints.mem_keys_iff,
    Option.ne_none_iff_exists']
  constructor
  · intro paid
    obtain ⟨_, paid⟩ := paid
    obtain ⟨record, stored, final, _⟩ := Transfers.finalizedPayment_eq_some.mp paid
    exact ⟨record, stored, final⟩
  · intro paid
    obtain ⟨record, stored, final⟩ := paid
    exact ⟨_, Transfers.finalizedPayment_eq_some.mpr ⟨record, stored, final, rfl⟩⟩

theorem mem_burned_iff {source : DomainId} {id : ExportId} : id ∈ network.burned source ↔
    ∃ record, (network.chains source).transfers.exportsById id = some record ∧
      record.status = .remoteFinalized := by
  rw [burned, (journal_of_network reachable free source).burns.mem_keys_iff,
    Option.ne_none_iff_exists']
  constructor
  · intro resolved
    obtain ⟨_, resolved⟩ := resolved
    obtain ⟨record, stored, final, _⟩ := Transfers.resolvedPayment_eq_some.mp resolved
    exact ⟨record, stored, final⟩
  · intro resolved
    obtain ⟨record, stored, final⟩ := resolved
    exact ⟨_, Transfers.resolvedPayment_eq_some.mpr ⟨record, stored, final, rfl⟩⟩

section Export

variable {source : DomainId} {id : ExportId} {record : ExportRecord}
  (stored : (network.chains source).transfers.exportsById id = some record)
include stored

theorem payment_of_export {target : DomainId} {paid : AccountId × U128}
    (payment : Transfers.finalizedPayment
      ((network.chains target).transfers.observedImportsById id) = some paid) :
    target = record.leaf.targetDomain ∧ paid = (record.leaf.recipient, record.leaf.amount) := by
  obtain ⟨entry, observed, _, same⟩ := Transfers.finalizedPayment_eq_some.mp payment
  obtain ⟨other, found, exported, targeted, recipient, amount⟩ :=
    (settled_of_reachable reachable free).imported observed
  have here := source_unique reachable free stored exported
  subst here
  cases Option.some.inj (stored.symm.trans exported)
  rw [recipient, amount]
  exact ⟨targeted.symm, same.symm⟩

theorem resolution_of_export {domain : DomainId} {paid : AccountId × U128}
    (resolution : Transfers.resolvedPayment ((network.chains domain).transfers.exportsById id) =
      some paid) :
    domain = source ∧ paid = (record.leaf.sender, record.leaf.amount) := by
  obtain ⟨entry, exported, _, same⟩ := Transfers.resolvedPayment_eq_some.mp resolution
  have here := source_unique reachable free stored exported
  subst here
  cases Option.some.inj (stored.symm.trans exported)
  exact ⟨rfl, same.symm⟩

theorem exactlyOnce_of_export : network.ExactlyOnce source id record where
  minted_once := (journal_of_network reachable free _).mints.count_le_one id
  minted_as := by
    intro target recipient amount mint
    have payment := ((journal_of_network reachable free target).mints.mem_iff _ _).mp mint
    obtain ⟨targeted, paid⟩ := payment_of_export reachable free stored payment
    cases paid
    exact ⟨targeted, rfl, rfl⟩
  burned_once := (journal_of_network reachable free _).burns.count_le_one id
  burned_as := by
    intro domain sender amount burn
    have resolution := ((journal_of_network reachable free domain).burns.mem_iff _ _).mp burn
    obtain ⟨here, paid⟩ := resolution_of_export reachable free stored resolution
    cases paid
    exact ⟨here, rfl, rfl⟩
  burned_after := by
    intro burn
    obtain ⟨entry, found, final⟩ := (mem_burned_iff reachable free).mp burn
    cases Option.some.inj (stored.symm.trans found)
    exact (mem_minted_iff reachable free).mpr
      ((settled_of_reachable reachable free).resolved stored final)

theorem minted_of_export :
    amountOf (Transfers.finalizedPayment
        ((network.chains record.leaf.targetDomain).transfers.observedImportsById id)) =
      amountOf (Transfers.resolvedPayment ((network.chains source).transfers.exportsById id)) +
        network.inTransit source id := by
  have once := exactlyOnce_of_export reachable free stored
  have mints := (journal_of_network reachable free record.leaf.targetDomain).mints
  have burns := (journal_of_network reachable free source).burns
  rw [inTransit, stored]
  cases payment : Transfers.finalizedPayment
      ((network.chains record.leaf.targetDomain).transfers.observedImportsById id) with
  | none =>
      have unminted : id ∉ network.minted record.leaf.targetDomain := fun member =>
        mints.mem_keys_iff.mp member payment
      have unresolved : Transfers.resolvedPayment (some record) = none := by
        by_contra resolved
        exact unminted (once.burned_after (burns.mem_keys_iff.mpr (stored ▸ resolved)))
      simp [unminted, unresolved]
  | some paid =>
      have member : id ∈ network.minted record.leaf.targetDomain := by
        apply mints.mem_keys_iff.mpr
        rw [payment]
        exact Option.some_ne_none paid
      obtain ⟨_, same⟩ := payment_of_export reachable free stored payment
      subst same
      by_cases resolved : record.status = .remoteFinalized
      · have burn : id ∈ network.burned source :=
          (mem_burned_iff reachable free).mpr ⟨record, stored, resolved⟩
        simp [Transfers.resolvedPayment, resolved, burn]
      · have unburned : id ∉ network.burned source := by
          intro burn
          obtain ⟨entry, found, final⟩ := (mem_burned_iff reachable free).mp burn
          cases Option.some.inj (stored.symm.trans found)
          exact resolved final
        simp [Transfers.resolvedPayment, resolved, member, unburned]

end Export

theorem minted_of_id (id : ExportId) :
    ∑ domain,
      amountOf (Transfers.finalizedPayment
        ((network.chains domain).transfers.observedImportsById id)) =
      ∑ domain,
        (amountOf (Transfers.resolvedPayment ((network.chains domain).transfers.exportsById id)) +
        network.inTransit domain id) := by
  by_cases exported : ∃ source record,
    (network.chains source).transfers.exportsById id = some record
  · obtain ⟨source, record, stored⟩ := exported
    have elsewhere : ∀ domain, domain ≠ source →
        (network.chains domain).transfers.exportsById id = none := by
      intro domain other
      by_contra found
      obtain ⟨entry, found⟩ := Option.ne_none_iff_exists'.mp found
      exact other (source_unique reachable free found stored)
    rw [Finset.sum_eq_single record.leaf.targetDomain, Finset.sum_eq_single source]
    · exact minted_of_export reachable free stored
    · intro domain _ other
      simp [elsewhere domain other, inTransit, Transfers.resolvedPayment]
    · simp
    · intro domain _ other
      cases payment : Transfers.finalizedPayment
        ((network.chains domain).transfers.observedImportsById id) with
      | none => rfl
      | some paid => exact absurd (payment_of_export reachable free stored payment).1 other
    · simp
  · have nowhere : ∀ domain, (network.chains domain).transfers.exportsById id = none := by
      intro domain
      by_contra found
      obtain ⟨entry, found⟩ := Option.ne_none_iff_exists'.mp found
      exact exported ⟨domain, entry, found⟩
    have unpaid : ∀ domain,
        Transfers.finalizedPayment ((network.chains domain).transfers.observedImportsById id) =
          none := by
      intro domain
      by_contra payment
      obtain ⟨paid, payment⟩ := Option.ne_none_iff_exists'.mp payment
      obtain ⟨entry, observed, _⟩ := Transfers.finalizedPayment_eq_some.mp payment
      obtain ⟨source, record, stored, _⟩ := (settled_of_reachable reachable free).imported observed
      exact exported ⟨source, record, stored⟩
    simp [nowhere, unpaid, inTransit, Transfers.resolvedPayment]

theorem totalMinted_eq : network.totalMinted = ∑ domain, ∑ id,
    amountOf (Transfers.finalizedPayment
      ((network.chains domain).transfers.observedImportsById id)) := by
  apply Finset.sum_congr rfl
  intro domain _
  exact (journal_of_network reachable free domain).mints.sum_eq fun paid => paid.2.toNat

theorem totalBurned_eq : network.totalBurned = ∑ domain, ∑ id,
    amountOf (Transfers.resolvedPayment ((network.chains domain).transfers.exportsById id)) := by
  apply Finset.sum_congr rfl
  intro domain _
  exact (journal_of_network reachable free domain).burns.sum_eq fun paid => paid.2.toNat

theorem minted_conserved : network.totalMinted = network.totalBurned + ∑ source, ∑ id,
    network.inTransit source id := by
  calc network.totalMinted
      = ∑ domain, ∑ id,
          amountOf (Transfers.finalizedPayment
            ((network.chains domain).transfers.observedImportsById id)) :=
        totalMinted_eq reachable free
    _ = ∑ domain, ∑ id,
      (amountOf (Transfers.resolvedPayment ((network.chains domain).transfers.exportsById id)) +
          network.inTransit domain id) := by
        rw [Finset.sum_comm, Finset.sum_congr rfl fun id _ => minted_of_id reachable free id,
          Finset.sum_comm]
    _ = network.totalBurned + ∑ source, ∑ id, network.inTransit source id := by
        simp only [Finset.sum_add_distrib, totalBurned_eq reachable free]

end Totals

/-- Settlement between the domains is exactly-once and conserving. In every state of every run of
the network, each export is minted for and burned as `ExactlyOnce` says, no chain mints or burns for
anything else, and the chains have together minted what they burned and what is in transit. -/
theorem settlement_exactly_once {Balances : Type} (blake2 : Bytes → Hash32) (codec : PackageCodec)
    (currency : Currency Balances) (config : DomainId → GenesisConfig Balances)
    (network : Network Balances)
    (reachable : (system blake2 currency (transferPermits blake2 codec) config).Reachable network)
    (free : ¬ Collides blake2 network.hashed) :
    (∀ source id record, (network.chains source).transfers.exportsById id = some record →
      network.ExactlyOnce source id record) ∧
    (∀ domain id, id ∈ network.minted domain ∨ id ∈ network.burned domain →
      ∃ source record, (network.chains source).transfers.exportsById id = some record) ∧
    network.totalMinted = network.totalBurned + ∑ source, ∑ id, network.inTransit source id := by
  refine ⟨fun source id record stored => exactlyOnce_of_export reachable free stored, ?_,
    minted_conserved reachable free⟩
  intro domain id settled
  cases settled with
  | inl mint =>
      obtain ⟨record, observed, _⟩ := (mem_minted_iff reachable free).mp mint
      obtain ⟨source, entry, stored, _⟩ := (settled_of_reachable reachable free).imported observed
      exact ⟨source, entry, stored⟩
  | inr burn =>
      obtain ⟨record, stored, _⟩ := (mem_burned_iff reachable free).mp burn
      exact ⟨domain, record, stored⟩

section Sample

noncomputable def samplePackage (header : EpochSummaryHeader) (items : VerifiedPackageItems) :
    CertifiedSummaryPackage where
  version := 1
  header := header
  certificate := sampleBundle.certificate
  inclusionProofs :=
    sampleCodec.proof.encode (.summaryHeaderStorageV1 sampleBundle.summaryHeaderStorageProof) ::
    items.proofs.map sampleCodec.proof.encode
  artifacts := []
  packageHash := emptyHash

def soleProof {Leaf : Type} (leaf : Leaf) : LeafInclusionProof Leaf where
  version := 1
  leaf := leaf
  leafIndex := 0
  leafCount := 1
  siblings := []

def forwardItems (leaf : ExportLeaf) : VerifiedPackageItems := ⟨[soleProof leaf], [], []⟩

def completionItems (leaf : FinalizedImportLeaf) : VerifiedPackageItems :=
  ⟨[], [soleProof leaf], []⟩

def offered {Leaf : Type} (check : EpochSummaryHeader → Leaf → Except String Unit) :
    Option EpochSummaryHeader → List Leaf → Option (EpochSummaryHeader × Leaf)
  | some header, leaf :: _ =>
      match check header leaf with
      | .ok _ => some (header, leaf)
      | .error _ => none
  | _, _ => none

theorem offered_eq_some {Leaf : Type} {check : EpochSummaryHeader → Leaf → Except String Unit}
    {found : Option EpochSummaryHeader} {leaves : List Leaf}
    {header : EpochSummaryHeader} {leaf : Leaf}
    (offer : offered check found leaves = some (header, leaf)) :
    found = some header ∧ check header leaf = .ok () := by
  unfold offered at offer
  split at offer
  · split at offer
    · rename_i ok
      cases offer
      exact ⟨rfl, ok⟩
    · cases offer
  · cases offer

def submits {Leaf : Type} (domain : DomainId)
    (offer : Network (AccountId → Chain.Purse) → Option (EpochSummaryHeader × Leaf))
    (call : EpochSummaryHeader → Leaf → Transfers.Call) (strings : Leaf → List Bytes) :
    Turn (AccountId → Chain.Purse) :=
  (domain, fun network =>
    match offer network with
    | some (header, leaf) => (.transfers (.signed emptyHash) (call header leaf), strings leaf)
    | none => (.external (network.chains domain).balances 0, []))

theorem submits_permitted {Leaf : Type} {domain : DomainId}
    {offer : Network (AccountId → Chain.Purse) → Option (EpochSummaryHeader × Leaf)}
    {call : EpochSummaryHeader → Leaf → Transfers.Call} {strings : Leaf → List Bytes}
    (items : Leaf → VerifiedPackageItems) (nonempty : ∀ leaf, (items leaf).proofs ≠ [])
    (checked : ∀ network header leaf, offer network = some (header, leaf) →
      network.Certified (samplePackage header (items leaf)) ∧
        Checked sampleHash (samplePackage header (items leaf)) domain (items leaf))
    (honest : ∀ header leaf, Submits sampleHash (samplePackage header (items leaf))
      (items leaf) (strings leaf) (call header leaf))
    (network : Network (AccountId → Chain.Purse)) :
    transferPermits sampleHash sampleCodec network domain
      ((submits domain offer call strings).2 network).1
      ((submits domain offer call strings).2 network).2 := by
  intro who made acted importer
  cases found : offer network with
  | none => simp [submits, found] at acted
  | some offer' =>
      obtain ⟨header, leaf⟩ := offer'
      simp only [submits, found, Chain.Action.transfers.injEq] at acted ⊢
      obtain ⟨certified, checks⟩ := checked network header leaf found
      refine .inr ⟨samplePackage header (items leaf), items leaf, certified, ?_,
        acted.2 ▸ honest header leaf⟩
      exact verifyPackageFlow_accepts rfl (nonempty leaf) checks

noncomputable def forwardOffer (network : Network (AccountId → Chain.Purse)) :
    Option (EpochSummaryHeader × ExportLeaf) :=
  offered (fun header leaf =>
      checkExportProof sampleHash (samplePackage header (forwardItems leaf)) .moon (soleProof leaf))
    ((network.chains .earth).epochs.summaryHeaders 0)
    (Transfers.canonicalEpochExports (network.chains .earth).transfers 0)

noncomputable def completionOffer (network : Network (AccountId → Chain.Purse)) :
    Option (EpochSummaryHeader × FinalizedImportLeaf) :=
  offered (fun header leaf =>
      checkFinalizedImportProof sampleHash (samplePackage header (completionItems leaf))
        .earth (soleProof leaf))
    ((network.chains .moon).epochs.summaryHeaders 0)
    (Transfers.canonicalEpochFinalizedImports sampleHash (network.chains .moon).transfers 0)

noncomputable def observes : Turn (AccountId → Chain.Purse) :=
  submits .moon forwardOffer (fun header leaf =>
      .observeVerifiedImport
        (observedImportClaim (samplePackage header (forwardItems leaf))
          (exportItem (soleProof leaf))))
    fun leaf => exportFamily.replayPreimages sampleHash (soleProof leaf)

noncomputable def finalizes : Turn (AccountId → Chain.Purse) :=
  submits .moon forwardOffer (fun _ leaf => .finalizeVerifiedImport leaf.exportId) fun _ => []

noncomputable def acknowledges : Turn (AccountId → Chain.Purse) :=
  submits .earth completionOffer (fun header leaf =>
      .acknowledgeRemoteFinalization
        (remoteFinalizationClaim (samplePackage header (completionItems leaf))
          (completionItem (soleProof leaf))))
    fun leaf => importFamily.replayPreimages sampleHash (soleProof leaf)

theorem forward_checked (network : Network (AccountId → Chain.Purse)) (header : EpochSummaryHeader)
    (leaf : ExportLeaf) (offer : forwardOffer network = some (header, leaf)) :
    network.Certified (samplePackage header (forwardItems leaf)) ∧
      Checked sampleHash (samplePackage header (forwardItems leaf)) .moon (forwardItems leaf) := by
  obtain ⟨stored, ok⟩ := offered_eq_some offer
  refine ⟨⟨.earth, 0, stored⟩, fun proof member => ?_, fun _ member =>
    absurd member List.not_mem_nil, fun _ member => absurd member List.not_mem_nil⟩
  rw [List.mem_singleton.mp member]
  exact ok

theorem completion_checked (network : Network (AccountId → Chain.Purse))
    (header : EpochSummaryHeader) (leaf : FinalizedImportLeaf)
    (offer : completionOffer network = some (header, leaf)) :
    network.Certified (samplePackage header (completionItems leaf)) ∧
      Checked sampleHash (samplePackage header (completionItems leaf)) .earth
        (completionItems leaf) := by
  obtain ⟨stored, ok⟩ := offered_eq_some offer
  refine ⟨⟨.moon, 0, stored⟩, fun _ member => absurd member List.not_mem_nil,
    fun proof member => ?_, fun _ member => absurd member List.not_mem_nil⟩
  rw [List.mem_singleton.mp member]
  exact ok

/-- Earth sends five units to Moon, where the import is observed and finalized; Earth acknowledges
it. -/
noncomputable def settlementScript : List (Turn (AccountId → Chain.Purse)) :=
  [opens .earth,
    (.earth, fun _ => (.transfers (.signed emptyHash)
      (.createCrossDomainTransfer .moon emptyHash 5), [])),
    closes .earth, opens .earth, opens .moon, observes, finalizes, closes .moon,
    opens .moon, acknowledges]

theorem settlementScript_permitted :
    ∀ turn ∈ settlementScript, ∀ network : Network (AccountId → Chain.Purse),
    transferPermits sampleHash sampleCodec network turn.1 (turn.2 network).1
      (turn.2 network).2 := by
  have hooks : ∀ domain (network : Network (AccountId → Chain.Purse)) context strings,
      transferPermits sampleHash sampleCodec network domain (.openBlock context) strings := by
    intro domain network context strings who call acted
    cases acted
  have closing : ∀ domain (network : Network (AccountId → Chain.Purse)) totals strings,
      transferPermits sampleHash sampleCodec network domain (.closeBlock totals) strings := by
    intro domain network totals strings who call acted
    cases acted
  simp only [settlementScript, List.forall_mem_cons]
  refine ⟨fun _ => hooks _ _ _ _, ?_, fun _ => closing _ _ _ _, fun _ => hooks _ _ _ _,
    fun _ => hooks _ _ _ _, ?_, ?_, fun _ => closing _ _ _ _, fun _ => hooks _ _ _ _, ?_,
    fun _ member => absurd member List.not_mem_nil⟩
  · intro network who call acted _
    cases acted
    exact .inl ⟨_, _, _, rfl⟩
  · apply submits_permitted forwardItems (fun _ => List.cons_ne_nil _ _) forward_checked
    intro header leaf
    exact .observe _ List.mem_cons_self (List.Subset.refl _)
  · apply submits_permitted forwardItems (fun _ => List.cons_ne_nil _ _) forward_checked
    intro header leaf
    exact .finalize (soleProof leaf) List.mem_cons_self
  · apply submits_permitted completionItems (fun _ => List.cons_ne_nil _ _) completion_checked
    intro header leaf
    exact .acknowledge _ List.mem_cons_self (List.Subset.refl _)

theorem settlement_exactly_once_sample :
    ∃ network, runScript sampleHash Chain.sampleCurrency (fun _ _ _ _ => true)
    (genesis sampleConfig)
        settlementScript = some network ∧
      network.totalMinted = 5 ∧ network.totalBurned = 5 ∧
      (∀ source id record, (network.chains source).transfers.exportsById id = some record →
        network.ExactlyOnce source id record) ∧
      (∀ domain id, id ∈ network.minted domain ∨ id ∈ network.burned domain →
        ∃ source record, (network.chains source).transfers.exportsById id = some record) ∧
      network.totalMinted = network.totalBurned + ∑ source, ∑ id, network.inTransit source id := by
  have evaluated :
      (runScript sampleHash Chain.sampleCurrency (fun _ _ _ _ => true) (genesis sampleConfig)
      settlementScript).map (fun network =>
        (network.totalMinted, network.totalBurned, decide (Collides sampleHash network.hashed))) =
      some (5, 5, false) := by
    decide +kernel
  obtain ⟨network, ran, outcome⟩ := Option.map_eq_some_iff.mp evaluated
  simp only [Prod.mk.injEq, decide_eq_false_iff_not] at outcome
  obtain ⟨minted, burned, free⟩ := outcome
  have reachable := reachable_of_script (fun turn member network _ =>
    settlementScript_permitted turn member network) (.start rfl) ran
  exact ⟨network, ran, minted, burned,
    settlement_exactly_once sampleHash sampleCodec Chain.sampleCurrency sampleConfig
    network reachable free⟩

end Sample

end Ialp.Network
