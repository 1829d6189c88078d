import Ialp.Pallets.GovernanceQueue
import Ialp.Pallets.GovernanceRegistry
import Ialp.Runtime.Funds

/-!
Activation on a chain. The epoch advances by at most one in a block, so the hooks that open a block
find every scheduled proposal that is due; a proposal can miss its activation only by losing its
entry to a new proposal with the same id.
-/

namespace Ialp.Chain

open Scale Function Transition Relation Governance

variable {Balances : Type}

section Clear

variable (blake2 : Bytes → Hash32) (currency : Currency Balances)

def Creates (chain : Chain Balances) (action : Action Balances) (id : GovernanceProposalId) :
    Prop :=
  ∃ origin targetDomains newProtocolVersion governance,
    action = .governance origin (.createProposal targetDomains newProtocolVersion) ∧
    dispatch blake2 currency chain.callContext origin
      (.createProposal targetDomains newProtocolVersion)
      chain.balances chain.governance = .ok governance ∧
    chain.governance.nextProposalId blake2 chain.domainId = id

/-- A proposal that is created does not take the id of one that is scheduled or activated. -/
def Unclaimed (chain : Chain Balances) (action : Action Balances) : Prop :=
  ∀ id proposal, chain.Creates blake2 currency action id →
    chain.governance.proposalsById id = some proposal →
    proposal.status ≠ .scheduled ∧ proposal.status ≠ .activated

def clearSystem (config : GenesisConfig Balances) : System (Chain Balances) where
  initial chain := chain = genesis config
  step chain chain' := ∃ action, chain.Enabled currency action ∧
    chain.Unclaimed blake2 currency action ∧
    chain' = chain.apply blake2 currency action

end Clear

variable {blake2 : Bytes → Hash32} {currency : Currency Balances} {config : GenesisConfig Balances}
  {chain chain' : Chain Balances}

theorem reachable_of_clear (reachable : (clearSystem blake2 currency config).Reachable chain) :
    (system blake2 currency config).Reachable chain := by
  apply reachable.project fun chain => chain
  · intro _ initial
    exact initial
  · intro _ _ _ ⟨action, enabled, _, applied⟩
    exact .single ⟨action, enabled, applied⟩

theorem votingLocal_of_reachable (reachable : (system blake2 currency config).Reachable chain) :
    VotingLocal chain.domainId chain.governance := by
  rw [domainId_of_reachable reachable]
  exact Governance.votingLocal_of_reachable (chamber_reachable reachable)

theorem adjacent_epoch {current next : EpochId} (room : current.toNat + 1 < 2 ^ 64)
    (advance : next = current ∨ next = current + 1) :
    current ≤ next ∧ ∀ epoch, current < epoch → epoch ≤ next → epoch = next := by
  rcases advance with same | succ
  · subst same
    exact ⟨UInt64.le_rfl, fun epoch ahead late => absurd ahead (UInt64.not_lt.mpr late)⟩
  · subst succ
    refine ⟨UInt64.le_of_lt (UInt64.lt_succ_self room), fun epoch ahead late => ?_⟩
    rw [UInt64.lt_iff_toNat_lt] at ahead
    rw [UInt64.le_iff_toNat_le, UInt64.toNat_succ room] at late
    rw [← UInt64.toNat_inj, UInt64.toNat_succ room]
    omega

theorem number_succ_ne_zero (bound : chain.number.toNat + 1 < 2 ^ 32) : chain.number + 1 ≠ 0 := by
  intro zero
  have count := UInt32.toNat_succ bound
  rw [zero] at count
  cases count

theorem opened_queued (reachable : (system blake2 currency config).Reachable chain)
    (holds : Queued chain.epochs.currentEpoch chain.governance)
    (bound : chain.number.toNat + 1 < 2 ^ 32)
    (epoch : chain'.epochs.currentEpoch = chain.epochs.currentEpoch ∨
      chain'.epochs.currentEpoch = chain.epochs.currentEpoch + 1)
    (governance : chain'.governance =
      onInitialize chain'.epochs.currentEpoch (chain.number + 1) chain.governance) :
    (∀ id proposal, chain'.governance.proposalsById id = some proposal →
      proposal.status = .scheduled →
      chain'.epochs.currentEpoch < proposal.activationEpoch) ∧
    Queued chain'.epochs.currentEpoch chain'.governance := by
  obtain ⟨forward, adjacent⟩ :=
    adjacent_epoch ((counted_of_reachable reachable).epoch_room bound) epoch
  rw [governance]
  exact holds.opened (number_succ_ne_zero bound) forward adjacent

theorem queued_of_reachable (reachable : (system blake2 currency config).Reachable chain) :
    Queued chain.epochs.currentEpoch chain.governance := by
  apply reachable.invariant fun chain => Queued chain.epochs.currentEpoch chain.governance
  · intro _ initial
    subst initial
    exact genesis_queued _ _ _
  · intro chain _ reached holds ⟨action, enabled, applied⟩
    subst applied
    cases governed_apply blake2 currency action (counted_of_reachable reached).wellFormed with
    | kept epoch governance =>
        rw [epoch, governance]
        exact holds
    | opened context opening epoch governance =>
        subst opening
        exact (opened_queued reached holds enabled.2 epoch governance).2
    | called origin call calling epoch ok =>
        rw [epoch]
        have current : Queued chain.callContext.currentEpoch chain.governance := holds
        exact current.called (votingLocal_of_reachable reached) ok

/-- A proposal that was scheduled still is, or has become due and was activated. -/
def Kept (id : GovernanceProposalId) (proposal : GovernanceProposal) (chain : Chain Balances) :
    Prop :=
  chain.governance.proposalsById id = some proposal ∨
    (proposal.activationEpoch ≤ chain.epochs.currentEpoch ∧
      chain.governance.proposalsById id = some { proposal with status := .activated })

theorem Kept.step (reachable : (system blake2 currency config).Reachable chain)
    {id : GovernanceProposalId} {proposal : GovernanceProposal}
    (scheduled : proposal.status = .scheduled) (kept : chain.Kept id proposal)
    (step : (clearSystem blake2 currency config).step chain chain') : chain'.Kept id proposal := by
  obtain ⟨action, enabled, unclaimed, applied⟩ := step
  subst applied
  have counted := counted_of_reachable reachable
  cases governed_apply blake2 currency action counted.wellFormed with
  | kept epoch governance =>
      rw [Kept, epoch, governance]
      exact kept
  | opened context opening epoch governance =>
      subst opening
      obtain ⟨forward, _⟩ := adjacent_epoch (counted.epoch_room enabled.2) epoch
      have pass :=
        onInitialize_pass (chain.apply blake2 currency (.openBlock context)).epochs.currentEpoch
        (chain.number + 1) chain.governance
      rw [← governance] at pass
      cases pass.entries id with
      | kept same record =>
          rw [Kept, same]
          rcases kept with waiting | ⟨due, activated⟩
          · exact .inl waiting
          · exact .inr ⟨UInt64.le_trans due forward, activated⟩
      | activated entry record record' stored scheduled' recorded due written rewritten same =>
          rcases kept with waiting | ⟨_, activated⟩
          · obtain rfl : entry = proposal := Option.some.inj (stored.symm.trans waiting)
            obtain ⟨found, recorded', matching, _⟩ :=
              (queued_of_reachable reachable).recorded waiting (.inr (.inl scheduled))
            obtain rfl : found = record := Option.some.inj (recorded'.symm.trans recorded)
            exact .inr ⟨matching ▸ due, written⟩
          · obtain rfl : entry = _ := Option.some.inj (stored.symm.trans activated)
            cases scheduled'
  | called origin call calling epoch ok =>
      subst calling
      have clear : ∀ {entry}, chain.governance.proposalsById id = some entry →
          entry.status = .scheduled ∨ entry.status = .activated →
            ∀ targetDomains newProtocolVersion,
          call = .createProposal targetDomains newProtocolVersion →
          id ≠ chain.governance.nextProposalId blake2 chain.callContext.domainId := by
        intro entry stored status targetDomains newProtocolVersion created same
        subst created
        obtain ⟨unscheduled, inactive⟩ :=
          unclaimed id entry ⟨origin, targetDomains, newProtocolVersion, _, rfl,
            ok, same.symm⟩ stored
        exact status.elim unscheduled inactive
      rw [Kept, epoch]
      rcases kept with waiting | ⟨due, activated⟩
      · exact .inl (called_entry_kept ok waiting (.inl scheduled) (clear waiting (.inl scheduled)))
      · exact .inr ⟨due, called_entry_kept ok activated (.inr rfl) (clear activated (.inr rfl))⟩

theorem kept_of_steps (reachable : (clearSystem blake2 currency config).Reachable chain)
    {id : GovernanceProposalId} {proposal : GovernanceProposal}
    (scheduled : proposal.status = .scheduled) (kept : chain.Kept id proposal)
    (steps : ReflTransGen (clearSystem blake2 currency config).step chain chain') :
    chain'.Kept id proposal := by
  induction steps with
  | refl => exact kept
  | tail before step held =>
      exact held.step (reachable_of_clear (reachable.steps before)) scheduled step

/-- After the hooks of a block no scheduled proposal is due, in any run. As long as no proposal is
created over a scheduled or activated one, a proposal that was once scheduled is found activated by
the hooks of every block from its activation epoch on, and scheduled by those before. A proposal
created over a scheduled one replaces it. -/
theorem scheduled_proposals_activated (blake2 : Bytes → Hash32) (currency : Currency Balances)
    (config : GenesisConfig Balances) :
    (∀ chain context, (system blake2 currency config).Reachable chain →
      chain.Enabled currency (.openBlock context) →
      ∀ id proposal, (chain.openBlock blake2 context).governance.proposalsById id = some proposal →
        proposal.status = .scheduled →
        (chain.openBlock blake2 context).epochs.currentEpoch < proposal.activationEpoch) ∧
    (∀ chain chain' context id proposal, (clearSystem blake2 currency config).Reachable chain →
      chain.governance.proposalsById id = some proposal → proposal.status = .scheduled →
      ReflTransGen (clearSystem blake2 currency config).step chain chain' →
      chain'.Enabled currency (.openBlock context) →
      (chain'.openBlock blake2 context).governance.proposalsById id = some { proposal with
        status :=
          if proposal.activationEpoch ≤ (chain'.openBlock blake2 context).epochs.currentEpoch then
            .activated
          else .scheduled }) ∧
    ∀ chain action id proposal, (system blake2 currency config).Reachable chain →
      chain.governance.proposalsById id = some proposal → proposal.status = .scheduled →
      chain.Enabled currency action → chain.Creates blake2 currency action id →
      ∃ proposal', (chain.apply blake2 currency action).governance.proposalsById id =
        some proposal' ∧
        proposal'.status = .voting := by
  have undue : ∀ chain context, (system blake2 currency config).Reachable chain →
      chain.Enabled currency (.openBlock context) →
      ∀ id proposal, (chain.openBlock blake2 context).governance.proposalsById id = some proposal →
        proposal.status = .scheduled →
        (chain.openBlock blake2 context).epochs.currentEpoch < proposal.activationEpoch := by
    intro chain context reachable enabled
    obtain ⟨epoch, governance⟩ :=
      openBlock_governance blake2 context (counted_of_reachable reachable).wellFormed
    exact (opened_queued reachable (queued_of_reachable reachable) enabled.2 epoch governance).1
  refine ⟨undue, ?_, ?_⟩
  · intro chain chain' context id proposal reachable stored scheduled steps enabled
    have unclaimed : chain'.Unclaimed blake2 currency (.openBlock context) := by
      rintro id _ ⟨_, _, _, _, creating, _⟩
      cases creating
    have opening : (clearSystem blake2 currency config).step chain'
        (chain'.openBlock blake2 context) :=
      ⟨.openBlock context, enabled, unclaimed, rfl⟩
    rcases kept_of_steps reachable scheduled (.inl stored) (steps.tail opening) with
      waiting | ⟨due, activated⟩
    · have ahead := undue chain' context (reachable_of_clear (reachable.steps steps)) enabled id
        proposal waiting scheduled
      rw [if_neg (UInt64.not_le.mpr ahead), waiting, ← scheduled]
    · rw [if_pos due]
      exact activated
  · intro chain action id proposal reachable stored scheduled enabled creates
    obtain ⟨origin, targetDomains, newProtocolVersion, governance, creating, ok, issued⟩ := creates
    subst creating issued
    simp only [apply, applyGovernance, ok]
    simp only [dispatch, createProposal, bind_eq_ok, ensure_eq_ok, exists_const] at ok
    obtain ⟨who, _, canonical, _, _, returned⟩ := ok
    cases returned
    exact ⟨_, update_self _ _ _, rfl⟩

section Sample

def governedGenesis : GenesisConfig (AccountId → Purse) :=
  { sampleGenesis with governanceImporter := some emptyHash }

/-- The importer submits a proposal of Moon's that takes effect in epoch 5, under the id Earth's
next proposal will have. -/
def importedProposalActions : List (Action (AccountId → Purse)) :=
  [opens, .governance (.signed emptyHash)
    (.importVerifiedGovernanceProposal (sampleClaim (sampleId .earth)))]

def waitingActions : List (Action (AccountId → Purse)) :=
  [closes, opens, closes, opens, closes, opens, closes, opens, closes]

def quiet (action : Action (AccountId → Purse)) : Bool :=
  match action with
  | .governance _ (.createProposal _ _) => false
  | _ => true

theorem clear_steps_of_script {actions : List (Action (AccountId → Purse))}
    (calm : actions.all quiet = true) {chain chain' : Chain (AccountId → Purse)}
    (ran : runScript sampleHash sampleCurrency chain actions = some chain') :
    ReflTransGen (clearSystem sampleHash sampleCurrency governedGenesis).step chain chain' := by
  refine Transition.steps_of_script (fun action member {before after} applied => ?_) ran
  obtain ⟨enabled, same⟩ := tryApply_eq_some applied
  refine ⟨action, enabled, fun id _ created => ?_, same⟩
  obtain ⟨_, _, _, _, creating, _⟩ := created
  subst creating
  exact absurd (List.all_eq_true.mp calm _ member) Bool.false_ne_true

theorem scheduled_proposals_activated_sample :
    ∃ chain chain' proposal context,
      runScript sampleHash sampleCurrency (genesis governedGenesis) importedProposalActions =
        some chain ∧
      runScript sampleHash sampleCurrency chain waitingActions = some chain' ∧
      chain.governance.proposalsById (sampleId .earth) = some proposal ∧
        proposal.status = .scheduled ∧
      chain.epochs.currentEpoch = 0 ∧ proposal.activationEpoch = 5 ∧
        chain'.epochs.currentEpoch = 4 ∧
      (chain'.openBlock sampleHash context).epochs.currentEpoch = 5 ∧
      (chain'.openBlock sampleHash context).governance.proposalsById (sampleId .earth) =
        some { proposal with status := .activated } := by
  let context : Epochs.BlockContext := { parentHash := emptyHash, validatorSetHash := emptyHash }
  have evaluated :
      ((runScript sampleHash sampleCurrency (genesis governedGenesis) importedProposalActions).bind
      fun chain => (runScript sampleHash sampleCurrency chain waitingActions).map fun chain' =>
        ((chain.governance.proposalsById (sampleId .earth)).map fun proposal =>
            (proposal.status, proposal.activationEpoch),
          [chain.epochs.currentEpoch, chain'.epochs.currentEpoch,
            (chain'.openBlock sampleHash context).epochs.currentEpoch],
          chain'.canApply (.openBlock context))) =
      some (some (.scheduled, 5), [0, 4, 5], true) := by
    decide +kernel
  obtain ⟨chain, ran, rest⟩ := Option.bind_eq_some_iff.mp evaluated
  obtain ⟨chain', ran', facts⟩ := Option.map_eq_some_iff.mp rest
  obtain ⟨entry, epochs, applicable⟩ := by simpa only [Prod.mk.injEq] using facts
  obtain ⟨start, last, next, _⟩ := by simpa only [List.cons.injEq] using epochs
  obtain ⟨proposal, stored, shows⟩ := Option.map_eq_some_iff.mp entry
  obtain ⟨scheduled, activation⟩ := Prod.mk.inj shows
  have reachable : (clearSystem sampleHash sampleCurrency governedGenesis).Reachable chain :=
    System.Reachable.steps (.start rfl) (clear_steps_of_script rfl ran)
  have activated := (scheduled_proposals_activated sampleHash sampleCurrency governedGenesis).2.1
    chain chain' context
    (sampleId .earth) proposal reachable stored scheduled (clear_steps_of_script rfl ran')
    (enabled_of_canApply applicable)
  have due : proposal.activationEpoch ≤
      (chain'.openBlock sampleHash context).epochs.currentEpoch := by
    rw [activation, next]
    exact UInt64.le_rfl
  rw [if_pos due] at activated
  exact ⟨chain, chain', proposal, context, ran, ran', stored, scheduled, start, activation,
    last, next, activated⟩

/-- With a proposal created in between, Moon's proposal has lost its entry when epoch 5 opens. -/
theorem scheduled_proposal_missed :
    ∃ chain chain' proposal proposal',
      (system sampleHash sampleCurrency governedGenesis).Reachable chain ∧
      ReflTransGen (system sampleHash sampleCurrency governedGenesis).step chain chain' ∧
      chain.epochs.currentEpoch = 0 ∧
        chain.governance.proposalsById (sampleId .earth) = some proposal ∧
      (proposal.status, proposal.activationEpoch) = (.scheduled, 5) ∧
      chain'.epochs.currentEpoch = 5 ∧
        chain'.governance.proposalsById (sampleId .earth) = some proposal' ∧
      proposal'.status = .voting := by
  let creation : List (Action (AccountId → Purse)) :=
    [.governance (.signed emptyHash) (.createProposal [.moon] 2)]
  have evaluated :
      ((runScript sampleHash sampleCurrency (genesis governedGenesis) importedProposalActions).bind
      fun chain => (runScript sampleHash sampleCurrency chain
        (creation ++ waitingActions ++ [opens])).map fun chain' =>
        ((chain.governance.proposalsById (sampleId .earth)).map fun proposal =>
            (proposal.status, proposal.activationEpoch),
          [chain.epochs.currentEpoch, chain'.epochs.currentEpoch],
          (chain'.governance.proposalsById (sampleId .earth)).map fun proposal =>
            proposal.status)) =
      some (some (.scheduled, 5), [0, 5], some .voting) := by
    decide +kernel
  obtain ⟨chain, ran, rest⟩ := Option.bind_eq_some_iff.mp evaluated
  obtain ⟨chain', ran', facts⟩ := Option.map_eq_some_iff.mp rest
  obtain ⟨entry, epochs, after⟩ := by simpa only [Prod.mk.injEq] using facts
  obtain ⟨start, last, _⟩ := by simpa only [List.cons.injEq] using epochs
  obtain ⟨proposal, stored, shows⟩ := Option.map_eq_some_iff.mp entry
  obtain ⟨proposal', stored', voting⟩ := Option.map_eq_some_iff.mp after
  exact ⟨chain, chain', proposal, proposal', reachable_of_script (.start rfl) ran,
    steps_of_script ran', start, stored, shows, last, stored', voting⟩

end Sample

end Ialp.Chain
