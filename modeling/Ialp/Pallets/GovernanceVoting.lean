import Ialp.Pallets.GovernanceRegistry
import Ialp.Pallets.GovernanceVotes

/-!
Votes over whole runs of the governance pallet. Blocks and extrinsics are numbered, epochs pass in
any way, any calls are made, and balances change between them at will.
-/

namespace Ialp.Governance

open Scale Function Transition Relation

structure Hall (Balances : Type) where
  blockNumber : UInt32
  extrinsicIndex : UInt32
  currentEpoch : EpochId
  balances : Balances
  state : State

section Runs

variable {Balances : Type} (blake2 : Bytes → Hash32) (currency : Currency Balances)
  (domainId : DomainId)

def Hall.context (hall : Hall Balances) : CallContext where
  domainId := domainId
  currentEpoch := hall.currentEpoch
  blockNumber := hall.blockNumber
  extrinsicIndex := hall.extrinsicIndex

/-- A block is opened, in whatever epoch; a call is made; or balances change. Block numbers and
extrinsic indices are `u32`. A failed call is rolled back. -/
inductive Hall.Step (hall : Hall Balances) : Hall Balances → Prop where
  | opened (currentEpoch : EpochId) (bound : hall.blockNumber.toNat + 1 < 2 ^ 32) :
      Hall.Step hall { hall with
        blockNumber := hall.blockNumber + 1
        extrinsicIndex := 0
        currentEpoch
        state := onInitialize currentEpoch (hall.blockNumber + 1) hall.state }
  | succeeded (origin : Origin) (call : Call) (state' : State)
      (bound : hall.extrinsicIndex.toNat + 1 < 2 ^ 32)
      (ok : dispatch blake2 currency (hall.context domainId) origin call hall.balances hall.state =
        .ok state') :
      Hall.Step hall { hall with extrinsicIndex := hall.extrinsicIndex + 1, state := state' }
  | failed (origin : Origin) (call : Call) (error : Error)
      (bound : hall.extrinsicIndex.toNat + 1 < 2 ^ 32)
      (refused : dispatch blake2 currency (hall.context domainId) origin call
        hall.balances hall.state =
        .error error) :
      Hall.Step hall { hall with extrinsicIndex := hall.extrinsicIndex + 1 }
  | paid (balances : Balances) : Hall.Step hall { hall with balances }

/-- The sum of the voters' balances is far from the limit of the balance type. -/
def Hall.Solvent (hall : Hall Balances) : Prop :=
  rollTotal (currency.balance hall.balances) hall.state.governanceVoters < 2 ^ 127

def elections : System (Hall Balances) :=
  System.within {
    initial := fun hall => ∃ protocolVersion importerAccount voters currentEpoch balances,
      hall = ⟨0, 0, currentEpoch, balances, genesis protocolVersion importerAccount voters⟩
    step := Hall.Step blake2 currency domainId } (Hall.Solvent currency)

inductive Hall.Creates (id : GovernanceProposalId) (birth : Hall Balances) :
    Hall Balances → Prop where
  | created (origin : Origin) (targetDomains : List DomainId)
      (newProtocolVersion : UInt32) (state' : State)
      (ok : dispatch blake2 currency (birth.context domainId) origin
        (.createProposal targetDomains newProtocolVersion) birth.balances birth.state = .ok state')
      (issued : birth.state.nextProposalId blake2 domainId = id) :
      Hall.Creates id birth { birth with
        extrinsicIndex := birth.extrinsicIndex + 1
        state := state' }

/-- The proposal was created, in the run that led here, when the voters' balances were the roll. -/
def Hall.Born (hall : Hall Balances) (id : GovernanceProposalId) (roll : AccountId → U128) : Prop :=
  ∃ birth created, (elections blake2 currency domainId).Reachable birth ∧
    (elections blake2 currency domainId).step birth created ∧
      birth.Creates blake2 currency domainId id created ∧
    ReflTransGen (elections blake2 currency domainId).step created hall ∧
      roll = currency.balance birth.balances

structure Hall.Invariant (hall : Hall Balances) : Prop where
  counted : hall.state.nextProposalSequence.toNat ≤ hall.blockNumber.toNat * 2 ^ 32 +
    hall.extrinsicIndex.toNat
  voting : VotingLocal domainId hall.state
  ballots : Ballots (hall.Born blake2 currency domainId) blake2 domainId hall.state

variable {blake2 currency domainId} {hall hall' : Hall Balances}

theorem Settles.ballots {context : CallContext} {balances : Balances} {state state' : State}
    {born : GovernanceProposalId → (AccountId → U128) → Prop}
    (settles : Settles blake2 currency context balances state state')
    (own : OwnIds blake2 context.domainId) (voting : VotingLocal context.domainId state)
    (holds : Ballots born blake2 context.domainId state) :
    VotingLocal context.domainId state' ∧ Ballots born blake2 context.domainId state' := by
  apply settles.invariant
    fun state => VotingLocal context.domainId state ∧ Ballots born blake2 context.domainId state
  · intro state state' held touch
    refine ⟨touch.votingLocal held.1, touch.ballots own held.1 (fun _ _ was => was) ?_ held.2⟩
    intro _ _ caused
    cases caused
  · exact ⟨voting, holds⟩

theorem Hall.Invariant.opened (holds : hall.Invariant blake2 currency domainId)
    (own : OwnIds blake2 domainId) (currentEpoch : EpochId)
    (bound : hall.blockNumber.toNat + 1 < 2 ^ 32)
    {born : GovernanceProposalId → (AccountId → U128) → Prop}
    (ballots : Ballots born blake2 domainId hall.state) :
    let state' := onInitialize currentEpoch (hall.blockNumber + 1) hall.state
    state'.nextProposalSequence.toNat ≤ (hall.blockNumber + 1).toNat * 2 ^ 32 ∧
      VotingLocal domainId state' ∧ Ballots born blake2 domainId state' := by
  have settles : Settles blake2 currency ⟨domainId, currentEpoch, hall.blockNumber + 1,
      0⟩ hall.balances hall.state
      (onInitialize currentEpoch (hall.blockNumber + 1) hall.state) :=
        onInitialize_settles hall.state
  refine ⟨?_, settles.ballots own holds.voting ballots⟩
  have counted := holds.counted
  have sequence := settles.sequence_le
  have index := hall.extrinsicIndex.toNat_lt
  rw [UInt32.toNat_succ bound]
  omega

theorem Hall.Invariant.room (holds : hall.Invariant blake2 currency domainId)
    (bound : hall.extrinsicIndex.toNat + 1 < 2 ^ 32) :
    hall.state.nextProposalSequence.toNat + 1 < 2 ^ 64 := by
  have counted := holds.counted
  have number := hall.blockNumber.toNat_lt
  omega

theorem Hall.Invariant.counted_next (holds : hall.Invariant blake2 currency domainId)
    (bound : hall.extrinsicIndex.toNat + 1 < 2 ^ 32) {state' : State}
    (next : state'.nextProposalSequence.toNat ≤ hall.state.nextProposalSequence.toNat + 1) :
    state'.nextProposalSequence.toNat ≤ hall.blockNumber.toNat * 2 ^ 32 +
      (hall.extrinsicIndex + 1).toNat := by
  have counted := holds.counted
  rw [UInt32.toNat_succ bound]
  omega

theorem elections_invariant (own : OwnIds blake2 domainId)
    (reachable : (elections blake2 currency domainId).Reachable hall) :
    hall.Invariant blake2 currency domainId := by
  apply reachable.invariant (Hall.Invariant blake2 currency domainId)
  · intro _ initial
    obtain ⟨⟨protocolVersion, importerAccount, voters, currentEpoch, balances, start⟩, _⟩ := initial
    subst start
    exact ⟨Nat.zero_le _, by simp [VotingLocal, genesis],
      genesis_ballots protocolVersion importerAccount voters⟩
  · intro hall hall' reached holds taken
    -- what was born before the step was born before its end
    have mono : ∀ id roll, hall.Born blake2 currency domainId id roll →
        hall'.Born blake2 currency domainId id roll := by
      intro id roll born
      obtain ⟨birth, created, start, step, creates, steps, same⟩ := born
      exact ⟨birth, created, start, step, creates, steps.tail taken, same⟩
    have unchanged : Ballots (hall'.Born blake2 currency domainId) blake2 domainId hall.state :=
      holds.ballots.congr mono rfl rfl rfl rfl fun stored sourced => ⟨_, stored, sourced, .refl _⟩
    cases taken.1 with
    | opened currentEpoch bound =>
        obtain ⟨counted, voting, ballots⟩ := holds.opened own currentEpoch bound unchanged
        exact ⟨Nat.le_trans counted (Nat.le_add_right _ _), voting, ballots⟩
    | succeeded origin call state' bound ok =>
        obtain ⟨middle, touch, settles⟩ := touch_of_ok ok
        have voting := touch.votingLocal holds.voting
        have ballots : Ballots (Hall.Born blake2 currency domainId
            { hall with extrinsicIndex := hall.extrinsicIndex + 1, state := state' }) blake2
            domainId middle := by
          refine touch.ballots own holds.voting mono ?_ holds.ballots
          intro targetDomains newProtocolVersion caused
          cases caused
          refine ⟨holds.room bound, reached.guarded, hall, _, reached, taken, ?_, .refl, rfl⟩
          exact .created origin targetDomains newProtocolVersion state' ok rfl
        obtain ⟨voting', ballots'⟩ := settles.ballots own voting ballots
        have next : middle.nextProposalSequence.toNat ≤ hall.state.nextProposalSequence.toNat + 1 :=
          touch.sequence_le
        exact ⟨holds.counted_next bound (Nat.le_trans settles.sequence_le next), voting', ballots'⟩
    | failed origin call error bound refused =>
        exact ⟨holds.counted_next bound (Nat.le_succ _), holds.voting, unchanged⟩
    | paid balances => exact ⟨holds.counted, holds.voting, unchanged⟩

end Runs

section Closing

variable {Balances : Type} {blake2 : Bytes → Hash32} {currency : Currency Balances}
  {domainId : DomainId} {hall later : Hall Balances} {id : GovernanceProposalId}

def EndsAt (blake2 : Bytes → Hash32) (domainId : DomainId)
    (id : GovernanceProposalId) (epoch : EpochId) (state : State) : Prop :=
  Numbered blake2 domainId state id ∧
    ∃ proposal, state.proposalsById id = some proposal ∧ proposal.votingEndEpoch = epoch

theorem Touch.endsAt {context : CallContext} {balances : Balances} {cause : Option Call}
    {state state' : State} {epoch : EpochId}
    (touch : Touch blake2 currency context balances state cause state')
    (own : OwnIds blake2 context.domainId) (ends : EndsAt blake2 context.domainId id epoch state) :
    EndsAt blake2 context.domainId id epoch state' := by
  obtain ⟨issued, proposal, stored, last⟩ := ends
  refine ⟨touch.numbered issued, ?_⟩
  rcases touch.entry_kept stored (fun _ _ _ => issued.ne_next own) with
    kept | ⟨proposal', written, advance⟩
  · exact ⟨proposal, kept, last⟩
  · exact ⟨proposal', written, advance.sameFacts.votingEndEpoch.trans last⟩

theorem Hall.Step.pallet (step : hall.Step blake2 currency domainId later) :
    later.state = hall.state ∨
      Governance.Step blake2 currency domainId (fun _ _ => True) hall.state later.state := by
  cases step with
  | opened currentEpoch bound =>
      exact .inr (.opened ⟨domainId, currentEpoch, hall.blockNumber + 1, 0⟩ hall.balances rfl)
  | succeeded origin call state' bound ok =>
      exact .inr (.succeeded _ hall.balances rfl origin call state' trivial ok)
  | failed => exact .inl rfl
  | paid => exact .inl rfl

theorem elections_endsAt {epoch : EpochId} (own : OwnIds blake2 domainId)
    (steps : ReflTransGen (elections blake2 currency domainId).step hall later)
    (ends : EndsAt blake2 domainId id epoch hall.state) :
    EndsAt blake2 domainId id epoch later.state := by
  induction steps with
  | refl => exact ends
  | tail _ taken held =>
      rcases taken.1.pallet with same | step
      · rw [same]
        exact held
      · refine step.invariant (EndsAt blake2 domainId id epoch) ?_ held
        intro context balances cause state state' domain _ held touch
        subst domain
        exact touch.endsAt own held

theorem castVote_early {context : CallContext} {origin : Origin} {choice : GovernanceVoteChoice}
    {state state' : State} (ok : castVote context origin id choice state = .ok state') :
    ∃ proposal, state.proposalsById id = some proposal ∧
      context.currentEpoch < proposal.votingEndEpoch := by
  simp only [castVote, bind_eq_ok, okOr_eq_ok, ensure_eq_ok, exists_const] at ok
  obtain ⟨_, _, proposal, found, _, early, _⟩ := ok
  exact ⟨proposal, found, early⟩

theorem closeProposal_eq_ok {context : CallContext} {origin : Origin} {state state' : State}
    (ok : closeProposal blake2 context origin id state = .ok state') :
    ∃ proposal closed, state.proposalsById id = some proposal ∧ proposal.status = .voting ∧
      proposal.votingEndEpoch ≤ context.currentEpoch ∧ state'.proposalsById id = some closed ∧
      closed.status = if quorumMet proposal = true ∧ approved proposal = true then .locallyFinalized
        else .rejected := by
  simp only [closeProposal, bind_eq_ok, okOr_eq_ok, ensure_eq_ok, exists_const] at ok
  obtain ⟨_, _, proposal, found, voting, ended, returned⟩ := ok
  split at returned
  · rename_i failed
    cases returned
    refine ⟨proposal, _, found, voting, ended, update_self _ _ _, ?_⟩
    rw [if_neg]
    intro passed
    simp [passed] at failed
  · rename_i passed
    cases returned
    refine ⟨proposal, _, found, voting, ended, update_self _ _ _, ?_⟩
    rw [if_pos]
    · rfl
    · simpa using passed

/-- In every state of a run, the tallies of a local proposal are the sums of the votes on it, each
cast with the voter's balance at the creation of the proposal, and together stay within the
snapshot. A proposal is closed in an epoch from which on nobody can vote on it, with the outcome
exact arithmetic gives. -/
theorem voting_integrity (blake2 : Bytes → Hash32) (currency : Currency Balances)
    (domainId : DomainId) (own : OwnIds blake2 domainId) (hall : Hall Balances)
    (reachable : (elections blake2 currency domainId).Reachable hall) :
    (∀ id proposal, hall.state.proposalsById id = some proposal → proposal.sourceDomain = domainId →
      (∀ choice, (tally choice proposal).toNat = votesFor choice (hall.state.votesOn id)) ∧
      proposal.yesVotingPower.toNat + proposal.noVotingPower.toNat +
        proposal.abstainVotingPower.toNat ≤
        proposal.snapshotTotalVotingPower.toNat ∧
      ∃ birth created, (elections blake2 currency domainId).Reachable birth ∧
        (elections blake2 currency domainId).step birth created ∧
        birth.Creates blake2 currency domainId id created ∧
        ReflTransGen (elections blake2 currency domainId).step created hall ∧
        proposal.snapshotTotalVotingPower.toNat =
          rollTotal (currency.balance birth.balances) hall.state.governanceVoters ∧
        ∀ voter vote, hall.state.votesByKey (id, voter) = some vote →
          vote.proposalId = id ∧ vote.voter = voter ∧
            vote.votingPower = currency.balance birth.balances voter) ∧
    ∀ id origin state', dispatch blake2 currency (hall.context domainId) origin
      (.closeProposal id) hall.balances
        hall.state = .ok state' →
      (∀ later, ReflTransGen (elections blake2 currency domainId).step hall later →
        hall.currentEpoch ≤ later.currentEpoch → ∀ origin choice state', dispatch blake2 currency
          (later.context domainId) origin (.castVote id choice) later.balances later.state ≠
            .ok state') ∧
      ∃ proposal closed, hall.state.proposalsById id = some proposal ∧
        state'.proposalsById id = some closed ∧
        closed.status =
          if proposal.snapshotTotalVotingPower.toNat ≤ 2 * (proposal.yesVotingPower.toNat +
              proposal.noVotingPower.toNat + proposal.abstainVotingPower.toNat) ∧
            proposal.yesVotingPower.toNat + proposal.noVotingPower.toNat +
              proposal.abstainVotingPower.toNat <
              2 * proposal.yesVotingPower.toNat
          then .locallyFinalized else .rejected := by
  have holds := elections_invariant own reachable
  have distinct := holds.ballots.distinct
  constructor
  · intro id proposal stored sourced
    obtain ⟨roll, ⟨birth, created, start, step, creates, steps, same⟩, ballot⟩ :=
      holds.ballots.ballot stored sourced
    subst same
    refine ⟨ballot.tallies, ballot.total_le distinct, birth, created, start, step, creates, steps,
      ballot.snapshot, ?_⟩
    intro voter vote voted
    exact (ballot.cast voted).2
  · intro id origin state' ok
    obtain ⟨proposal, closed, found, voting, ended, written, outcome⟩ := closeProposal_eq_ok ok
    have sourced := (holds.voting id proposal found voting).2.1
    constructor
    · intro later steps forward origin choice state'' cast
      have ends : EndsAt blake2 domainId id proposal.votingEndEpoch hall.state :=
        ⟨holds.ballots.numbered found sourced, proposal, found, rfl⟩
      obtain ⟨_, current, stored, same⟩ := elections_endsAt own steps ends
      obtain ⟨current', stored', early⟩ := castVote_early cast
      obtain rfl : current' = current := Option.some.inj (stored'.symm.trans stored)
      rw [same] at early
      exact UInt64.lt_irrefl _ (UInt64.lt_of_lt_of_le early (UInt64.le_trans ended forward))
    · obtain ⟨roll, _, ballot⟩ := holds.ballots.ballot found sourced
      refine ⟨proposal, closed, found, written, ?_⟩
      rw [outcome]
      simp only [ballot.quorumMet_iff distinct, ballot.approved_iff distinct]

end Closing

section Scripts

variable {Balances : Type} (blake2 : Bytes → Hash32) (currency : Currency Balances)
  (domainId : DomainId)

inductive Hall.Event (Balances : Type) where
  | opened (currentEpoch : EpochId)
  | called (origin : Origin) (call : Call)
  | paid (balances : Balances)

instance (hall : Hall Balances) : Decidable (hall.Solvent currency) :=
  inferInstanceAs (Decidable (_ < _))

def Hall.react (hall : Hall Balances) : Hall.Event Balances → Option (Hall Balances)
  | .opened currentEpoch =>
      if hall.blockNumber.toNat + 1 < 2 ^ 32 then some { hall with
        blockNumber := hall.blockNumber + 1
        extrinsicIndex := 0
        currentEpoch
        state := onInitialize currentEpoch (hall.blockNumber + 1) hall.state }
      else none
  | .called origin call =>
      match dispatch blake2 currency (hall.context domainId) origin call
        hall.balances hall.state with
      | .ok state' =>
          if hall.extrinsicIndex.toNat + 1 < 2 ^ 32 then
            some { hall with extrinsicIndex := hall.extrinsicIndex + 1, state := state' }
          else none
      | .error _ => none
  | .paid balances => some { hall with balances }

def Hall.play (hall : Hall Balances) (script : List (Hall.Event Balances)) :
    Option (Hall Balances) :=
  script.foldlM (fun hall event => (hall.react blake2 currency domainId event).filter fun next =>
    next.Solvent currency) hall

variable {blake2 currency domainId} {hall hall' : Hall Balances}

theorem Hall.step_of_react {event : Hall.Event Balances}
    (reacted : hall.react blake2 currency domainId event = some hall') :
    hall.Step blake2 currency domainId hall' := by
  cases event with
  | opened currentEpoch =>
      simp only [Hall.react, Option.ite_none_right_eq_some, Option.some.injEq] at reacted
      obtain ⟨bound, rfl⟩ := reacted
      exact .opened currentEpoch bound
  | called origin call =>
      simp only [Hall.react] at reacted
      split at reacted
      · rename_i state' ok
        simp only [Option.ite_none_right_eq_some, Option.some.injEq] at reacted
        obtain ⟨bound, rfl⟩ := reacted
        exact .succeeded origin call state' bound ok
      · cases reacted
  | paid balances =>
      cases reacted
      exact .paid balances

theorem Hall.steps_of_play {script : List (Hall.Event Balances)}
    (played : hall.play blake2 currency domainId script = some hall') :
    ReflTransGen (elections blake2 currency domainId).step hall hall' := by
  refine Transition.steps_of_script (fun event _ {before after} reacted => ?_) played
  obtain ⟨reacted, solvent⟩ := Option.filter_eq_some_iff.mp reacted
  exact ⟨Hall.step_of_react reacted, of_decide_eq_true solvent⟩

end Scripts

section Sample

def levelCurrency : Currency U128 := fixedCurrency fun amount _ => amount

def sampleHall : Hall U128 := ⟨0, 0, 0, 10, sampleGenesis⟩

/-- The only voter owns 10 when the proposal is created and 3 when voting for it. -/
def sampleEvents : List (Hall.Event U128) :=
  [.opened 0, .called (.signed emptyHash) (.createProposal [.moon] 2), .paid 3,
    .called (.signed emptyHash) (.castVote (sampleId .earth) .yes), .opened 1]

theorem voting_integrity_sample :
    ∃ hall proposal state' closed,
      sampleHall.play sampleHash levelCurrency .earth sampleEvents = some hall ∧
      hall.state.proposalsById (sampleId .earth) = some proposal ∧ proposal.yesVotingPower = 10 ∧
      votesFor .yes (hall.state.votesOn (sampleId .earth)) = 10 ∧
        proposal.snapshotTotalVotingPower = 10 ∧
      dispatch sampleHash levelCurrency (hall.context .earth) (.signed emptyHash)
      (.closeProposal (sampleId .earth))
        hall.balances hall.state = .ok state' ∧
      (∀ origin choice after, dispatch sampleHash levelCurrency (hall.context .earth) origin
        (.castVote (sampleId .earth) choice) hall.balances hall.state ≠ .ok after) ∧
      state'.proposalsById (sampleId .earth) = some closed ∧ closed.status = .locallyFinalized := by
  have evaluated : ((sampleHall.play sampleHash levelCurrency .earth sampleEvents).map fun hall =>
      ((dispatch sampleHash levelCurrency (hall.context .earth) (.signed emptyHash)
        (.closeProposal (sampleId .earth))
          hall.balances hall.state).isOk,
        (hall.state.proposalsById (sampleId .earth)).map fun proposal => (proposal.sourceDomain,
          [proposal.yesVotingPower, proposal.noVotingPower, proposal.abstainVotingPower,
            proposal.snapshotTotalVotingPower]))) = some (true, some (.earth, [10, 0, 0, 10])) := by
    decide +kernel
  obtain ⟨hall, played, facts⟩ := Option.map_eq_some_iff.mp evaluated
  obtain ⟨succeeds, entry⟩ := Prod.mk.inj facts
  obtain ⟨proposal, stored, facts⟩ := Option.map_eq_some_iff.mp entry
  obtain ⟨sourced, yes, no, abstain, snapshot, _⟩ := by
    simpa only [Prod.mk.injEq, List.cons.injEq] using facts
  obtain ⟨state', ok⟩ := exists_of_isOk succeeds
  have own : OwnIds sampleHash .earth := fun m n same => (sampleHash_idInjective _ _ _ _ same).2
  have started : (elections sampleHash levelCurrency .earth).Reachable sampleHall :=
    .start ⟨⟨1, some emptyHash, [emptyHash], 0, 10, rfl⟩, by decide +kernel⟩
  obtain ⟨tallied, closing⟩ :=
    voting_integrity sampleHash levelCurrency .earth own hall
      (started.steps (Hall.steps_of_play played))
  obtain ⟨sums, _⟩ := tallied _ proposal stored sourced
  obtain ⟨silent, proposal', closed, stored', written, outcome⟩ := closing _ _ state' ok
  obtain rfl : proposal' = proposal := Option.some.inj (stored'.symm.trans stored)
  have counted := sums .yes
  rw [tally, yes] at counted
  rw [yes, no, abstain, snapshot] at outcome
  exact ⟨hall, proposal', state', closed, played, stored, yes, counted.symm, snapshot, ok,
    silent hall .refl UInt64.le_rfl, written, outcome⟩

end Sample

end Ialp.Governance
