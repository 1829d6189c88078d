import Mathlib.Data.FinEnum
import Ialp.Lib.Tally
import Ialp.Pallets.GovernanceOrder

/-!
The votes on the proposals of a domain. The powers stored with a proposal are the voters' balances
at its creation; every vote has the power stored for its voter, and the tallies are the sums of the
votes.
-/

namespace Ialp.Governance

open Scale Function Books

section Tallies

def tally (choice : GovernanceVoteChoice) (proposal : GovernanceProposal) : U128 :=
  match choice with
  | .yes => proposal.yesVotingPower
  | .no => proposal.noVotingPower
  | .abstain => proposal.abstainVotingPower

def votePower (choice : GovernanceVoteChoice) : Option GovernanceVote → ℕ
  | some vote => if vote.choice = choice then vote.votingPower.toNat else 0
  | none => 0

def votesFor (choice : GovernanceVoteChoice) (votes : AccountIdBytes → Option GovernanceVote) : ℕ :=
  ∑ voter, votePower choice (votes voter)

def State.votesOn (state : State) (proposalId : GovernanceProposalId) :
    AccountIdBytes → Option GovernanceVote :=
  fun voter => state.votesByKey (proposalId, voter)

def State.powersOn (state : State) (proposalId : GovernanceProposalId) :
    AccountIdBytes → Option U128 :=
  fun voter => state.proposalVotingPowerByVoter (proposalId, voter)

def rollTotal (roll : AccountId → U128) (voters : List AccountId) : ℕ :=
  (voters.map fun voter => (roll voter).toNat).sum

theorem foldl_saturatingAdd128 (roll : AccountId → U128) (voters : List AccountId) (total : U128)
    (bounded : total.toNat + rollTotal roll voters < 2 ^ 128) :
    (voters.foldl (fun total voter => saturatingAdd128 total (roll voter)) total).toNat =
      total.toNat + rollTotal roll voters := by
  induction voters generalizing total with
  | nil => rfl
  | cons voter rest ih =>
      have split : rollTotal roll (voter :: rest) = (roll voter).toNat + rollTotal roll rest := rfl
      rw [split] at bounded ⊢
      have first : (saturatingAdd128 total (roll voter)).toNat =
          total.toNat + (roll voter).toNat := by
        rw [toNat_saturatingAdd128]
        omega
      rw [List.foldl_cons, ih _ (by omega), first]
      omega

theorem foldl_powers (roll : AccountId → U128) (voters : List AccountId) (id : GovernanceProposalId)
    (powers : GovernanceProposalId × AccountIdBytes → Option U128)
    (key : GovernanceProposalId × AccountIdBytes) :
    voters.foldl (fun powers voter => update powers (id, accountToBytes voter)
      (some (roll voter))) powers key =
      if key.1 = id ∧ key.2 ∈ voters then some (roll key.2) else powers key := by
  induction voters generalizing powers with
  | nil => simp
  | cons voter rest ih =>
      rw [List.foldl_cons, ih]
      obtain ⟨other, account⟩ := key
      by_cases later : other = id ∧ account ∈ rest
      · simp [later]
      · rw [if_neg later]
        by_cases here : other = id ∧ account = voter
        · obtain ⟨rfl, rfl⟩ := here
          simp [accountToBytes]
        · rw [update_of_ne (by simpa [accountToBytes] using here), if_neg]
          simp only [List.mem_cons]
          grind

theorem tally_countVote (choice cast : GovernanceVoteChoice) (power : U128)
    (proposal : GovernanceProposal) : tally choice (countVote cast power proposal) =
      if cast = choice then saturatingAdd128 (tally choice proposal) power
        else tally choice proposal := by
  cases cast <;> cases choice <;> rfl

theorem votesFor_update {votes : AccountIdBytes → Option GovernanceVote} {who : AccountIdBytes}
    (unvoted : votes who = none) (choice : GovernanceVoteChoice) (vote : GovernanceVote) :
    votesFor choice (update votes who (some vote)) =
      votesFor choice votes + if vote.choice = choice then vote.votingPower.toNat else 0 := by
  have moved := sum_comp_update (votePower choice) votes who (some vote)
  have before : votePower choice none = 0 := rfl
  rw [unvoted, before, Nat.add_zero] at moved
  rw [votesFor, votesFor]
  exact moved

/-- The votes on a proposal against the voters' powers at its creation, the `roll`. -/
structure Ballot (roll : AccountId → U128) (voters : List AccountId) (id : GovernanceProposalId)
    (votes : AccountIdBytes → Option GovernanceVote) (powers : AccountIdBytes → Option U128)
    (proposal : GovernanceProposal) : Prop where
  stored : ∀ voter, powers voter = if voter ∈ voters then some (roll voter) else none
  cast : ∀ {voter vote}, votes voter = some vote →
    voter ∈ voters ∧ vote.proposalId = id ∧ vote.voter = voter ∧ vote.votingPower = roll voter
  tallies : ∀ choice, (tally choice proposal).toNat = votesFor choice votes
  snapshot : proposal.snapshotTotalVotingPower.toNat = rollTotal roll voters
  solvent : rollTotal roll voters < 2 ^ 127
  quorum : proposal.quorumNumerator = 1 ∧ proposal.quorumDenominator = 2

structure SameBallot (proposal proposal' : GovernanceProposal) : Prop where
  tallies : ∀ choice, tally choice proposal' = tally choice proposal
  snapshot : proposal'.snapshotTotalVotingPower = proposal.snapshotTotalVotingPower
  quorumNumerator : proposal'.quorumNumerator = proposal.quorumNumerator
  quorumDenominator : proposal'.quorumDenominator = proposal.quorumDenominator

variable {roll : AccountId → U128} {voters : List AccountId} {id : GovernanceProposalId}
  {votes : AccountIdBytes → Option GovernanceVote} {powers : AccountIdBytes → Option U128}
  {proposal proposal' : GovernanceProposal}

theorem SameBallot.refl (proposal : GovernanceProposal) : SameBallot proposal proposal :=
  ⟨fun _ => rfl, rfl, rfl, rfl⟩

theorem Ballot.congr (ballot : Ballot roll voters id votes powers proposal)
    (same : SameBallot proposal proposal') : Ballot roll voters id votes powers proposal' where
  stored := ballot.stored
  cast := ballot.cast
  tallies choice := by rw [same.tallies, ballot.tallies]
  snapshot := by rw [same.snapshot, ballot.snapshot]
  solvent := ballot.solvent
  quorum := by rw [same.quorumNumerator, same.quorumDenominator]; exact ballot.quorum

theorem votesFor_le (distinct : voters.Nodup)
    (cast : ∀ voter vote, votes voter = some vote → voter ∈ voters ∧
      vote.votingPower = roll voter) :
    votesFor .yes votes + votesFor .no votes + votesFor .abstain votes ≤ rollTotal roll voters := by
  simp only [votesFor, ← Finset.sum_add_distrib]
  apply sum_le_roll distinct
  · intro voter _
    cases voted : votes voter with
    | none => exact Nat.zero_le _
    | some vote =>
        have power := (cast voter vote voted).2
        cases choice : vote.choice <;> simp [votePower, choice, power]
  · intro voter absent
    cases voted : votes voter with
    | none => rfl
    | some vote => exact absurd (cast voter vote voted).1 absent

theorem Ballot.total_le (ballot : Ballot roll voters id votes powers proposal)
    (distinct : voters.Nodup) : proposal.yesVotingPower.toNat + proposal.noVotingPower.toNat +
      proposal.abstainVotingPower.toNat ≤
      proposal.snapshotTotalVotingPower.toNat := by
  have bound := votesFor_le distinct fun _ _ voted =>
    ⟨(ballot.cast voted).1, (ballot.cast voted).2.2.2⟩
  rwa [← ballot.tallies, ← ballot.tallies, ← ballot.tallies, ← ballot.snapshot] at bound

theorem Ballot.recorded_eq (ballot : Ballot roll voters id votes powers proposal)
    (distinct : voters.Nodup) : (recordedVotingPower proposal).toNat =
      proposal.yesVotingPower.toNat + proposal.noVotingPower.toNat +
        proposal.abstainVotingPower.toNat := by
  have total := ballot.total_le distinct
  have width := proposal.snapshotTotalVotingPower.isLt
  rw [recordedVotingPower, toNat_saturatingAdd128, toNat_saturatingAdd128]
  omega

/-- The quorum is half of the snapshot, in exact arithmetic. -/
theorem Ballot.quorumMet_iff (ballot : Ballot roll voters id votes powers proposal)
    (distinct : voters.Nodup) :
    quorumMet proposal = true ↔ proposal.snapshotTotalVotingPower.toNat ≤
      2 * (proposal.yesVotingPower.toNat + proposal.noVotingPower.toNat +
        proposal.abstainVotingPower.toNat) := by
  have total := ballot.total_le distinct
  have snapshot := ballot.snapshot
  have solvent := ballot.solvent
  have one : (BitVec.ofNat 128 (1 : UInt32).toNat).toNat = 1 := rfl
  have two : (BitVec.ofNat 128 (2 : UInt32).toNat).toNat = 2 := rfl
  rw [quorumMet, decide_eq_true_iff, BitVec.le_def, toNat_saturatingMul128, toNat_saturatingMul128,
    ballot.recorded_eq distinct, ballot.quorum.1, ballot.quorum.2, one, two]
  omega

theorem Ballot.approved_iff (ballot : Ballot roll voters id votes powers proposal)
    (distinct : voters.Nodup) :
    approved proposal = true ↔ proposal.yesVotingPower.toNat + proposal.noVotingPower.toNat +
      proposal.abstainVotingPower.toNat < 2 * proposal.yesVotingPower.toNat := by
  have total := ballot.total_le distinct
  have snapshot := ballot.snapshot
  have solvent := ballot.solvent
  have two : (2 : U128).toNat = 2 := rfl
  rw [approved, decide_eq_true_iff, BitVec.lt_def, toNat_saturatingMul128,
    ballot.recorded_eq distinct, two]
  omega

theorem Ballot.vote (ballot : Ballot roll voters id votes powers proposal) (distinct : voters.Nodup)
    {who : AccountIdBytes} {vote : GovernanceVote} (unvoted : votes who = none)
    (eligible : powers who = some vote.votingPower) (named : vote.proposalId = id)
    (voter : vote.voter = who) : Ballot roll voters id (update votes who (some vote)) powers
      (countVote vote.choice vote.votingPower proposal) := by
  have listed : who ∈ voters ∧ vote.votingPower = roll who := by
    rw [ballot.stored] at eligible
    split at eligible
    · rename_i member
      exact ⟨member, (Option.some.inj eligible).symm⟩
    · cases eligible
  have cast : ∀ account entry, update votes who (some vote) account = some entry →
      account ∈ voters ∧ entry.proposalId = id ∧ entry.voter = account ∧
        entry.votingPower = roll account := by
    intro account entry written
    rcases update_eq_some.mp written with ⟨rfl, rfl⟩ | ⟨_, old⟩
    · exact ⟨listed.1, named, voter, listed.2⟩
    · exact ballot.cast old
  have bound := votesFor_le distinct fun account entry voted =>
    ⟨(cast account entry voted).1, (cast account entry voted).2.2.2⟩
  have width := proposal.snapshotTotalVotingPower.isLt
  rw [← ballot.snapshot] at bound
  refine ⟨ballot.stored, fun voted => cast _ _ voted, ?_, ?_, ballot.solvent, ?_⟩
  · intro choice
    have counted := votesFor_update unvoted choice vote
    -- no tally passes the total of the roll, so the saturating sum is exact
    have below : votesFor choice (update votes who (some vote)) < 2 ^ 128 := by
      cases choice <;> omega
    rw [tally_countVote]
    split
    · rename_i same
      rw [if_pos same] at counted
      rw [toNat_saturatingAdd128, ballot.tallies]
      omega
    · rename_i other
      rw [if_neg other] at counted
      rw [ballot.tallies, counted, Nat.add_zero]
  · cases vote.choice <;> exact ballot.snapshot
  · cases vote.choice <;> exact ballot.quorum

end Tallies

section Touches

variable {Balances : Type} {blake2 : Bytes → Hash32} {currency : Currency Balances}
  {context : CallContext} {balances : Balances} {cause : Option Call} {state state' : State}
  {domainId : DomainId} {born born' : GovernanceProposalId → (AccountId → U128) → Prop}

theorem State.votesOn_of_ne {id other : GovernanceProposalId} (different : id ≠ other)
    {who : AccountIdBytes} {vote : Option GovernanceVote}
    (written : state'.votesByKey = update state.votesByKey (other, who) vote) :
    state'.votesOn id = state.votesOn id := by
  funext voter
  rw [State.votesOn, written]
  exact update_of_ne (fun same => different (congrArg Prod.fst same)) _ _

theorem State.votesOn_self {id : GovernanceProposalId} {who : AccountIdBytes}
    {vote : Option GovernanceVote}
    (written : state'.votesByKey = update state.votesByKey (id, who) vote) :
    state'.votesOn id = update (state.votesOn id) who vote := by
  funext voter
  rw [State.votesOn, written]
  by_cases same : voter = who
  · subst same
    rw [update_self, update_self]
  · rw [update_of_ne (by simpa using same), update_of_ne same]
    rfl

/-- What holds of the votes in a state whose local proposals have the rolls they were `born`
with. -/
structure Ballots (born : GovernanceProposalId → (AccountId → U128) → Prop)
    (blake2 : Bytes → Hash32) (domainId : DomainId) (state : State) : Prop where
  distinct : state.governanceVoters.Nodup
  numbered : ∀ {id proposal}, state.proposalsById id = some proposal →
    proposal.sourceDomain = domainId →
    Numbered blake2 domainId state id
  votes : ∀ {id voter vote}, state.votesOn id voter = some vote → Numbered blake2 domainId state id
  powers : ∀ {id voter power}, state.powersOn id voter = some power →
    Numbered blake2 domainId state id
  ballot : ∀ {id proposal}, state.proposalsById id = some proposal →
    proposal.sourceDomain = domainId →
    ∃ roll, born id roll ∧
      Ballot roll state.governanceVoters id (state.votesOn id) (state.powersOn id) proposal

theorem genesis_ballots (protocolVersion : UInt32) (importerAccount : Option AccountId)
    (voters : List AccountId) :
    Ballots born blake2 domainId (genesis protocolVersion importerAccount voters) where
  distinct := dedup_nodup (fun _ _ le ge => compareBytes_eq (Std.OrientedCmp.isLE_antisymm le ge))
    (sortBy_pairwise compareBytes voters)
  numbered stored := by cases stored
  votes voted := by cases voted
  powers stored := by cases stored
  ballot stored := by cases stored

theorem Ballots.congr (holds : Ballots born blake2 domainId state)
    (mono : ∀ id roll, born id roll → born' id roll)
    (votes : state'.votesByKey = state.votesByKey)
    (powers : state'.proposalVotingPowerByVoter = state.proposalVotingPowerByVoter)
    (voters : state'.governanceVoters = state.governanceVoters)
    (sequence : state'.nextProposalSequence = state.nextProposalSequence)
    (entries : ∀ {id proposal'}, state'.proposalsById id = some proposal' →
      proposal'.sourceDomain = domainId →
      ∃ proposal, state.proposalsById id = some proposal ∧ proposal.sourceDomain = domainId ∧
        SameBallot proposal proposal') : Ballots born' blake2 domainId state' := by
  have numbered : ∀ {id}, Numbered blake2 domainId state id →
      Numbered blake2 domainId state' id := by
    intro id issued
    rwa [Numbered, sequence]
  constructor
  · rw [voters]
    exact holds.distinct
  · intro id proposal' stored local'
    obtain ⟨proposal, found, sourced, _⟩ := entries stored local'
    exact numbered (holds.numbered found sourced)
  · intro id voter vote voted
    rw [State.votesOn, votes] at voted
    exact numbered (holds.votes voted)
  · intro id voter power stored
    rw [State.powersOn, powers] at stored
    exact numbered (holds.powers stored)
  · intro id proposal' stored local'
    obtain ⟨proposal, found, sourced, same⟩ := entries stored local'
    obtain ⟨roll, was, ballot⟩ := holds.ballot found sourced
    have votesOn : state'.votesOn id = state.votesOn id := by
      unfold State.votesOn
      rw [votes]
    have powersOn : state'.powersOn id = state.powersOn id := by
      unfold State.powersOn
      rw [powers]
    rw [votesOn, powersOn, voters]
    exact ⟨roll, mono _ _ was, ballot.congr same⟩

theorem Ballots.next_unused (holds : Ballots born blake2 domainId state)
    (own : OwnIds blake2 domainId) :
    (state.votesOn (state.nextProposalId blake2 domainId) = fun _ => none) ∧
      ∀ voter, state.powersOn (state.nextProposalId blake2 domainId) voter = none := by
  constructor
  · funext voter
    by_contra stored
    obtain ⟨vote, stored⟩ := Option.ne_none_iff_exists'.mp stored
    exact (holds.votes stored).ne_next own rfl
  · intro voter
    by_contra stored
    obtain ⟨power, stored⟩ := Option.ne_none_iff_exists'.mp stored
    exact (holds.powers stored).ne_next own rfl

section Creation

variable (blake2 currency context balances state) in
theorem powersOn_insertNewProposal (who : AccountId) (canonical : List DomainId)
    (newProtocolVersion : UInt32) (id : GovernanceProposalId) (voter : AccountIdBytes) :
    (insertNewProposal blake2 currency context who canonical newProtocolVersion balances
      state).powersOn id voter =
      if id = state.nextProposalId blake2 context.domainId ∧ voter ∈ state.governanceVoters
      then some (currency.balance balances voter) else state.powersOn id voter :=
  foldl_powers _ _ _ _ (id, voter)

theorem newProposal_ballot {powers : AccountIdBytes → Option U128} (who : AccountId)
    (canonical : List DomainId) (newProtocolVersion : UInt32) (id : GovernanceProposalId)
    (stored : ∀ voter, powers voter =
      if voter ∈ state.governanceVoters then some (currency.balance balances voter) else none)
    (solvent : rollTotal (currency.balance balances) state.governanceVoters < 2 ^ 127) :
    Ballot (currency.balance balances) state.governanceVoters id (fun _ => none) powers
      (newProposal blake2 context who canonical newProtocolVersion id
        (snapshotTotalVotingPower currency balances state)) := by
  have total := foldl_saturatingAdd128 (currency.balance balances) state.governanceVoters 0
    (by simp; omega)
  constructor
  · exact stored
  · intro voter vote voted
    cases voted
  · intro choice
    have empty : tally choice (newProposal blake2 context who canonical newProtocolVersion id
        (snapshotTotalVotingPower currency balances state)) = 0 := by cases choice <;> rfl
    rw [empty]
    exact Finset.sum_const_zero.symm
  · exact total.trans (Nat.zero_add _)
  · exact solvent
  · exact ⟨rfl, rfl⟩

theorem Ballots.created (holds : Ballots born blake2 context.domainId state)
    (own : OwnIds blake2 context.domainId) (mono : ∀ id roll, born id roll → born' id roll)
    (room : state.nextProposalSequence.toNat + 1 < 2 ^ 64)
    (solvent : rollTotal (currency.balance balances) state.governanceVoters < 2 ^ 127)
    (birth : born' (state.nextProposalId blake2 context.domainId) (currency.balance balances))
    (who : AccountId) (canonical : List DomainId) (newProtocolVersion : UInt32) :
    Ballots born' blake2 context.domainId
      (insertNewProposal blake2 currency context who canonical newProtocolVersion
        balances state) := by
  have powers := powersOn_insertNewProposal blake2 currency context balances state who
    canonical newProtocolVersion
  have new : Numbered blake2 context.domainId
      (insertNewProposal blake2 currency context who canonical newProtocolVersion balances state)
      (state.nextProposalId blake2 context.domainId) := ⟨_, lt_saturatingAdd64_one room, rfl⟩
  have old : ∀ {id}, Numbered blake2 context.domainId state id → Numbered blake2 context.domainId
      (insertNewProposal blake2 currency context who canonical newProtocolVersion balances state)
        id := by
    intro id ⟨sequence, below, named⟩
    exact ⟨sequence, UInt64.lt_of_lt_of_le below (le_saturatingAdd64 _ 1), named⟩
  constructor
  · exact holds.distinct
  · intro id proposal stored local'
    rcases update_eq_some.mp stored with ⟨rfl, _⟩ | ⟨_, found⟩
    · exact new
    · exact old (holds.numbered found local')
  · intro id voter vote voted
    exact old (holds.votes voted)
  · intro id voter power stored
    rw [powers] at stored
    split at stored
    · rename_i written
      exact written.1 ▸ new
    · exact old (holds.powers stored)
  · intro id proposal stored local'
    rcases update_eq_some.mp stored with ⟨rfl, rfl⟩ | ⟨_, found⟩
    · obtain ⟨unvoted, unpowered⟩ := holds.next_unused own
      refine ⟨_, birth, ?_⟩
      change Ballot _ _ _ (state.votesOn (state.nextProposalId blake2 context.domainId)) _ _
      rw [unvoted]
      apply newProposal_ballot who canonical newProtocolVersion _ _ solvent
      intro voter
      refine (powers (state.nextProposalId blake2 context.domainId) voter).trans ?_
      rw [unpowered]
      simp only [true_and]
    · obtain ⟨roll, was, ballot⟩ := holds.ballot found local'
      refine ⟨roll, mono _ _ was, ?_⟩
      have other := (holds.numbered found local').ne_next own
      have kept :
          (insertNewProposal blake2 currency context who canonical newProtocolVersion balances
          state).powersOn id = state.powersOn id := by
        funext voter
        rw [powers, if_neg fun same => other same.1]
      rw [kept]
      exact ballot

end Creation

theorem Ballots.voted (holds : Ballots born blake2 context.domainId state)
    (mono : ∀ id roll, born id roll → born' id roll) (local' : VotingLocal context.domainId state)
    {who : AccountId} {proposalId : GovernanceProposalId} (choice : GovernanceVoteChoice)
    {proposal : GovernanceProposal} {votingPower : U128}
    (found : state.proposalsById proposalId = some proposal) (voting : proposal.status = .voting)
    (unvoted : state.votesByKey (proposalId, accountToBytes who) = none)
    (eligible : state.proposalVotingPowerByVoter (proposalId, accountToBytes who) =
      some votingPower) :
    Ballots born' blake2 context.domainId
      (insertVote context who proposalId choice votingPower proposal state) := by
  have sourced := (local' _ _ found voting).2.1
  have issued := holds.numbered found sourced
  constructor
  · exact holds.distinct
  · intro id proposal' stored local''
    rcases update_eq_some.mp stored with ⟨rfl, _⟩ | ⟨_, old⟩
    · exact issued
    · exact holds.numbered old local''
  · intro id voter vote voted
    rcases update_eq_some.mp voted with ⟨same, _⟩ | ⟨_, old⟩
    · cases same
      exact issued
    · exact holds.votes old
  · exact holds.powers
  · intro id proposal' stored local''
    rcases update_eq_some.mp stored with ⟨rfl, rfl⟩ | ⟨different, old⟩
    · obtain ⟨roll, was, ballot⟩ := holds.ballot found sourced
      refine ⟨roll, mono _ _ was, ?_⟩
      rw [State.votesOn_self rfl]
      exact ballot.vote holds.distinct unvoted eligible rfl rfl
    · obtain ⟨roll, was, ballot⟩ := holds.ballot old local''
      refine ⟨roll, mono _ _ was, ?_⟩
      rw [State.votesOn_of_ne different rfl]
      exact ballot

theorem Touch.ballots (touch : Touch blake2 currency context balances state cause state')
    (own : OwnIds blake2 context.domainId) (local' : VotingLocal context.domainId state)
    (mono : ∀ id roll, born id roll → born' id roll)
    (creation : ∀ targetDomains newProtocolVersion,
      cause = some (.createProposal targetDomains newProtocolVersion) →
      state.nextProposalSequence.toNat + 1 < 2 ^ 64 ∧
      rollTotal (currency.balance balances) state.governanceVoters < 2 ^ 127 ∧
      born' (state.nextProposalId blake2 context.domainId) (currency.balance balances))
    (holds : Ballots born blake2 context.domainId state) :
    Ballots born' blake2 context.domainId state' := by
  -- rewriting an entry without touching its ballot
  have rewritten : ∀ {id : GovernanceProposalId} {proposal written : GovernanceProposal},
      state.proposalsById id = some proposal → SameBallot proposal written →
      written.sourceDomain = proposal.sourceDomain →
      state'.proposalsById = update state.proposalsById id (some written) →
      ∀ {id proposal'}, state'.proposalsById id = some proposal' →
        proposal'.sourceDomain = context.domainId →
        ∃ proposal, state.proposalsById id = some proposal ∧
          proposal.sourceDomain = context.domainId ∧
          SameBallot proposal proposal' := by
    intro id proposal written found same source updated id' proposal' stored sourced
    rcases update_eq_some.mp (updated ▸ stored) with ⟨rfl, rfl⟩ | ⟨_, old⟩
    · exact ⟨proposal, found, source ▸ sourced, same⟩
    · exact ⟨proposal', old, sourced, .refl _⟩
  have outcome : ∀ (proposal : GovernanceProposal) (status : GovernanceProposalStatus),
      SameBallot proposal { proposal with status } := by
    intro proposal status
    exact ⟨fun choice => by cases choice <;> rfl, rfl, rfl, rfl⟩
  cases touch with
  | created who targetDomains canonical newProtocolVersion =>
      obtain ⟨room, solvent, birth⟩ := creation _ _ rfl
      exact holds.created own mono room solvent birth who canonical newProtocolVersion
  | voted who proposalId choice proposal votingPower found voting early unvoted eligible =>
      exact holds.voted mono local' choice found voting unvoted eligible
  | rejected proposalId proposal found =>
      exact holds.congr mono rfl rfl rfl rfl (rewritten found (outcome proposal .rejected) rfl rfl)
  | approved proposalId proposal found =>
      have same : SameBallot proposal (approvedProposal context proposal) :=
        ⟨fun choice => by cases choice <;> rfl, rfl, rfl, rfl⟩
      exact holds.congr mono rfl rfl rfl rfl (rewritten found same rfl rfl)
  | imported claim targeted foreign =>
      refine holds.congr mono rfl rfl rfl rfl ?_
      intro id proposal' stored sourced
      rcases update_eq_some.mp stored with ⟨_, rfl⟩ | ⟨_, old⟩
      · exact absurd sourced foreign
      · exact ⟨proposal', old, sourced, .refl _⟩
  | acknowledged =>
      exact holds.congr mono rfl rfl rfl rfl fun stored sourced => ⟨_, stored, sourced, .refl _⟩
  | scheduled proposalId proposal activation found =>
      exact holds.congr mono rfl rfl rfl rfl (rewritten found (outcome proposal .scheduled) rfl rfl)
  | activated proposalId proposal activation found =>
      exact holds.congr mono rfl rfl rfl rfl (rewritten found (outcome proposal .activated) rfl rfl)
  | dequeued =>
      exact holds.congr mono rfl rfl rfl rfl fun stored sourced => ⟨_, stored, sourced, .refl _⟩

end Touches

end Ialp.Governance
