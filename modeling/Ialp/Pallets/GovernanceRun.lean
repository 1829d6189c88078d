import Ialp.Pallets.GovernanceSteps
import Ialp.Types.GovernanceInclusion

/-!
Runs of the governance pallet of one domain, and the leaves they commit: a leaf belongs to the epoch
it was written in, and is never changed afterwards.
-/

namespace Ialp.Governance

open Scale Function Transition Relation Hashing

structure Chamber where
  epoch : EpochId
  state : State

section Runs

variable {Balances : Type} (blake2 : Bytes → Hash32) (currency : Currency Balances)
  (domainId : DomainId)

inductive Move (chamber : Chamber) : Chamber → Prop where
  | touched {context : CallContext} {balances : Balances} {cause : Option Call} {state' : State}
      (domain : context.domainId = domainId) (epoch : context.currentEpoch = chamber.epoch)
      (room : chamber.state.nextProposalSequence.toNat + 1 < 2 ^ 64)
      (touch : Touch blake2 currency context balances chamber.state cause state') :
      Move chamber ⟨chamber.epoch, state'⟩
  | advanced (room : chamber.epoch.toNat + 1 < 2 ^ 64) :
      Move chamber ⟨chamber.epoch + 1, chamber.state⟩

def system (protocolVersion : UInt32) (importerAccount : Option AccountId)
    (voters : List AccountId) : System Chamber where
  initial chamber := chamber = ⟨0, genesis protocolVersion importerAccount voters⟩
  step := Move blake2 currency domainId

end Runs

section Targets

theorem canonicalizeTargetDomains_eq_ok {targetDomains canonical : List DomainId}
    {sourceDomain : DomainId}
    (ok : canonicalizeTargetDomains targetDomains sourceDomain = .ok canonical) :
    canonical ≠ [] ∧ sourceDomain ∉ canonical ∧ canonical.Nodup := by
  simp only [canonicalizeTargetDomains, bind_eq_ok, ensure_eq_ok, exists_const] at ok
  obtain ⟨nonempty, foreign, sameLength, returned⟩ := ok
  cases returned
  refine ⟨?_, ?_, ?_⟩
  · intro empty
    rw [empty, sortDomains, sortBy_length] at sameLength
    exact nonempty (List.length_eq_zero_iff.mp sameLength.symm)
  · simpa [sortDomains] using foreign
  · refine dedup_nodup (fun a b le ge => ?_) (sortBy_pairwise compare targetDomains)
    exact Std.LawfulEqOrd.eq_of_compare (Std.OrientedCmp.isLE_antisymm le ge)

def Targets (domainId : DomainId) (targetDomains : List DomainId) : Prop :=
  targetDomains ≠ [] ∧ domainId ∉ targetDomains ∧ targetDomains.Nodup

end Targets

section Leaves

variable (blake2 : Bytes → Hash32) (domainId : DomainId)

structure LeafReady (epoch : EpochId) (leaf : GovernanceLeaf) : Prop where
  canonical : leaf.leafHash = leaf.computeLeafHash blake2
  emitted : leaf.orderingDomain = domainId
  targeted : leaf.targetDomain ≠ domainId
  committed : leaf.committedEpoch = epoch
  short : leaf.Short

structure LeavesInvariant (epoch : EpochId) (store : LeafStore) : Prop where
  keyed : ∀ {hash leaf}, store.governanceLeavesById hash = some leaf → leaf.leafHash = hash
  ready : ∀ {hash leaf}, store.governanceLeavesById hash = some leaf →
    LeafReady blake2 domainId leaf.committedEpoch leaf
  opened : ∀ {hash leaf}, store.governanceLeavesById hash = some leaf → leaf.committedEpoch ≤ epoch
  listed : ∀ {hash leaf}, store.governanceLeavesById hash = some leaf →
    hash ∈ store.epochGovernanceLeafIds leaf.committedEpoch
  logged : ∀ {hash leaf}, store.governanceLeavesById hash = some leaf → leaf.preimage ∈ store.hashed
  found : ∀ {e hash}, hash ∈ store.epochGovernanceLeafIds e →
    ∃ leaf, store.governanceLeavesById hash = some leaf ∧ leaf.committedEpoch = e
  nodup : ∀ e, (store.epochGovernanceLeafIds e).Nodup

variable {blake2 domainId} {epoch : EpochId} {store store' : LeafStore} {leaf : GovernanceLeaf}

theorem genesis_leaves (protocolVersion : UInt32) (importerAccount : Option AccountId)
    (voters : List AccountId) : LeavesInvariant blake2 domainId 0
      (genesis protocolVersion importerAccount voters).toLeafStore := by
  constructor <;> simp [genesis]

theorem LeavesInvariant.congr {epoch' : EpochId}
    (holds : LeavesInvariant blake2 domainId epoch store) (later : epoch ≤ epoch')
    (byId : store'.governanceLeavesById = store.governanceLeavesById)
    (ids : store'.epochGovernanceLeafIds = store.epochGovernanceLeafIds)
    (log : store.hashed ⊆ store'.hashed) : LeavesInvariant blake2 domainId epoch' store' := by
  constructor <;> simp only [byId, ids]
  · exact holds.keyed
  · exact holds.ready
  · exact fun stored => UInt64.le_trans (holds.opened stored) later
  · exact holds.listed
  · exact fun stored => log (holds.logged stored)
  · exact holds.found
  · exact holds.nodup

theorem LeavesInvariant.eq_of_stored (holds : LeavesInvariant blake2 domainId epoch store)
    (ready : LeafReady blake2 domainId epoch leaf)
    (free : ¬ Collides blake2 (store.hashed ++ [leaf.preimage])) {old : GovernanceLeaf}
    (stored : store.governanceLeavesById leaf.leafHash = some old) : old = leaf := by
  have oldReady := holds.ready stored
  have sameHash : blake2 old.preimage = blake2 leaf.preimage := by
    have canonical := GovernanceLeaf.canonical_iff.mpr oldReady.canonical
    have canonical' := GovernanceLeaf.canonical_iff.mpr ready.canonical
    calc blake2 old.preimage = old.leafHash := canonical.symm
      _ = leaf.leafHash := holds.keyed stored
      _ = blake2 leaf.preimage := canonical'
  have same : old.preimage = leaf.preimage :=
    eq_of_not_collides free (List.mem_append_left _ (holds.logged stored)) (by simp) sameHash
  exact GovernanceLeaf.eq_of_preimage_eq_of_short oldReady.short ready.short oldReady.canonical
    ready.canonical same

/-- Writing a leaf never changes one that is stored. -/
theorem LeavesInvariant.insert_kept (holds : LeavesInvariant blake2 domainId epoch store)
    (ready : LeafReady blake2 domainId epoch leaf)
    (free : ¬ Collides blake2 (store.hashed ++ [leaf.preimage])) {hash : Hash32}
    {old : GovernanceLeaf} (stored : store.governanceLeavesById hash = some old) :
    (insertEpochLeaf epoch store leaf).governanceLeavesById hash = some old := by
  by_cases same : hash = leaf.leafHash
  · subst same
    rw [holds.eq_of_stored ready free stored]
    exact update_self _ _ _
  · exact (update_of_ne same _ _).trans stored

theorem mem_insertEpochLeaf {e : EpochId} {hash : Hash32} :
    hash ∈ (insertEpochLeaf epoch store leaf).epochGovernanceLeafIds e ↔
      hash ∈ store.epochGovernanceLeafIds e ∨ (e = epoch ∧ hash = leaf.leafHash) := by
  by_cases current : e = epoch
  · subst current
    simp only [insertEpochLeaf, update_self, true_and, mem_appendOnce]
  · simp [insertEpochLeaf, current]

theorem LeavesInvariant.insert (holds : LeavesInvariant blake2 domainId epoch store)
    (ready : LeafReady blake2 domainId epoch leaf)
    (free : ¬ Collides blake2 (store.hashed ++ [leaf.preimage])) :
    LeavesInvariant blake2 domainId epoch (insertEpochLeaf epoch store leaf) := by
  constructor
  · intro hash stored written
    rcases update_eq_some.mp written with ⟨rfl, rfl⟩ | ⟨_, old⟩
    · rfl
    · exact holds.keyed old
  · intro hash stored written
    rcases update_eq_some.mp written with ⟨rfl, rfl⟩ | ⟨_, old⟩
    · rw [ready.committed]
      exact ready
    · exact holds.ready old
  · intro hash stored written
    rcases update_eq_some.mp written with ⟨rfl, rfl⟩ | ⟨_, old⟩
    · exact UInt64.le_of_eq ready.committed
    · exact holds.opened old
  · intro hash stored written
    rw [mem_insertEpochLeaf]
    rcases update_eq_some.mp written with ⟨rfl, rfl⟩ | ⟨_, old⟩
    · exact .inr ⟨ready.committed, rfl⟩
    · exact .inl (holds.listed old)
  · intro hash stored written
    rcases update_eq_some.mp written with ⟨rfl, rfl⟩ | ⟨_, old⟩
    · simp [insertEpochLeaf]
    · exact List.mem_append_left _ (holds.logged old)
  · intro e hash member
    rcases mem_insertEpochLeaf.mp member with old | ⟨rfl, rfl⟩
    · obtain ⟨kept, stored, committed⟩ := holds.found old
      exact ⟨kept, holds.insert_kept ready free stored, committed⟩
    · exact ⟨leaf, update_self _ _ _, ready.committed⟩
  · intro e
    by_cases current : e = epoch
    · subst current
      simp only [insertEpochLeaf, update_self]
      exact nodup_appendOnce _ (holds.nodup e)
    · simpa [insertEpochLeaf, current] using holds.nodup e

theorem LeavesInvariant.insertAll {leaves : List GovernanceLeaf}
    (holds : LeavesInvariant blake2 domainId epoch store)
    (ready : ∀ leaf ∈ leaves, LeafReady blake2 domainId epoch leaf)
    (free : ¬ Collides blake2 (store.hashed ++ leaves.map GovernanceLeaf.preimage)) :
    LeavesInvariant blake2 domainId epoch (leaves.foldl (insertEpochLeaf epoch) store) ∧
      ∀ {hash old}, store.governanceLeavesById hash = some old →
        (leaves.foldl (insertEpochLeaf epoch) store).governanceLeavesById hash = some old := by
  induction leaves generalizing store with
  | nil => exact ⟨holds, fun stored => stored⟩
  | cons leaf rest ih =>
      have ready' := ready leaf List.mem_cons_self
      have freeFirst : ¬ Collides blake2 (store.hashed ++ [leaf.preimage]) := by
        intro collides
        exact free (collides.mono (by simp))
      have freeRest : ¬ Collides blake2 ((insertEpochLeaf epoch store leaf).hashed ++
          rest.map GovernanceLeaf.preimage) := by
        simpa [insertEpochLeaf] using free
      obtain ⟨written, kept⟩ := ih (holds.insert ready' freeFirst)
        (fun other member => ready other (List.mem_cons_of_mem _ member)) freeRest
      exact ⟨written, fun stored => kept (holds.insert_kept ready' freeFirst stored)⟩

theorem insertEpochLeaves_ids {leaves : List GovernanceLeaf} {e : EpochId} (other : e ≠ epoch) :
    (leaves.foldl (insertEpochLeaf epoch) store).epochGovernanceLeafIds e =
      store.epochGovernanceLeafIds e := by
  induction leaves generalizing store with
  | nil => rfl
  | cons leaf rest ih => exact ih.trans (update_of_ne other _ _)

def VotingLocal (domainId : DomainId) (state : State) : Prop :=
  ∀ proposalId proposal, state.proposalsById proposalId = some proposal →
    proposal.status = .voting →
    proposal.proposalId = proposalId ∧ proposal.sourceDomain = domainId ∧
      Targets domainId proposal.targetDomains

theorem outboundProposalLeaf_ready {proposal : GovernanceProposal} {target : DomainId}
    (sourced : proposal.sourceDomain = domainId) (targets : Targets domainId proposal.targetDomains)
    (member : target ∈ proposal.targetDomains) :
    LeafReady blake2 domainId epoch (outboundProposalLeaf blake2 proposal epoch target) where
  canonical := rfl
  emitted := sourced
  targeted := by
    rintro rfl
    exact targets.2.1 member
  committed := rfl
  short := ⟨List.length_pos_iff.mpr targets.1, targets.2.2.length_le_card⟩

theorem fanoutAckLeaf_ready {context : CallContext} {proposal : GovernanceProposal}
    {target : DomainId} (member : target ∈ fanoutTargets context proposal) :
    LeafReady blake2 context.domainId context.currentEpoch
      (fanoutAckLeaf blake2 context proposal target) where
  canonical := rfl
  emitted := rfl
  targeted := by
    have kept := (List.mem_filter.mp member).2
    exact of_decide_eq_true kept
  committed := rfl
  short := trivial

section Touches

variable {Balances : Type} {currency : Currency Balances} {context : CallContext}
  {balances : Balances} {cause : Option Call} {state state' : State}

theorem Touch.votingLocal (touch : Touch blake2 currency context balances state cause state')
    (holds : VotingLocal context.domainId state) : VotingLocal context.domainId state' := by
  -- writing a proposal that is not under vote
  have settled : ∀ {proposalId : GovernanceProposalId} {proposal : GovernanceProposal},
      proposal.status ≠ .voting →
      state'.proposalsById = update state.proposalsById proposalId (some proposal) →
      VotingLocal context.domainId state' := by
    intro proposalId proposal closed written id stored found voting
    rcases update_eq_some.mp (written ▸ found) with ⟨rfl, rfl⟩ | ⟨_, old⟩
    · exact absurd voting closed
    · exact holds _ _ old voting
  cases touch with
  | created who targetDomains canonical version canonicalized valid =>
      intro id proposal stored voting
      rcases update_eq_some.mp stored with ⟨rfl, rfl⟩ | ⟨_, old⟩
      · exact ⟨rfl, rfl, canonicalizeTargetDomains_eq_ok canonicalized⟩
      · exact holds _ _ old voting
  | voted who proposalId choice proposal power found voting =>
      intro id stored written voting'
      rcases update_eq_some.mp written with ⟨rfl, rfl⟩ | ⟨_, old⟩
      · have kept := holds _ _ found voting
        cases choice <;> exact kept
      · exact holds _ _ old voting'
  | rejected proposalId proposal found => exact settled (by simp) rfl
  | approved proposalId proposal found => exact settled (by simp [approvedProposal]) rfl
  | imported claim => exact settled (by simp [importedProposal]) rfl
  | acknowledged claim => exact holds
  | scheduled proposalId proposal activation => exact settled (by simp) rfl
  | activated proposalId proposal activation => exact settled (by simp) rfl
  | dequeued => exact holds

theorem Touch.leafStore (touch : Touch blake2 currency context balances state cause state')
    (voting : VotingLocal context.domainId state) : ∃ leaves : List GovernanceLeaf,
      (∀ leaf ∈ leaves, LeafReady blake2 context.domainId context.currentEpoch leaf) ∧
      state'.toLeafStore = leaves.foldl (insertEpochLeaf context.currentEpoch)
        state.toLeafStore := by
  cases touch with
  | created => exact ⟨[], by simp, rfl⟩
  | voted => exact ⟨[], by simp, rfl⟩
  | rejected => exact ⟨[], by simp, rfl⟩
  | approved proposalId proposal found open' =>
      obtain ⟨_, sourced, targets⟩ := voting _ _ found open'
      refine ⟨proposal.targetDomains.map
        (outboundProposalLeaf blake2 (approvedProposal context proposal)
        context.currentEpoch), ?_, rfl⟩
      intro leaf member
      obtain ⟨target, targetMember, rfl⟩ := List.mem_map.mp member
      apply outboundProposalLeaf_ready
      · exact sourced
      · exact targets
      · exact targetMember
  | imported claim =>
      refine ⟨(fanoutTargets context (importedProposal claim.leaf)).map
        (fanoutAckLeaf blake2 context (importedProposal claim.leaf)), ?_, rfl⟩
      intro leaf member
      obtain ⟨target, targetMember, rfl⟩ := List.mem_map.mp member
      exact fanoutAckLeaf_ready targetMember
  | acknowledged => exact ⟨[], by simp, rfl⟩
  | scheduled => exact ⟨[], by simp, rfl⟩
  | activated => exact ⟨[], by simp, rfl⟩
  | dequeued => exact ⟨[], by simp, rfl⟩

end Touches

theorem foldl_insertEpochLeaf_hashed (leaves : List GovernanceLeaf) (store : LeafStore) :
    (leaves.foldl (insertEpochLeaf epoch) store).hashed = store.hashed ++
      leaves.map GovernanceLeaf.preimage := by
  induction leaves generalizing store with
  | nil => simp
  | cons leaf rest ih =>
      rw [List.foldl_cons, ih]
      simp [insertEpochLeaf]

section Moves

variable {Balances : Type} {currency : Currency Balances} {chamber chamber' : Chamber}

structure RecordsInvariant (blake2 : Bytes → Hash32) (domainId : DomainId) (chamber : Chamber) :
    Prop where
  voting : VotingLocal domainId chamber.state
  leaves : LeavesInvariant blake2 domainId chamber.epoch chamber.state.toLeafStore

theorem genesis_records (protocolVersion : UInt32) (importerAccount : Option AccountId)
    (voters : List AccountId) :
    RecordsInvariant blake2 domainId ⟨0, genesis protocolVersion importerAccount voters⟩ where
  voting := by simp [VotingLocal, genesis]
  leaves := genesis_leaves protocolVersion importerAccount voters

theorem Move.epoch_le (move : Move blake2 currency domainId chamber chamber') :
    chamber.epoch ≤ chamber'.epoch := by
  cases move with
  | touched => exact UInt64.le_rfl
  | advanced room => exact UInt64.le_of_lt (UInt64.lt_succ_self room)

theorem Move.leafStore (move : Move blake2 currency domainId chamber chamber')
    (voting : VotingLocal domainId chamber.state) : ∃ leaves : List GovernanceLeaf,
      (∀ leaf ∈ leaves, LeafReady blake2 domainId chamber.epoch leaf) ∧
      chamber'.state.toLeafStore =
        leaves.foldl (insertEpochLeaf chamber.epoch) chamber.state.toLeafStore ∧
      (leaves = [] ∨ chamber'.epoch = chamber.epoch) := by
  cases move with
  | touched domain epoch room touch =>
      subst domain
      rw [← epoch]
      obtain ⟨leaves, ready, written⟩ := touch.leafStore voting
      exact ⟨leaves, ready, written, .inr rfl⟩
  | advanced room => exact ⟨[], by simp, rfl, .inl rfl⟩

theorem Move.votingLocal (move : Move blake2 currency domainId chamber chamber')
    (voting : VotingLocal domainId chamber.state) : VotingLocal domainId chamber'.state := by
  cases move with
  | touched domain epoch room touch =>
      subst domain
      exact touch.votingLocal voting
  | advanced => exact voting

theorem Move.hashed_subset (move : Move blake2 currency domainId chamber chamber')
    (voting : VotingLocal domainId chamber.state) :
    chamber.state.hashed ⊆ chamber'.state.hashed := by
  obtain ⟨leaves, _, written, _⟩ := move.leafStore voting
  rw [written, foldl_insertEpochLeaf_hashed]
  exact List.subset_append_left _ _

theorem Move.records (move : Move blake2 currency domainId chamber chamber')
    (holds : RecordsInvariant blake2 domainId chamber)
    (free : ¬ Collides blake2 chamber'.state.hashed) :
    RecordsInvariant blake2 domainId chamber' := by
  have later := move.epoch_le
  obtain ⟨leaves, ready, written, _⟩ := move.leafStore holds.voting
  rw [written, foldl_insertEpochLeaf_hashed] at free
  constructor
  · exact move.votingLocal holds.voting
  · rw [written]
    exact (holds.leaves.insertAll ready free).1.congr later rfl rfl (List.Subset.refl _)

theorem Move.canonicalEpochGovernanceLeaves_kept
    (move : Move blake2 currency domainId chamber chamber')
    (holds : RecordsInvariant blake2 domainId chamber)
    (free : ¬ Collides blake2 chamber'.state.hashed) {e : EpochId} (past : e < chamber'.epoch) :
    canonicalEpochGovernanceLeaves chamber'.state e =
      canonicalEpochGovernanceLeaves chamber.state e := by
  obtain ⟨leaves, ready, written, placed⟩ := move.leafStore holds.voting
  rw [written, foldl_insertEpochLeaf_hashed] at free
  have ids : chamber'.state.epochGovernanceLeafIds e = chamber.state.epochGovernanceLeafIds e := by
    rw [written]
    rcases placed with rfl | sameEpoch
    · rfl
    · exact insertEpochLeaves_ids (UInt64.ne_of_lt (sameEpoch ▸ past))
  rw [canonicalEpochGovernanceLeaves, canonicalEpochGovernanceLeaves, ids]
  congr 1
  apply List.filterMap_congr
  intro hash member
  obtain ⟨leaf, stored, _⟩ := holds.leaves.found member
  rw [stored, written]
  exact (holds.leaves.insertAll ready free).2 stored

section Reachable

variable {protocolVersion : UInt32} {importerAccount : Option AccountId} {voters : List AccountId}

theorem votingLocal_of_reachable
    (reachable : (system blake2 currency domainId protocolVersion importerAccount voters).Reachable
      chamber) :
    VotingLocal domainId chamber.state := by
  apply reachable.invariant fun chamber => VotingLocal domainId chamber.state
  · intro _ initial
    subst initial
    simp [VotingLocal, genesis]
  · intro _ _ _ voting move
    exact Move.votingLocal move voting

theorem records_of_reachable
    (reachable : (system blake2 currency domainId protocolVersion importerAccount voters).Reachable
      chamber)
    (free : ¬ Collides blake2 chamber.state.hashed) : RecordsInvariant blake2 domainId chamber := by
  apply reachable.guarded_invariant (fun chamber => ¬ Collides blake2 chamber.state.hashed)
    (RecordsInvariant blake2 domainId)
  · intro _ _ reached move free collides
    exact free (collides.mono (Move.hashed_subset move (votingLocal_of_reachable reached)))
  · intro _ initial
    subst initial
    exact genesis_records protocolVersion importerAccount voters
  · intro _ _ _ free holds move
    exact Move.records move holds free
  · exact free

theorem moves_epoch_le (moves : ReflTransGen (Move blake2 currency domainId) chamber chamber') :
    chamber.epoch ≤ chamber'.epoch := by
  induction moves with
  | refl => exact UInt64.le_rfl
  | tail _ move bound => exact UInt64.le_trans bound (Move.epoch_le move)

theorem moves_hashed_subset
    (reachable : (system blake2 currency domainId protocolVersion importerAccount voters).Reachable
      chamber)
    (moves : ReflTransGen (Move blake2 currency domainId) chamber chamber') :
    chamber.state.hashed ⊆ chamber'.state.hashed := by
  induction moves with
  | refl => exact List.Subset.refl _
  | tail before move sub =>
      exact List.Subset.trans sub
        (Move.hashed_subset move (votingLocal_of_reachable (reachable.steps before)))

theorem moves_kept
    (reachable : (system blake2 currency domainId protocolVersion importerAccount voters).Reachable
      chamber)
    (moves : ReflTransGen (Move blake2 currency domainId) chamber chamber')
    (free : ¬ Collides blake2 chamber'.state.hashed) {e : EpochId} (past : e < chamber.epoch) :
    canonicalEpochGovernanceLeaves chamber'.state e =
      canonicalEpochGovernanceLeaves chamber.state e := by
  induction moves with
  | refl => rfl
  | tail before move kept =>
      have reached := reachable.steps before
      have earlier := fun collides : Collides blake2 _ =>
        free (collides.mono (Move.hashed_subset move (votingLocal_of_reachable reached)))
      have past' := UInt64.lt_of_lt_of_le past (moves_epoch_le (before.tail move))
      exact (Move.canonicalEpochGovernanceLeaves_kept move (records_of_reachable reached earlier)
        free past').trans (kept earlier)

end Reachable

end Moves

end Leaves

end Ialp.Governance
