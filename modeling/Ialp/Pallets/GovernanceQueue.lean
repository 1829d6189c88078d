import Ialp.Pallets.GovernanceLifecycle

/-!
The proposals waiting for activation. A scheduled proposal waits in the bucket of its activation
epoch as long as that epoch lies ahead, and in the ready queue otherwise; the hook at the opening of
a block looks at the bucket of the current epoch and at the ready queue, and finds every proposal
that is due.
-/

namespace Ialp.Governance

open Scale Function

section Enqueue

variable {id other : GovernanceProposalId} {currentEpoch activationEpoch : EpochId}
  {queues : Queues}

theorem mem_enqueue_ready :
    other ∈ (enqueue id currentEpoch activationEpoch queues).readyActivationIds ↔
      other ∈ queues.readyActivationIds ∨ (activationEpoch ≤ currentEpoch ∧ other = id) := by
  unfold enqueue
  by_cases late : activationEpoch ≤ currentEpoch
  · rw [if_pos late, mem_appendOnce]
    simp [late]
  · simp [late]

theorem mem_enqueue_bucket {epoch : EpochId} :
    other ∈ (enqueue id currentEpoch activationEpoch queues).scheduledProposalIdsByEpoch epoch ↔
      other ∈ queues.scheduledProposalIdsByEpoch epoch ∨
        (currentEpoch < activationEpoch ∧ epoch = activationEpoch ∧ other = id) := by
  unfold enqueue
  by_cases late : activationEpoch ≤ currentEpoch
  · have ahead : ¬ currentEpoch < activationEpoch := UInt64.not_lt.mpr late
    simp [late, ahead]
  · have ahead : currentEpoch < activationEpoch := UInt64.not_le.mp late
    rw [if_neg late]
    by_cases same : epoch = activationEpoch
    · subst same
      simp only [update_self, mem_appendOnce, ahead, true_and]
    · simp [same]

end Enqueue

section Queued

/-- Every scheduled proposal has a complete activation record and waits where the hook will look for
it. -/
structure Queued (currentEpoch : EpochId) (state : State) : Prop where
  recorded : ∀ {id proposal}, state.proposalsById id = some proposal → Finalized proposal →
    ∃ record, state.activationRecordsById id = some record ∧ record.activationEpoch =
      proposal.activationEpoch ∧
      (proposal.status = .scheduled →
        hasFullAckSet record.targetDomains record.knownAckDomains = true)
  ready : ∀ {id proposal}, state.proposalsById id = some proposal → proposal.status = .scheduled →
    proposal.activationEpoch ≤ currentEpoch → id ∈ state.readyActivationIds
  bucketed : ∀ {id proposal}, state.proposalsById id = some proposal →
    proposal.status = .scheduled →
    currentEpoch < proposal.activationEpoch →
      id ∈ state.scheduledProposalIdsByEpoch proposal.activationEpoch

variable {currentEpoch : EpochId} {state state' : State}

theorem genesis_queued (protocolVersion : UInt32) (importerAccount : Option AccountId)
    (voters : List AccountId) :
    Queued currentEpoch (genesis protocolVersion importerAccount voters) := by
  constructor <;> simp [genesis]

theorem Queued.write (holds : Queued currentEpoch state) {id : GovernanceProposalId}
    {written : GovernanceProposal}
    (proposals : state'.proposalsById = update state.proposalsById id (some written))
    (records : ∀ other, other ≠ id → state'.activationRecordsById other =
      state.activationRecordsById other)
    (queues : state'.toQueues = state.toQueues) (waiting : written.status ≠ .scheduled)
    (recorded : Finalized written → ∃ record, state'.activationRecordsById id = some record ∧
      record.activationEpoch = written.activationEpoch) : Queued currentEpoch state' := by
  constructor
  · intro other proposal stored finalized
    rcases update_eq_some.mp (proposals ▸ stored) with ⟨rfl, rfl⟩ | ⟨different, old⟩
    · obtain ⟨record, found, epoch⟩ := recorded finalized
      exact ⟨record, found, epoch, fun scheduled => absurd scheduled waiting⟩
    · rw [records other different]
      exact holds.recorded old finalized
  · intro other proposal stored scheduled late
    rcases update_eq_some.mp (proposals ▸ stored) with ⟨_, rfl⟩ | ⟨_, old⟩
    · exact absurd scheduled waiting
    · rw [queues]
      exact holds.ready old scheduled late
  · intro other proposal stored scheduled ahead
    rcases update_eq_some.mp (proposals ▸ stored) with ⟨_, rfl⟩ | ⟨_, old⟩
    · exact absurd scheduled waiting
    · rw [queues]
      exact holds.bucketed old scheduled ahead

theorem not_finalized {proposal : GovernanceProposal}
    (undecided : proposal.status = .voting ∨ proposal.status = .rejected) :
    ¬ Finalized proposal := by
  rcases undecided with status | status <;> simp [Finalized, status]

variable {Balances : Type} {blake2 : Bytes → Hash32} {currency : Currency Balances}
  {context : CallContext} {balances : Balances} {call : Call}

theorem Touch.queued (touch : Touch blake2 currency context balances state (some call) state')
    (local' : VotingLocal context.domainId state) (holds : Queued currentEpoch state) :
    Queued currentEpoch state' := by
  have open' : ∀ {written : GovernanceProposal} {records : Prop},
      written.status = .voting ∨ written.status = .rejected → Finalized written → records :=
    fun undecided finalized => absurd finalized (not_finalized undecided)
  cases touch with
  | created => exact holds.write rfl (fun _ _ => rfl) rfl (by simp [newProposal]) (open' (.inl rfl))
  | voted who proposalId choice proposal votingPower found voting =>
      have status : (countVote choice votingPower proposal).status = .voting := by
        cases choice <;> exact voting
      exact holds.write rfl (fun _ _ => rfl) rfl (by simp [status]) (open' (.inl status))
  | rejected => exact holds.write rfl (fun _ _ => rfl) rfl (by simp) (open' (.inr rfl))
  | approved proposalId proposal found voting =>
      obtain ⟨keyed, _, _⟩ := local' _ _ found voting
      refine holds.write rfl ?_ rfl (by simp [approvedProposal]) fun _ => ?_
      · intro other different
        exact update_of_ne (fun same => different (same.trans keyed)) _ _
      · subst keyed
        exact ⟨_, update_self _ _ _, rfl⟩
  | imported claim =>
      refine holds.write rfl ?_ rfl (by simp [importedProposal]) fun _ =>
        ⟨_, update_self _ _ _, rfl⟩
      intro other different
      exact update_of_ne different _ _
  | acknowledged claim proposal targeted foreign listed fresh found =>
      refine ⟨?_, holds.ready, holds.bucketed⟩
      intro id stored entry finalized
      obtain ⟨record, recorded, epoch, full⟩ := holds.recorded entry finalized
      by_cases same : id = claim.leaf.proposalId
      · subst same
        have terms := addKnownAckDomain_terms claim.leaf.acknowledgingDomain record
        refine ⟨addKnownAckDomain claim.leaf.acknowledgingDomain record, ?_,
          terms.2.1.trans epoch, ?_⟩
        · exact (update_self _ _ _).trans (congrArg (Option.map _) recorded)
        · intro scheduled
          have retains : Retains record (addKnownAckDomain claim.leaf.acknowledgingDomain record) :=
            ⟨terms.1, terms.2.1, fun domain known => mem_addKnownAckDomain.mpr (.inl known)⟩
          exact retains.full (full scheduled)
      · exact ⟨record, (update_of_ne same _ _).trans recorded, epoch, full⟩

theorem Queued.considered (holds : Queued currentEpoch state) (id : GovernanceProposalId) :
    Queued currentEpoch (maybeScheduleActivation id currentEpoch state) := by
  unfold maybeScheduleActivation
  split
  · rename_i proposal activation found recorded
    split_ifs with open' full waiting
    · exact holds
    · exact holds
    · exact holds
    · have finalized : proposal.status = .locallyFinalized := by
        by_contra other
        exact open' ⟨other, waiting⟩
      obtain ⟨record, recorded', epoch, _⟩ := holds.recorded found (.inl finalized)
      obtain rfl : record = activation := Option.some.inj (recorded'.symm.trans recorded)
      constructor
      · intro other entry stored finalized'
        rcases update_eq_some.mp stored with ⟨rfl, rfl⟩ | ⟨different, old⟩
        · exact ⟨_, update_self _ _ _, epoch, fun _ => by simpa using full⟩
        · obtain ⟨record', kept, facts⟩ := holds.recorded old finalized'
          exact ⟨record', (update_of_ne different _ _).trans kept, facts⟩
      · intro other entry stored scheduled late
        apply mem_enqueue_ready.mpr
        rcases update_eq_some.mp stored with ⟨rfl, rfl⟩ | ⟨_, old⟩
        · exact .inr ⟨epoch ▸ late, rfl⟩
        · exact .inl (holds.ready old scheduled late)
      · intro other entry stored scheduled ahead
        apply mem_enqueue_bucket.mpr
        rcases update_eq_some.mp stored with ⟨rfl, rfl⟩ | ⟨_, old⟩
        · exact .inr ⟨epoch ▸ ahead, epoch.symm, rfl⟩
        · exact .inl (holds.bucketed old scheduled ahead)
  · exact holds

theorem Queued.called (holds : Queued context.currentEpoch state)
    (local' : VotingLocal context.domainId state) {origin : Origin}
    (ok : dispatch blake2 currency context origin call balances state = .ok state') :
    Queued context.currentEpoch state' := by
  obtain ⟨middle, touch, scheduling⟩ := touch_scheduling_of_ok ok
  have touched := touch.queued local' holds
  cases scheduling with
  | none => exact touched
  | considered id => exact touched.considered id

theorem maybeScheduleActivation_entry_kept {id : GovernanceProposalId}
    {proposal : GovernanceProposal} (stored : state.proposalsById id = some proposal)
    (settled : proposal.status = .scheduled ∨ proposal.status = .activated)
    (other : GovernanceProposalId) :
    (maybeScheduleActivation other currentEpoch state).proposalsById id = some proposal := by
  unfold maybeScheduleActivation
  split
  · rename_i entry activation found recorded
    split_ifs with open' full waiting
    · exact stored
    · exact stored
    · exact stored
    · refine (update_of_ne ?_ _ _).trans stored
      intro same
      subst same
      obtain rfl : proposal = entry := Option.some.inj (stored.symm.trans found)
      rcases settled with scheduled | activated
      · exact waiting scheduled
      · exact open' (by simp [activated])
  · exact stored

theorem called_entry_kept {origin : Origin}
    (ok : dispatch blake2 currency context origin call balances state = .ok state')
    {id : GovernanceProposalId} {proposal : GovernanceProposal}
    (stored : state.proposalsById id = some proposal)
    (settled : proposal.status = .scheduled ∨ proposal.status = .activated)
    (clear : ∀ targetDomains newProtocolVersion,
      call = .createProposal targetDomains newProtocolVersion →
      id ≠ state.nextProposalId blake2 context.domainId) :
    state'.proposalsById id = some proposal := by
  obtain ⟨middle, touch, scheduling⟩ := touch_scheduling_of_ok ok
  -- votes are cast on, and end for, other entries
  have apart : ∀ {other : GovernanceProposalId} {entry : GovernanceProposal},
      state.proposalsById other = some entry → entry.status = .voting → id ≠ other := by
    intro other entry found voting same
    subst same
    obtain rfl : proposal = entry := Option.some.inj (stored.symm.trans found)
    simp [voting] at settled
  have kept : middle.proposalsById id = some proposal := by
    cases touch with
    | created => exact (update_of_ne (clear _ _ rfl) _ _).trans stored
    | voted who other choice entry votingPower found voting =>
        exact (update_of_ne (apart found voting) _ _).trans stored
    | rejected other entry found voting =>
        exact (update_of_ne (apart found voting) _ _).trans stored
    | approved other entry found voting =>
        exact (update_of_ne (apart found voting) _ _).trans stored
    | imported claim targeted foreign unknown =>
        refine (update_of_ne ?_ _ _).trans stored
        intro same
        subst same
        cases unknown.symm.trans stored
    | acknowledged => exact stored
  cases scheduling with
  | none => exact kept
  | considered other => exact maybeScheduleActivation_entry_kept kept settled other

end Queued

section Hook

def Due (currentEpoch : EpochId) (id : GovernanceProposalId) (state : State) : Prop :=
  ∃ proposal record, state.proposalsById id = some proposal ∧ proposal.status = .scheduled ∧
    state.activationRecordsById id = some record ∧ record.activationEpoch ≤ currentEpoch ∧
    hasFullAckSet record.targetDomains record.knownAckDomains = true

inductive Tried (currentEpoch : EpochId) (state state' : State) (id : GovernanceProposalId) :
    Prop where
  | kept (proposal : state'.proposalsById id = state.proposalsById id)
      (record : state'.activationRecordsById id = state.activationRecordsById id)
  | activated (proposal : GovernanceProposal) (record record' : GovernanceActivationRecord)
      (stored : state.proposalsById id = some proposal) (scheduled : proposal.status = .scheduled)
      (recorded : state.activationRecordsById id = some record)
      (due : record.activationEpoch ≤ currentEpoch)
      (written : state'.proposalsById id = some { proposal with status := .activated })
      (rewritten : state'.activationRecordsById id = some record')
      (epoch : record'.activationEpoch = record.activationEpoch)

structure Pass (currentEpoch : EpochId) (state state' : State) : Prop where
  entries : ∀ id, Tried currentEpoch state state' id
  buckets : state'.scheduledProposalIdsByEpoch = state.scheduledProposalIdsByEpoch

variable {currentEpoch : EpochId} {blockHeight : UInt32} {state state' : State}
  {id : GovernanceProposalId}

theorem Pass.refl (state : State) : Pass currentEpoch state state := ⟨fun _ => .kept rfl rfl, rfl⟩

theorem Pass.trans {first second third : State} (before : Pass currentEpoch first second)
    (after : Pass currentEpoch second third) : Pass currentEpoch first third := by
  refine ⟨fun id => ?_, after.buckets.trans before.buckets⟩
  cases after.entries id with
  | kept proposal record =>
      cases before.entries id with
      | kept proposal' record' => exact .kept (proposal.trans proposal') (record.trans record')
      | activated entry old new stored scheduled recorded due written rewritten epoch =>
          exact .activated entry old new stored scheduled recorded due (proposal.trans written)
            (record.trans rewritten) epoch
  | activated entry old new stored scheduled recorded due written rewritten epoch =>
      cases before.entries id with
      | kept proposal record =>
          exact .activated entry old new (proposal.symm.trans stored) scheduled
            (record.symm.trans recorded) due written rewritten epoch
      | activated entry' _ _ _ _ _ _ written' =>
          -- what the first part has activated is not scheduled any more
          obtain rfl : entry = _ := Option.some.inj (stored.symm.trans written')
          cases scheduled

theorem Pass.due (pass : Pass currentEpoch state state') (due : Due currentEpoch id state') :
    Due currentEpoch id state := by
  obtain ⟨proposal, record, stored, scheduled, recorded, rest⟩ := due
  cases pass.entries id with
  | kept proposal' record' =>
      exact ⟨proposal, record, proposal'.symm.trans stored, scheduled,
        record'.symm.trans recorded, rest⟩
  | activated _ _ _ _ _ _ _ written =>
      obtain rfl : proposal = _ := Option.some.inj (stored.symm.trans written)
      cases scheduled

theorem Sweep.pass (sweep : Sweep currentEpoch blockHeight state state') :
    Pass currentEpoch state state' := by
  cases sweep with
  | activated proposalId proposal activation found recorded scheduled due =>
      refine ⟨fun id => ?_, rfl⟩
      by_cases same : id = proposalId
      · subst same
        exact .activated proposal activation _ found scheduled recorded due (update_self _ _ _)
          (update_self _ _ _) rfl
      · exact .kept (update_of_ne same _ _) (update_of_ne same _ _)
  | dequeued => exact ⟨fun _ => .kept rfl rfl, rfl⟩

theorem pass_of_sweeps
    (sweeps : Relation.ReflTransGen (Sweep currentEpoch blockHeight) state state') :
    Pass currentEpoch state state' :=
  sweeps_relate (Pass currentEpoch) .refl .trans Sweep.pass sweeps

theorem tryActivateProposal_not_due (state : State) (id : GovernanceProposalId) :
    ¬ Due currentEpoch id (tryActivateProposal currentEpoch blockHeight state id).1 := by
  intro due
  have before := (pass_of_sweeps (tryActivateProposal_sweeps currentEpoch blockHeight state id)).due
    due
  obtain ⟨proposal, record, stored, scheduled, recorded, late, full⟩ := before
  obtain ⟨proposal', _, stored', scheduled', _⟩ := due
  have activated : (tryActivateProposal currentEpoch blockHeight state id).1 =
      activate id currentEpoch blockHeight proposal record state := by
    have early := UInt64.not_lt.mpr late
    simp [tryActivateProposal, stored, recorded, scheduled, early, full]
  rw [activated] at stored'
  rcases update_eq_some.mp stored' with ⟨_, written⟩ | ⟨other, _⟩
  · subst written
    cases scheduled'
  · exact other rfl

theorem foldl_tryActivateProposal_not_due {ids : List GovernanceProposalId}
    (member : id ∈ ids) (state : State) : ¬ Due currentEpoch id
      (ids.foldl (fun state id => (tryActivateProposal currentEpoch blockHeight state id).1)
        state) := by
  induction ids generalizing state with
  | nil => cases member
  | cons first rest ih =>
      intro due
      rcases List.mem_cons.mp member with here | later
      · subst here
        exact tryActivateProposal_not_due state id
          ((pass_of_sweeps (foldl_tryActivateProposal_sweeps currentEpoch blockHeight rest _)).due
            due)
      · exact ih later _ due

variable (currentEpoch) in
theorem onInitialize_entries {blockNumber : UInt32} (started : blockNumber ≠ 0) (state : State) :
    let swept := (state.scheduledProposalIdsByEpoch currentEpoch ++ state.readyActivationIds).foldl
      (fun state id => (tryActivateProposal currentEpoch blockNumber state id).1) state
    (onInitialize currentEpoch blockNumber state).proposalsById = swept.proposalsById ∧
      (onInitialize currentEpoch blockNumber state).activationRecordsById =
        swept.activationRecordsById := by
  simp only [onInitialize, if_neg started, activateReadyQueue, activateEpochBucket,
    activateReadyLoop_state, foldl_tryActivateProposal_ready, List.foldl_append, and_self]

variable (currentEpoch) in
theorem onInitialize_pass (blockNumber : UInt32) (state : State) :
    Pass currentEpoch state (onInitialize currentEpoch blockNumber state) :=
  pass_of_sweeps (onInitialize_sweeps currentEpoch blockNumber state)

theorem onInitialize_not_due {blockNumber : UInt32} (started : blockNumber ≠ 0) {state : State}
    (queued : id ∈ state.scheduledProposalIdsByEpoch currentEpoch ∨ id ∈ state.readyActivationIds) :
    ¬ Due currentEpoch id (onInitialize currentEpoch blockNumber state) := by
  obtain ⟨proposals, records⟩ := onInitialize_entries currentEpoch started state
  intro due
  rw [Due, proposals, records] at due
  exact foldl_tryActivateProposal_not_due (List.mem_append.mpr queued) state due

/-- After the hook no scheduled proposal is due, if no epoch was skipped since the last block. -/
theorem Queued.opened (holds : Queued currentEpoch state) {nextEpoch : EpochId}
    {blockNumber : UInt32} (started : blockNumber ≠ 0)
    (forward : currentEpoch ≤ nextEpoch)
    (adjacent : ∀ epoch, currentEpoch < epoch → epoch ≤ nextEpoch → epoch = nextEpoch) :
    (∀ id proposal, (onInitialize nextEpoch blockNumber state).proposalsById id = some proposal →
      proposal.status = .scheduled → nextEpoch < proposal.activationEpoch) ∧
    Queued nextEpoch (onInitialize nextEpoch blockNumber state) := by
  have pass : Pass nextEpoch state (onInitialize nextEpoch blockNumber state) :=
    onInitialize_pass nextEpoch blockNumber state
  -- what is scheduled after the hook was so before, with the same record
  have waited : ∀ {id proposal}, (onInitialize nextEpoch blockNumber state).proposalsById id =
      some proposal →
      proposal.status = .scheduled → state.proposalsById id = some proposal ∧
        (onInitialize nextEpoch blockNumber state).activationRecordsById id =
          state.activationRecordsById id := by
    intro id proposal stored scheduled
    cases pass.entries id with
    | kept same record => exact ⟨same.symm.trans stored, record⟩
    | activated _ _ _ _ _ _ _ written =>
        obtain rfl : proposal = _ := Option.some.inj (stored.symm.trans written)
        cases scheduled
  have undue : ∀ id proposal, (onInitialize nextEpoch blockNumber state).proposalsById id =
      some proposal →
      proposal.status = .scheduled → nextEpoch < proposal.activationEpoch := by
    intro id proposal stored scheduled
    by_contra late
    have late' := UInt64.not_lt.mp late
    obtain ⟨before, same⟩ := waited stored scheduled
    obtain ⟨record, recorded, epoch, full⟩ := holds.recorded before (.inr (.inl scheduled))
    have queued : id ∈ state.scheduledProposalIdsByEpoch nextEpoch ∨
        id ∈ state.readyActivationIds := by
      by_cases ahead : currentEpoch < proposal.activationEpoch
      · left
        rw [← adjacent _ ahead late']
        exact holds.bucketed before scheduled ahead
      · exact .inr (holds.ready before scheduled (UInt64.not_lt.mp ahead))
    exact onInitialize_not_due started queued
      ⟨proposal, record, stored, scheduled, same.trans recorded, epoch ▸ late', full scheduled⟩
  refine ⟨undue, ?_, ?_, ?_⟩
  · intro id proposal stored finalized
    cases pass.entries id with
    | kept same record =>
        rw [record]
        exact holds.recorded (same.symm.trans stored) finalized
    | activated entry old new found scheduled recorded due written rewritten epoch =>
        obtain rfl : proposal = _ := Option.some.inj (stored.symm.trans written)
        obtain ⟨record, recorded', same, _⟩ := holds.recorded found (.inr (.inl scheduled))
        obtain rfl : record = old := Option.some.inj (recorded'.symm.trans recorded)
        exact ⟨new, rewritten, epoch.trans same, fun absurd => by cases absurd⟩
  · intro id proposal stored scheduled late
    exact absurd (undue id proposal stored scheduled) (UInt64.not_lt.mpr late)
  · intro id proposal stored scheduled ahead
    rw [pass.buckets]
    exact holds.bucketed (waited stored scheduled).1 scheduled (UInt64.lt_of_le_of_lt forward ahead)

end Hook

end Ialp.Governance
