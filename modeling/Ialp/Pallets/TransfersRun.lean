import Ialp.Lib.Transition
import Ialp.Pallets.Transfers

/-!
Runs of the transfers pallet. A `Move` is what any step of a domain does to the pallet: a successful
call, the commitments of a closing epoch, or a change of balances that leaves the pallet's holds
alone.
-/

namespace Ialp.Transfers

open Scale Function Transition

structure Ledger (Balances : Type) where
  epoch : EpochId
  state : State
  balances : Balances

section Runs

variable {Balances : Type} (blake2 : Bytes → Hash32) (currency : Currency Balances)
  (domainId : DomainId)

/-- The export and import commitments of a closing epoch, in the order the epochs hook asks for
them. -/
def commitEpoch (epochId : EpochId) (startHeight endHeight : UInt32) (state : State) : State :=
  (commitEpochImports blake2 domainId epochId startHeight endHeight
    (commitEpochExports blake2 domainId epochId startHeight endHeight state).2).2

theorem commitEpoch_hashed (epochId : EpochId) (startHeight endHeight : UInt32) (state : State) :
    (commitEpoch blake2 domainId epochId startHeight endHeight state).hashed = state.hashed ++
      (exportFamily.rootPreimages blake2 domainId epochId startHeight endHeight
          (canonicalEpochExports state epochId) ++
        importFamily.rootPreimages blake2 domainId epochId startHeight endHeight
          (canonicalEpochFinalizedImports blake2 state epochId)) :=
  List.append_assoc _ _ _

inductive Move (ledger : Ledger Balances) : Ledger Balances → Prop where
  | called (context : CallContext) {origin : Origin} {call : Call} {state' : State}
      {balances' : Balances} (domain : context.domainId = domainId)
      (epoch : context.currentEpoch = ledger.epoch)
      (room : ledger.state.nextExportSequence.toNat + 1 < 2 ^ 64)
      (dispatched : Dispatched blake2 currency context ledger.state ledger.balances origin call
        state' balances') :
      Move ledger ⟨ledger.epoch, state', balances'⟩
  | closed (startHeight endHeight : UInt32) (room : ledger.epoch.toNat + 1 < 2 ^ 64) :
      Move ledger ⟨ledger.epoch + 1,
        commitEpoch blake2 domainId ledger.epoch startHeight endHeight ledger.state,
        ledger.balances⟩
  | external {balances' : Balances} (held : ∀ account,
      currency.balanceOnHold balances' account = currency.balanceOnHold ledger.balances account) :
      Move ledger ⟨ledger.epoch, ledger.state, balances'⟩

def system (importerAccount : Option AccountId) (balances : Balances) :
    System (Ledger Balances) where
  initial ledger := ledger = ⟨0, genesis importerAccount, balances⟩
  step := Move blake2 currency domainId

end Runs

section Exports

variable (blake2 : Bytes → Hash32) (domainId : DomainId)

def IdsDistinct (next : UInt64) : Prop :=
  ∀ i j : UInt64, i < next → j < next → exportId blake2 domainId i = exportId blake2 domainId j →
    i = j

structure ExportEntry (epoch : EpochId) (state : State) (id : ExportId) (record : ExportRecord) :
    Prop where
  issued : ∃ sequence < state.nextExportSequence, exportId blake2 domainId sequence = id
  keyed : record.leaf.exportId = id
  canonical : exportFamily.Canonical blake2 record.leaf
  sourced : record.leaf.sourceDomain = domainId
  targeted : record.leaf.targetDomain ≠ domainId
  opened : record.leaf.sourceEpochId ≤ epoch
  localFinal_iff : record.status = .localFinal ↔ record.leaf.sourceEpochId = epoch
  listed : id ∈ state.epochExportIds record.leaf.sourceEpochId

structure ExportsInvariant (epoch : EpochId) (state : State) : Prop where
  entry : ∀ {id record}, state.exportsById id = some record →
    ExportEntry blake2 domainId epoch state id record
  found : ∀ {e id}, id ∈ state.epochExportIds e →
    ∃ record, state.exportsById id = some record ∧ record.leaf.sourceEpochId = e
  nodup : ∀ e, (state.epochExportIds e).Nodup

variable {blake2 domainId} {epoch : EpochId} {state state' : State}

theorem IdsDistinct.mono {next next' : UInt64} (distinct : IdsDistinct blake2 domainId next')
    (le : next ≤ next') : IdsDistinct blake2 domainId next := by
  intro i j hi hj same
  exact distinct i j (UInt64.lt_of_lt_of_le hi le) (UInt64.lt_of_lt_of_le hj le) same

theorem ExportEntry.carry {epoch' : EpochId} {id : ExportId} {record record' : ExportRecord}
    (entry : ExportEntry blake2 domainId epoch state id record)
    (next : state.nextExportSequence ≤ state'.nextExportSequence)
    (lists : ∀ e, state.epochExportIds e ⊆ state'.epochExportIds e)
    (sameLeaf : record'.leaf = record.leaf) (opened : record.leaf.sourceEpochId ≤ epoch')
    (status : record'.status = .localFinal ↔ record.leaf.sourceEpochId = epoch') :
    ExportEntry blake2 domainId epoch' state' id record' := by
  constructor
  · obtain ⟨sequence, bound, issued⟩ := entry.issued
    exact ⟨sequence, UInt64.lt_of_lt_of_le bound next, issued⟩
  all_goals rw [sameLeaf]
  · exact entry.keyed
  · exact entry.canonical
  · exact entry.sourced
  · exact entry.targeted
  · exact opened
  · exact status
  · exact lists _ entry.listed

theorem ExportEntry.weaken {id : ExportId} {record : ExportRecord}
    (entry : ExportEntry blake2 domainId epoch state id record)
    (next : state.nextExportSequence ≤ state'.nextExportSequence)
    (lists : ∀ e, state.epochExportIds e ⊆ state'.epochExportIds e) :
    ExportEntry blake2 domainId epoch state' id record :=
  entry.carry next lists rfl entry.opened entry.localFinal_iff

theorem ExportsInvariant.congr (holds : ExportsInvariant blake2 domainId epoch state)
    (next : state'.nextExportSequence = state.nextExportSequence)
    (lists : state'.epochExportIds = state.epochExportIds)
    (records : state'.exportsById = state.exportsById) :
    ExportsInvariant blake2 domainId epoch state' where
  entry found := (holds.entry (records ▸ found)).weaken
    (UInt64.le_of_eq next.symm) (by simp [lists])
  found := by
    intro e id member
    rw [lists] at member
    rw [records]
    exact holds.found member
  nodup e := lists ▸ holds.nodup e

theorem genesis_exports (importerAccount : Option AccountId) :
    ExportsInvariant blake2 domainId 0 (genesis importerAccount) where
  entry := by simp [genesis]
  found := by simp [genesis]
  nodup := by simp [genesis]

section Create

variable {context : CallContext} {who : AccountId} {targetDomain : DomainId}
  {recipient : AccountIdBytes} {amount : U128}

theorem ExportsInvariant.fresh (holds : ExportsInvariant blake2 domainId epoch state)
    (room : state.nextExportSequence.toNat + 1 < 2 ^ 64)
    (distinct : IdsDistinct blake2 domainId (saturatingAdd64 state.nextExportSequence 1)) :
    state.exportsById (exportId blake2 domainId state.nextExportSequence) = none := by
  by_contra used
  obtain ⟨record, stored⟩ := Option.ne_none_iff_exists'.mp used
  obtain ⟨sequence, bound, same⟩ := (holds.entry stored).issued
  have next := lt_saturatingAdd64_one room
  have equal := distinct _ _ (UInt64.lt_trans bound next) next same
  exact absurd bound (equal ▸ UInt64.lt_irrefl _)

theorem ExportsInvariant.create (holds : ExportsInvariant blake2 domainId epoch state)
    (domain : context.domainId = domainId) (current : context.currentEpoch = epoch)
    (room : state.nextExportSequence.toNat + 1 < 2 ^ 64)
    (distinct : IdsDistinct blake2 domainId (saturatingAdd64 state.nextExportSequence 1))
    (foreign : targetDomain ≠ context.domainId) :
    ExportsInvariant blake2 domainId epoch (insertExport context
      (newExportLeaf blake2 context who targetDomain recipient amount state.nextExportSequence)
        state) := by
  subst domain current
  have fresh := holds.fresh room distinct
  have next := lt_saturatingAdd64_one room
  have unlisted : ∀ e, exportId blake2 context.domainId state.nextExportSequence ∉
      state.epochExportIds e := by
    intro e member
    obtain ⟨record, stored, _⟩ := holds.found member
    simp [fresh] at stored
  have lists : ∀ e, state.epochExportIds e ⊆ (insertExport context (newExportLeaf blake2 context who
      targetDomain recipient amount state.nextExportSequence) state).epochExportIds e := by
    intro e id member
    by_cases atEpoch : e = context.currentEpoch
    · subst atEpoch
      simp [insertExport, member]
    · simpa [insertExport, atEpoch] using member
  constructor
  · intro id record stored
    by_cases new : id = exportId blake2 context.domainId state.nextExportSequence
    · subst new
      simp only [insertExport, newExportLeaf, ExportLeaf.fromHashInput, update_self,
        Option.some.injEq] at stored
      subst stored
      exact {
        issued := ⟨_, next, rfl⟩
        keyed := rfl
        canonical := rfl
        sourced := rfl
        targeted := foreign
        opened := UInt64.le_rfl
        localFinal_iff := by simp [localFinalRecord]
        listed := by
          simp [insertExport, newExportLeaf, ExportLeaf.fromHashInput, localFinalRecord] }
    · have kept : state.exportsById id = some record := (update_of_ne new _ _).symm.trans stored
      exact (holds.entry kept).weaken (UInt64.le_of_lt next) lists
  · intro e id member
    by_cases new : id = exportId blake2 context.domainId state.nextExportSequence
    · subst new
      refine ⟨_, update_self _ _ _, ?_⟩
      by_contra elsewhere
      have atEpoch : e ≠ context.currentEpoch := fun same => elsewhere same.symm
      simp only [insertExport, update_of_ne atEpoch] at member
      exact unlisted e member
    · have old : id ∈ state.epochExportIds e := by
        by_cases atEpoch : e = context.currentEpoch
        · subst atEpoch
          simpa [insertExport, newExportLeaf, ExportLeaf.fromHashInput, new] using member
        · simpa [insertExport, atEpoch] using member
      obtain ⟨record, stored, source⟩ := holds.found old
      exact ⟨record, (update_of_ne new _ _).trans stored, source⟩
  · intro e
    by_cases atEpoch : e = context.currentEpoch
    · subst atEpoch
      simp only [insertExport, update_self]
      refine (holds.nodup _).append (List.nodup_singleton _) ?_
      simpa [newExportLeaf, ExportLeaf.fromHashInput] using unlisted _
    · simpa [insertExport, atEpoch] using holds.nodup e

end Create

section Resolve

variable {id : ExportId} {record : ExportRecord}

theorem ExportsInvariant.rewrite (record' : ExportRecord)
    (holds : ExportsInvariant blake2 domainId epoch state)
    (stored : state.exportsById id = some record) (sameLeaf : record'.leaf = record.leaf)
    (status : record'.status = .localFinal ↔ record.status = .localFinal)
    (next : state'.nextExportSequence = state.nextExportSequence)
    (lists : state'.epochExportIds = state.epochExportIds)
    (records : state'.exportsById = update state.exportsById id (some record')) :
    ExportsInvariant blake2 domainId epoch state' := by
  have entry := holds.entry stored
  constructor
  · intro other written found
    rw [records] at found
    rcases update_eq_some.mp found with ⟨rfl, rfl⟩ | ⟨_, kept⟩
    · exact entry.carry (UInt64.le_of_eq next.symm) (by simp [lists]) sameLeaf entry.opened
        (status.trans entry.localFinal_iff)
    · exact (holds.entry kept).weaken (UInt64.le_of_eq next.symm) (by simp [lists])
  · intro e other member
    rw [lists] at member
    obtain ⟨kept, found, source⟩ := holds.found member
    rw [records]
    by_cases same : other = id
    · subst same
      obtain rfl : record = kept := by simpa [stored] using found
      exact ⟨record', update_self _ _ _, sameLeaf ▸ source⟩
    · exact ⟨kept, (update_of_ne same _ _).trans found, source⟩
  · exact fun e => lists ▸ holds.nodup e

end Resolve

section Commit

theorem mem_canonicalEpochExports (holds : ExportsInvariant blake2 domainId epoch state)
    {e : EpochId} {leaf : ExportLeaf} : leaf ∈ canonicalEpochExports state e ↔
      ∃ record, state.exportsById leaf.exportId = some record ∧ record.leaf = leaf ∧
        leaf.sourceEpochId = e := by
  simp only [canonicalEpochExports, sortExportLeaves, LeafFamily.mem_sortLeaves, List.mem_filterMap,
    Option.map_eq_some_iff]
  constructor
  · rintro ⟨id, member, record, stored, rfl⟩
    obtain ⟨found, stored', source⟩ := holds.found member
    obtain rfl : record = found := by simpa [stored] using stored'
    have keyed := (holds.entry stored).keyed
    exact ⟨record, keyed ▸ stored, rfl, source⟩
  · rintro ⟨record, stored, rfl, rfl⟩
    exact ⟨_, (holds.entry stored).listed, record, stored, rfl⟩

def exportedRecord (record : ExportRecord) : ExportRecord := { record with status := .exported }

theorem markExported_apply (records : ExportId → Option ExportRecord)
    (leaf : ExportLeaf) (id : ExportId) : markExported records leaf id =
      if id = leaf.exportId then (records id).map exportedRecord else records id := by
  by_cases same : id = leaf.exportId
  · subst same
    simp only [markExported, update_self, if_true]
    congr 1
    funext record
    obtain ⟨leaf, status⟩ := record
    cases status <;> rfl
  · simp [markExported, same]

theorem foldl_markExported (leaves : List ExportLeaf) (records : ExportId → Option ExportRecord)
    (id : ExportId) :
    leaves.foldl markExported records id =
      if id ∈ leaves.map (·.exportId) then (records id).map exportedRecord else records id := by
  induction leaves generalizing records with
  | nil => simp
  | cons leaf rest ih =>
      -- marking a record twice is marking it once
      have twice : ((records id).map exportedRecord).map exportedRecord =
          (records id).map exportedRecord := by
        cases records id <;> rfl
      rw [List.foldl_cons, ih, markExported_apply]
      by_cases same : id = leaf.exportId
      · rw [if_pos same, twice, ite_self, if_pos (by simp [same])]
      · simp [same]

def committedRecord (epoch : EpochId) (record : ExportRecord) : ExportRecord :=
  if record.leaf.sourceEpochId = epoch then exportedRecord record else record

@[simp] theorem committedRecord_leaf (record : ExportRecord) :
    (committedRecord epoch record).leaf = record.leaf := by
  unfold committedRecord
  split <;> rfl

theorem commitEpoch_exportsById (holds : ExportsInvariant blake2 domainId epoch state)
    (startHeight endHeight : UInt32) (id : ExportId) :
    (commitEpoch blake2 domainId epoch startHeight endHeight state).exportsById id =
      (state.exportsById id).map (committedRecord epoch) := by
  change (canonicalEpochExports state epoch).foldl markExported state.exportsById id = _
  rw [foldl_markExported]
  cases stored : state.exportsById id with
  | none => simp
  | some record =>
      have entry := holds.entry stored
      have committed : id ∈ (canonicalEpochExports state epoch).map (·.exportId) ↔
          record.leaf.sourceEpochId = epoch := by
        rw [List.mem_map]
        constructor
        · rintro ⟨leaf, member, rfl⟩
          obtain ⟨found, stored', rfl, source⟩ := (mem_canonicalEpochExports holds).mp member
          obtain rfl : record = found := by simpa [stored] using stored'
          exact source
        · intro source
          exact ⟨record.leaf, (mem_canonicalEpochExports holds).mpr ⟨record,
            entry.keyed ▸ stored, rfl, source⟩, entry.keyed⟩
      by_cases current : record.leaf.sourceEpochId = epoch
      · simp [committed.mpr current, committedRecord, current]
      · simp [mt committed.mp current, committedRecord, current]

theorem ExportsInvariant.close (holds : ExportsInvariant blake2 domainId epoch state)
    (startHeight endHeight : UInt32) (room : epoch.toNat + 1 < 2 ^ 64) :
    ExportsInvariant blake2 domainId (epoch + 1)
      (commitEpoch blake2 domainId epoch startHeight endHeight state) := by
  constructor
  · intro id written found
    rw [commitEpoch_exportsById holds, Option.map_eq_some_iff] at found
    obtain ⟨record, stored, rfl⟩ := found
    have entry := holds.entry stored
    have earlier := UInt64.lt_of_le_of_lt entry.opened (UInt64.lt_succ_self room)
    refine entry.carry UInt64.le_rfl (fun e => List.Subset.refl _) (committedRecord_leaf record)
      (UInt64.le_of_lt earlier) ?_
    simp only [UInt64.ne_of_lt earlier, iff_false]
    by_cases current : record.leaf.sourceEpochId = epoch
    · simp [committedRecord, current, exportedRecord]
    · simpa [committedRecord, current] using mt entry.localFinal_iff.mp current
  · intro e id member
    obtain ⟨record, stored, source⟩ := holds.found member
    refine ⟨committedRecord epoch record, ?_, ?_⟩
    · rw [commitEpoch_exportsById holds, stored]
      rfl
    · rw [committedRecord_leaf]
      exact source
  · exact holds.nodup

end Commit

section Moves

variable {Balances : Type} {currency : Currency Balances} {ledger ledger' : Ledger Balances}

theorem Move.epoch_le (move : Move blake2 currency domainId ledger ledger') :
    ledger.epoch ≤ ledger'.epoch := by
  cases move with
  | called => exact UInt64.le_rfl
  | closed _ _ room => exact UInt64.le_of_lt (UInt64.lt_succ_self room)
  | external => exact UInt64.le_rfl

theorem Move.sequence_le (move : Move blake2 currency domainId ledger ledger') :
    ledger.state.nextExportSequence ≤ ledger'.state.nextExportSequence := by
  cases move with
  | called _ _ _ room dispatched =>
      cases dispatched with
      | created => exact UInt64.le_of_lt (lt_saturatingAdd64_one room)
      | observed => exact UInt64.le_rfl
      | finalized => exact UInt64.le_rfl
      | acknowledged => exact UInt64.le_rfl
  | closed => exact UInt64.le_rfl
  | external => exact UInt64.le_rfl

theorem Move.exports (move : Move blake2 currency domainId ledger ledger')
    (holds : ExportsInvariant blake2 domainId ledger.epoch ledger.state)
    (distinct : IdsDistinct blake2 domainId ledger'.state.nextExportSequence) :
    ExportsInvariant blake2 domainId ledger'.epoch ledger'.state := by
  cases move with
  | called context domain epoch room dispatched =>
      cases dispatched with
      | created who target recipient amount _ _ foreign =>
          exact holds.create domain epoch room distinct foreign
      | observed => exact holds.congr rfl rfl rfl
      | finalized => exact holds.congr rfl rfl rfl
      | acknowledged who claim record _ _ _ found _ _ _ exported =>
          exact holds.rewrite (resolvedRecord context who claim record) found rfl
            (by simp [resolvedRecord, exported]) rfl rfl rfl
  | closed startHeight endHeight room => exact holds.close startHeight endHeight room
  | external => exact holds

inductive ExportStep (record : ExportRecord) : ExportRecord → Prop where
  | kept : ExportStep record record
  | committed (fresh : record.status = .localFinal) : ExportStep record (exportedRecord record)
  | resolved (context : CallContext) (who : AccountId) (claim : RemoteFinalizationClaim)
      (exported : record.status = .exported) :
      ExportStep record (resolvedRecord context who claim record)

theorem Move.exportStep (move : Move blake2 currency domainId ledger ledger')
    (holds : ExportsInvariant blake2 domainId ledger.epoch ledger.state)
    (distinct : IdsDistinct blake2 domainId ledger'.state.nextExportSequence)
    {id : ExportId} {record : ExportRecord} (stored : ledger.state.exportsById id = some record) :
    ∃ record', ledger'.state.exportsById id = some record' ∧ ExportStep record record' := by
  cases move with
  | called context domain epoch room dispatched =>
      cases dispatched with
      | created who target recipient amount =>
          subst domain
          have old : id ≠ exportId blake2 context.domainId ledger.state.nextExportSequence := by
            rintro rfl
            simp [holds.fresh room distinct] at stored
          exact ⟨record, (update_of_ne old _ _).trans stored, .kept⟩
      | observed => exact ⟨record, stored, .kept⟩
      | finalized => exact ⟨record, stored, .kept⟩
      | acknowledged who claim resolved _ _ _ found _ _ _ exported =>
          by_cases same : id = claim.exportId
          · subst same
            obtain rfl : resolved = record := by simpa [found] using stored
            exact ⟨_, update_self _ _ _, .resolved context who claim exported⟩
          · exact ⟨record, (update_of_ne same _ _).trans stored, .kept⟩
  | closed startHeight endHeight room =>
      refine ⟨committedRecord ledger.epoch record,
        (commitEpoch_exportsById holds startHeight endHeight id).trans (congrArg _ stored), ?_⟩
      by_cases current : record.leaf.sourceEpochId = ledger.epoch
      · rw [committedRecord, if_pos current]
        exact .committed ((holds.entry stored).localFinal_iff.mpr current)
      · rw [committedRecord, if_neg current]
        exact .kept
  | external => exact ⟨record, stored, .kept⟩

theorem ExportStep.leaf {record record' : ExportRecord} (step : ExportStep record record') :
    record'.leaf = record.leaf := by
  cases step <;> rfl

theorem ExportStep.final {record record' : ExportRecord} (step : ExportStep record record')
    (final : record.status = .remoteFinalized) : record' = record := by
  cases step with
  | kept => rfl
  | committed fresh => cases final.symm.trans fresh
  | resolved _ _ _ exported => cases final.symm.trans exported

theorem Move.leaf_kept (move : Move blake2 currency domainId ledger ledger')
    (holds : ExportsInvariant blake2 domainId ledger.epoch ledger.state)
    (distinct : IdsDistinct blake2 domainId ledger'.state.nextExportSequence)
    {id : ExportId} {record : ExportRecord} (stored : ledger.state.exportsById id = some record) :
    ∃ record', ledger'.state.exportsById id = some record' ∧ record'.leaf = record.leaf := by
  obtain ⟨record', stored', step⟩ := move.exportStep holds distinct stored
  exact ⟨record', stored', step.leaf⟩

theorem Move.exportIds_kept (move : Move blake2 currency domainId ledger ledger') {e : EpochId}
    (past : e < ledger'.epoch) :
    ledger'.state.epochExportIds e = ledger.state.epochExportIds e := by
  cases move with
  | called context domain epoch room dispatched =>
      cases dispatched with
      | created =>
          exact update_of_ne (epoch ▸ UInt64.ne_of_lt past) _ _
      | observed => rfl
      | finalized => rfl
      | acknowledged => rfl
  | closed => rfl
  | external => rfl

theorem Move.canonicalEpochExports_kept (move : Move blake2 currency domainId ledger ledger')
    (holds : ExportsInvariant blake2 domainId ledger.epoch ledger.state)
    (distinct : IdsDistinct blake2 domainId ledger'.state.nextExportSequence) {e : EpochId}
    (past : e < ledger'.epoch) :
    canonicalEpochExports ledger'.state e = canonicalEpochExports ledger.state e := by
  rw [canonicalEpochExports, canonicalEpochExports, move.exportIds_kept past]
  congr 1
  apply List.filterMap_congr
  intro id member
  obtain ⟨record, stored, _⟩ := holds.found member
  obtain ⟨record', stored', sameLeaf⟩ := move.leaf_kept holds distinct stored
  rw [stored, stored', Option.map_some, Option.map_some, sameLeaf]

theorem exports_of_reachable {importerAccount : Option AccountId} {balances : Balances}
    (reachable : (system blake2 currency domainId importerAccount balances).Reachable ledger)
    (distinct : IdsDistinct blake2 domainId ledger.state.nextExportSequence) :
    ExportsInvariant blake2 domainId ledger.epoch ledger.state := by
  apply reachable.guarded_invariant
    (fun ledger => IdsDistinct blake2 domainId ledger.state.nextExportSequence)
    (fun ledger => ExportsInvariant blake2 domainId ledger.epoch ledger.state)
  · intro _ _ _ move distinct
    exact distinct.mono (Move.sequence_le move)
  · intro _ initial
    subst initial
    exact genesis_exports importerAccount
  · intro _ _ _ distinct holds move
    exact Move.exports move holds distinct
  · exact distinct

end Moves

end Exports

end Ialp.Transfers
