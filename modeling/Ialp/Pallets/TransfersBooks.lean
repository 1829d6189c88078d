import Mathlib.Data.FinEnum
import Mathlib.Data.Fintype.Vector
import Ialp.Lib.Tally
import Ialp.Pallets.TransfersRun

/-!
The transfers pallet's books: observed and finalized imports, the mints and burns it performed, and
the funds it holds.
-/

namespace Ialp.Transfers

open Scale Function Transition Books Relation Hashing

variable {Balances : Type} {blake2 : Bytes → Hash32} {currency : Currency Balances}
  {domainId : DomainId} {epoch : EpochId} {state state' : State} {ledger ledger' : Ledger Balances}

section Imports

/-- Import records are about this domain and filed under their id; finalized ones, and no others,
are listed, each in one epoch. -/
structure ImportsInvariant (domainId : DomainId) (epoch : EpochId) (state : State) : Prop where
  keyed : ∀ {id record}, state.observedImportsById id = some record → record.exportId = id
  targeted : ∀ {id record}, state.observedImportsById id = some record →
    record.targetDomain = domainId
  opened : ∀ {e id}, id ∈ state.epochFinalizedImportIds e → e ≤ epoch
  found : ∀ {e id}, id ∈ state.epochFinalizedImportIds e →
    ∃ record, state.observedImportsById id = some record ∧ record.status = .remoteFinalized
  listed : ∀ {id record}, state.observedImportsById id = some record →
    record.status = .remoteFinalized →
    ∃ e, id ∈ state.epochFinalizedImportIds e
  once : ∀ {e e' id}, id ∈ state.epochFinalizedImportIds e → id ∈ state.epochFinalizedImportIds e' →
    e = e'
  nodup : ∀ e, (state.epochFinalizedImportIds e).Nodup

theorem genesis_imports (importerAccount : Option AccountId) :
    ImportsInvariant domainId 0 (genesis importerAccount) := by
  constructor <;> simp [genesis]

theorem ImportsInvariant.congr {epoch' : EpochId} (holds : ImportsInvariant domainId epoch state)
    (later : epoch ≤ epoch')
    (lists : state'.epochFinalizedImportIds = state.epochFinalizedImportIds)
    (records : state'.observedImportsById = state.observedImportsById) :
    ImportsInvariant domainId epoch' state' := by
  constructor <;> simp only [lists, records]
  · exact holds.keyed
  · exact holds.targeted
  · exact fun member => UInt64.le_trans (holds.opened member) later
  · exact holds.found
  · exact holds.listed
  · exact holds.once
  · exact holds.nodup

theorem ImportsInvariant.unlisted (holds : ImportsInvariant domainId epoch state) {id : ExportId}
    (pending : ∀ record, state.observedImportsById id = some record →
      record.status ≠ .remoteFinalized)
    (e : EpochId) : id ∉ state.epochFinalizedImportIds e := by
  intro member
  obtain ⟨record, stored, finalized⟩ := holds.found member
  exact pending record stored finalized

theorem ImportsInvariant.observe (holds : ImportsInvariant domainId epoch state) {id : ExportId}
    {record : ObservedImportRecord} (fresh : state.observedImportsById id = none)
    (keyed : record.exportId = id) (targeted : record.targetDomain = domainId)
    (pending : record.status = .remoteObserved) :
    ImportsInvariant domainId epoch
      { state with observedImportsById := update state.observedImportsById id (some record) } := by
  constructor
  · intro other found stored
    rcases update_eq_some.mp stored with ⟨rfl, rfl⟩ | ⟨_, old⟩
    · exact keyed
    · exact holds.keyed old
  · intro other found stored
    rcases update_eq_some.mp stored with ⟨rfl, rfl⟩ | ⟨_, old⟩
    · exact targeted
    · exact holds.targeted old
  · exact holds.opened
  · intro e other member
    have old : other ≠ id := by
      rintro rfl
      exact holds.unlisted (by simp [fresh]) e member
    obtain ⟨found, stored, finalized⟩ := holds.found member
    exact ⟨found, (update_of_ne old _ _).trans stored, finalized⟩
  · intro other found stored finalized
    rcases update_eq_some.mp stored with ⟨rfl, rfl⟩ | ⟨_, old⟩
    · simp [pending] at finalized
    · exact holds.listed old finalized
  · exact holds.once
  · exact holds.nodup

theorem ImportsInvariant.finalize (record' : ObservedImportRecord)
    (holds : ImportsInvariant domainId epoch state) {id : ExportId} {record : ObservedImportRecord}
    (stored : state.observedImportsById id = some record)
    (pending : record.status = .remoteObserved) (keyed : record'.exportId = record.exportId)
    (targeted : record'.targetDomain = record.targetDomain)
    (finalized : record'.status = .remoteFinalized)
    (records : state'.observedImportsById = update state.observedImportsById id (some record'))
    (lists : state'.epochFinalizedImportIds =
      update state.epochFinalizedImportIds epoch (state.epochFinalizedImportIds epoch ++ [id])) :
    ImportsInvariant domainId epoch state' := by
  have unlisted : ∀ e, id ∉ state.epochFinalizedImportIds e :=
    holds.unlisted (by simp [stored, pending])
  have member_iff : ∀ e other, other ∈ state'.epochFinalizedImportIds e ↔
      other ∈ state.epochFinalizedImportIds e ∨ (e = epoch ∧ other = id) := by
    intro e other
    rw [lists]
    by_cases current : e = epoch
    · subst current
      simp
    · simp [current]
  constructor
  · intro other found written
    rcases update_eq_some.mp (records ▸ written) with ⟨rfl, rfl⟩ | ⟨_, old⟩
    · exact keyed.trans (holds.keyed stored)
    · exact holds.keyed old
  · intro other found written
    rcases update_eq_some.mp (records ▸ written) with ⟨rfl, rfl⟩ | ⟨_, old⟩
    · exact targeted.trans (holds.targeted stored)
    · exact holds.targeted old
  · intro e other member
    rcases (member_iff e other).mp member with old | ⟨rfl, _⟩
    · exact holds.opened old
    · exact UInt64.le_rfl
  · intro e other member
    rw [records]
    by_cases same : other = id
    · subst same
      exact ⟨record', update_self _ _ _, finalized⟩
    · have old := ((member_iff e other).mp member).resolve_right fun new => same new.2
      obtain ⟨found, kept, status⟩ := holds.found old
      exact ⟨found, (update_of_ne same _ _).trans kept, status⟩
  · intro other found written status
    rcases update_eq_some.mp (records ▸ written) with ⟨rfl, rfl⟩ | ⟨_, old⟩
    · exact ⟨epoch, (member_iff _ _).mpr (.inr ⟨rfl, rfl⟩)⟩
    · obtain ⟨e, member⟩ := holds.listed old status
      exact ⟨e, (member_iff _ _).mpr (.inl member)⟩
  · intro e e' other member member'
    rcases (member_iff e other).mp member with old | ⟨rfl, rfl⟩
    · rcases (member_iff e' other).mp member' with old' | ⟨rfl, rfl⟩
      · exact holds.once old old'
      · exact absurd old (unlisted e)
    · rcases (member_iff e' other).mp member' with old' | ⟨rfl, _⟩
      · exact absurd old' (unlisted e')
      · rfl
  · intro e
    rw [lists]
    by_cases current : e = epoch
    · subst current
      rw [update_self]
      exact (holds.nodup e).append (List.nodup_singleton _) (by simpa using unlisted e)
    · rw [update_of_ne current]
      exact holds.nodup e

theorem Move.imports (move : Move blake2 currency domainId ledger ledger')
    (holds : ImportsInvariant domainId ledger.epoch ledger.state) :
    ImportsInvariant domainId ledger'.epoch ledger'.state := by
  have later := move.epoch_le
  cases move with
  | called context domain epoch room dispatched =>
      cases dispatched with
      | created => exact holds.congr later rfl rfl
      | observed who claim importer targeted fresh =>
          exact holds.observe fresh rfl (targeted.trans domain) rfl
      | finalized who id record _ importer found targeted pending =>
          have unlisted : id ∉ ledger.state.epochFinalizedImportIds ledger.epoch :=
            holds.unlisted (by simp [found, pending]) _
          exact holds.finalize (finalizedRecord context who record) found pending rfl rfl rfl rfl
            (by simp [epoch, appendOnce_of_notMem unlisted])
      | acknowledged => exact holds.congr later rfl rfl
  | closed => exact holds.congr later rfl rfl
  | external => exact holds

theorem imports_of_reachable {importerAccount : Option AccountId} {balances : Balances}
    (reachable : (system blake2 currency domainId importerAccount balances).Reachable ledger) :
    ImportsInvariant domainId ledger.epoch ledger.state := by
  apply reachable.invariant fun ledger => ImportsInvariant domainId ledger.epoch ledger.state
  · intro _ initial
    subst initial
    exact genesis_imports importerAccount
  · intro _ _ _ holds move
    exact Move.imports move holds

theorem Move.finalized_kept (move : Move blake2 currency domainId ledger ledger') {id : ExportId}
    {record : ObservedImportRecord} (stored : ledger.state.observedImportsById id = some record)
    (finalized : record.status = .remoteFinalized) :
    ledger'.state.observedImportsById id = some record := by
  cases move with
  | called context domain epoch room dispatched =>
      cases dispatched with
      | created => exact stored
      | observed who claim importer targeted fresh =>
          apply (update_of_ne _ _ _).trans stored
          rintro rfl
          simp [fresh] at stored
      | finalized who other found _ importer pendingStored targeted pending =>
          apply (update_of_ne _ _ _).trans stored
          rintro rfl
          rw [stored, Option.some.injEq] at pendingStored
          simp [← pendingStored, finalized] at pending
      | acknowledged => exact stored
  | closed => exact stored
  | external => exact stored

theorem Move.importIds_kept (move : Move blake2 currency domainId ledger ledger') {e : EpochId}
    (past : e < ledger'.epoch) :
    ledger'.state.epochFinalizedImportIds e = ledger.state.epochFinalizedImportIds e := by
  cases move with
  | called context domain epoch room dispatched =>
      cases dispatched with
      | created => rfl
      | observed => rfl
      | finalized => exact update_of_ne (epoch ▸ UInt64.ne_of_lt past) _ _
      | acknowledged => rfl
  | closed => rfl
  | external => rfl

theorem Move.canonicalEpochFinalizedImports_kept
    (move : Move blake2 currency domainId ledger ledger')
    (holds : ImportsInvariant domainId ledger.epoch ledger.state) {e : EpochId}
    (past : e < ledger'.epoch) : canonicalEpochFinalizedImports blake2 ledger'.state e =
      canonicalEpochFinalizedImports blake2 ledger.state e := by
  rw [canonicalEpochFinalizedImports, canonicalEpochFinalizedImports, move.importIds_kept past]
  congr 1
  apply List.filterMap_congr
  intro id member
  obtain ⟨record, stored, finalized⟩ := holds.found member
  rw [stored, move.finalized_kept stored finalized]

end Imports

section Journal

def Movement.mint? : Movement → Option (ExportId × AccountId × U128)
  | .minted id recipient amount => some (id, recipient, amount)
  | .burned _ _ _ => none

def Movement.burn? : Movement → Option (ExportId × AccountId × U128)
  | .minted _ _ _ => none
  | .burned id sender amount => some (id, sender, amount)

def State.mints (state : State) : List (ExportId × AccountId × U128) :=
  state.journal.filterMap Movement.mint?

def State.burns (state : State) : List (ExportId × AccountId × U128) :=
  state.journal.filterMap Movement.burn?

def finalizedPayment (entry : Option ObservedImportRecord) : Option (AccountId × U128) :=
  entry.bind fun record => if record.status = .remoteFinalized then
    some (record.recipient, record.amount) else none

def resolvedPayment (entry : Option ExportRecord) : Option (AccountId × U128) :=
  entry.bind fun record =>
    if record.status = .remoteFinalized then some (record.leaf.sender, record.leaf.amount) else none

theorem finalizedPayment_eq_some {entry : Option ObservedImportRecord} {paid : AccountId × U128} :
    finalizedPayment entry = some paid ↔
      ∃ record, entry = some record ∧ record.status = .remoteFinalized ∧
        (record.recipient, record.amount) = paid := by
  simp [finalizedPayment, Option.bind_eq_some_iff]

theorem resolvedPayment_eq_some {entry : Option ExportRecord} {paid : AccountId × U128} :
    resolvedPayment entry = some paid ↔
      ∃ record, entry = some record ∧ record.status = .remoteFinalized ∧
        (record.leaf.sender, record.leaf.amount) = paid := by
  simp [resolvedPayment, Option.bind_eq_some_iff]

structure JournalInvariant (state : State) : Prop where
  mints : Tally state.mints fun id => finalizedPayment (state.observedImportsById id)
  burns : Tally state.burns fun id => resolvedPayment (state.exportsById id)

theorem genesis_journal (importerAccount : Option AccountId) :
    JournalInvariant (genesis importerAccount) where
  mints := Tally.empty
  burns := Tally.empty

theorem tally_write {Record : Type} {log : List (ExportId × AccountId × U128)}
    {payment : Option Record → Option (AccountId × U128)} {records : ExportId → Option Record}
    (tally : Tally log fun id => payment (records id)) {id : ExportId} {record : Record}
    {paid : AccountId × U128} (unsettled : payment (records id) = none)
    (settled : payment (some record) = some paid) :
    Tally (log ++ [(id, paid)]) fun other => payment (update records id (some record) other) := by
  apply (tally.settle unsettled paid).congr
  intro other
  by_cases same : other = id
  · subst same
    simp [settled]
  · simp [same]

theorem tally_rewrite {Record : Type} {log : List (ExportId × AccountId × U128)}
    {payment : Option Record → Option (AccountId × U128)} {records : ExportId → Option Record}
    (tally : Tally log fun id => payment (records id)) {id : ExportId} {entry : Option Record}
    (same : payment entry = payment (records id)) :
    Tally log fun other => payment (update records id entry other) := by
  apply tally.congr
  intro other
  by_cases here : other = id
  · subst here
    simp [same]
  · simp [here]

/-- Mints are booked whatever the ids of the exports made here. -/
theorem Move.mints (move : Move blake2 currency domainId ledger ledger')
    (holds : Tally ledger.state.mints fun id =>
      finalizedPayment (ledger.state.observedImportsById id)) :
    Tally ledger'.state.mints fun id =>
      finalizedPayment (ledger'.state.observedImportsById id) := by
  cases move with
  | called context domain epoch room dispatched =>
      cases dispatched with
      | created => exact holds
      | observed who claim importer targeted fresh =>
          exact tally_rewrite holds
            (by simp [fresh, finalizedPayment, ObservedImportRecord.fromClaim])
      | finalized who id record _ importer found targeted pending =>
          simp only [State.mints, List.filterMap_append]
          exact tally_write holds (by simp [finalizedPayment, found, pending]) rfl
      | acknowledged =>
          simp only [State.mints, List.filterMap_append]
          exact (List.append_nil ledger.state.mints).symm ▸ holds
  | closed => exact holds
  | external => exact holds

theorem Move.burns (move : Move blake2 currency domainId ledger ledger')
    (exports : ExportsInvariant blake2 domainId ledger.epoch ledger.state)
    (distinct : IdsDistinct blake2 domainId ledger'.state.nextExportSequence)
    (holds : Tally ledger.state.burns fun id => resolvedPayment (ledger.state.exportsById id)) :
    Tally ledger'.state.burns fun id => resolvedPayment (ledger'.state.exportsById id) := by
  cases move with
  | called context domain epoch room dispatched =>
      cases dispatched with
      | created who target recipient amount =>
          subst domain
          have fresh := exports.fresh room distinct
          exact tally_rewrite holds
            (by simp [newExportLeaf, ExportLeaf.fromHashInput, fresh,
              localFinalRecord, resolvedPayment])
      | observed => exact holds
      | finalized =>
          simp only [State.burns, List.filterMap_append]
          exact (List.append_nil ledger.state.burns).symm ▸ holds
      | acknowledged who claim record _ importer sourced found source target facts exported =>
          simp only [State.burns, List.filterMap_append]
          exact tally_write holds (by simp [resolvedPayment, found, exported]) rfl
  | closed startHeight endHeight room =>
      refine holds.congr fun id => ?_
      change resolvedPayment ((commitEpoch blake2 domainId ledger.epoch startHeight endHeight
        ledger.state).exportsById id) = _
      rw [commitEpoch_exportsById exports]
      cases stored : ledger.state.exportsById id with
      | none => rfl
      | some record =>
          -- a record of the closing epoch is `LocalFinal`, so that the commit resurrects none
          by_cases current : record.leaf.sourceEpochId = ledger.epoch
          · have open' := (exports.entry stored).localFinal_iff.mpr current
            simp [resolvedPayment, committedRecord, current, exportedRecord, open']
          · simp [committedRecord, current]
  | external => exact holds

end Journal

section Holds

/-- What an export keeps on hold of `account`: its amount, until it is resolved. -/
def heldAmount (account : AccountId) : Option ExportRecord → ℕ
  | some record =>
      if record.leaf.sender = account ∧
        (record.status = .localFinal ∨ record.status = .exported) then
        record.leaf.amount.toNat
      else 0
  | none => 0

def outstanding (records : ExportId → Option ExportRecord) (account : AccountId) : ℕ :=
  ∑ id, heldAmount account (records id)

def Backed (currency : Currency Balances) (ledger : Ledger Balances) : Prop :=
  ∀ account, (currency.balanceOnHold ledger.balances account).toNat =
    outstanding ledger.state.exportsById account

theorem outstanding_write (records : ExportId → Option ExportRecord) (id : ExportId)
    (entry : Option ExportRecord) (account : AccountId) :
    outstanding (update records id entry) account + heldAmount account (records id) =
      outstanding records account + heldAmount account entry :=
  sum_comp_update (heldAmount account) records id entry

theorem genesis_backed {importerAccount : Option AccountId} {balances : Balances}
    (unheld : ∀ account, currency.balanceOnHold balances account = 0) :
    Backed currency ⟨0, genesis importerAccount, balances⟩ := by
  intro account
  simp [unheld, outstanding, genesis, heldAmount]

@[simp] theorem heldAmount_none (account : AccountId) : heldAmount account none = 0 := rfl

theorem heldAmount_le_outstanding (records : ExportId → Option ExportRecord) (id : ExportId)
    (account : AccountId) : heldAmount account (records id) ≤ outstanding records account := by
  have written := outstanding_write records id none account
  rw [heldAmount_none, Nat.add_zero] at written
  exact written ▸ Nat.le_add_left _ _

theorem heldAmount_unresolved {record : ExportRecord}
    (unresolved : record.status ≠ .remoteFinalized) (account : AccountId) :
    heldAmount account (some record) = if account = record.leaf.sender then
      record.leaf.amount.toNat else 0 := by
  have held : record.status = .localFinal ∨ record.status = .exported := by
    cases status : record.status <;> simp_all
  simp [heldAmount, held, eq_comm (b := account)]

/-- The commit of an epoch changes no hold: what it marks as exported was `LocalFinal`. -/
theorem heldAmount_committed (exports : ExportsInvariant blake2 domainId epoch state)
    (account : AccountId) (id : ExportId) :
    heldAmount account ((state.exportsById id).map (committedRecord epoch)) =
      heldAmount account (state.exportsById id) := by
  cases stored : state.exportsById id with
  | none => rfl
  | some record =>
      by_cases current : record.leaf.sourceEpochId = epoch
      · have unresolved := (exports.entry stored).localFinal_iff.mpr current
        simp [heldAmount, committedRecord, current, exportedRecord, unresolved]
      · simp [committedRecord, current]

theorem Move.backed (move : Move blake2 currency domainId ledger ledger')
    (exports : ExportsInvariant blake2 domainId ledger.epoch ledger.state)
    (distinct : IdsDistinct blake2 domainId ledger'.state.nextExportSequence)
    (holds : Backed currency ledger) : Backed currency ledger' := by
  intro account
  have before := holds account
  cases move with
  | called context domain epoch room dispatched =>
      cases dispatched with
      | created who target recipient amount balances' positive foreign held =>
          subst domain
          have fresh := exports.fresh room distinct
          have moved := currency.hold_exact held account
          have written := outstanding_write ledger.state.exportsById
            (exportId blake2 context.domainId ledger.state.nextExportSequence)
            (some (localFinalRecord
              (newExportLeaf blake2 context who target recipient amount
                ledger.state.nextExportSequence))) account
          rw [heldAmount_unresolved (by simp [localFinalRecord]), fresh, heldAmount_none,
            Nat.add_zero] at written
          rw [moved, before]
          exact written.symm
      | observed => exact before
      | finalized who id record balances' importer found targeted pending minted =>
          exact (congrArg BitVec.toNat (currency.mintInto_held minted account)).trans before
      | acknowledged who claim record balances' importer sourced found source target
          facts exported burned =>
          have moved := currency.burnHeld_exact burned account
          have written := outstanding_write ledger.state.exportsById claim.exportId
            (some (resolvedRecord context who claim record)) account
          have released : heldAmount account (some (resolvedRecord context who claim record)) =
              0 := by
            simp [heldAmount, resolvedRecord]
          rw [found, released, heldAmount_unresolved (by simp [exported]), Nat.add_zero] at written
          apply Nat.add_right_cancel
          rw [moved, before]
          exact written.symm
  | closed startHeight endHeight room =>
      rw [before]
      apply Finset.sum_congr rfl
      intro id _
      rw [commitEpoch_exportsById exports, heldAmount_committed exports]
  | external held => exact (congrArg BitVec.toNat (held account)).trans before

end Holds

section Reachable

variable {importerAccount : Option AccountId} {balances : Balances}

theorem mints_of_reachable
    (reachable : (system blake2 currency domainId importerAccount balances).Reachable ledger) :
    Tally ledger.state.mints fun id => finalizedPayment (ledger.state.observedImportsById id) := by
  apply reachable.invariant fun ledger : Ledger Balances =>
    Tally ledger.state.mints fun id => finalizedPayment (ledger.state.observedImportsById id)
  · intro _ initial
    subst initial
    exact (genesis_journal importerAccount).mints
  · intro _ _ _ holds move
    exact Move.mints move holds

theorem journal_of_reachable
    (reachable : (system blake2 currency domainId importerAccount balances).Reachable ledger)
    (distinct : IdsDistinct blake2 domainId ledger.state.nextExportSequence) :
    JournalInvariant ledger.state := by
  apply reachable.guarded_invariant
    (fun ledger => IdsDistinct blake2 domainId ledger.state.nextExportSequence)
    (fun ledger => JournalInvariant ledger.state)
  · intro _ _ _ move distinct
    exact distinct.mono (Move.sequence_le move)
  · intro _ initial
    subst initial
    exact genesis_journal importerAccount
  · intro _ _ reached distinct holds move
    have exports := exports_of_reachable reached (distinct.mono (Move.sequence_le move))
    exact ⟨Move.mints move holds.mints, Move.burns move exports distinct holds.burns⟩
  · exact distinct

theorem backed_of_reachable (unheld : ∀ account, currency.balanceOnHold balances account = 0)
    (reachable : (system blake2 currency domainId importerAccount balances).Reachable ledger)
    (distinct : IdsDistinct blake2 domainId ledger.state.nextExportSequence) :
    Backed currency ledger := by
  apply reachable.guarded_invariant
    (fun ledger => IdsDistinct blake2 domainId ledger.state.nextExportSequence) (Backed currency)
  · intro _ _ _ move distinct
    exact distinct.mono (Move.sequence_le move)
  · intro _ initial
    subst initial
    exact genesis_backed unheld
  · intro _ _ reached distinct holds move
    exact Move.backed move (exports_of_reachable reached (distinct.mono (Move.sequence_le move)))
      distinct holds
  · exact distinct

theorem moves_epoch_le (moves : ReflTransGen (Move blake2 currency domainId) ledger ledger') :
    ledger.epoch ≤ ledger'.epoch := by
  induction moves with
  | refl => exact UInt64.le_rfl
  | tail _ move bound => exact UInt64.le_trans bound (Move.epoch_le move)

theorem moves_finalizedImport_kept
    (moves : ReflTransGen (Move blake2 currency domainId) ledger ledger') {id : ExportId}
    {record : ObservedImportRecord} (stored : ledger.state.observedImportsById id = some record)
    (final : record.status = .remoteFinalized) :
    ledger'.state.observedImportsById id = some record := by
  induction moves with
  | refl => exact stored
  | tail _ move kept => exact move.finalized_kept kept final

theorem moves_exportSteps
    (reachable : (system blake2 currency domainId importerAccount balances).Reachable ledger)
    (moves : ReflTransGen (Move blake2 currency domainId) ledger ledger')
    (distinct : IdsDistinct blake2 domainId ledger'.state.nextExportSequence) {id : ExportId}
    {record : ExportRecord} (stored : ledger.state.exportsById id = some record) :
    ∃ record', ledger'.state.exportsById id = some record' ∧
      ReflTransGen ExportStep record record' := by
  induction moves with
  | refl => exact ⟨record, stored, .refl⟩
  | tail before move kept =>
      have earlier := distinct.mono (Move.sequence_le move)
      have exports := exports_of_reachable (reachable.steps before) earlier
      obtain ⟨middle, stored', steps⟩ := kept earlier
      obtain ⟨after, stored'', step⟩ := Move.exportStep move exports distinct stored'
      exact ⟨after, stored'', steps.tail step⟩

theorem exportSteps_leaf {record record' : ExportRecord}
    (steps : ReflTransGen ExportStep record record') : record'.leaf = record.leaf := by
  induction steps with
  | refl => rfl
  | tail _ step same => exact step.leaf.trans same

theorem exportSteps_final {record record' : ExportRecord}
    (steps : ReflTransGen ExportStep record record') (final : record.status = .remoteFinalized) :
    record' = record := by
  induction steps with
  | refl => rfl
  | tail _ step same =>
      subst same
      exact step.final final

theorem moves_leaf_kept
    (reachable : (system blake2 currency domainId importerAccount balances).Reachable ledger)
    (moves : ReflTransGen (Move blake2 currency domainId) ledger ledger')
    (distinct : IdsDistinct blake2 domainId ledger'.state.nextExportSequence) {id : ExportId}
    {record : ExportRecord} (stored : ledger.state.exportsById id = some record) :
    ∃ record', ledger'.state.exportsById id = some record' ∧ record'.leaf = record.leaf := by
  obtain ⟨record', stored', steps⟩ := moves_exportSteps reachable moves distinct stored
  exact ⟨record', stored', exportSteps_leaf steps⟩

theorem moves_finalizedExport_kept
    (reachable : (system blake2 currency domainId importerAccount balances).Reachable ledger)
    (moves : ReflTransGen (Move blake2 currency domainId) ledger ledger')
    (distinct : IdsDistinct blake2 domainId ledger'.state.nextExportSequence) {id : ExportId}
    {record : ExportRecord} (stored : ledger.state.exportsById id = some record)
    (final : record.status = .remoteFinalized) : ledger'.state.exportsById id = some record := by
  obtain ⟨record', stored', steps⟩ := moves_exportSteps reachable moves distinct stored
  exact exportSteps_final steps final ▸ stored'

theorem moves_kept (reachable : (system blake2 currency domainId importerAccount balances).Reachable
    ledger) (moves : ReflTransGen (Move blake2 currency domainId) ledger ledger')
    (distinct : IdsDistinct blake2 domainId ledger'.state.nextExportSequence) {e : EpochId}
    (past : e < ledger.epoch) :
    canonicalEpochExports ledger'.state e = canonicalEpochExports ledger.state e ∧
      canonicalEpochFinalizedImports blake2 ledger'.state e =
        canonicalEpochFinalizedImports blake2 ledger.state e := by
  induction moves with
  | refl => exact ⟨rfl, rfl⟩
  | tail before move kept =>
      have earlier := distinct.mono (Move.sequence_le move)
      have reached := reachable.steps before
      have past' := UInt64.lt_of_lt_of_le past (moves_epoch_le (before.tail move))
      obtain ⟨exports, imports⟩ := kept earlier
      exact ⟨(Move.canonicalEpochExports_kept move (exports_of_reachable reached earlier) distinct
        past').trans exports, (Move.canonicalEpochFinalizedImports_kept move
          (imports_of_reachable reached) past').trans imports⟩

end Reachable

section Log

theorem Move.hashed_subset (move : Move blake2 currency domainId ledger ledger') :
    ledger.state.hashed ⊆ ledger'.state.hashed := by
  cases move with
  | called _ _ _ _ dispatched =>
      cases dispatched with
      | created => exact List.subset_append_left _ _
      | observed => exact List.Subset.refl _
      | finalized => exact List.Subset.refl _
      | acknowledged => exact List.Subset.refl _
  | closed =>
      exact List.Subset.trans (List.subset_append_left _ _) (List.subset_append_left _ _)
  | external => exact List.Subset.refl _

theorem moves_hashed_subset (moves : ReflTransGen (Move blake2 currency domainId) ledger ledger') :
    ledger.state.hashed ⊆ ledger'.state.hashed := by
  induction moves with
  | refl => exact List.Subset.refl _
  | tail _ move sub => exact List.Subset.trans sub (Move.hashed_subset move)

def IdsLogged (domainId : DomainId) (state : State) : Prop :=
  ∀ i < state.nextExportSequence, encode (domainId, i) ∈ state.hashed

theorem Move.idsLogged (move : Move blake2 currency domainId ledger ledger')
    (logged : IdsLogged domainId ledger.state) : IdsLogged domainId ledger'.state := by
  have sub := move.hashed_subset
  cases move with
  | called context domain epoch room dispatched =>
      cases dispatched with
      | created =>
          subst domain
          intro i bound
          by_cases old : i < ledger.state.nextExportSequence
          · exact sub (logged i old)
          · have last : i = ledger.state.nextExportSequence := by
              change i < saturatingAdd64 ledger.state.nextExportSequence 1 at bound
              rw [UInt64.lt_iff_toNat_lt, toNat_saturatingAdd64] at bound
              rw [UInt64.lt_iff_toNat_lt] at old
              apply UInt64.toNat_inj.mp
              change _ < min (ledger.state.nextExportSequence.toNat + 1) _ at bound
              omega
            subst last
            exact List.mem_append_right _ List.mem_cons_self
      | observed => exact logged
      | finalized => exact logged
      | acknowledged => exact logged
  | closed => exact fun i bound => sub (logged i bound)
  | external => exact logged

theorem idsLogged_of_reachable {importerAccount : Option AccountId} {balances : Balances}
    (reachable : (system blake2 currency domainId importerAccount balances).Reachable ledger) :
    IdsLogged domainId ledger.state := by
  apply reachable.invariant fun ledger => IdsLogged domainId ledger.state
  · rintro _ rfl i bound
    exact absurd bound (by simp [genesis])
  · intro _ _ _ logged move
    exact Move.idsLogged move logged

theorem idsDistinct_of_logged (logged : IdsLogged domainId state)
    (free : ¬ Collides blake2 state.hashed) :
    IdsDistinct blake2 domainId state.nextExportSequence := by
  intro i j hi hj same
  have preimages := eq_of_not_collides free (logged i hi) (logged j hj) same
  exact (Prod.mk.inj (encode_injective preimages)).2

end Log

end Ialp.Transfers
