import Ialp.Pallets.TransfersBooks

/-!
The life of an export's record on its source chain, and what finalized imports add up to on a target
chain.
-/

namespace Ialp.Transfers

open Scale Function Transition Books Relation

variable {Balances : Type} {blake2 : Bytes → Hash32} {currency : Currency Balances}
  {domainId : DomainId} {ledger ledger' : Ledger Balances} {importerAccount : Option AccountId}
  {balances : Balances}

section Exports

inductive StatusNext : ExportStatus → ExportStatus → Prop where
  | exported : StatusNext .localFinal .exported
  | finalized : StatusNext .exported .remoteFinalized

theorem ExportStep.status {record record' : ExportRecord} (step : ExportStep record record') :
    ReflTransGen StatusNext record.status record'.status := by
  cases step with
  | kept => exact .refl
  | committed fresh =>
      rw [fresh]
      exact .single .exported
  | resolved context who claim exported =>
      rw [exported]
      exact .single .finalized

theorem exportSteps_status {record record' : ExportRecord}
    (steps : ReflTransGen ExportStep record record') :
    ReflTransGen StatusNext record.status record'.status := by
  induction steps with
  | refl => exact .refl
  | tail _ step forward => exact forward.trans step.status

inductive Completion (record : ExportRecord) : Prop where
  | pending (status : record.status ≠ .remoteFinalized)
      (summary : record.completionSummaryHash = none)
      (package : record.completionPackageHash = none)
      (height : record.resolvedAtSourceBlockHeight = none)
      (resolver : record.resolverAccount = none)
  | complete (status : record.status = .remoteFinalized)
      (summary : record.completionSummaryHash.isSome)
      (package : record.completionPackageHash.isSome)
      (height : record.resolvedAtSourceBlockHeight.isSome)
      (resolver : record.resolverAccount.isSome)

theorem ExportStep.completion {record record' : ExportRecord} (step : ExportStep record record')
    (holds : Completion record) : Completion record' := by
  cases step with
  | kept => exact holds
  | committed fresh =>
      cases holds with
      | pending _ summary package height resolver =>
          exact .pending (by simp [exportedRecord]) summary package height resolver
      | complete final => cases fresh.symm.trans final
  | resolved => exact .complete rfl rfl rfl rfl rfl

theorem Move.exportOrigin (move : Move blake2 currency domainId ledger ledger')
    (holds : ExportsInvariant blake2 domainId ledger.epoch ledger.state)
    (distinct : IdsDistinct blake2 domainId ledger'.state.nextExportSequence)
    {id : ExportId} {record' : ExportRecord}
    (stored' : ledger'.state.exportsById id = some record') :
    (∃ leaf, record' = localFinalRecord leaf) ∨
      ∃ record, ledger.state.exportsById id = some record ∧ ExportStep record record' := by
  cases before : ledger.state.exportsById id with
  | some record =>
      obtain ⟨after, stored, step⟩ := move.exportStep holds distinct before
      obtain rfl : after = record' := by simpa [stored] using stored'
      exact .inr ⟨record, rfl, step⟩
  | none =>
      left
      cases move with
      | called context domain epoch room dispatched =>
          cases dispatched with
          | created who target recipient amount =>
              rcases update_eq_some.mp stored' with ⟨_, new⟩ | ⟨_, old⟩
              · exact ⟨_, new.symm⟩
              · cases before.symm.trans old
          | observed => cases before.symm.trans stored'
          | finalized => cases before.symm.trans stored'
          | acknowledged who claim resolved _ _ _ found =>
              rcases update_eq_some.mp stored' with ⟨same, _⟩ | ⟨_, old⟩
              · cases before.symm.trans (same ▸ found)
              · cases before.symm.trans old
      | closed startHeight endHeight room =>
          have committed := commitEpoch_exportsById holds startHeight endHeight id
          rw [before] at committed
          cases committed.symm.trans stored'
      | external => cases before.symm.trans stored'

theorem completion_of_reachable
    (reachable : (system blake2 currency domainId importerAccount balances).Reachable ledger)
    (distinct : IdsDistinct blake2 domainId ledger.state.nextExportSequence) :
    ∀ {id record}, ledger.state.exportsById id = some record → Completion record := by
  apply reachable.guarded_invariant
    (fun ledger => IdsDistinct blake2 domainId ledger.state.nextExportSequence)
    (fun ledger => ∀ {id record}, ledger.state.exportsById id = some record → Completion record)
  · intro _ _ _ move distinct
    exact distinct.mono (Move.sequence_le move)
  · intro _ initial
    subst initial
    simp [genesis]
  · intro _ _ reached distinct holds move id record' stored'
    have exports := exports_of_reachable reached (distinct.mono (Move.sequence_le move))
    rcases Move.exportOrigin move exports distinct stored' with ⟨leaf, new⟩ | ⟨record, stored, step⟩
    · subst new
      exact .pending (by simp [localFinalRecord]) rfl rfl rfl rfl
    · exact step.completion (holds stored)
  · exact distinct

theorem Completion.iff {record : ExportRecord} (completion : Completion record) :
    (record.completionSummaryHash.isSome ∧ record.completionPackageHash.isSome ∧
      record.resolvedAtSourceBlockHeight.isSome ∧ record.resolverAccount.isSome) ↔
      record.status = .remoteFinalized := by
  cases completion with
  | pending status summary => simp [status, summary]
  | complete status summary package height resolver =>
      simp [status, summary, package, height, resolver]

end Exports

section Imports

def finalizedAmount : Option ObservedImportRecord → ℕ
  | some record => if record.status = .remoteFinalized then record.amount.toNat else 0
  | none => 0

theorem finalizedAmount_eq (entry : Option ObservedImportRecord) :
    ((finalizedPayment entry).map fun paid => paid.2.toNat).getD 0 = finalizedAmount entry := by
  cases entry with
  | none => rfl
  | some record =>
      by_cases final : record.status = .remoteFinalized <;> simp [finalizedPayment,
        finalizedAmount, final]

theorem ImportsInvariant.listed_once {epoch : EpochId} {state : State}
    (holds : ImportsInvariant domainId epoch state) {id : ExportId} {record : ObservedImportRecord}
    (stored : state.observedImportsById id = some record)
    (final : record.status = .remoteFinalized) :
    ∃ e, (state.epochFinalizedImportIds e).count id = 1 ∧ ∀ e' ≠ e,
      id ∉ state.epochFinalizedImportIds e' := by
  obtain ⟨e, member⟩ := holds.listed stored final
  exact ⟨e, List.count_eq_one_of_mem (holds.nodup e) member, fun e' other member' =>
    other (holds.once member' member)⟩

end Imports

end Ialp.Transfers
