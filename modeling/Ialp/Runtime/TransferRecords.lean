import Ialp.Pallets.TransfersLifecycle
import Ialp.Runtime.Funds

/-! The records a chain keeps of transfers: exports on their source, finalized imports on their
target. -/

namespace Ialp.Chain

open Scale Function Relation

variable {Balances : Type}

/-- The life of an export, from any state of a run that has its record to any later one: the leaf
stays, the status moves forward, and with the finalization the completion fields are set and the
record is final. -/
theorem export_lifecycle (blake2 : Bytes → Hash32) (currency : Currency Balances)
    (config : GenesisConfig Balances) (chain chain' : Chain Balances)
    (reachable : (system blake2 currency config).Reachable chain)
    (steps : ReflTransGen (system blake2 currency config).step chain chain')
    (distinct : Transfers.IdsDistinct blake2 config.domainId chain'.transfers.nextExportSequence)
    (id : ExportId) (record : ExportRecord)
    (stored : chain.transfers.exportsById id = some record) :
    ∃ record', chain'.transfers.exportsById id = some record' ∧
      record'.leaf = record.leaf ∧
      ReflTransGen Transfers.StatusNext record.status record'.status ∧
      (record'.status = .localFinal ↔ record'.leaf.sourceEpochId = chain'.epochs.currentEpoch) ∧
      ((record'.completionSummaryHash.isSome ∧ record'.completionPackageHash.isSome ∧
        record'.resolvedAtSourceBlockHeight.isSome ∧ record'.resolverAccount.isSome) ↔
          record'.status = .remoteFinalized) ∧
      (record.status = .remoteFinalized → record' = record) ∧
      (chain'.transfers.epochExportIds record'.leaf.sourceEpochId).count id = 1 ∧
      ∀ e, e ≠ record'.leaf.sourceEpochId → id ∉ chain'.transfers.epochExportIds e := by
  have moves := ledger_moves_of_steps reachable steps
  have reached := ledger_reachable (reachable.steps steps)
  obtain ⟨record', stored', recordSteps⟩ :=
    Transfers.moves_exportSteps (ledger_reachable reachable) moves distinct stored
  have exports := Transfers.exports_of_reachable reached distinct
  have entry := exports.entry stored'
  refine ⟨record', stored', Transfers.exportSteps_leaf recordSteps,
    Transfers.exportSteps_status recordSteps, entry.localFinal_iff,
    (Transfers.completion_of_reachable reached distinct stored').iff,
    Transfers.exportSteps_final recordSteps, ?_, ?_⟩
  · exact List.count_eq_one_of_mem (exports.nodup _) entry.listed
  · intro e elsewhere member
    obtain ⟨found, stored'', source⟩ := exports.found member
    obtain rfl : found = record' := Option.some.inj (stored''.symm.trans stored')
    exact elsewhere source.symm

section Sample

def importingGenesis : GenesisConfig (AccountId → Purse) :=
  { sampleGenesis with transfersImporter := some emptyHash }

def sampleCompletion : RemoteFinalizationClaim where
  version := 1
  exportId := exportId sampleHash .earth 0
  sourceDomain := .earth
  targetDomain := .moon
  sourceEpochId := 0
  recipient := emptyHash
  amount := 5
  completionSummaryHash := emptyHash
  completionPackageHash := emptyHash

def completionActions : List (Action (AccountId → Purse)) :=
  [closes, opens, .transfers (.signed emptyHash) (.acknowledgeRemoteFinalization sampleCompletion)]

theorem export_lifecycle_sample :
    ∃ chain chain' record record',
      runScript sampleHash sampleCurrency (genesis importingGenesis) sampleActions = some chain ∧
      runScript sampleHash sampleCurrency chain completionActions = some chain' ∧
      chain.transfers.exportsById (exportId sampleHash .earth 0) = some record ∧
      chain'.transfers.exportsById (exportId sampleHash .earth 0) = some record' ∧
      record.status = .localFinal ∧ record'.status = .remoteFinalized ∧ record'.leaf = record.leaf ∧
      (record'.completionSummaryHash.isSome ∧ record'.completionPackageHash.isSome ∧
        record'.resolvedAtSourceBlockHeight.isSome ∧ record'.resolverAccount.isSome) ∧
      (chain'.transfers.epochExportIds record'.leaf.sourceEpochId).count
        (exportId sampleHash .earth 0) = 1 := by
  have evaluated :
      ((runScript sampleHash sampleCurrency (genesis importingGenesis) sampleActions).bind
        fun chain =>
          (runScript sampleHash sampleCurrency chain completionActions).map fun chain' =>
            ((chain.transfers.exportsById (exportId sampleHash .earth 0)).map ExportRecord.status,
              (chain'.transfers.exportsById (exportId sampleHash .earth 0)).map ExportRecord.status,
              chain'.transfers.nextExportSequence)) =
      some (some .localFinal, some .remoteFinalized, 1) := by
    decide +kernel
  obtain ⟨chain, ran, rest⟩ := Option.bind_eq_some_iff.mp evaluated
  obtain ⟨chain', ran', facts⟩ := Option.map_eq_some_iff.mp rest
  obtain ⟨before, after, next⟩ := by simpa only [Prod.mk.injEq] using facts
  obtain ⟨record, stored, fresh⟩ := Option.map_eq_some_iff.mp before
  obtain ⟨last, stored', final⟩ := Option.map_eq_some_iff.mp after
  have distinct : Transfers.IdsDistinct sampleHash .earth chain'.transfers.nextExportSequence := by
    rw [next]
    exact idsDistinct_one _ _
  obtain ⟨record', found, leaf, _, _, complete, _, listed, _⟩ :=
    export_lifecycle sampleHash sampleCurrency importingGenesis chain chain'
      (reachable_of_script (.start rfl) ran) (steps_of_script ran') distinct _ record stored
  obtain rfl : record' = last := Option.some.inj (found.symm.trans stored')
  exact ⟨chain, chain', record, record', ran, ran', stored, stored', fresh, final, leaf,
    complete.mpr final, listed⟩

end Sample

/-- What a chain has minted for imports is what its finalized import records say, whatever it was
told: one mint a record, to its recipient. Each is listed in one epoch, and its leaf is final. -/
theorem mint_accounting (blake2 : Bytes → Hash32) (currency : Currency Balances)
    (config : GenesisConfig Balances) (chain : Chain Balances)
    (reachable : (system blake2 currency config).Reachable chain) :
    (chain.transfers.mints.map fun mint => mint.2.2.toNat).sum =
        ∑ id, Transfers.finalizedAmount (chain.transfers.observedImportsById id) ∧
    ∀ id,
      (∀ record, chain.transfers.observedImportsById id = some record →
        record.status = .remoteFinalized →
        (chain.transfers.mints.filter fun mint => mint.1 = id) =
          [(id, record.recipient, record.amount)] ∧
        (∃ e, (chain.transfers.epochFinalizedImportIds e).count id = 1 ∧
          ∀ e', e' ≠ e → id ∉ chain.transfers.epochFinalizedImportIds e') ∧
        ∀ chain', ReflTransGen (system blake2 currency config).step chain chain' →
          ∃ record', chain'.transfers.observedImportsById id = some record' ∧
            record'.status = .remoteFinalized ∧ record'.finalizedLeaf blake2 =
              record.finalizedLeaf blake2) ∧
      ((∀ record, chain.transfers.observedImportsById id = some record →
        record.status ≠ .remoteFinalized) →
        (chain.transfers.mints.filter fun mint => mint.1 = id) = [] ∧
        ∀ e, id ∉ chain.transfers.epochFinalizedImportIds e) := by
  have reached := ledger_reachable reachable
  have imports := Transfers.imports_of_reachable reached
  have tally := Transfers.mints_of_reachable reached
  constructor
  · apply (tally.sum_eq fun paid => paid.2.toNat).trans
    apply Finset.sum_congr rfl
    intro id _
    exact Transfers.finalizedAmount_eq _
  · intro id
    constructor
    · intro record stored final
      refine ⟨tally.filter_eq (Transfers.finalizedPayment_eq_some.mpr ⟨record, stored, final, rfl⟩),
        imports.listed_once stored final, ?_⟩
      intro chain' steps
      exact ⟨record, Transfers.moves_finalizedImport_kept (ledger_moves_of_steps reachable steps)
        stored final, final, rfl⟩
    · intro pending
      refine ⟨tally.filter_eq_nil ?_, imports.unlisted pending⟩
      cases payment : Transfers.finalizedPayment (chain.transfers.observedImportsById id) with
      | none => exact payment
      | some paid =>
          obtain ⟨record, stored, final, _⟩ := Transfers.finalizedPayment_eq_some.mp payment
          exact absurd final (pending record stored)

section Sample

def sampleImport : ObservedImportClaim where
  version := 1
  exportId := exportId sampleHash .moon 0
  sourceDomain := .moon
  targetDomain := .earth
  sourceEpochId := 0
  summaryHash := emptyHash
  packageHash := emptyHash
  recipient := emptyHash
  amount := 7

def importActions : List (Action (AccountId → Purse)) :=
  [opens, .transfers (.signed emptyHash) (.observeVerifiedImport sampleImport),
    .transfers (.signed emptyHash) (.finalizeVerifiedImport sampleImport.exportId), closes, opens,
    .transfers (.signed emptyHash) (.observeVerifiedImport sampleImport),
    .transfers (.signed emptyHash) (.finalizeVerifiedImport sampleImport.exportId)]

theorem mint_accounting_sample :
    ∃ chain, runScript sampleHash sampleCurrency (genesis importingGenesis) importActions =
      some chain ∧
      (chain.transfers.mints.filter fun mint => mint.1 = sampleImport.exportId) =
        [(sampleImport.exportId, emptyHash, 7)] ∧
      (chain.transfers.mints.map fun mint => mint.2.2.toNat).sum =
        ∑ id, Transfers.finalizedAmount (chain.transfers.observedImportsById id) ∧
      ∃ e, (chain.transfers.epochFinalizedImportIds e).count sampleImport.exportId = 1 := by
  have evaluated :
      ((runScript sampleHash sampleCurrency (genesis importingGenesis) importActions).map
        fun chain =>
          (chain.transfers.observedImportsById sampleImport.exportId).map fun record =>
            (record.status, record.recipient, record.amount)) =
      some (some (.remoteFinalized, emptyHash, 7)) := by
    decide +kernel
  obtain ⟨chain, ran, entry⟩ := Option.map_eq_some_iff.mp evaluated
  obtain ⟨record, stored, facts⟩ := Option.map_eq_some_iff.mp entry
  obtain ⟨final, recipient, amount⟩ := by simpa only [Prod.mk.injEq] using facts
  obtain ⟨total, accounted⟩ :=
    mint_accounting sampleHash sampleCurrency importingGenesis chain
      (reachable_of_script (.start rfl) ran)
  obtain ⟨minted, ⟨e, listed, _⟩, _⟩ := (accounted _).1 record stored final
  rw [recipient, amount] at minted
  exact ⟨chain, ran, minted, total, e, listed⟩

end Sample

end Ialp.Chain
