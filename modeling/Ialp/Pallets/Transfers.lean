import Ialp.Pallets.Frame
import Ialp.Types.Transfer

/-! The transfers pallet: calls, commitments of a closed epoch, and what each call can write. -/

namespace Ialp.Transfers

open Scale Function

inductive Error where
  | badOrigin
  | sameDomainTarget
  | zeroAmount
  | holdFailed
  | missingImporterAccount
  | unauthorizedImporter
  | wrongTargetDomain
  | duplicateObservedImport
  | missingObservedImport
  | duplicateFinalizedImport
  | importNotObserved
  | invalidRecipientEncoding
  | invalidSenderEncoding
  | mintFailed
  | missingExportRecord
  | wrongSourceDomain
  | wrongClaimTargetDomain
  | completionMismatch
  | holdResolutionFailed
  deriving DecidableEq, Repr

inductive Movement where
  | minted (exportId : ExportId) (recipient : AccountId) (amount : U128)
  | burned (exportId : ExportId) (sender : AccountId) (amount : U128)
  deriving DecidableEq

/-- The pallet's storage. `journal` and `hashed` are not stored by the code: they record, in order,
the mints and burns it performed and the byte strings it hashed. -/
structure State where
  nextExportSequence : UInt64
  epochExportIds : EpochId → List ExportId
  exportsById : ExportId → Option ExportRecord
  importerAccount : Option AccountId
  observedImportsById : ExportId → Option ObservedImportRecord
  epochFinalizedImportIds : EpochId → List ExportId
  journal : List Movement
  hashed : List Bytes

def genesis (importerAccount : Option AccountId) : State where
  nextExportSequence := 0
  epochExportIds _ := []
  exportsById _ := none
  importerAccount := importerAccount
  observedImportsById _ := none
  epochFinalizedImportIds _ := []
  journal := []
  hashed := []

inductive Call where
  | createCrossDomainTransfer (targetDomain : DomainId) (recipient : AccountIdBytes) (amount : U128)
  | observeVerifiedImport (claim : ObservedImportClaim)
  | finalizeVerifiedImport (exportId : ExportId)
  | acknowledgeRemoteFinalization (claim : RemoteFinalizationClaim)

section Calls

variable {Balances : Type} (blake2 : Bytes → Hash32) (currency : Currency Balances)
  (context : CallContext)

def newExportLeaf (who : AccountId) (targetDomain : DomainId)
    (recipient : AccountIdBytes) (amount : U128) (sequence : UInt64) : ExportLeaf :=
  ExportLeaf.fromHashInput blake2 {
    version := 1
    exportId := exportId blake2 context.domainId sequence
    sourceDomain := context.domainId
    targetDomain
    sender := accountToBytes who
    recipient
    amount
    sourceEpochId := context.currentEpoch
    sourceBlockHeight := context.blockNumber
    extrinsicIndex := context.extrinsicIndex }

def localFinalRecord (leaf : ExportLeaf) : ExportRecord where
  leaf := leaf
  status := .localFinal
  completionSummaryHash := none
  completionPackageHash := none
  resolvedAtSourceBlockHeight := none
  resolverAccount := none

/-- The storage writes of `create_cross_domain_transfer` for a leaf with the next sequence
number. -/
def insertExport (leaf : ExportLeaf) (state : State) : State :=
  { state with
    nextExportSequence := saturatingAdd64 state.nextExportSequence 1
    exportsById := update state.exportsById leaf.exportId (some (localFinalRecord leaf))
    epochExportIds := update state.epochExportIds context.currentEpoch
      (state.epochExportIds context.currentEpoch ++ [leaf.exportId])
    hashed := state.hashed ++ [encode (context.domainId, state.nextExportSequence), leaf.preimage] }

def createCrossDomainTransfer (origin : Origin) (targetDomain : DomainId)
    (recipient : AccountIdBytes) (amount : U128) (state : State) (balances : Balances) :
    Except Error (State × Balances) := do
  let who ← ensureSigned .badOrigin origin
  ensure (0 < amount) .zeroAmount
  ensure (targetDomain ≠ context.domainId) .sameDomainTarget
  let balances ← okOr (currency.hold balances who amount) .holdFailed
  let leaf := newExportLeaf blake2 context who targetDomain recipient amount
    state.nextExportSequence
  return (insertExport context leaf state, balances)

def ensureImporter (origin : Origin) (state : State) : Except Error AccountId := do
  let who ← ensureSigned .badOrigin origin
  let configuredImporter ← okOr state.importerAccount .missingImporterAccount
  ensure (who = configuredImporter) .unauthorizedImporter
  return who

def observeVerifiedImport (origin : Origin) (claim : ObservedImportClaim) (state : State) :
    Except Error State := do
  let who ← ensureImporter origin state
  ensure (claim.targetDomain = context.domainId) .wrongTargetDomain
  ensure (state.observedImportsById claim.exportId = none) .duplicateObservedImport
  let record := ObservedImportRecord.fromClaim claim context.blockNumber (accountToBytes who)
  return { state with
    observedImportsById := update state.observedImportsById claim.exportId (some record) }

def finalizedRecord (who : AccountId) (record : ObservedImportRecord) : ObservedImportRecord :=
  { record with
    status := .remoteFinalized
    finalizedAtLocalBlockHeight := some context.blockNumber
    finalizerAccount := some (accountToBytes who) }

def finalizeVerifiedImport (origin : Origin) (id : ExportId) (state : State) (balances : Balances) :
    Except Error (State × Balances) := do
  let who ← ensureImporter origin state
  let record ← okOr (state.observedImportsById id) .missingObservedImport
  ensure (record.targetDomain = context.domainId) .wrongTargetDomain
  ensure (record.status = .remoteObserved) .importNotObserved
  let recipient ← okOr (accountFromBytes record.recipient) .invalidRecipientEncoding
  let balances ← okOr (currency.mintInto balances recipient record.amount) .mintFailed
  return ({ state with
    observedImportsById :=
      update state.observedImportsById id (some (finalizedRecord context who record))
    epochFinalizedImportIds := update state.epochFinalizedImportIds context.currentEpoch
      (appendOnce id (state.epochFinalizedImportIds context.currentEpoch))
    journal := state.journal ++ [.minted id recipient record.amount] }, balances)

def resolvedRecord (who : AccountId) (claim : RemoteFinalizationClaim) (record : ExportRecord) :
    ExportRecord :=
  { record with
    status := .remoteFinalized
    completionSummaryHash := some claim.completionSummaryHash
    completionPackageHash := some claim.completionPackageHash
    resolvedAtSourceBlockHeight := some context.blockNumber
    resolverAccount := some (accountToBytes who) }

def acknowledgeRemoteFinalization (origin : Origin) (claim : RemoteFinalizationClaim)
    (state : State) (balances : Balances) : Except Error (State × Balances) := do
  let who ← ensureImporter origin state
  ensure (claim.sourceDomain = context.domainId) .wrongSourceDomain
  let record ← okOr (state.exportsById claim.exportId) .missingExportRecord
  ensure (record.leaf.sourceDomain = claim.sourceDomain) .wrongSourceDomain
  ensure (record.leaf.targetDomain = claim.targetDomain) .wrongClaimTargetDomain
  ensure (record.leaf.sourceEpochId = claim.sourceEpochId ∧
    record.leaf.recipient = claim.recipient ∧
    record.leaf.amount = claim.amount) .completionMismatch
  ensure (record.status ≠ .remoteFinalized) .duplicateFinalizedImport
  ensure (record.status = .exported) .completionMismatch
  let sender ← okOr (accountFromBytes record.leaf.sender) .invalidSenderEncoding
  let balances ← okOr (currency.burnHeld balances sender record.leaf.amount) .holdResolutionFailed
  return ({ state with
    exportsById := update state.exportsById claim.exportId
      (some (resolvedRecord context who claim record))
    journal := state.journal ++ [.burned claim.exportId sender record.leaf.amount] }, balances)

def dispatch (origin : Origin) (call : Call) (state : State) (balances : Balances) :
    Except Error (State × Balances) :=
  match call with
  | .createCrossDomainTransfer targetDomain recipient amount =>
      createCrossDomainTransfer blake2 currency context origin targetDomain recipient
        amount state balances
  | .observeVerifiedImport claim => do
      let state ← observeVerifiedImport context origin claim state
      return (state, balances)
  | .finalizeVerifiedImport id => finalizeVerifiedImport currency context origin id state balances
  | .acknowledgeRemoteFinalization claim =>
      acknowledgeRemoteFinalization currency context origin claim state balances

end Calls

section Commitments

variable (blake2 : Bytes → Hash32) (domainId : DomainId)

def canonicalEpochExports (state : State) (epochId : EpochId) : List ExportLeaf :=
  sortExportLeaves ((state.epochExportIds epochId).filterMap fun id =>
    (state.exportsById id).map (·.leaf))

def markExported (records : ExportId → Option ExportRecord) (leaf : ExportLeaf) :
    ExportId → Option ExportRecord :=
  update records leaf.exportId ((records leaf.exportId).map fun record =>
    if record.status ≠ .exported then { record with status := .exported } else record)

def commitEpochExports (epochId : EpochId) (startHeight endHeight : UInt32) (state : State) :
    Hash32 × State :=
  let leaves := canonicalEpochExports state epochId
  let exportRoot := exportMerkleRoot blake2 domainId epochId startHeight endHeight leaves
  (exportRoot, { state with
    exportsById := leaves.foldl markExported state.exportsById
    hashed := state.hashed ++ exportFamily.rootPreimages blake2 domainId epochId startHeight
      endHeight leaves })

def canonicalEpochFinalizedImports (state : State) (epochId : EpochId) : List FinalizedImportLeaf :=
  sortFinalizedImportLeaves ((state.epochFinalizedImportIds epochId).filterMap fun id =>
    (state.observedImportsById id).bind fun record => record.finalizedLeaf blake2)

def commitEpochImports (epochId : EpochId) (startHeight endHeight : UInt32) (state : State) :
    Hash32 × State :=
  let leaves := canonicalEpochFinalizedImports blake2 state epochId
  (importMerkleRoot blake2 domainId epochId startHeight endHeight leaves, { state with
    hashed := state.hashed ++ importFamily.rootPreimages blake2 domainId epochId startHeight
      endHeight leaves })

end Commitments

section Inversion

variable {Balances : Type} (blake2 : Bytes → Hash32) (currency : Currency Balances)
  (context : CallContext)

/-- Everything a successful call can do: the checks it passed and the state it left. -/
inductive Dispatched (state : State) (balances : Balances) :
    Origin → Call → State → Balances → Prop where
  | created (who : AccountId) (targetDomain : DomainId) (recipient : AccountIdBytes) (amount : U128)
      (balances' : Balances) (positive : 0 < amount) (foreign : targetDomain ≠ context.domainId)
      (held : currency.hold balances who amount = some balances') :
      Dispatched state balances (.signed who)
      (.createCrossDomainTransfer targetDomain recipient amount)
        (insertExport context
          (newExportLeaf blake2 context who targetDomain recipient amount state.nextExportSequence)
            state)
        balances'
  | observed (who : AccountId) (claim : ObservedImportClaim)
      (importer : state.importerAccount = some who)
      (targeted : claim.targetDomain = context.domainId)
      (fresh : state.observedImportsById claim.exportId = none) :
      Dispatched state balances (.signed who) (.observeVerifiedImport claim)
        { state with
          observedImportsById := update state.observedImportsById claim.exportId
            (some (ObservedImportRecord.fromClaim claim context.blockNumber (accountToBytes who))) }
        balances
  | finalized (who : AccountId) (id : ExportId) (record : ObservedImportRecord)
      (balances' : Balances) (importer : state.importerAccount = some who)
      (found : state.observedImportsById id = some record)
      (targeted : record.targetDomain = context.domainId)
      (pending : record.status = .remoteObserved)
      (minted : currency.mintInto balances record.recipient record.amount = some balances') :
      Dispatched state balances (.signed who) (.finalizeVerifiedImport id)
        { state with
          observedImportsById :=
            update state.observedImportsById id (some (finalizedRecord context who record))
          epochFinalizedImportIds := update state.epochFinalizedImportIds context.currentEpoch
            (appendOnce id (state.epochFinalizedImportIds context.currentEpoch))
          journal := state.journal ++ [.minted id record.recipient record.amount] }
        balances'
  | acknowledged (who : AccountId) (claim : RemoteFinalizationClaim) (record : ExportRecord)
      (balances' : Balances) (importer : state.importerAccount = some who)
      (sourced : claim.sourceDomain = context.domainId)
      (found : state.exportsById claim.exportId = some record)
      (source : record.leaf.sourceDomain = claim.sourceDomain)
      (target : record.leaf.targetDomain = claim.targetDomain)
      (facts : record.leaf.sourceEpochId = claim.sourceEpochId ∧
        record.leaf.recipient = claim.recipient ∧
        record.leaf.amount = claim.amount)
      (exported : record.status = .exported)
      (burned : currency.burnHeld balances record.leaf.sender record.leaf.amount = some balances') :
      Dispatched state balances (.signed who) (.acknowledgeRemoteFinalization claim)
        { state with
          exportsById := update state.exportsById claim.exportId
            (some (resolvedRecord context who claim record))
          journal := state.journal ++ [.burned claim.exportId record.leaf.sender record.leaf.amount]
            }
        balances'

variable {blake2 currency context} {state state' : State} {balances balances' : Balances}
  {origin : Origin}

theorem ensureImporter_eq_ok {who : AccountId} :
    ensureImporter origin state = .ok who ↔ origin = .signed who ∧
      state.importerAccount = some who := by
  simp only [ensureImporter, bind_eq_ok, ensureSigned_eq_ok, okOr_eq_ok, ensure_eq_ok, exists_const]
  constructor
  · rintro ⟨signer, rfl, importer, configured, rfl, returned⟩
    cases returned
    exact ⟨rfl, configured⟩
  · rintro ⟨rfl, configured⟩
    exact ⟨who, rfl, who, configured, rfl, rfl⟩

theorem dispatched_of_ok {call : Call}
    (ok : dispatch blake2 currency context origin call state balances = .ok (state', balances')) :
    Dispatched blake2 currency context state balances origin call state' balances' := by
  cases call with
  | createCrossDomainTransfer targetDomain recipient amount =>
      simp only [dispatch, createCrossDomainTransfer, bind_eq_ok, ensureSigned_eq_ok, okOr_eq_ok,
        ensure_eq_ok, exists_const] at ok
      obtain ⟨who, rfl, positive, foreign, held, moved, returned⟩ := ok
      cases returned
      exact .created who targetDomain recipient amount _ positive foreign moved
  | observeVerifiedImport claim =>
      simp only [dispatch, observeVerifiedImport, bind_eq_ok, ensureImporter_eq_ok, ensure_eq_ok,
        exists_const] at ok
      obtain ⟨_, ⟨who, ⟨rfl, importer⟩, targeted, fresh, written⟩, returned⟩ := ok
      cases written
      cases returned
      exact .observed who claim importer targeted fresh
  | finalizeVerifiedImport id =>
      simp only [dispatch, finalizeVerifiedImport, bind_eq_ok, ensureImporter_eq_ok, okOr_eq_ok,
        ensure_eq_ok, exists_const, accountFromBytes, Option.some.injEq] at ok
      obtain ⟨who, ⟨rfl, importer⟩, record, found, targeted, pending, recipient, rfl, minted,
          moved, returned⟩ := ok
      cases returned
      exact .finalized who id record _ importer found targeted pending moved
  | acknowledgeRemoteFinalization claim =>
      simp only [dispatch, acknowledgeRemoteFinalization, bind_eq_ok,
        ensureImporter_eq_ok, okOr_eq_ok, ensure_eq_ok, exists_const, accountFromBytes,
        Option.some.injEq] at ok
      obtain ⟨who, ⟨rfl, importer⟩, sourced, record, found, source, target, facts, _,
          exported, sender, rfl,
        burnt, moved, returned⟩ := ok
      cases returned
      exact .acknowledged who claim record _ importer sourced found source target
        facts exported moved

theorem Dispatched.sequence_le {call : Call}
    (dispatched : Dispatched blake2 currency context state balances origin call state' balances') :
    state'.nextExportSequence.toNat ≤ state.nextExportSequence.toNat + 1 := by
  cases dispatched with
  | created =>
      change (saturatingAdd64 _ 1).toNat ≤ _
      rw [toNat_saturatingAdd64]
      exact Nat.min_le_left _ _
  | observed => exact Nat.le_add_right _ _
  | finalized => exact Nat.le_add_right _ _
  | acknowledged => exact Nat.le_add_right _ _

end Inversion

end Ialp.Transfers
