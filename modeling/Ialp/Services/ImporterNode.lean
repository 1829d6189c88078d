import Ialp.Lib.Exchange
import Ialp.Pallets.Governance
import Ialp.Pallets.Transfers
import Ialp.Services.Importer

/-!
The requests the importer makes of its node while it works on one proof of a package: the look-ups,
the transactions it submits and the polls that wait for their effect. The chain goes on between two
requests; what it has recorded, it keeps.
-/

namespace Ialp.Services

open Scale Exchange

section Node

structure NodeView where
  observedImportsById : ExportId → Option ObservedImportRecord
  exportsById : ExportId → Option ExportRecord
  proposalsById : GovernanceProposalId → Option GovernanceProposal
  ackRecordsByKey : GovernanceProposalId × DomainId → Option GovernanceAckRecord

namespace NodeView

def ImportFinalized (view : NodeView) (exportId : ExportId) : Prop :=
  ∃ record, view.observedImportsById exportId = some record ∧ record.status = .remoteFinalized

def ExportFinalized (view : NodeView) (exportId : ExportId) : Prop :=
  ∃ record, view.exportsById exportId = some record ∧ record.status = .remoteFinalized

def Imported (view : NodeView) : GovernanceLeaf → Prop
  | .proposalV1 leaf => (view.proposalsById leaf.proposalId).isSome
  | .ackV1 leaf => (view.ackRecordsByKey (leaf.proposalId, leaf.acknowledgingDomain)).isSome

structure Persists (view view' : NodeView) : Prop where
  imports : ∀ exportId, view.ImportFinalized exportId → view'.ImportFinalized exportId
  exports : ∀ exportId, view.ExportFinalized exportId → view'.ExportFinalized exportId
  governance : ∀ leaf, view.Imported leaf → view'.Imported leaf

instance : Preorder NodeView where
  le := Persists
  le_refl _ := ⟨fun _ => id, fun _ => id, fun _ => id⟩
  le_trans _ _ _ first second :=
    ⟨fun exportId held => second.imports exportId (first.imports exportId held),
      fun exportId held => second.exports exportId (first.exports exportId held),
      fun leaf held => second.governance leaf (first.governance leaf held)⟩

end NodeView

inductive RuntimeCall where
  | transfers (call : Transfers.Call)
  | governance (call : Governance.Call)

inductive NodeRequest where
  | observedImport (exportId : ExportId)
  | exportRecord (exportId : ExportId)
  | governanceProposal (proposalId : GovernanceProposalId)
  | governanceAckRecord (proposalId : GovernanceProposalId) (acknowledgingDomain : DomainId)
  | accountNextIndex
  | buildExtrinsic (nonce : UInt32) (call : RuntimeCall)
  | submitExtrinsic (nonce : UInt32) (call : RuntimeCall)

def NodeRequest.Value : NodeRequest → Type
  | observedImport _ => Option ObservedImportRecord
  | exportRecord _ => Option ExportRecord
  | governanceProposal _ => Option GovernanceProposal
  | governanceAckRecord _ _ => Option GovernanceAckRecord
  | accountNextIndex => UInt32
  | buildExtrinsic _ _ => Unit
  | submitExtrinsic _ _ => String

def NodeRequest.Reply (request : NodeRequest) : Type := Except String request.Value

/-- A request may fail at any time. A look-up that does not fail returns what the chain has. -/
def NodeView.Answers (view : NodeView) : (request : NodeRequest) → request.Reply → Prop
  | _, .error _ => True
  | .observedImport exportId, .ok found => found = view.observedImportsById exportId
  | .exportRecord exportId, .ok found => found = view.exportsById exportId
  | .governanceProposal proposalId, .ok found => found = view.proposalsById proposalId
  | .governanceAckRecord proposalId domain, .ok found =>
      found = view.ackRecordsByKey (proposalId, domain)
  | .accountNextIndex, .ok _ => True
  | .buildExtrinsic _ _, .ok _ => True
  | .submitExtrinsic _ _, .ok _ => True

end Node

section Programs

abbrev NodeProgram (α : Type) := Program NodeRequest.Reply ProcessPackageError α

def call (request : NodeRequest) : NodeProgram request.Value :=
  .ask request fun
    | .ok value => .done value
    | .error error => .fail (.retryable error)

def submit (nonce : UInt32) (runtimeCall : RuntimeCall) : NodeProgram String :=
  .ask (.buildExtrinsic nonce runtimeCall) fun
    | .ok _ => call (.submitExtrinsic nonce runtimeCall)
    | .error error => .fail (.invalid error)

def waitFor {Record : Type} (request : NodeRequest) (found : request.Value → Option Record)
    (good : Record → Bool) (timeout : String) : NodeProgram Unit :=
  .poll request
    (fun
      | .ok value => .ok ((found value).any good)
      | .error error => .error (.retryable error))
    (.retryable timeout) 60

def waitForObservedImportStatus (exportId : ExportId) : NodeProgram Unit :=
  waitFor (.observedImport exportId) id (fun record => record.status = .remoteFinalized)
    ("timed out waiting for observed import 0x" ++ hexEncode exportId ++
      " to reach status RemoteFinalized")

def waitForExportRecordStatus (exportId : ExportId) : NodeProgram Unit :=
  waitFor (.exportRecord exportId) id (fun record => record.status = .remoteFinalized)
    ("timed out waiting for export record 0x" ++ hexEncode exportId ++
      " to reach status RemoteFinalized")

def waitForGovernanceProposal (proposalId : GovernanceProposalId) : NodeProgram Unit :=
  waitFor (.governanceProposal proposalId) id (fun _ => true)
    ("timed out waiting for governance proposal " ++ hexHash proposalId ++ " to be recorded")

def waitForGovernanceAck (proposalId : GovernanceProposalId) (acknowledgingDomain : DomainId) :
    NodeProgram Unit :=
  waitFor (.governanceAckRecord proposalId acknowledgingDomain) id (fun _ => true)
    ("timed out waiting for governance ack " ++ hexHash proposalId ++ " from " ++
      acknowledgingDomain.asStr ++
      " to be recorded")

variable (package : CertifiedSummaryPackage)

def observedImportClaim (item : TransferItem) : ObservedImportClaim where
  version := 1
  exportId := item.exportId
  sourceDomain := item.sourceDomain
  targetDomain := item.targetDomain
  sourceEpochId := item.sourceEpochId
  summaryHash := package.header.summaryHash
  packageHash := package.packageHash
  recipient := item.recipient
  amount := item.amount

def remoteFinalizationClaim (item : TransferItem) : RemoteFinalizationClaim where
  version := 1
  exportId := item.exportId
  sourceDomain := item.sourceDomain
  targetDomain := item.targetDomain
  sourceEpochId := item.sourceEpochId
  recipient := item.recipient
  amount := item.amount
  completionSummaryHash := package.header.summaryHash
  completionPackageHash := package.packageHash

def submitObservation (item : TransferItem) (nextNonce : UInt32) :
    Option ObservedImportRecord → NodeProgram (List String × UInt32)
  | some _ => pure ([], nextNonce)
  | none => do
      let txHash ← submit nextNonce
          (.transfers (.observeVerifiedImport (observedImportClaim package item)))
      return ([txHash], saturatingAdd32 nextNonce 1)

/-- An iteration of the loop of `process_forward_exports`. -/
def processForwardExport (item : TransferItem) : NodeProgram Answer := do
  let existingRemote : Option ObservedImportRecord ← call (.observedImport item.exportId)
  if existingRemote.any fun record => record.status = .remoteFinalized then
    return .known
  let nextNonce : UInt32 ← call .accountNextIndex
  let (txHashes, nextNonce) ← submitObservation package item nextNonce existingRemote
  let finalizeTx ← submit nextNonce (.transfers (.finalizeVerifiedImport item.exportId))
  waitForObservedImportStatus item.exportId
  return .recorded txHashes finalizeTx

/-- An iteration of the loop of `process_settlement_completions`. -/
def processSettlementCompletion (item : TransferItem) : NodeProgram Answer := do
  let existing : Option ExportRecord ← call (.exportRecord item.exportId)
  match existing with
  | none => .fail (.invalid ("source chain is missing export record 0x" ++ hexEncode item.exportId))
  | some existingExport =>
      if existingExport.status = .remoteFinalized then
        return .known
      let nonce : UInt32 ← call .accountNextIndex
      let txHash ← submit nonce
          (.transfers (.acknowledgeRemoteFinalization (remoteFinalizationClaim package item)))
      waitForExportRecordStatus item.exportId
      return .recorded [] txHash

def sameFacts (proposal : GovernanceProposal) (sourceDomain : DomainId)
    (targetDomains : List DomainId) (payloadHash : Hash32) (activationEpoch : EpochId) : Bool :=
  proposal.sourceDomain = sourceDomain && proposal.targetDomains = targetDomains &&
    proposal.payloadHash = payloadHash && proposal.activationEpoch = activationEpoch

def processProposalProof (leaf : GovernanceProposalLeaf) : NodeProgram Answer := do
  let existing : Option GovernanceProposal ← call (.governanceProposal leaf.proposalId)
  match existing with
  | some proposal =>
      if sameFacts proposal leaf.sourceDomain leaf.targetDomains leaf.payloadHash
        leaf.activationEpoch then
        return .known
      else .fail (.invalid ("destination governance proposal " ++ hexHash leaf.proposalId ++
        " already exists with different facts"))
  | none => do
      let nonce : UInt32 ← call .accountNextIndex
      let txHash ← submit nonce (.governance (.importVerifiedGovernanceProposal {
        version := leaf.version, leaf, summaryHash := package.header.summaryHash
        packageHash := package.packageHash }))
      waitForGovernanceProposal leaf.proposalId
      return .recorded [] txHash

def processAckProof (leaf : GovernanceAckLeaf) : NodeProgram Answer := do
  let proposal : Option GovernanceProposal ← call (.governanceProposal leaf.proposalId)
  match proposal with
  | none => .fail (.retryable ("governance ack " ++ hexHash leaf.proposalId ++ " from " ++
      leaf.acknowledgingDomain.asStr ++ " arrived before proposal facts were known locally"))
  | some proposal => do
      if !sameFacts proposal leaf.sourceDomain leaf.targetDomains leaf.payloadHash
        leaf.activationEpoch then
        .fail (.invalid ("destination governance proposal " ++ hexHash leaf.proposalId ++
          " does not match ack proof facts"))
      else do
        let existing : Option GovernanceAckRecord ←
          call (.governanceAckRecord leaf.proposalId leaf.acknowledgingDomain)
        if existing.isSome then
          return .known
        let nonce : UInt32 ← call .accountNextIndex
        let txHash ← submit nonce (.governance (.importVerifiedGovernanceAck {
          version := leaf.version, leaf, summaryHash := package.header.summaryHash
          packageHash := package.packageHash }))
        waitForGovernanceAck leaf.proposalId leaf.acknowledgingDomain
        return .recorded [] txHash

/-- An iteration of the loop of `process_governance_proofs`. -/
def processGovernanceProof : GovernanceLeaf → NodeProgram Answer
  | .proposalV1 leaf => processProposalProof package leaf
  | .ackV1 leaf => processAckProof package leaf

def Stage.program : Stage → NodeProgram Answer
  | transfers .forward _ (item :: _) _ => processForwardExport package item
  | transfers .settlement _ (item :: _) _ => processSettlementCompletion package item
  | governance (proof :: _) _ => processGovernanceProof package proof.leaf
  | transfers _ _ [] _ | governance [] _ => .done .known

end Programs

section Specs

variable {view : NodeView} {package : CertifiedSummaryPackage} {α : Type}
  {post : NodeView → α → Prop}

def NodeView.Settled (view : NodeView) : Direction → ExportId → Prop
  | .forward => view.ImportFinalized
  | .settlement => view.ExportFinalized

theorem NodeView.settled_mono (direction : Direction) (exportId : ExportId) :
    Monotone fun view : NodeView => view.Settled direction exportId := by
  intro view view' grown settled
  cases direction with
  | forward => exact grown.imports exportId settled
  | settlement => exact grown.exports exportId settled

theorem NodeView.imported_mono (leaf : GovernanceLeaf) :
    Monotone fun view : NodeView => view.Imported leaf :=
  fun _ _ grown => grown.governance leaf

theorem ensures_call {request : NodeRequest} {next : request.Value → NodeProgram α}
    (replied : ∀ view' value, view ≤ view' → view'.Answers request (.ok value) →
      Program.Ensures NodeView.Answers post view' (next value)) :
    Program.Ensures NodeView.Answers post view (call request >>= next) := by
  intro view' grown reply answered
  cases reply with
  | error error => trivial
  | ok value => exact replied view' value grown answered

theorem ensures_submit {nonce : UInt32} {runtimeCall : RuntimeCall} {next : String → NodeProgram α}
    (submitted : ∀ view' txHash, Program.Ensures NodeView.Answers post view' (next txHash)) :
    Program.Ensures NodeView.Answers post view (submit nonce runtimeCall >>= next) :=
  (Program.ensures_true _ _).bind fun view' txHash _ _ => submitted view' txHash

theorem ensures_waitFor {Record : Type} {request : NodeRequest}
    {found : request.Value → Option Record} {good : Record → Bool} {timeout : String}
    {fact : NodeView → Prop} (seen : ∀ view value record, view.Answers request (.ok value) →
      found value = some record → good record = true →
      fact view) :
    Program.Ensures NodeView.Answers (fun view _ => fact view) view
      (waitFor request found good timeout) := by
  refine Program.ensures_poll (fun view reply answered wanted => ?_) 60 view
  cases reply with
  | error error => cases wanted
  | ok value =>
      cases present : found value with
      | none => simp [present] at wanted
      | some record =>
          exact seen view value record answered present (by simpa [present] using wanted)

theorem ensures_processForwardExport (item : TransferItem) (view : NodeView) :
    Program.Ensures NodeView.Answers (fun view _ => view.ImportFinalized item.exportId) view
      (processForwardExport package item) := by
  refine ensures_call fun view existing _ answered => ?_
  have looked : existing = view.observedImportsById item.exportId := answered
  split
  · rename_i finalized
    cases existing with
    | none => cases finalized
    | some record => exact ⟨record, looked.symm, of_decide_eq_true finalized⟩
  · refine ensures_call fun view nextNonce _ _ =>
      (Program.ensures_true _ view).bind fun view prepared _ _ => ?_
    refine ensures_submit fun view finalizeTx =>
      Program.Ensures.bind (ensures_waitFor ?_) fun view _ _ held => held
    intro view found record answered present good
    exact ⟨record, answered.symm.trans present, of_decide_eq_true good⟩

theorem ensures_processSettlementCompletion (item : TransferItem) (view : NodeView) :
    Program.Ensures NodeView.Answers (fun view _ => view.ExportFinalized item.exportId) view
      (processSettlementCompletion package item) := by
  refine ensures_call fun view existing _ answered => ?_
  have looked : existing = view.exportsById item.exportId := answered
  cases existing with
  | none => trivial
  | some existingExport =>
      dsimp only
      split
      · rename_i finalized
        exact ⟨existingExport, looked.symm, finalized⟩
      · refine ensures_call fun view nonce _ _ => ensures_submit fun view txHash => ?_
        refine Program.Ensures.bind (ensures_waitFor ?_) fun view _ _ held => held
        intro view found record answered present good
        exact ⟨record, answered.symm.trans present, of_decide_eq_true good⟩

theorem ensures_processProposalProof (leaf : GovernanceProposalLeaf) (view : NodeView) :
    Program.Ensures NodeView.Answers (fun view _ => view.Imported (.proposalV1 leaf)) view
      (processProposalProof package leaf) := by
  refine ensures_call fun view existing _ answered => ?_
  have looked : existing = view.proposalsById leaf.proposalId := answered
  cases existing with
  | some proposal =>
      dsimp only
      split
      · exact Option.isSome_iff_exists.mpr ⟨proposal, looked.symm⟩
      · trivial
  | none =>
      refine ensures_call fun view nonce _ _ => ensures_submit fun view txHash => ?_
      refine Program.Ensures.bind (ensures_waitFor ?_) fun view _ _ held => held
      intro view found record answered present _
      exact Option.isSome_iff_exists.mpr ⟨record, answered.symm.trans present⟩

theorem ensures_processAckProof (leaf : GovernanceAckLeaf) (view : NodeView) :
    Program.Ensures NodeView.Answers (fun view _ => view.Imported (.ackV1 leaf)) view
      (processAckProof package leaf) := by
  refine ensures_call fun view proposal _ _ => ?_
  cases proposal with
  | none => trivial
  | some proposal =>
      dsimp only
      split
      · trivial
      · refine ensures_call fun view existing _ answered => ?_
        have looked : existing = view.ackRecordsByKey (leaf.proposalId, leaf.acknowledgingDomain) :=
          answered
        split
        · rename_i known
          rw [looked] at known
          exact known
        · refine ensures_call fun view nonce _ _ => ensures_submit fun view txHash => ?_
          refine Program.Ensures.bind (ensures_waitFor ?_) fun view _ _ held => held
          intro view found record answered present _
          exact Option.isSome_iff_exists.mpr ⟨record, answered.symm.trans present⟩

theorem ensures_processGovernanceProof (leaf : GovernanceLeaf) (view : NodeView) :
    Program.Ensures NodeView.Answers (fun view _ => view.Imported leaf) view
      (processGovernanceProof package leaf) := by
  cases leaf with
  | proposalV1 leaf => exact ensures_processProposalProof leaf view
  | ackV1 leaf => exact ensures_processAckProof leaf view

def Stage.Backed (view : NodeView) : Stage → Prop
  | transfers direction _ (item :: _) _ => view.Settled direction item.exportId
  | governance (proof :: _) _ => view.Imported proof.leaf
  | transfers _ _ [] _ | governance [] _ => True

theorem Stage.backed_mono (stage : Stage) : Monotone fun view : NodeView => stage.Backed view := by
  intro view view' grown
  cases stage with
  | transfers direction index items counts =>
      cases items with
      | nil => exact id
      | cons item rest => exact fun held => NodeView.settled_mono direction item.exportId grown held
  | governance proofs counts =>
      cases proofs with
      | nil => exact id
      | cons proof rest => exact fun held => NodeView.imported_mono proof.leaf grown held

/-- An iteration that does not fail ends with the effect of its proof on the chain. -/
theorem Stage.ensures_program (package : CertifiedSummaryPackage) (stage : Stage)
    (view : NodeView) : Program.Ensures NodeView.Answers (fun view _ => stage.Backed view) view
      (stage.program package) := by
  cases stage with
  | transfers direction index items counts =>
      cases items with
      | nil => cases direction <;> trivial
      | cons item rest =>
          cases direction with
          | forward => exact ensures_processForwardExport item view
          | settlement => exact ensures_processSettlementCompletion item view
  | governance proofs counts =>
      cases proofs with
      | nil => trivial
      | cons proof rest => exact ensures_processGovernanceProof proof.leaf view

end Specs

end Ialp.Services
