import Ialp.Services.ImportRecords
import Ialp.Services.ImporterTruth

/-!
What an importer submits. Along any run, with restarts at any point and whatever the node answers,
the transactions are calls for the proofs of one stored package that has passed its checks here.
-/

namespace Ialp.Services

open Scale Exchange Function

section Calls

inductive Submission (package : CertifiedSummaryPackage) (items : VerifiedPackageItems) :
    RuntimeCall → Prop where
  | observe (proof : ExportInclusionProof) (listed : proof ∈ items.exportProofs) :
      Submission package items
        (.transfers (.observeVerifiedImport (observedImportClaim package (exportItem proof))))
  | finalize (proof : ExportInclusionProof) (listed : proof ∈ items.exportProofs) :
      Submission package items (.transfers (.finalizeVerifiedImport proof.leaf.exportId))
  | complete (proof : FinalizedImportInclusionProof)
      (listed : proof ∈ items.finalizedImportProofs) :
      Submission package items
        (.transfers (.acknowledgeRemoteFinalization
          (remoteFinalizationClaim package (completionItem proof))))
  | propose (proof : GovernanceInclusionProof) (leaf : GovernanceProposalLeaf)
      (listed : proof ∈ items.governanceProofs) (kind : proof.leaf = .proposalV1 leaf) :
      Submission package items (.governance (.importVerifiedGovernanceProposal {
        version := leaf.version, leaf, summaryHash := package.header.summaryHash
        packageHash := package.packageHash }))
  | acknowledge (proof : GovernanceInclusionProof) (leaf : GovernanceAckLeaf)
      (listed : proof ∈ items.governanceProofs) (kind : proof.leaf = .ackV1 leaf) :
      Submission package items (.governance (.importVerifiedGovernanceAck {
        version := leaf.version, leaf, summaryHash := package.header.summaryHash
        packageHash := package.packageHash }))

def NodeRequest.Keeps (permitted : RuntimeCall → Prop) : NodeRequest → Prop
  | buildExtrinsic _ runtimeCall | submitExtrinsic _ runtimeCall => permitted runtimeCall
  | observedImport _ | exportRecord _ | governanceProposal _ | governanceAckRecord _
      _ | accountNextIndex => True

variable {α : Type} {permitted : RuntimeCall → Prop} {package : CertifiedSummaryPackage}
  {items : VerifiedPackageItems}

theorem confined_call {request : NodeRequest} {next : request.Value → NodeProgram α}
    (keeps : request.Keeps permitted)
    (rest : ∀ value, (next value).Confined (NodeRequest.Keeps permitted)) :
    (call request >>= next).Confined (NodeRequest.Keeps permitted) := by
  refine ⟨keeps, fun reply => ?_⟩
  cases reply with
  | error error => trivial
  | ok value => exact rest value

theorem confined_submit {nonce : UInt32} {runtimeCall : RuntimeCall} {next : String → NodeProgram α}
    (allowed : permitted runtimeCall)
    (rest : ∀ txHash, (next txHash).Confined (NodeRequest.Keeps permitted)) :
    (submit nonce runtimeCall >>= next).Confined (NodeRequest.Keeps permitted) := by
  refine ⟨allowed, fun reply => ?_⟩
  cases reply with
  | error error => trivial
  | ok built => exact confined_call allowed rest

theorem confined_waitFor {Record : Type} {request : NodeRequest}
    {found : request.Value → Option Record} {good : Record → Bool} {timeout : String}
    {next : Unit → NodeProgram α} (keeps : request.Keeps permitted)
    (rest : (next ()).Confined (NodeRequest.Keeps permitted)) :
    (waitFor request found good timeout >>= next).Confined (NodeRequest.Keeps permitted) :=
  (Program.confined_poll keeps 60).bind fun _ => rest

theorem confined_processForwardExport {proof : ExportInclusionProof}
    (listed : proof ∈ items.exportProofs) :
    (processForwardExport package (exportItem proof)).Confined
      (NodeRequest.Keeps (Submission package items)) := by
  refine confined_call trivial fun existing => ?_
  split
  · trivial
  · refine confined_call trivial fun nextNonce => Program.Confined.bind ?_ fun prepared =>
      confined_submit (.finalize proof listed) fun finalizeTx => confined_waitFor trivial trivial
    cases existing with
    | some record => trivial
    | none => exact confined_submit (.observe proof listed) fun txHash => trivial

theorem confined_processSettlementCompletion {proof : FinalizedImportInclusionProof}
    (listed : proof ∈ items.finalizedImportProofs) :
    (processSettlementCompletion package (completionItem proof)).Confined
      (NodeRequest.Keeps (Submission package items)) := by
  refine confined_call trivial fun existing => ?_
  cases existing with
  | none => trivial
  | some existingExport =>
      dsimp only
      split
      · trivial
      · exact confined_call trivial fun nonce =>
          confined_submit (.complete proof listed) fun txHash =>
          confined_waitFor trivial trivial

theorem confined_processGovernanceProof {proof : GovernanceInclusionProof}
    (listed : proof ∈ items.governanceProofs) : (processGovernanceProof package proof.leaf).Confined
      (NodeRequest.Keeps (Submission package items)) := by
  cases kind : proof.leaf with
  | proposalV1 leaf =>
      refine confined_call trivial fun existing => ?_
      cases existing with
      | some proposal =>
          dsimp only
          split <;> trivial
      | none =>
          exact confined_call trivial fun nonce =>
            confined_submit (.propose proof leaf listed kind) fun txHash =>
            confined_waitFor trivial trivial
  | ackV1 leaf =>
      refine confined_call trivial fun proposal => ?_
      cases proposal with
      | none => trivial
      | some proposal =>
          dsimp only
          split
          · trivial
          · refine confined_call trivial fun existing => ?_
            split
            · trivial
            · exact confined_call trivial fun nonce =>
                confined_submit (.acknowledge proof leaf listed kind)
                fun txHash => confined_waitFor trivial trivial

end Calls

section Loops

variable {package : CertifiedSummaryPackage} {items : VerifiedPackageItems}
  {store store' : Store} {job : Job} {now : UInt64}

def Stage.Draws (items : VerifiedPackageItems) : Stage → Prop
  | transfers direction _ rest _ => rest ⊆ items.transferItems direction
  | governance rest _ => rest ⊆ items.governanceProofs

theorem Stage.Draws.program {stage : Stage} (draws : stage.Draws items) :
    (stage.program package).Confined (NodeRequest.Keeps (Submission package items)) := by
  cases stage with
  | transfers direction index rest counts =>
      cases rest with
      | nil => cases direction <;> trivial
      | cons item rest =>
          have member := draws List.mem_cons_self
          cases direction with
          | forward =>
              obtain ⟨proof, listed, same⟩ := List.mem_map.mp member
              subst same
              exact confined_processForwardExport listed
          | settlement =>
              obtain ⟨proof, listed, same⟩ := List.mem_map.mp member
              subst same
              exact confined_processSettlementCompletion listed
  | governance rest counts =>
      cases rest with
      | nil => trivial
      | cons proof rest => exact confined_processGovernanceProof (draws List.mem_cons_self)

theorem Stage.draws_open {kind : StageKind} {stage : Stage}
    (opened : openStage items store kind = .ok stage) : stage.Draws items := by
  cases opened_of_ok opened with
  | transfers direction loaded => exact skipLocal_subset _ _ _
  | governance => exact List.Subset.refl _

theorem Stage.Draws.answer {stage stage' : Stage} {answer : Answer} (draws : stage.Draws items)
    (answered : stage.answer package store answer = .ok (stage', store')) :
    stage'.Draws items ∧ store'.domainId = store.domainId ∧ store'.payloads = store.payloads := by
  cases (answered_of_ok answered).2 with
  | recorded record same counts =>
      refine ⟨List.Subset.trans (skipLocal_subset _ _ _) ?_, rfl, rfl⟩
      exact List.Subset.trans (List.subset_cons_self _ _) draws
  | imported counts => exact ⟨List.Subset.trans (List.subset_cons_self _ _) draws, rfl, rfl⟩
  | ended => exact ⟨draws, rfl, rfl⟩

def Processor.Draws (processor : Processor) : Prop :=
  ∀ job stage outcomes later, processor = .importing job stage outcomes later →
    stage.Draws job.items

theorem Processor.draws_idle {processor : Processor} (idle : processor.job? = none) :
    processor.Draws := by
  intro job stage outcomes later importing
  rw [importing] at idle
  cases idle

structure Proceeds (store : Store) (taken : Job → Prop) (result : Processor × Store) : Prop where
  domain : result.2.domainId = store.domainId
  payloads : result.2.payloads = store.payloads
  job : ∀ job, result.1.job? = some job → taken job
  draws : result.1.Draws

variable {taken : Job → Prop}

theorem Proceeds.trans {middle : Store} {result : Processor × Store}
    (proceeds : Proceeds middle taken result) (domain : middle.domainId = store.domainId)
    (payloads : middle.payloads = store.payloads) : Proceeds store taken result :=
  ⟨proceeds.domain.trans domain, proceeds.payloads.trans payloads, proceeds.job, proceeds.draws⟩

theorem Proceeds.mono {taken' : Job → Prop} {result : Processor × Store}
    (proceeds : Proceeds store taken result) (wider : ∀ job, taken job → taken' job) :
    Proceeds store taken' result :=
  ⟨proceeds.domain, proceeds.payloads, fun job busy => wider job (proceeds.job job busy),
    proceeds.draws⟩

theorem proceeds_idle {result : Processor × Store} (idle : result.1.job? = none)
    (domain : result.2.domainId = store.domainId) (payloads : result.2.payloads = store.payloads) :
    Proceeds store taken result := by
  refine ⟨domain, payloads, fun job busy => ?_, Processor.draws_idle idle⟩
  cases idle.symm.trans busy

theorem proceeds_refresh (queue : List PackageIdentity) (store : Store) :
    Proceeds store taken (refresh queue store) := by
  obtain ⟨idle, same⟩ := refresh_idle queue store
  exact proceeds_idle idle (by rw [same]) (by rw [same])

theorem proceeds_reject (record : PackageRecord) (queue : List PackageIdentity)
    (error : ProcessPackageError) :
    Proceeds store taken (rejectPackage record queue error now store) := by
  unfold rejectPackage
  split
  · rename_i store' finalized
    simp only [finalizePackageError, bind_eq_ok] at finalized
    obtain ⟨index, _, saved⟩ := finalized
    have same := Store.saveIndex_eq_ok saved
    subst same
    exact (proceeds_refresh queue _).trans rfl rfl
  · exact proceeds_idle rfl rfl rfl

theorem proceeds_finish (outcome : ProcessPackageOutcome) :
    Proceeds store taken (finishPackage job outcome now store) := by
  unfold finishPackage
  split
  · exact proceeds_idle rfl rfl rfl
  · dsimp only
    split
    · rename_i store' saved
      have same := Store.saveIndex_eq_ok saved
      subst same
      exact (proceeds_refresh job.queue _).trans rfl rfl
    · exact proceeds_idle rfl rfl rfl

theorem proceedsRule (job : Job) (now : UInt64) (store : Store) :
    LoopRule job now (Proceeds store (· = job))
      (fun _ middle => middle.domainId = store.domainId ∧ middle.payloads = store.payloads)
      (fun stage _ middle => stage.Draws job.items ∧ middle.domainId = store.domainId ∧
        middle.payloads = store.payloads) where
  opens same opened := ⟨Stage.draws_open opened, same⟩
  closes within _ closed := by
    rcases Stage.close_eq_ok closed with same | ⟨_, _, _, _, _, written⟩
    · subst same
      exact within.2
    · subst written
      exact within.2
  waits outcomes within _ := by
    refine ⟨within.2.1, within.2.2, fun other busy => (Option.some.inj busy).symm, ?_⟩
    intro other stage outcomes later importing
    cases importing
    exact within.1
  unopened _ error same := (proceeds_reject _ _ error).trans same.1 same.2
  unclosed _ error within := (proceeds_reject _ _ error).trans within.2.1 within.2.2
  finishes outcome same := (proceeds_finish outcome).trans same.1 same.2

theorem proceeds_contact (contact : Contact) :
    Proceeds store (· = job) (resumeContact job now store contact) := by
  cases contact with
  | lost => exact proceeds_idle rfl rfl rfl
  | failed error => exact proceeds_reject _ _ error
  | made => exact (proceedsRule job now store).run _ [] store ⟨rfl, rfl⟩

theorem proceeds_stage {stage : Stage} {later : List StageKind} {answer : Answer}
    (draws : stage.Draws job.items) (outcomes : List ProcessPackageOutcome) :
    Proceeds store (· = job) (resumeStage job stage outcomes later answer now store) := by
  have rule := proceedsRule job now store
  unfold resumeStage
  cases answered : stage.answer job.package store answer with
  | error error => exact proceeds_reject _ _ error
  | ok next => exact rule.settle (rule.run later) (draws.answer answered) outcomes

end Loops

section Machine

variable {blake2 : Bytes → Hash32} {codec : PackageCodec}
  {certified : CertifiedSummaryPackage → Except Halt Unit} {importer : Importer}
  {event : ImporterEvent}

variable (blake2 codec certified) in
def Importer.Takes (importer : Importer) (event : ImporterEvent) (job : Job) : Prop :=
  ∃ now identity queue payload, event = .start now ∧
    importer.processor = .ready (identity :: queue) ∧
    importer.store.payloads identity = some payload ∧
    checkPackage blake2 codec certified importer.store.domainId payload =
      .ok (job.package, job.items)

theorem proceeds_begin {store : Store} (identity : PackageIdentity) (queue : List PackageIdentity)
    (now : UInt64) : Proceeds store (fun job => ∃ payload, store.payloads identity = some payload ∧
        checkPackage blake2 codec certified store.domainId payload = .ok (job.package, job.items))
      (beginPackage blake2 codec certified identity queue now store) := by
  unfold beginPackage
  split
  · exact proceeds_idle rfl rfl rfl
  · rename_i index loaded
    split
    · exact proceeds_idle rfl rfl rfl
    · rename_i found known
      have label : found.toPackageIdentity = identity := Keyed.key_of_lookup known
      split
      · exact proceeds_refresh queue store
      · dsimp only
        split
        · exact proceeds_idle rfl rfl rfl
        · rename_i store' saved
          have written := Store.saveIndex_eq_ok saved
          subst written
          split
          · exact proceeds_idle rfl rfl rfl
          · rename_i payload read
            split
            · exact (proceeds_reject _ queue _).trans rfl rfl
            · exact proceeds_idle rfl rfl rfl
            · rename_i package items checked
              have stored : store.payloads identity = some payload := by
                rw [← label]
                exact okOr_eq_ok.mp read
              refine ⟨rfl, rfl, fun job busy => ?_, fun job stage outcomes later importing => ?_⟩
              · cases busy
                exact ⟨payload, stored, checked⟩
              · cases importing

def packageIdentity (domain : DomainId) (package : CertifiedSummaryPackage) : PackageIdentity where
  sourceDomain := package.header.domainId
  targetDomain := domain
  epochId := package.header.epochId
  packageHash := package.packageHash

variable (blake2 codec) in
def Labelled (domain : DomainId) (identity : PackageIdentity) (payload : Bytes) : Prop :=
  ∃ package, codec.package.decode payload = .ok package ∧
    package.packageHash = package.computePackageHash blake2 codec ∧
      identity = packageIdentity domain package

theorem labelled_of_opened {domain : DomainId} {body : Bytes} {envelope : RelayPackageEnvelopeV1}
    {package : CertifiedSummaryPackage} {packageView : PackageIngestView}
    (opened : openEnvelope blake2 codec domain body = .ok (envelope, package, packageView)) :
    packageView.identity package.packageHash = envelopeIdentity envelope ∧
      Labelled blake2 codec domain (packageView.identity package.packageHash)
        envelope.packageBytes := by
  simp only [openEnvelope, bind_eq_ok, ensure_eq_ok, decodeAs_eq_ok, verifyPackageHash,
    inspectPackageForIngest_eq_ok] at opened
  obtain ⟨_, _, _, decoded, _, hashed, _, ⟨count, _, shown⟩, _,
      ⟨source, target, epoch, _, named, _⟩, returned⟩ := opened
  cases returned
  subst shown
  refine ⟨?_, package, decoded, hashed, rfl⟩
  rw [envelopeIdentity, source, target, epoch, named]
  rfl

variable (blake2 codec) in
structure Importer.Advances (importer : Importer) (taken : Job → Prop) (importer' : Importer) :
    Prop where
  domain : importer'.store.domainId = importer.store.domainId
  filed : ∀ identity payload, importer'.store.payloads identity = some payload →
    importer.store.payloads identity = some payload ∨
      Labelled blake2 codec importer.store.domainId identity payload
  kept : ∀ identity payload, importer.store.payloads identity = some payload →
    importer'.store.payloads identity = some payload
  job : ∀ job, importer'.processor.job? = some job → importer.processor.job? = some job ∨ taken job
  draws : importer'.processor.Draws

theorem Importer.advances_proceed {taken : Job → Prop} {result : Processor × Store}
    (proceeds : Proceeds importer.store (fun job => importer.processor.job? = some job ∨
      taken job) result) :
    importer.Advances blake2 codec taken (importer.proceed result) := by
  refine ⟨proceeds.domain, fun _ _ stored => .inl ?_, fun _ _ stored => ?_,
    proceeds.job, proceeds.draws⟩
  · rwa [Importer.proceed, proceeds.payloads] at stored
  · rwa [Importer.proceed, proceeds.payloads]

theorem Importer.advances_idle {taken : Job → Prop} (memory : ImporterIndex) {processor : Processor}
    (idle : processor.job? = none) :
    importer.Advances blake2 codec taken { importer with memory, processor } := by
  refine ⟨rfl, fun _ _ => .inl, fun _ _ => id, fun job busy => ?_, Processor.draws_idle idle⟩
  cases idle.symm.trans busy

theorem Importer.advances_refl {taken : Job → Prop} (draws : importer.processor.Draws) :
    importer.Advances blake2 codec taken importer :=
  ⟨rfl, fun _ _ => .inl, fun _ _ => id, fun _ => .inl, draws⟩

theorem Importer.advances_receive {taken : Job → Prop} (draws : importer.processor.Draws)
    (body : Bytes) (now : UInt64) :
    importer.Advances blake2 codec taken (importer.receive blake2 codec body now) := by
  unfold Importer.receive
  split
  · exact advances_refl draws
  · rename_i receipt memory store received
    obtain ⟨⟨envelope, package, packageView, opened, known, unchanged, written⟩, _, _⟩ :=
      receivePackage_ingested received
    have label : receipt.status.toPackageIdentity = packageView.identity package.packageHash := by
      rw [known]
      cases found : importer.memory.package (packageView.identity package.packageHash) with
      | none => rfl
      | some current => exact Keyed.key_of_lookup found
    subst written
    refine ⟨rfl, fun identity payload stored => ?_, fun identity payload stored => ?_,
      fun _ => .inl, draws⟩
    · rcases update_eq_some.mp stored with ⟨here, now⟩ | ⟨_, before⟩
      · subst here now
        rw [label]
        exact .inr (labelled_of_opened opened).2
      · exact .inl before
    · change update importer.store.payloads _ _ identity = _
      by_cases same : identity = receipt.status.toPackageIdentity
      · subst same
        rw [update_self, unchanged payload stored]
      · rw [update_of_ne same, stored]

variable (blake2 codec certified event) in
theorem Importer.advances_apply (draws : importer.processor.Draws) :
    importer.Advances blake2 codec (importer.Takes blake2 codec certified event)
      (importer.apply blake2 codec certified event) := by
  unfold Importer.apply
  split
  · exact advances_receive draws _ _
  · exact advances_idle _ rfl
  · rename_i now identity queue ready
    refine advances_proceed ((proceeds_begin identity queue now).mono fun job passed => ?_)
    obtain ⟨payload, stored, checked⟩ := passed
    exact .inr ⟨now, identity, queue, payload, rfl, ready, stored, checked⟩
  · rename_i contact now job contacting
    refine advances_proceed ((proceeds_contact contact).mono fun other same => .inl ?_)
    rw [contacting, same]
    rfl
  · rename_i answer now job stage outcomes later importing
    refine advances_proceed
      ((proceeds_stage (draws job stage outcomes later importing) outcomes).mono
      fun other same => .inl ?_)
    rw [importing, same]
    rfl
  · exact advances_idle _ rfl
  · split
    · exact advances_refl draws
    · exact advances_idle _ rfl
  · exact advances_refl draws

end Machine

section Deployed

variable {blake2 : Bytes → Hash32} {codec : PackageCodec}
  {certified : CertifiedSummaryPackage → Except Halt Unit}
  {admits : Importer → ImporterEvent → Prop} {honest : Prop} {domain : DomainId}
  {deployment deployment' : Deployment}

namespace Deployment

/-- The iteration under way only submits what the package in process asks for. -/
structure Authorized (deployment : Deployment) : Prop where
  draws : deployment.importer.processor.Draws
  asks : ∀ program, deployment.pending = some program → ∃ job,
    deployment.importer.processor.job? = some job ∧
    program.Confined (NodeRequest.Keeps (Submission job.package job.items))

theorem authorized_goOn {importer : Importer} (draws : importer.processor.Draws) :
    (deployment.goOn importer).Authorized := by
  refine ⟨draws, fun program started => ?_⟩
  change importer.processor.program = some program at started
  change ∃ job, importer.processor.job? = some job ∧ _
  cases processor : importer.processor with
  | importing job stage outcomes later =>
      rw [processor] at started
      cases started
      exact ⟨job, rfl, (draws job stage outcomes later processor).program⟩
  | ready | stopped | contacting | refreshing =>
      rw [processor] at started
      cases started

theorem Step.mono {admits' : Importer → ImporterEvent → Prop} {honest' : Prop}
    (step : Step blake2 codec certified admits honest deployment deployment')
    (weaker : ∀ event, admits deployment.importer event → admits' deployment.importer event)
    (laxer : honest' → honest) :
    Step blake2 codec certified admits' honest' deployment deployment' := by
  cases step with
  | progress view grown => exact .progress view fun trusted => grown (laxer trusted)
  | receive body now => exact .receive body now
  | work event admitted idle => exact .work event (weaker event admitted) idle
  | reply request resume reply asking answered =>
      exact .reply request resume reply asking fun trusted => answered (laxer trusted)
  | answer program answer now asked ended => exact .answer program answer now asked ended

theorem advances_step (step : Step blake2 codec certified admits honest deployment deployment')
    (draws : deployment.importer.processor.Draws) :
    deployment.importer.Advances blake2 codec (fun job => ∃ event,
      admits deployment.importer event ∧
      deployment.importer.Takes blake2 codec certified event job) deployment'.importer := by
  cases step with
  | progress | reply => exact Importer.advances_refl draws
  | receive body now => exact Importer.advances_receive draws body now
  | work event admitted idle =>
      have advances := Importer.advances_apply blake2 codec certified event draws
      exact ⟨advances.domain, advances.filed, advances.kept,
        fun job busy => (advances.job job busy).imp_right fun taken => ⟨event, admitted, taken⟩,
        advances.draws⟩
  | answer program answer now asked ended =>
      have advances := Importer.advances_apply blake2 codec certified (.answer answer now) draws
      refine ⟨advances.domain, advances.filed, advances.kept,
        fun job busy => (advances.job job busy).imp_right fun taken => ?_, advances.draws⟩
      obtain ⟨_, _, _, _, started, _⟩ := taken
      cases started

theorem Authorized.step (authorized : deployment.Authorized)
    (step : Step blake2 codec certified admits honest deployment deployment') :
    deployment'.Authorized := by
  have advances := advances_step step authorized.draws
  cases step with
  | progress view grown => exact ⟨authorized.draws, authorized.asks⟩
  | receive body now =>
      refine ⟨advances.draws, fun program pending => ?_⟩
      obtain ⟨job, busy, confined⟩ := authorized.asks program pending
      refine ⟨job, ?_, confined⟩
      have same : (deployment.importer.receive blake2 codec body now).processor =
          deployment.importer.processor := by
        unfold Importer.receive
        split <;> rfl
      exact (congrArg Processor.job? same).trans busy
  | work event admitted idle => exact authorized_goOn advances.draws
  | reply request resume reply asking answered =>
      refine ⟨authorized.draws, fun program pending => ?_⟩
      obtain ⟨job, busy, confined⟩ := authorized.asks _ asking
      cases pending
      exact ⟨job, busy, confined.2 reply⟩
  | answer program answer now asked ended => exact authorized_goOn advances.draws

/-- Payloads are of the packages they are filed under, and the package in process is a stored one
that has passed its checks here. -/
structure Verified (blake2 : Bytes → Hash32) (codec : PackageCodec)
    (certified : CertifiedSummaryPackage → Except Halt Unit) (domain : DomainId)
    (importer : Importer) : Prop where
  own : importer.store.domainId = domain
  labelled : ∀ identity payload, importer.store.payloads identity = some payload →
    Labelled blake2 codec domain identity payload
  passed : ∀ job, importer.processor.job? = some job → ∃ identity payload,
    importer.store.payloads identity = some payload ∧
    checkPackage blake2 codec certified domain payload = .ok (job.package, job.items)

theorem Verified.step (verified : Verified blake2 codec certified domain deployment.importer)
    (draws : deployment.importer.processor.Draws)
    (step : Step blake2 codec certified admits honest deployment deployment') :
    Verified blake2 codec certified domain deployment'.importer := by
  have advances := advances_step step draws
  refine ⟨advances.domain.trans verified.own, fun identity payload stored => ?_, fun job busy => ?_⟩
  · rcases advances.filed identity payload stored with before | now
    · exact verified.labelled identity payload before
    · exact verified.own ▸ now
  rcases advances.job job busy with before | ⟨_, _, _, identity, _, payload, _, _, stored, checked⟩
  · obtain ⟨identity, payload, stored, checked⟩ := verified.passed job before
    exact ⟨identity, payload, advances.kept _ _ stored, checked⟩
  · rw [verified.own] at checked
    exact ⟨identity, payload, advances.kept _ _ stored, checked⟩

theorem verified_of_reachable
    (reachable : (runs blake2 codec certified admits honest domain).Reachable deployment) :
    deployment.Authorized ∧ Verified blake2 codec certified domain deployment.importer := by
  refine reachable.invariant (fun deployment =>
    deployment.Authorized ∧ Verified blake2 codec certified domain deployment.importer) ?_ ?_
  · intro deployment initial
    refine ⟨⟨?_, fun program pending => ?_⟩, ?_⟩
    · rw [initial.1]
      exact Processor.draws_idle rfl
    · cases initial.2.symm.trans pending
    · rw [initial.1]
      refine ⟨rfl, fun identity payload stored => ?_, fun job busy => ?_⟩
      · cases stored
      · cases busy
  · intro before after _ held step
    exact ⟨held.1.step step, held.2.step held.1.draws step⟩

end Deployment

/-- Every transaction that an importer asks its node to submit, in any run and whatever the node
answers, is one that a proof asks for which is in a stored package that has passed all checks of
this importer. -/
theorem submissions_verified (blake2 : Bytes → Hash32) (codec : PackageCodec)
    (certified : CertifiedSummaryPackage → Except Halt Unit)
    (admits : Importer → ImporterEvent → Prop) (domain : DomainId) (deployment : Deployment)
    (reachable : (Deployment.runs blake2 codec certified admits False domain).Reachable deployment)
    (nonce : UInt32) (runtimeCall : RuntimeCall)
    (resume : Except String String → NodeProgram Answer)
    (asking : deployment.pending = some (.ask (.submitExtrinsic nonce runtimeCall) resume)) :
    ∃ identity payload package items, deployment.importer.store.payloads identity = some payload ∧
      checkPackage blake2 codec certified domain payload = .ok (package, items) ∧
      Submission package items runtimeCall := by
  obtain ⟨authorized, verified⟩ := Deployment.verified_of_reachable reachable
  obtain ⟨job, busy, confined⟩ := authorized.asks _ asking
  obtain ⟨identity, payload, stored, checked⟩ := verified.passed job busy
  exact ⟨identity, payload, job.package, job.items, stored, checked, confined.1⟩

end Deployed

section Sample

def emptyView : NodeView where
  observedImportsById _ := none
  exportsById _ := none
  proposalsById _ := none
  ackRecordsByKey _ := none

noncomputable def freshDeployment (importer : Importer) : Deployment where
  importer
  view := emptyView
  pending := importer.processor.program

noncomputable def importerImporting : Importer :=
  (importerContacting (moonItems [])).apply blankHash sampleCodec (fun _ =>
    .ok ()) (.contact .made 1)

theorem importerImporting_reachable :
    (Deployment.runs blankHash sampleCodec (fun _ => .ok ())
      (fun _ _ => True) False .earth).Reachable (freshDeployment importerImporting) := by
  have checked := moonItems_checked []
  have nonempty := moonItems_nonempty []
  have received := receive_moonBody checked nonempty (by decide) (.initial .earth) rfl rfl 0 rfl rfl
  have arrived : Deployment.Step blankHash sampleCodec (fun _ => .ok ()) (fun _ _ => True) False
      (freshDeployment (.initial .earth)) (freshDeployment (importerReady (moonItems []) [])) := by
    have step : Deployment.Step blankHash sampleCodec (fun _ => .ok ()) (fun _ _ => True) False
        (freshDeployment (.initial .earth)) { freshDeployment (.initial .earth) with
          importer := (Importer.initial .earth).receive blankHash sampleCodec
            (moonBody 0 (moonItems [])) 0 } :=
      .receive _ 0
    rw [received] at step
    exact step
  have contacting : Deployment.Step blankHash sampleCodec (fun _ => .ok ()) (fun _ _ => True) False
      (freshDeployment (importerReady (moonItems []) [moonIdentity 0]))
      (freshDeployment (importerContacting (moonItems []))) := by
    rw [← importerReady_start checked nonempty]
    exact .work (.start 1) trivial (.inr rfl)
  exact .next (.next (.next (.next (.start ⟨rfl, rfl⟩) arrived) (.work .tick trivial (.inr rfl)))
    contacting) (.work (.contact .made 1) trivial (.inr rfl))

noncomputable def moonObservation : RuntimeCall :=
  .transfers (.observeVerifiedImport (observedImportClaim (moonPackage 0 (moonItems []))
    (exportItem (moonExport emptyHash 0))))

theorem submissions_verified_sample :
    ∃ (deployment : Deployment) (resume : _),
      deployment.pending = some (.ask (.submitExtrinsic 0 moonObservation) resume) ∧
      ∃ identity payload package items, deployment.importer.store.payloads identity = some payload ∧
        checkPackage blankHash sampleCodec (fun _ => .ok ()) .earth payload = .ok (package, items) ∧
        Submission package items moonObservation := by
  have looked := Transition.System.Reachable.next importerImporting_reachable
    (.reply (.observedImport emptyHash) _ (.ok none) rfl False.elim)
  have numbered := Transition.System.Reachable.next looked
    (.reply .accountNextIndex _ (.ok (0 : UInt32)) rfl False.elim)
  have built := Transition.System.Reachable.next numbered
    (.reply (.buildExtrinsic 0 _) _ (.ok ()) rfl False.elim)
  exact ⟨_, _, rfl, submissions_verified blankHash sampleCodec _ _ .earth _ built 0 _ _ rfl⟩

end Sample

end Ialp.Services
