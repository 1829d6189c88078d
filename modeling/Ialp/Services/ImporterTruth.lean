import Ialp.Services.ImporterEvidence

/-!
An acknowledged package has its effects on the chain. Import records are filed under the export
alone, and a record that one loop has made lets the other loop pass over a proof; the
acknowledgements are truthful as long as no export is both imported and completed here.
-/

namespace Ialp.Services

open Scale Exchange Function

namespace Importer

variable {blake2 : Bytes → Hash32} {codec : PackageCodec}
  {certified : CertifiedSummaryPackage → Except Halt Unit} {domain : DomainId}
  {family : ExportId → Direction} {view : NodeView} {importer : Importer} {event : ImporterEvent}

theorem truthful_initial (view : NodeView) :
    (initial domain).Truthful blake2 codec certified domain family view :=
  ⟨⟨fun _ member => absurd member List.not_mem_nil, fun _ member => absurd member List.not_mem_nil⟩,
    ⟨rfl, .inl rfl, fun _ _ found => by cases found⟩, trivial⟩

theorem Truthful.receive (truthful : importer.Truthful blake2 codec certified domain family view)
    (body : Bytes) (now : UInt64) :
    (importer.receive blake2 codec body now).Truthful blake2 codec certified
      domain family view := by
  unfold Importer.receive
  split
  · exact truthful
  · rename_i receipt memory store received
    obtain ⟨⟨envelope, package, packageView, _, known, unchanged, written⟩, indexed, _⟩ :=
      receivePackage_ingested received
    generalize receipt.status = record at *
    subst indexed written
    -- A payload that is there already is the same.
    have kept : ∀ identity payload, importer.store.payloads identity = some payload →
        update importer.store.payloads record.toPackageIdentity (some envelope.packageBytes)
          identity = some payload := by
      intro identity payload stored
      by_cases same : identity = record.toPackageIdentity
      · subst same
        rw [update_self, unchanged payload stored]
      · rw [update_of_ne same, stored]
    have vouched : record.state.Acknowledges →
        Vouched blake2 codec certified domain view importer.store.payloads
          record.toPackageIdentity := by
      cases found : importer.memory.package (packageView.identity package.packageHash) with
      | none =>
          rw [found] at known
          subst known
          exact False.elim
      | some current =>
          rw [found] at known
          subst known
          exact truthful.memory.packages record (List.mem_of_find?_eq_some found)
    have memory := truthful.memory.mono le_rfl kept
    have files : ({ importer.store with
        payloads := update importer.store.payloads record.toPackageIdentity
          (some envelope.packageBytes) } :
        Store).Truthful blake2 codec certified domain family view := by
      refine ⟨truthful.files.own, truthful.files.index.imp_right ?_,
        fun identity current found => ?_⟩
      · intro present
        obtain ⟨index, file, saved⟩ := present
        exact ⟨index, file, saved.mono le_rfl kept⟩
      · obtain ⟨label, voucher⟩ := truthful.files.packages identity current found
        exact ⟨label, fun acknowledges => (voucher acknowledges).mono le_rfl kept⟩
    have voucher := fun acknowledges => (vouched acknowledges).mono le_rfl kept
    have filed := (files.persist importer.memory voucher).save (memory.upsertPackage voucher)
    exact ⟨memory.upsertPackage voucher, filed, truthful.processor.mono le_rfl filed kept⟩

/-- The packages that the processor takes up are of exports on the side of their proofs. -/
def Sorted (blake2 : Bytes → Hash32) (codec : PackageCodec)
    (certified : CertifiedSummaryPackage → Except Halt Unit) (domain : DomainId)
    (family : ExportId → Direction) (importer : Importer) : ImporterEvent → Prop
  | .start _ =>
      ∀ identity queue payload package items, importer.processor = .ready (identity :: queue) →
        importer.store.payloads identity = some payload →
        checkPackage blake2 codec certified domain payload = .ok (package, items) →
          items.Follows family
  | _ => True

theorem Truthful.proceed (truthful : importer.Truthful blake2 codec certified domain family view)
    {result : Processor × Store}
    (resulting : Resulting blake2 codec certified domain family view
      importer.store.payloads result) :
    (importer.proceed result).Truthful blake2 codec certified domain family view := by
  refine ⟨?_, resulting.files, resulting.processor⟩
  change importer.memory.Truthful blake2 codec certified domain family view result.2.payloads
  rw [resulting.payloads]
  exact truthful.memory

variable (event) in
theorem Truthful.apply (truthful : importer.Truthful blake2 codec certified domain family view)
    (sorted : importer.Sorted blake2 codec certified domain family event)
    (backed : ∀ answer now, event = .answer answer now → (∀ error, answer ≠ .failed error) →
      ∀ job stage outcomes later, importer.processor = .importing job stage outcomes later →
        stage.Backed view) :
    (importer.apply blake2 codec certified event).Truthful blake2 codec certified
      domain family view := by
  have processor := truthful.processor
  unfold Importer.apply
  split
  · exact truthful.receive _ _
  · exact ⟨truthful.memory, truthful.files, trivial⟩
  · rename_i now identity queue ready
    exact truthful.proceed
      (resulting_begin truthful.files identity queue fun payload package items stored checked =>
      sorted identity queue payload package items ready stored checked)
  · rename_i contact now job contacting
    rw [contacting] at processor
    exact truthful.proceed (resulting_contact truthful.files processor contact)
  · rename_i answer now job stage outcomes later importing
    rw [importing] at processor
    exact truthful.proceed (resulting_stage processor
      (fun effective => backed answer now rfl effective job stage outcomes later importing)
        outcomes)
  · rename_i queue refreshed refreshing
    rw [refreshing] at processor
    exact ⟨processor, truthful.files, trivial⟩
  · split
    · exact truthful
    · rename_i index loaded
      exact ⟨truthful.files.load loaded, truthful.files, trivial⟩
  · exact truthful

end Importer

section Deployed

variable (blake2 : Bytes → Hash32) (codec : PackageCodec)
  (certified : CertifiedSummaryPackage → Except Halt Unit)

/-- An importer and its chain. In a loop, `pending` is what is left of the iteration under way. -/
structure Deployment where
  importer : Importer
  view : NodeView
  pending : Option (NodeProgram Answer)

def Processor.program : Processor → Option (NodeProgram Answer)
  | importing job stage _ _ => some (stage.program job.package)
  | ready _ | stopped | contacting _ | refreshing _ _ => none

inductive Ended : NodeProgram Answer → Answer → Prop where
  | done (answer : Answer) : Ended (.done answer) answer
  | failed (error : ProcessPackageError) : Ended (.fail error) (.failed error)

namespace Deployment

def goOn (deployment : Deployment) (importer : Importer) : Deployment :=
  { deployment with importer, pending := importer.processor.program }

variable (admits : Importer → ImporterEvent → Prop) (honest : Prop)

/-- One step. An honest node follows a chain that forgets nothing, and answers what the chain
has. -/
inductive Step (deployment : Deployment) : Deployment → Prop where
  | progress (view : NodeView) (grown : honest → deployment.view ≤ view) :
      Step deployment { deployment with view }
  | receive (body : Bytes) (now : UInt64) :
      Step deployment { deployment with
        importer := deployment.importer.receive blake2 codec body now }
  | work (event : ImporterEvent) (admitted : admits deployment.importer event)
      (idle : event = .restart ∨ deployment.pending = none) :
      Step deployment (deployment.goOn (deployment.importer.apply blake2 codec certified event))
  | reply (request : NodeRequest) (resume : request.Reply → NodeProgram Answer)
      (reply : request.Reply) (asking : deployment.pending = some (.ask request resume))
      (answered : honest → deployment.view.Answers request reply) :
      Step deployment { deployment with pending := some (resume reply) }
  | answer (program : NodeProgram Answer) (answer : Answer) (now : UInt64)
      (asked : deployment.pending = some program) (ended : Ended program answer) :
      Step deployment (deployment.goOn
        (deployment.importer.apply blake2 codec certified (.answer answer now)))

def runs (domain : DomainId) : Transition.System Deployment where
  initial deployment := deployment.importer = .initial domain ∧ deployment.pending = none
  step := Step blake2 codec certified admits honest

def system (domain : DomainId) : Transition.System Deployment :=
  runs blake2 codec certified admits True domain

variable {blake2 codec certified admits honest} {domain : DomainId} {family : ExportId → Direction}
  {deployment deployment' : Deployment}

/-- An iteration under way ends, unless it fails, with the effect of its proof on the chain. -/
def Sound (deployment : Deployment) : Prop :=
  ∀ job stage outcomes later, deployment.importer.processor = .importing job stage outcomes later →
    ∃ program, deployment.pending = some program ∧
      program.Ensures NodeView.Answers (fun view _ => stage.Backed view) deployment.view

theorem sound_goOn (deployment : Deployment) (importer : Importer) :
    (deployment.goOn importer).Sound := by
  intro job stage outcomes later importing
  have started : (deployment.goOn importer).pending = some (stage.program job.package) := by
    change importer.processor = _ at importing
    change importer.processor.program = _
    rw [importing]
    rfl
  exact ⟨_, started, stage.ensures_program job.package deployment.view⟩

theorem truthful_step (step : Step blake2 codec certified
    (Importer.Sorted blake2 codec certified domain family) True
      deployment deployment')
    (truthful : deployment.importer.Truthful blake2 codec certified domain family deployment.view)
    (sound : deployment.Sound) :
    deployment'.importer.Truthful blake2 codec certified domain family deployment'.view ∧
      deployment'.Sound := by
  cases step with
  | progress view grown =>
      have grown := grown trivial
      refine ⟨truthful.mono grown, fun job stage outcomes later importing => ?_⟩
      obtain ⟨program, pending, ensures⟩ := sound job stage outcomes later importing
      exact ⟨program, pending, ensures.mono (fun _ => stage.backed_mono) grown⟩
  | receive body now =>
      refine ⟨truthful.receive body now, fun job stage outcomes later importing => ?_⟩
      have same : (deployment.importer.receive blake2 codec body now).processor =
          deployment.importer.processor := by
        unfold Importer.receive
        split <;> rfl
      exact sound job stage outcomes later (same.symm.trans importing)
  | work event admitted idle =>
      refine ⟨truthful.apply event admitted ?_, sound_goOn _ _⟩
      intro answer now given _ job stage outcomes later importing
      obtain ⟨program, pending, _⟩ := sound job stage outcomes later importing
      rcases idle with restart | quiet
      · exact absurd (given.symm.trans restart) (by simp)
      · exact absurd (quiet.symm.trans pending) (by simp)
  | reply request resume reply asking answered =>
      refine ⟨truthful, fun job stage outcomes later importing => ?_⟩
      obtain ⟨program, pending, ensures⟩ := sound job stage outcomes later importing
      have same : program = .ask request resume := Option.some.inj (pending.symm.trans asking)
      subst same
      exact ⟨resume reply, rfl, ensures deployment.view le_rfl reply (answered trivial)⟩
  | answer program answer now asked ended =>
      refine ⟨truthful.apply _ trivial ?_, sound_goOn _ _⟩
      intro given _ same effective job stage outcomes later importing
      cases same
      obtain ⟨program', pending, ensures⟩ := sound job stage outcomes later importing
      have same : program' = program := Option.some.inj (pending.symm.trans asked)
      subst same
      cases ended with
      | done answer => exact ensures
      | failed error => exact absurd rfl (effective error)

theorem truthful (reachable : (system blake2 codec certified
      (Importer.Sorted blake2 codec certified domain family) domain).Reachable deployment) :
    deployment.importer.Truthful blake2 codec certified domain family deployment.view ∧
      deployment.Sound := by
  refine reachable.invariant (fun deployment =>
    deployment.importer.Truthful blake2 codec certified domain family deployment.view ∧
      deployment.Sound) ?_ ?_
  · intro deployment initial
    rw [initial.1]
    refine ⟨Importer.truthful_initial deployment.view, fun job stage outcomes later importing => ?_⟩
    rw [initial.1] at importing
    cases importing
  · intro before after _ held step
    exact truthful_step step held.1 held.2

end Deployment

end Deployed

/-- While no export is both imported and completed here: a package that is acknowledged as verified
or as a duplicate, in its file or in the index that the relay is answered from, has the effects of
all its proofs on the chain. -/
theorem acknowledgements_truthful (blake2 : Bytes → Hash32) (codec : PackageCodec)
    (certified : CertifiedSummaryPackage → Except Halt Unit) (domain : DomainId)
    (family : ExportId → Direction) (deployment : Deployment)
    (reachable : (Deployment.system blake2 codec certified
      (Importer.Sorted blake2 codec certified domain family) domain).Reachable deployment) :
    (∀ identity record, deployment.importer.store.packages identity = some record →
      record.state.Acknowledges →
      Vouched blake2 codec certified domain deployment.view deployment.importer.store.payloads
        identity) ∧
    ∀ identity record, deployment.importer.memory.package identity = some record →
      record.state.Acknowledges →
      Vouched blake2 codec certified domain deployment.view deployment.importer.store.payloads
        identity := by
  have held := (Deployment.truthful reachable).1
  constructor
  · intro identity record found acknowledges
    exact (held.files.packages identity record found).2 acknowledges
  · intro identity record found acknowledges
    have label : record.toPackageIdentity = identity := Keyed.key_of_lookup found
    rw [← label]
    exact held.memory.packages record (List.mem_of_find?_eq_some found) acknowledges

section Sample

def importedView : NodeView where
  observedImportsById exportId := some {
    version := 1, exportId, sourceDomain := .moon, targetDomain := .earth, sourceEpochId := 0
    summaryHash := emptyHash, packageHash := emptyHash, recipient := emptyHash, amount := 1
    observedAtLocalBlockHeight := 1, observerAccount := emptyHash, status := .remoteFinalized
    finalizedAtLocalBlockHeight := some 1, finalizerAccount := some emptyHash }
  exportsById _ := none
  proposalsById _ := none
  ackRecordsByKey _ := none

def moonCompletion (exportId : ExportId) : FinalizedImportInclusionProof where
  version := 1
  leaf := FinalizedImportLeaf.fromHashInput blankHash {
    version := 1, exportId, sourceDomain := .earth, targetDomain := .moon, recipient :=
      emptyHash, amount := 1
    sourceEpochId := 0, summaryHash := emptyHash, packageHash := emptyHash }
  leafIndex := 0
  leafCount := 1
  siblings := []

def moonItems (completions : List ExportId) : VerifiedPackageItems where
  exportProofs := [moonExport emptyHash 0]
  finalizedImportProofs := completions.map moonCompletion
  governanceProofs := []

theorem moonItems_checked (completions : List ExportId) :
    Checked blankHash (moonPackage 0 (moonItems completions)) .earth (moonItems completions) := by
  constructor
  · intro proof member
    rw [List.mem_singleton.mp member]
    exact checkExportProof_eq_ok.mpr ⟨rfl, ⟨rfl, rfl⟩, rfl, rfl⟩
  · intro proof member
    obtain ⟨exportId, _, same⟩ := List.mem_map.mp member
    subst same
    exact checkFinalizedImportProof_eq_ok.mpr ⟨rfl, rfl, rfl, rfl⟩
  · intro proof member
    cases member

theorem moonItems_nonempty (completions : List ExportId) : (moonItems completions).proofs ≠ [] := by
  simp [VerifiedPackageItems.proofs, moonItems]

noncomputable def deploymentAt (importer : Importer) : Deployment where
  importer
  view := importedView
  pending := importer.processor.program

noncomputable def deploymentImporting (completions : List ExportId) : Deployment :=
  deploymentAt ((importerContacting (moonItems completions)).apply blankHash
    sampleCodec (fun _ => .ok ()) (.contact .made 1))

theorem deploymentImporting_reachable (completions : List ExportId)
    (few : (moonItems completions).proofs.length < 2 ^ 32)
    (admits : Importer → ImporterEvent → Prop)
    (ticks : admits (importerReady (moonItems completions) []) .tick)
    (starts : admits (importerReady (moonItems completions) [moonIdentity 0]) (.start 1))
    (contacts : admits (importerContacting (moonItems completions)) (.contact .made 1)) :
    (Deployment.system blankHash sampleCodec (fun _ => .ok ()) admits .earth).Reachable
      (deploymentImporting completions) := by
  let items := moonItems completions
  let system := Deployment.system blankHash sampleCodec (fun _ => .ok ()) admits .earth
  let step := Deployment.Step blankHash sampleCodec (fun _ => .ok ()) admits True
  have received : system.Reachable (deploymentAt (importerReady items [])) := by
    have arrived : (Importer.initial .earth).receive blankHash sampleCodec (moonBody 0 items) 0 =
        importerReady items [] :=
      receive_moonBody (moonItems_checked completions) (moonItems_nonempty completions) few
        (.initial .earth) rfl rfl 0 rfl rfl
    have taken : step (deploymentAt (.initial .earth)) { deploymentAt (.initial .earth) with
        importer := (Importer.initial .earth).receive blankHash sampleCodec (moonBody 0 items)
          0 } := .receive _ 0
    rw [arrived] at taken
    exact .next (.start ⟨rfl, rfl⟩) taken
  have ticked : system.Reachable (deploymentAt (importerReady items [moonIdentity 0])) :=
    .next received (.work .tick ticks (.inr rfl))
  have contacting : system.Reachable (deploymentAt (importerContacting items)) := by
    rw [← importerReady_start (moonItems_checked completions) (moonItems_nonempty completions)]
    exact .next ticked (.work (.start 1) starts (.inr rfl))
  exact .next contacting (.work (.contact .made 1) contacts (.inr rfl))

noncomputable def deploymentDone (completions : List ExportId) : Deployment :=
  (deploymentImporting completions).goOn
    ((deploymentImporting completions).importer.apply blankHash sampleCodec
    (fun _ => .ok ()) (.answer .known 2))

theorem deploymentDone_reachable {completions : List ExportId}
    {admits : Importer → ImporterEvent → Prop}
    (reachable : (Deployment.system blankHash sampleCodec (fun _ => .ok ()) admits .earth).Reachable
      (deploymentImporting completions))
    (asking : (deploymentImporting completions).pending =
      some (processForwardExport (moonPackage 0 (moonItems completions))
        (exportItem (moonExport emptyHash 0)))) :
    (Deployment.system blankHash sampleCodec (fun _ => .ok ()) admits .earth).Reachable
      (deploymentDone completions) := by
  have replied := Transition.System.Reachable.next reachable (.reply (.observedImport emptyHash) _
    (.ok (importedView.observedImportsById emptyHash)) asking fun _ => rfl)
  exact .next replied (.answer _ .known 2 rfl (.done .known))

theorem acknowledgements_truthful_sample :
    ∃ record, (deploymentDone []).importer.store.packages (moonIdentity 0) = some record ∧
      record.state.Acknowledges ∧
      Vouched blankHash sampleCodec (fun _ => .ok ()) .earth importedView
        (deploymentDone []).importer.store.payloads (moonIdentity 0) := by
  have checked := moonPackage_checked (moonItems_checked []) (moonItems_nonempty [])
  have starts : (importerReady (moonItems []) [moonIdentity 0]).Sorted blankHash sampleCodec
      (fun _ => .ok ()) .earth (fun _ => .forward) (.start 1) := by
    intro identity queue payload package items ready stored accepted
    cases ready
    cases stored
    cases checked.symm.trans accepted
    exact ⟨fun _ _ => rfl, fun _ member => absurd member List.not_mem_nil⟩
  have reachable := deploymentDone_reachable
    (deploymentImporting_reachable [] (by decide) _ trivial starts trivial) rfl
  exact ⟨_, rfl, trivial,
    (acknowledgements_truthful blankHash sampleCodec _ .earth _ _ reachable).1 _ _ rfl trivial⟩

/-- A package with the proof of an export and the proof of a completion under the same id: the
record of the import lets the importer pass over the completion. The package is acknowledged as
verified, and the export that it completes is not finalized. -/
theorem completion_passed_over :
    ∃ deployment, (Deployment.system blankHash sampleCodec (fun _ => .ok ())
      (fun _ _ => True) .earth).Reachable
        deployment ∧
      ∃ record payload package items,
        deployment.importer.store.packages (moonIdentity 0) = some record ∧
        record.state = .ackedVerified ∧ deployment.importer.store.payloads (moonIdentity 0) =
          some payload ∧
        checkPackage blankHash sampleCodec (fun _ => .ok ()) .earth payload = .ok (package, items) ∧
        ∃ proof ∈ items.finalizedImportProofs,
          ¬deployment.view.ExportFinalized proof.leaf.exportId := by
  have reachable := deploymentDone_reachable
    (deploymentImporting_reachable [emptyHash] (by decide)
      (fun _ _ => True) trivial trivial trivial) rfl
  have checked := moonPackage_checked (moonItems_checked [emptyHash])
    (moonItems_nonempty [emptyHash])
  refine ⟨_, reachable, _, _, _, _, rfl, rfl, rfl, checked, moonCompletion emptyHash,
    List.mem_cons_self, ?_⟩
  intro finalized
  obtain ⟨record, found, _⟩ := finalized
  cases found

end Sample

end Ialp.Services
