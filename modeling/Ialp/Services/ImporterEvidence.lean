import Ialp.Services.ImporterNode
import Ialp.Services.ImporterRuns

/-!
What an importer has on record about the effects of a package, and what backs it on the chain. Each
operation of the processor keeps the two in step.
-/

namespace Ialp.Services

open Scale Exchange Function

section Evidence

/-- The states that tell the relay that the package has had its effects. -/
def ImporterPackageState.Acknowledges : ImporterPackageState → Prop
  | ackedVerified | ackedDuplicateLocal | ackedDuplicateRemote => True
  | received | verifying | submissionRetrying | ackedInvalid => False

structure NodeView.Applied (view : NodeView) (items : VerifiedPackageItems) : Prop where
  exports : ∀ proof ∈ items.exportProofs, view.ImportFinalized proof.leaf.exportId
  completions : ∀ proof ∈ items.finalizedImportProofs, view.ExportFinalized proof.leaf.exportId
  governance : ∀ proof ∈ items.governanceProofs, view.Imported proof.leaf

/-- The proofs of a package are of exports that `family` puts on their side. -/
structure VerifiedPackageItems.Follows (family : ExportId → Direction)
    (items : VerifiedPackageItems) : Prop where
  exports : ∀ proof ∈ items.exportProofs, family proof.leaf.exportId = .forward
  completions : ∀ proof ∈ items.finalizedImportProofs, family proof.leaf.exportId = .settlement

variable (blake2 : Bytes → Hash32) (codec : PackageCodec)
  (certified : CertifiedSummaryPackage → Except Halt Unit) (domain : DomainId)
  (family : ExportId → Direction)

def Vouched (view : NodeView) (payloads : PackageIdentity → Option Bytes)
    (identity : PackageIdentity) : Prop :=
  ∃ payload package items, payloads identity = some payload ∧
    checkPackage blake2 codec certified domain payload = .ok (package, items) ∧ view.Applied items

structure ImporterIndex.Truthful (view : NodeView) (payloads : PackageIdentity → Option Bytes)
    (index : ImporterIndex) : Prop where
  imports : ∀ record ∈ index.imports, view.Settled (family record.exportId) record.exportId
  packages : ∀ record ∈ index.packages, record.state.Acknowledges →
    Vouched blake2 codec certified domain view payloads record.toPackageIdentity

structure Store.Truthful (view : NodeView) (store : Store) : Prop where
  own : store.domainId = domain
  index : store.indexFile = none ∨
    ∃ index, store.indexFile = some (.v2 index) ∧
      index.Truthful blake2 codec certified domain family view store.payloads
  packages : ∀ identity record, store.packages identity = some record →
    record.toPackageIdentity = identity ∧
    (record.state.Acknowledges → Vouched blake2 codec certified domain view store.payloads identity)

structure Job.Truthful (view : NodeView) (payloads : PackageIdentity → Option Bytes) (job : Job) :
    Prop where
  index : job.index.Truthful blake2 codec certified domain family view payloads
  stored : ∃ payload, payloads job.record.toPackageIdentity = some payload ∧
    checkPackage blake2 codec certified domain payload = .ok (job.package, job.items)
  follows : job.items.Follows family

def NodeView.AppliedBy (view : NodeView) (items : VerifiedPackageItems) : StageKind → Prop
  | .forward => ∀ proof ∈ items.exportProofs, view.ImportFinalized proof.leaf.exportId
  | .settlement => ∀ proof ∈ items.finalizedImportProofs, view.ExportFinalized proof.leaf.exportId
  | .governance => ∀ proof ∈ items.governanceProofs, view.Imported proof.leaf

def Stage.Truthful (view : NodeView) (payloads : PackageIdentity → Option Bytes)
    (items : VerifiedPackageItems) : Stage → Prop
  | transfers direction index rest _ =>
      index.Truthful blake2 codec certified domain family view payloads ∧
        rest ⊆ items.transferItems direction ∧
      ∀ item ∈ items.transferItems direction, item ∈ rest ∨ view.Settled direction item.exportId
  | governance rest _ => ∀ proof ∈ items.governanceProofs, proof ∈ rest ∨ view.Imported proof.leaf

structure Between (view : NodeView) (job : Job) (kinds : List StageKind) (store : Store) :
    Prop where
  files : store.Truthful blake2 codec certified domain family view
  work : job.Truthful blake2 codec certified domain family view store.payloads
  behind : ∀ kind, kind ∉ kinds → view.AppliedBy job.items kind

structure Within (view : NodeView) (job : Job) (stage : Stage) (later : List StageKind)
    (store : Store) : Prop where
  files : store.Truthful blake2 codec certified domain family view
  work : job.Truthful blake2 codec certified domain family view store.payloads
  loop : stage.Truthful blake2 codec certified domain family view store.payloads job.items
  behind : ∀ kind, kind ∉ later → kind ≠ stage.kind → view.AppliedBy job.items kind

def Processor.Truthful (view : NodeView) (store : Store) : Processor → Prop
  | ready _ | stopped => True
  | contacting job => job.Truthful blake2 codec certified domain family view store.payloads
  | importing job stage _ later =>
      Within blake2 codec certified domain family view job stage later store
  | refreshing _ refreshed =>
      refreshed.Truthful blake2 codec certified domain family view store.payloads

structure Importer.Truthful (view : NodeView) (importer : Importer) : Prop where
  memory : importer.memory.Truthful blake2 codec certified domain family view
    importer.store.payloads
  files : importer.store.Truthful blake2 codec certified domain family view
  processor : importer.processor.Truthful blake2 codec certified domain family view importer.store

end Evidence

section Growth

variable {blake2 : Bytes → Hash32} {codec : PackageCodec}
  {certified : CertifiedSummaryPackage → Except Halt Unit} {domain : DomainId}
  {family : ExportId → Direction} {view view' : NodeView}
  {payloads payloads' : PackageIdentity → Option Bytes} (grown : view ≤ view')
  (kept : ∀ identity payload, payloads identity = some payload → payloads' identity = some payload)

include grown in
theorem NodeView.Applied.mono {items : VerifiedPackageItems} (applied : view.Applied items) :
    view'.Applied items :=
  ⟨fun proof member => grown.imports _ (applied.exports proof member),
    fun proof member => grown.exports _ (applied.completions proof member),
    fun proof member => grown.governance _ (applied.governance proof member)⟩

include grown in
theorem NodeView.appliedBy_mono {items : VerifiedPackageItems} {kind : StageKind}
    (applied : view.AppliedBy items kind) : view'.AppliedBy items kind := by
  cases kind with
  | forward => exact fun proof member => grown.imports _ (applied proof member)
  | settlement => exact fun proof member => grown.exports _ (applied proof member)
  | governance => exact fun proof member => grown.governance _ (applied proof member)

include grown kept

theorem Vouched.mono {identity : PackageIdentity}
    (vouched : Vouched blake2 codec certified domain view payloads identity) :
    Vouched blake2 codec certified domain view' payloads' identity := by
  obtain ⟨payload, package, items, stored, checked, applied⟩ := vouched
  exact ⟨payload, package, items, kept _ _ stored, checked, applied.mono grown⟩

theorem ImporterIndex.Truthful.mono {index : ImporterIndex}
    (truthful : index.Truthful blake2 codec certified domain family view payloads) :
    index.Truthful blake2 codec certified domain family view' payloads' :=
  ⟨fun record member => NodeView.settled_mono _ _ grown (truthful.imports record member),
    fun record member acknowledges =>
      (truthful.packages record member acknowledges).mono grown kept⟩

theorem Job.Truthful.mono {job : Job}
    (truthful : job.Truthful blake2 codec certified domain family view payloads) :
    job.Truthful blake2 codec certified domain family view' payloads' := by
  obtain ⟨payload, stored, checked⟩ := truthful.stored
  exact ⟨truthful.index.mono grown kept, ⟨payload, kept _ _ stored, checked⟩, truthful.follows⟩

theorem Stage.Truthful.mono {items : VerifiedPackageItems} {stage : Stage}
    (truthful : stage.Truthful blake2 codec certified domain family view payloads items) :
    stage.Truthful blake2 codec certified domain family view' payloads' items := by
  cases stage with
  | transfers direction index rest counts =>
      obtain ⟨indexed, listed, behind⟩ := truthful
      exact ⟨indexed.mono grown kept, listed, fun item member =>
        (behind item member).imp_right fun settled =>
          NodeView.settled_mono direction _ grown settled⟩
  | governance rest counts =>
      exact fun proof member => (truthful proof member).imp_right (grown.governance proof.leaf)

end Growth

section View

variable {blake2 : Bytes → Hash32} {codec : PackageCodec}
  {certified : CertifiedSummaryPackage → Except Halt Unit} {domain : DomainId}
  {family : ExportId → Direction} {view view' : NodeView} (grown : view ≤ view')
include grown

theorem Store.Truthful.mono {store : Store}
    (truthful : store.Truthful blake2 codec certified domain family view) :
    store.Truthful blake2 codec certified domain family view' := by
  have kept : ∀ identity payload, store.payloads identity = some payload →
      store.payloads identity = some payload :=
    fun _ _ => id
  refine ⟨truthful.own, truthful.index.imp_right ?_, fun identity record found => ?_⟩
  · intro present
    obtain ⟨index, file, indexed⟩ := present
    exact ⟨index, file, indexed.mono grown kept⟩
  · obtain ⟨label, vouched⟩ := truthful.packages identity record found
    exact ⟨label, fun acknowledges => (vouched acknowledges).mono grown kept⟩

theorem Processor.Truthful.mono {processor : Processor} {store store' : Store}
    (truthful : processor.Truthful blake2 codec certified domain family view store)
    (files : store'.Truthful blake2 codec certified domain family view')
    (kept : ∀ identity payload, store.payloads identity = some payload →
      store'.payloads identity = some payload) :
    processor.Truthful blake2 codec certified domain family view' store' := by
  cases processor with
  | ready queue => trivial
  | stopped => trivial
  | contacting job => exact Job.Truthful.mono grown kept truthful
  | importing job stage outcomes later =>
      exact ⟨files, truthful.work.mono grown kept, truthful.loop.mono grown kept,
        fun kind new other => NodeView.appliedBy_mono grown (truthful.behind kind new other)⟩
  | refreshing queue refreshed => exact ImporterIndex.Truthful.mono grown kept truthful

theorem Importer.Truthful.mono {importer : Importer}
    (truthful : importer.Truthful blake2 codec certified domain family view) :
    importer.Truthful blake2 codec certified domain family view' :=
  ⟨truthful.memory.mono grown fun _ _ => id, truthful.files.mono grown,
    truthful.processor.mono grown (truthful.files.mono grown) fun _ _ => id⟩

end View

section Files

variable {blake2 : Bytes → Hash32} {codec : PackageCodec}
  {certified : CertifiedSummaryPackage → Except Halt Unit} {domain : DomainId}
  {family : ExportId → Direction} {view : NodeView} {store store' : Store} {index : ImporterIndex}
  {payloads : PackageIdentity → Option Bytes} {record : PackageRecord}

theorem Store.acknowledges_resetVerifying (record : PackageRecord)
    (acknowledges : (resetVerifying record).state.Acknowledges) : record.state.Acknowledges := by
  unfold resetVerifying at acknowledges
  split at acknowledges
  · exact acknowledges.elim
  · exact acknowledges

theorem Store.Truthful.load (truthful : store.Truthful blake2 codec certified domain family view)
    (loaded : store.loadIndex = .ok index) :
    index.Truthful blake2 codec certified domain family view store.payloads := by
  unfold loadIndex at loaded
  rcases truthful.index with absent | ⟨saved, present, indexed⟩
  · rw [absent] at loaded
    cases loaded
    exact ⟨fun _ member => absurd member List.not_mem_nil, fun _ member =>
      absurd member List.not_mem_nil⟩
  · simp only [present, readIndex, ok_bind, bind_eq_ok, ensure_eq_ok] at loaded
    obtain ⟨_, _, returned⟩ := loaded
    cases returned
    refine ⟨indexed.imports, fun record member acknowledges => ?_⟩
    obtain ⟨before, listed, same⟩ := List.mem_map.mp member
    subst same
    rw [identity_resetVerifying]
    exact indexed.packages before listed (acknowledges_resetVerifying before acknowledges)

theorem Store.Truthful.save (truthful : store.Truthful blake2 codec certified domain family view)
    (indexed : index.Truthful blake2 codec certified domain family view store.payloads) :
    ({ store with indexFile := some (.v2 index) } : Store).Truthful blake2 codec certified
      domain family view :=
  ⟨truthful.own, .inr ⟨index, rfl, indexed⟩, truthful.packages⟩

theorem ImporterIndex.Truthful.upsert
    (indexed : index.Truthful blake2 codec certified domain family view payloads)
    (record : ImportRecord) (settled : view.Settled (family record.exportId) record.exportId) :
    (index.upsert record).Truthful blake2 codec certified domain family view payloads := by
  refine ⟨fun current member => ?_, indexed.packages⟩
  rcases Keyed.mem_of_mem_upsert member with same | before
  · subst same
    exact settled
  · exact indexed.imports current before

theorem ImporterIndex.Truthful.upsertPackage
    (indexed : index.Truthful blake2 codec certified domain family view payloads)
    (vouched : record.state.Acknowledges →
      Vouched blake2 codec certified domain view payloads record.toPackageIdentity) :
    (index.upsertPackage record).Truthful blake2 codec certified domain family view payloads := by
  refine ⟨indexed.imports, fun current member => ?_⟩
  rcases Keyed.mem_of_mem_upsert member with same | before
  · subst same
    exact vouched
  · exact indexed.packages current before

theorem Store.Truthful.persist (truthful : store.Truthful blake2 codec certified domain family view)
    (index : ImporterIndex)
    (vouched : record.state.Acknowledges →
      Vouched blake2 codec certified domain view store.payloads record.toPackageIdentity) :
    (store.persistPackageRecord record index).2.Truthful blake2 codec certified
      domain family view := by
  refine ⟨truthful.own, truthful.index, fun identity current found => ?_⟩
  rcases update_eq_some.mp found with ⟨here, same⟩ | ⟨_, before⟩
  · subst same
    exact ⟨here.symm, here ▸ vouched⟩
  · exact truthful.packages identity current before

end Files

section Steps

variable {blake2 : Bytes → Hash32} {codec : PackageCodec}
  {certified : CertifiedSummaryPackage → Except Halt Unit} {domain : DomainId}
  {family : ExportId → Direction} {view : NodeView} {store : Store} {job : Job}
  {record : PackageRecord} {now : UInt64}

variable (blake2 codec certified domain family view) in
/-- Where the processor stands at its next await. It never writes a payload. -/
structure Resulting (payloads : PackageIdentity → Option Bytes) (result : Processor × Store) :
    Prop where
  files : result.2.Truthful blake2 codec certified domain family view
  processor : result.1.Truthful blake2 codec certified domain family view result.2
  payloads : result.2.payloads = payloads

theorem resulting_ready (truthful : store.Truthful blake2 codec certified domain family view) :
    Resulting blake2 codec certified domain family view store.payloads (.ready [], store) :=
  ⟨truthful, trivial, rfl⟩

theorem resulting_refresh (truthful : store.Truthful blake2 codec certified domain family view)
    (queue : List PackageIdentity) :
    Resulting blake2 codec certified domain family view store.payloads (refresh queue store) := by
  unfold refresh
  split
  · rename_i refreshed loaded
    exact ⟨truthful, truthful.load loaded, rfl⟩
  · exact resulting_ready truthful

theorem resulting_write (truthful : store.Truthful blake2 codec certified domain family view)
    {index : ImporterIndex}
    (indexed : index.Truthful blake2 codec certified domain family view store.payloads)
    {store' : Store} (saved : (store.persistPackageRecord record index).2.saveIndex
      (store.persistPackageRecord record index).1 =
      .ok store')
    (vouched : record.state.Acknowledges →
      Vouched blake2 codec certified domain view store.payloads record.toPackageIdentity) :
    store'.Truthful blake2 codec certified domain family view ∧
      store'.payloads = store.payloads := by
  have same := Store.saveIndex_eq_ok saved
  subst same
  exact ⟨(truthful.persist index vouched).save (indexed.upsertPackage vouched), rfl⟩

theorem resulting_reject (truthful : store.Truthful blake2 codec certified domain family view)
    (record : PackageRecord) (queue : List PackageIdentity) (error : ProcessPackageError) :
    Resulting blake2 codec certified domain family view store.payloads
      (rejectPackage record queue error now store) := by
  unfold rejectPackage
  split
  · rename_i store' finalized
    simp only [finalizePackageError, bind_eq_ok] at finalized
    obtain ⟨index, loaded, saved⟩ := finalized
    have refused : ¬error.state.Acknowledges := by cases error <;> exact id
    obtain ⟨written, same⟩ :=
      resulting_write truthful (truthful.load loaded) saved fun done => absurd done refused
    exact same ▸ resulting_refresh written queue
  · exact resulting_ready truthful

theorem Between.applied {job : Job}
    (between : Between blake2 codec certified domain family view job [] store) :
    view.Applied job.items :=
  ⟨between.behind .forward (List.not_mem_nil), between.behind .settlement (List.not_mem_nil),
    between.behind .governance (List.not_mem_nil)⟩

theorem resulting_finish (between : Between blake2 codec certified domain family view job [] store)
    (outcome : ProcessPackageOutcome) :
    Resulting blake2 codec certified domain family view store.payloads
      (finishPackage job outcome now store) := by
  unfold finishPackage
  split
  · exact resulting_ready between.files
  · rename_i refreshed found
    have label := (between.files.packages _ _ found).1
    have vouched : Vouched blake2 codec certified domain view store.payloads
        refreshed.toPackageIdentity := by
      obtain ⟨payload, stored, checked⟩ := between.work.stored
      rw [label]
      exact ⟨payload, job.package, job.items, stored, checked, between.applied⟩
    dsimp only
    split
    · rename_i store' saved
      obtain ⟨written, same⟩ :=
        resulting_write between.files between.work.index saved fun _ => vouched
      exact same ▸ resulting_refresh written job.queue
    · exact ⟨between.files.persist job.index fun _ => vouched, trivial, rfl⟩

theorem resulting_begin (truthful : store.Truthful blake2 codec certified domain family view)
    (identity : PackageIdentity) (queue : List PackageIdentity)
    (follows : ∀ payload package items, store.payloads identity = some payload →
      checkPackage blake2 codec certified domain payload = .ok (package, items) →
        items.Follows family) :
    Resulting blake2 codec certified domain family view store.payloads
      (beginPackage blake2 codec certified identity queue now store) := by
  unfold beginPackage
  split
  · exact resulting_ready truthful
  · rename_i index loaded
    have indexed := truthful.load loaded
    split
    · exact resulting_ready truthful
    · rename_i found known
      have label : found.toPackageIdentity = identity := Keyed.key_of_lookup known
      split
      · exact resulting_refresh truthful queue
      · dsimp only
        generalize marking :
          ({ found with state := .verifying, lastUpdatedAtUnixMs := now, reason := none } :
            PackageRecord) = record
        have named : record.toPackageIdentity = identity := by rw [← marking]; exact label
        have unacknowledged : record.state.Acknowledges →
            Vouched blake2 codec certified domain view store.payloads record.toPackageIdentity := by
          rw [← marking]
          exact False.elim
        split
        · exact ⟨truthful.persist index unacknowledged, trivial, rfl⟩
        · rename_i store' saved
          obtain ⟨written, same⟩ := resulting_write truthful indexed saved unacknowledged
          rw [← same]
          split
          · exact resulting_ready written
          · rename_i payload read
            have stored : store'.payloads identity = some payload := by
              rw [← named]
              exact okOr_eq_ok.mp read
            split
            · exact resulting_reject written record queue _
            · exact ⟨written, trivial, rfl⟩
            · rename_i package items checked
              rw [written.own] at checked
              refine ⟨written, ⟨?_, ⟨payload, named ▸ stored, checked⟩,
                follows payload package items ?_ checked⟩, rfl⟩
              · rw [same]
                exact indexed.upsertPackage unacknowledged
              · rw [← same]
                exact stored

theorem skipLocal_behind {index : ImporterIndex} {direction : Direction} {items : List TransferItem}
    (settled : ∀ item ∈ items, (index.record item.exportId).isSome →
      view.Settled direction item.exportId)
    (counts : StageCounts) : ∀ item ∈ items, item ∈ (skipLocal index items counts).1 ∨
      view.Settled direction item.exportId := by
  induction items generalizing counts with
  | nil => exact fun item member => absurd member List.not_mem_nil
  | cons first rest ih =>
      intro item member
      unfold skipLocal
      split
      · rename_i known
        rcases List.mem_cons.mp member with same | later
        · subst same
          exact .inr (settled item member known)
        · exact ih (fun item listed => settled item (List.mem_cons_of_mem _ listed)) _ item later
      · exact .inl member

theorem ImporterIndex.Truthful.settled {index : ImporterIndex}
    {payloads : PackageIdentity → Option Bytes}
    (indexed : index.Truthful blake2 codec certified domain family view payloads)
    {exportId : ExportId} (known : (index.record exportId).isSome) :
    view.Settled (family exportId) exportId := by
  obtain ⟨record, found⟩ := Option.isSome_iff_exists.mp known
  have label : record.exportId = exportId := Keyed.key_of_lookup found
  rw [← label]
  exact indexed.imports record (List.mem_of_find?_eq_some found)

theorem skipLocal_subset (index : ImporterIndex) (items : List TransferItem)
    (counts : StageCounts) : (skipLocal index items counts).1 ⊆ items := by
  induction items generalizing counts with
  | nil => exact List.Subset.refl _
  | cons first rest ih =>
      unfold skipLocal
      split
      · exact List.Subset.trans (ih _) (List.subset_cons_self first rest)
      · exact List.Subset.refl _

theorem VerifiedPackageItems.Follows.family_eq {items : VerifiedPackageItems}
    (follows : items.Follows family) {direction : Direction} {item : TransferItem}
    (member : item ∈ items.transferItems direction) : family item.exportId = direction := by
  cases direction with
  | forward =>
      obtain ⟨proof, listed, same⟩ := List.mem_map.mp member
      subst same
      exact follows.exports proof listed
  | settlement =>
      obtain ⟨proof, listed, same⟩ := List.mem_map.mp member
      subst same
      exact follows.completions proof listed

theorem Stage.truthful_transfersAt {items : VerifiedPackageItems} (follows : items.Follows family)
    {payloads : PackageIdentity → Option Bytes} {direction : Direction} {index : ImporterIndex}
    (indexed : index.Truthful blake2 codec certified domain family view payloads)
    {rest : List TransferItem} (listed : rest ⊆ items.transferItems direction)
    (behind : ∀ item ∈ items.transferItems direction, item ∈ rest ∨
      view.Settled direction item.exportId)
    (counts : StageCounts) :
    (Stage.transfersAt direction index rest counts).Truthful blake2 codec certified domain
      family view payloads
      items := by
  refine ⟨indexed, List.Subset.trans (skipLocal_subset index rest counts) listed,
    fun item member => ?_⟩
  have settled : ∀ item ∈ rest, (index.record item.exportId).isSome →
      view.Settled direction item.exportId := by
    intro item ahead known
    rw [← follows.family_eq (listed ahead)]
    exact indexed.settled known
  exact (behind item member).elim (skipLocal_behind settled counts item) .inr

theorem Within.open {kind : StageKind} {later : List StageKind} {stage : Stage}
    (between : Between blake2 codec certified domain family view job (kind :: later) store)
    (opened : openStage job.items store kind = .ok stage) :
    Within blake2 codec certified domain family view job stage later store := by
  have behind {stage : Stage} (same : stage.kind = kind) :
      ∀ other, other ∉ later → other ≠ stage.kind → view.AppliedBy job.items other :=
    fun other new different => between.behind other fun member =>
      (List.mem_cons.mp member).elim (fun equal => different (equal.trans same.symm)) new
  cases opened_of_ok opened with
  | transfers direction loaded =>
      exact ⟨between.files, between.work,
        Stage.truthful_transfersAt between.work.follows (between.files.load loaded)
        (List.Subset.refl _) (fun item => .inl) default, behind rfl⟩
  | governance => exact ⟨between.files, between.work, fun proof => .inl, behind rfl⟩

theorem Stage.Truthful.appliedBy {payloads : PackageIdentity → Option Bytes}
    {items : VerifiedPackageItems} {stage : Stage}
    (truthful : stage.Truthful blake2 codec certified domain family view payloads items)
    (done : stage.isDone = true) : view.AppliedBy items stage.kind := by
  cases stage with
  | transfers direction index rest counts =>
      have none := List.isEmpty_iff.mp done
      subst none
      obtain ⟨_, _, behind⟩ := truthful
      cases direction with
      | forward =>
          intro proof member
          exact (behind (exportItem proof) (List.mem_map_of_mem member)).resolve_left
            List.not_mem_nil
      | settlement =>
          intro proof member
          exact (behind (completionItem proof) (List.mem_map_of_mem member)).resolve_left
            List.not_mem_nil
  | governance rest counts =>
      have none := List.isEmpty_iff.mp done
      subst none
      exact fun proof member => (truthful proof member).resolve_left List.not_mem_nil

theorem Within.close {stage : Stage} {later : List StageKind} {outcome : ProcessPackageOutcome}
    {store' : Store} (within : Within blake2 codec certified domain family view job stage later
      store) (done : stage.isDone = true)
    (closed : stage.close store = .ok (outcome, store')) :
    Between blake2 codec certified domain family view job later store' ∧
      store'.payloads = store.payloads := by
  have behind : ∀ kind, kind ∉ later → view.AppliedBy job.items kind := by
    intro kind new
    by_cases same : kind = stage.kind
    · subst same
      exact within.loop.appliedBy done
    · exact within.behind kind new same
  rcases Stage.close_eq_ok closed with same | ⟨direction, index, rest, counts, shape, written⟩
  · subst same
    exact ⟨⟨within.files, within.work, behind⟩, rfl⟩
  · subst shape written
    exact ⟨⟨within.files.save within.loop.1, within.work, behind⟩, rfl⟩

variable (blake2 codec certified domain family view job now) in
theorem truthfulRule (payloads : PackageIdentity → Option Bytes) :
    LoopRule job now (Resulting blake2 codec certified domain family view payloads)
      (fun kinds store => Between blake2 codec certified domain family view job kinds store ∧
        store.payloads = payloads)
      (fun stage later store =>
        Within blake2 codec certified domain family view job stage later store ∧
          store.payloads = payloads) where
  opens between opened := ⟨Within.open between.1 opened, between.2⟩
  closes within done closed :=
    have next := within.1.close done closed
    ⟨next.1, next.2.trans within.2⟩
  waits _ within _ := ⟨within.1.files, within.1, within.2⟩
  unopened _ error between := between.2 ▸ resulting_reject between.1.files _ _ error
  unclosed _ error within := within.2 ▸ resulting_reject within.1.files _ _ error
  finishes outcome between := between.2 ▸ resulting_finish between.1 outcome

theorem NodeView.appliedBy_of_absent {items : VerifiedPackageItems} {kind : StageKind}
    (absent : kind ∉ stageKinds items) : view.AppliedBy items kind := by
  cases kind with
  | forward =>
      have none : items.exportProofs = [] := by simpa [stageKinds] using absent
      simp [AppliedBy, none]
  | settlement =>
      have none : items.finalizedImportProofs = [] := by simpa [stageKinds] using absent
      simp [AppliedBy, none]
  | governance =>
      have none : items.governanceProofs = [] := by simpa [stageKinds] using absent
      simp [AppliedBy, none]

theorem resulting_contact (truthful : store.Truthful blake2 codec certified domain family view)
    (working : job.Truthful blake2 codec certified domain family view store.payloads)
    (contact : Contact) : Resulting blake2 codec certified domain family view store.payloads
      (resumeContact job now store contact) := by
  cases contact with
  | lost => exact resulting_ready truthful
  | failed error => exact resulting_reject truthful _ _ error
  | made =>
      exact (truthfulRule blake2 codec certified domain family view job now store.payloads).run _
        [] store ⟨⟨truthful, working, fun kind absent => NodeView.appliedBy_of_absent absent⟩, rfl⟩

theorem Within.recorded {direction : Direction} {index : ImporterIndex} {item : TransferItem}
    {rest : List TransferItem} {counts : StageCounts} {later : List StageKind}
    (within : Within blake2 codec certified domain family view job
      (.transfers direction index (item :: rest) counts) later store)
    (settled : view.Settled direction item.exportId) (record : ImportRecord)
    (same : record.exportId = item.exportId) (counts' : StageCounts) :
    Within blake2 codec certified domain family view job
      (.transfersAt direction (index.upsert record) rest counts')
      later { store with records := update store.records record.exportId (some record) } := by
  obtain ⟨indexed, listed, behind⟩ := within.loop
  have onSide : family item.exportId = direction :=
    within.work.follows.family_eq (listed List.mem_cons_self)
  refine ⟨⟨within.files.own, within.files.index, within.files.packages⟩, within.work,
    Stage.truthful_transfersAt within.work.follows (indexed.upsert record ?_)
      (List.Subset.trans (List.subset_cons_self item rest) listed) ?_ counts',
      fun kind new other => ?_⟩
  · rw [same, onSide]
    exact settled
  · intro other member
    rcases behind other member with ahead | done
    · rcases List.mem_cons.mp ahead with here | later
      · subst here
        exact .inr settled
      · exact .inl later
    · exact .inr done
  · refine within.behind kind new ?_
    cases direction <;> exact other

theorem Within.imported {proof : GovernanceInclusionProof} {rest : List GovernanceInclusionProof}
    {counts : StageCounts} {later : List StageKind}
    (within : Within blake2 codec certified domain family view job
      (.governance (proof :: rest) counts) later store)
    (imported : view.Imported proof.leaf) (counts' : StageCounts) :
    Within blake2 codec certified domain family view job
      (.governance rest counts') later store := by
  refine ⟨within.files, within.work, fun other member => ?_, within.behind⟩
  rcases within.loop other member with ahead | done
  · rcases List.mem_cons.mp ahead with here | later
    · subst here
      exact .inr imported
    · exact .inl later
  · exact .inr done

theorem Within.answer {stage stage' : Stage} {later : List StageKind}
    {answer : Answer} {store' : Store}
    (within : Within blake2 codec certified domain family view job stage later store)
    (backed : (∀ error, answer ≠ .failed error) → stage.Backed view)
    (answered : stage.answer job.package store answer = .ok (stage', store')) :
    Within blake2 codec certified domain family view job stage' later store' ∧
      store'.payloads = store.payloads := by
  obtain ⟨unfailed, answered⟩ := answered_of_ok answered
  have backed := backed unfailed
  cases answered with
  | recorded record same counts' => exact ⟨within.recorded backed record same counts', rfl⟩
  | imported counts' => exact ⟨within.imported backed counts', rfl⟩
  | ended => exact ⟨within, rfl⟩

theorem resulting_stage {stage : Stage} {later : List StageKind} {answer : Answer}
    (within : Within blake2 codec certified domain family view job stage later store)
    (backed : (∀ error, answer ≠ .failed error) → stage.Backed view)
    (outcomes : List ProcessPackageOutcome) :
    Resulting blake2 codec certified domain family view store.payloads
      (resumeStage job stage outcomes later answer now store) := by
  have rule := truthfulRule blake2 codec certified domain family view job now store.payloads
  unfold resumeStage
  cases answered : stage.answer job.package store answer with
  | error error => exact rule.unclosed later error ⟨within, rfl⟩
  | ok next => exact rule.settle (rule.run later) (within.answer backed answered) outcomes

end Steps

end Ialp.Services
