import Ialp.Services.Ancestry
import Ialp.Services.ExporterRuns
import Ialp.Types.StorageKeys

/-!
The node's answer to `ialp_summary_certificationReadiness`. It looks for the first block from the
one a summary was staged in that has a GRANDPA justification, and proves the summary's storage entry
in the state of that block. The client, its errors and the check of a storage proof are parameters.
-/

namespace Ialp.Services

open Scale Epochs Sync

section Client

inductive BlockchainError where
  | unknownBlock (text : String)
  | invalidState
  | stateDatabase (text : String)
  | missingHeader (text : String)
  | blockchain (inner : BlockchainError)
  | other (text : String)

def isHistoricalStateUnavailable : BlockchainError → Bool
  | .unknownBlock _ | .invalidState | .stateDatabase _ | .missingHeader _ => true
  | .blockchain inner => isHistoricalStateUnavailable inner
  | .other _ => false

def proofPendingReason (error : BlockchainError) : CertificationPendingReason :=
  if isHistoricalStateUnavailable error then .historicalStateUnavailable
    else .storageProofConstructionFailed

structure RpcError where
  code : Int
  message : String
  deriving DecidableEq

def invalidParams (message : String) : RpcError := ⟨-32602, message⟩

def internalError (message : String) : RpcError := ⟨-32603, message⟩

/-- How a request ends without an answer. A build with overflow checks can panic. -/
inductive Refusal where
  | rejected (error : RpcError)
  | overflow
  deriving DecidableEq

def Halt.refusal : Halt → Refusal
  | failed message => .rejected (internalError message)
  | overflow => .overflow

abbrev EngineId := List.Vector UInt8 4

def grandpaEngineId : EngineId := ⟨[70, 82, 78, 75], rfl⟩

/-- The client, its backend and the shared authority set, at one moment. -/
structure FullClient (Header : Type) where
  bestHash : Hash32
  finalizedHash : Hash32
  finalizedNumber : UInt32
  hash : UInt32 → Except BlockchainError (Option Hash32)
  header : Hash32 → Except BlockchainError (Option Header)
  storage : Hash32 → Bytes → Except BlockchainError (Option Bytes)
  readProof : Hash32 → Bytes → Except BlockchainError (List Bytes)
  justifications : Hash32 → Except BlockchainError (Option (List (EngineId × Bytes)))
  setId : UInt64
  authoritySetChanges : Option (List (UInt64 × UInt32))

/-- The header type with its state root, the encoding of a slot, the hashers of storage keys, the
check of a storage proof for one key, and the text of a client error. -/
structure Primitives (Header : Type) where
  headers : HeaderCodec Header
  stateRoot : Header → Hash32
  slots : Codec SummarySlotRecord
  hashers : StorageHashers
  readProofCheck : Hash32 → List Bytes → Bytes → Except String (Option Bytes)
  display : BlockchainError → String

end Client

section Readiness

variable {Header : Type} (primitives : Primitives Header) (build : Build)
  (client : FullClient Header)

structure CertificationReadiness extends SummaryCertificationReadiness where
  epochId : EpochId
  stagedAtBlockNumber : UInt32
  latestFinalizedBlockNumber : UInt32
  latestFinalizedBlockHash : Hash32

def clientError {α : Type} (result : Except BlockchainError α) : Except Refusal α :=
  result.mapError fun error => .rejected (internalError (primitives.display error))

def FullClient.chain : ChainClient Header where
  hash number := (client.hash number).mapError primitives.display
  header hash := (client.header hash).mapError primitives.display

def decodeSlot (at' : Hash32) (key : Bytes) : Except Refusal (Option SummarySlotRecord) := do
  match ← clientError primitives (client.storage at' key) with
  | none => return none
  | some bytes =>
      let slot ← (primitives.slots.decode bytes).mapError fun error =>
        Refusal.rejected (internalError ("failed to decode storage value: " ++ error))
      return some slot

def extractGrandpaJustification (justifications : List (EngineId × Bytes)) : Option Bytes :=
  (justifications.find? fun justification => justification.1 = grandpaEngineId).map Prod.snd

def grandpaJustification (blockHash : Hash32) : Except Refusal (Option Bytes) := do
  let justifications ← clientError primitives (client.justifications blockHash)
  return justifications.bind extractGrandpaJustification

/-- The loop of `find_earliest_justified_descendant`. -/
def firstJustified : List UInt32 → Except Refusal (Option (UInt32 × Hash32 × Bytes))
  | [] => .ok none
  | blockNumber :: rest => do
      match ← clientError primitives (client.hash blockNumber) with
      | none => firstJustified rest
      | some blockHash =>
          match ← grandpaJustification primitives client blockHash with
          | none => firstJustified rest
          | some justification => return some (blockNumber, blockHash, justification)

def findEarliestJustifiedDescendant (targetBlockNumber finalizedNumber : UInt32) :
    Except Refusal (Option (UInt32 × Hash32 × Bytes)) :=
  firstJustified primitives client (blockNumbers targetBlockNumber finalizedNumber)

def resolveGrandpaSetId (currentSetId : UInt64) (changes : List (UInt64 × UInt32))
    (blockNumber : UInt32) : UInt64 :=
  match changes.find? fun change => blockNumber ≤ change.2 with
  | some (setId, _) => setId
  | none => currentSetId

def grandpaSetIdForBlock (blockNumber : UInt32) : UInt64 :=
  resolveGrandpaSetId client.setId (client.authoritySetChanges.getD []) blockNumber

def verifySummaryHeaderStorageProofBytes (proofBlockHeader : Bytes) (proofBlockHash : Hash32)
    (storageKey : Bytes) (trieNodes : List Bytes) (expectedValue : Bytes) :
    Except CertificationPendingReason Unit := do
  let header ← (primitives.headers.decode proofBlockHeader).mapError fun _ =>
      .storageProofConstructionFailed
  ensure (primitives.headers.hash header = proofBlockHash) .storageProofConstructionFailed
  let value ← (primitives.readProofCheck (primitives.stateRoot header) trieNodes
      storageKey).mapError fun _ =>
    .storageProofConstructionFailed
  ensure (value = some expectedValue) .storageProofConstructionFailed

structure ResolvedProof where
  proofBlockNumber : UInt32
  proofBlockHash : Hash32
  justification : Bytes
  ancestryHeaders : List Bytes

def certificationBundle (epochId : EpochId) (targetBlockNumber : UInt32) (targetBlockHash : Hash32)
    (resolved : ResolvedProof) (grandpaSetId : UInt64) (proofBlockHeader : Bytes)
    (trieNodes : List Bytes) : SummaryCertificationBundle where
  certificate := .grandpaV1 {
    version := 1
    grandpaSetId
    targetBlockNumber
    targetBlockHash
    proofBlockNumber := resolved.proofBlockNumber
    proofBlockHash := resolved.proofBlockHash
    justification := resolved.justification
    ancestryHeaders := resolved.ancestryHeaders }
  summaryHeaderStorageProof := {
    version := 1
    proofBlockNumber := resolved.proofBlockNumber
    proofBlockHash := resolved.proofBlockHash
    proofBlockHeader
    storageKey := summaryHeaderStorageKey primitives.hashers epochId
    trieNodes }

def buildSummaryCertificationBundle (epochId : EpochId) (targetBlockNumber : UInt32)
    (targetBlockHash : Hash32) (resolved : ResolvedProof) (grandpaSetId : UInt64) :
    Except CertificationPendingReason SummaryCertificationBundle := do
  let storageKey := summaryHeaderStorageKey primitives.hashers epochId
  let bestStateValue ← (client.storage client.bestHash storageKey).mapError proofPendingReason
  let bestStateValue ← okOr bestStateValue .storageProofConstructionFailed
  let proofStateValue ← (client.storage resolved.proofBlockHash storageKey).mapError
      proofPendingReason
  let proofStateValue ← okOr proofStateValue .storageProofConstructionFailed
  ensure (proofStateValue = bestStateValue) .storageProofConstructionFailed
  let trieNodes ← (client.readProof resolved.proofBlockHash storageKey).mapError proofPendingReason
  let header ← (client.header resolved.proofBlockHash).mapError proofPendingReason
  let header ← okOr header .storageProofConstructionFailed
  verifySummaryHeaderStorageProofBytes primitives (primitives.headers.encode header)
    resolved.proofBlockHash storageKey trieNodes bestStateValue
  return certificationBundle primitives epochId targetBlockNumber targetBlockHash
    resolved grandpaSetId (primitives.headers.encode header) trieNodes

def slotStatusName : SummarySlotStatus → String
  | .reserved => "Reserved"
  | .staged => "Staged"

def stagedBlock (epochId : EpochId) : Except Refusal UInt32 := do
  let slot ← decodeSlot primitives client client.bestHash
      (summarySlotStorageKey primitives.hashers epochId)
  let slot ← okOr slot
    (.rejected (invalidParams
      ("epoch " ++ toString epochId.toNat ++ " does not have a staged slot")))
  ensure (slot.status = .staged) (.rejected (invalidParams ("epoch " ++ toString epochId.toNat ++
    " is not staged yet (current status: " ++ slotStatusName slot.status ++ ")")))
  okOr slot.stagedAtBlockNumber (.rejected (internalError ("epoch " ++ toString epochId.toNat ++
    " staged slot is missing staged_at_block_number")))

def certificationState (epochId : EpochId) (targetBlockNumber : UInt32) (targetBlockHash : Hash32) :
    Except Refusal SummaryCertificationState :=
  if client.finalizedNumber < targetBlockNumber then .ok (.pending .targetBlockNotFinalized)
  else do
    match ← findEarliestJustifiedDescendant primitives client targetBlockNumber
      client.finalizedNumber with
    | none => return .pending .noJustifiedDescendantYet
    | some (proofBlockNumber, proofBlockHash, justification) =>
        let ancestryHeaders ← (ancestryHeaders primitives.headers build
            (client.chain primitives) targetBlockNumber
          proofBlockNumber).mapError Halt.refusal
        match buildSummaryCertificationBundle primitives client epochId
          targetBlockNumber targetBlockHash
          { proofBlockNumber, proofBlockHash, justification, ancestryHeaders }
          (grandpaSetIdForBlock client proofBlockNumber) with
        | .ok bundle => return .ready bundle
        | .error reason => return .pending reason

def certificationReadiness (epochId : EpochId) : Except Refusal CertificationReadiness := do
  let stagedAtBlockNumber ← stagedBlock primitives client epochId
  match ← clientError primitives (client.hash stagedAtBlockNumber) with
  | none => return {
      epochId, stagedAtBlockNumber
      stagedAtBlockHash := emptyHash
      latestFinalizedBlockNumber := client.finalizedNumber
      latestFinalizedBlockHash := client.finalizedHash
      state := .pending .missingTargetBlockHash }
  | some targetBlockHash =>
      let state ← certificationState primitives build client epochId
          stagedAtBlockNumber targetBlockHash
      return {
        epochId, stagedAtBlockNumber
        stagedAtBlockHash := targetBlockHash
        latestFinalizedBlockNumber := client.finalizedNumber
        latestFinalizedBlockHash := client.finalizedHash
        state }

end Readiness

section Exactness

variable {Header : Type} {primitives : Primitives Header} {build : Build}
  {client : FullClient Header}

def FullClient.JustifiedBy (client : FullClient Header) (blockHash : Hash32)
    (found : Option Bytes) : Prop :=
  ∃ justifications, client.justifications blockHash = .ok justifications ∧
    justifications.bind extractGrandpaJustification = found

def FullClient.Unjustified (client : FullClient Header) (blockNumber : UInt32) : Prop :=
  client.hash blockNumber = .ok none ∨
    ∃ blockHash, client.hash blockNumber = .ok (some blockHash) ∧ client.JustifiedBy blockHash none

theorem grandpaJustification_eq_ok {blockHash : Hash32} {found : Option Bytes} :
    grandpaJustification primitives client blockHash = .ok found ↔
      client.JustifiedBy blockHash found := by
  simp only [grandpaJustification, clientError, bind_eq_ok, mapError_eq_ok, pure,
    Except.pure, Except.ok.injEq, FullClient.JustifiedBy]

theorem mem_blockNumbers {first last number : UInt32} :
    number ∈ blockNumbers first last ↔ first ≤ number ∧ number ≤ last := by
  have bound := last.toNat_lt
  simp only [blockNumbers, List.mem_map, List.mem_range'_1, UInt32.le_iff_toNat_le]
  constructor
  · rintro ⟨n, inside, rfl⟩
    rw [UInt32.toNat_ofNat_of_lt' (by rw [UInt32.size]; omega)]
    omega
  · intro inside
    exact ⟨number.toNat, by omega, UInt32.ofNat_toNat⟩

theorem blockNumbers_sorted (first last : UInt32) : (blockNumbers first last).Pairwise (· < ·) := by
  have bound := last.toNat_lt
  refine List.pairwise_map.mpr ((List.pairwise_lt_range' 1).imp_of_mem ?_)
  intro a b inside inside' less
  rw [List.mem_range'_1] at inside inside'
  rw [UInt32.lt_iff_toNat_lt, UInt32.toNat_ofNat_of_lt' (by rw [UInt32.size]; omega),
    UInt32.toNat_ofNat_of_lt' (by rw [UInt32.size]; omega)]
  exact less

theorem firstJustified_eq_none {numbers : List UInt32} :
    firstJustified primitives client numbers = .ok none ↔ ∀ number ∈ numbers,
      client.Unjustified number := by
  induction numbers with
  | nil => simp [firstJustified]
  | cons number rest ih =>
      simp only [firstJustified, bind_eq_ok, clientError, mapError_eq_ok, List.forall_mem_cons]
      constructor
      · intro searched
        obtain ⟨found, hash, searched⟩ := searched
        cases found with
        | none => exact ⟨.inl hash, ih.mp searched⟩
        | some blockHash =>
            simp only [bind_eq_ok, grandpaJustification_eq_ok] at searched
            obtain ⟨justification, justified, searched⟩ := searched
            cases justification with
            | none => exact ⟨.inr ⟨blockHash, hash, justified⟩, ih.mp searched⟩
            | some justification => cases searched
      · intro unjustified
        obtain ⟨here, later⟩ := unjustified
        rcases here with missing | ⟨blockHash, hash, unjustified⟩
        · exact ⟨none, missing, ih.mpr later⟩
        · refine ⟨some blockHash, hash, ?_⟩
          simp only [bind_eq_ok, grandpaJustification_eq_ok]
          exact ⟨none, unjustified, ih.mpr later⟩

theorem firstJustified_eq_some {numbers : List UInt32} {number : UInt32} {blockHash : Hash32}
    {justification : Bytes} :
    firstJustified primitives client numbers = .ok (some (number, blockHash, justification)) ↔
      ∃ before after, numbers = before ++ number :: after ∧
        (∀ other ∈ before, client.Unjustified other) ∧
        client.hash number = .ok (some blockHash) ∧
          client.JustifiedBy blockHash (some justification) := by
  induction numbers with
  | nil => simp [firstJustified]
  | cons first rest ih =>
      simp only [firstJustified, bind_eq_ok, clientError, mapError_eq_ok]
      have skip (here : client.Unjustified first)
          (later : firstJustified primitives client rest =
            .ok (some (number, blockHash, justification))) :
          ∃ before after, first :: rest = before ++ number :: after ∧
            (∀ other ∈ before, client.Unjustified other) ∧
            client.hash number = .ok (some blockHash) ∧
              client.JustifiedBy blockHash (some justification) := by
        obtain ⟨before, after, split, unjustified, found⟩ := ih.mp later
        exact ⟨first :: before, after, congrArg (first :: ·) split,
          List.forall_mem_cons.mpr ⟨here, unjustified⟩, found⟩
      constructor
      · intro searched
        obtain ⟨found, hash, searched⟩ := searched
        cases found with
        | none => exact skip (.inl hash) searched
        | some firstHash =>
            simp only [bind_eq_ok, grandpaJustification_eq_ok] at searched
            obtain ⟨firstJustification, justified, searched⟩ := searched
            cases firstJustification with
            | none => exact skip (.inr ⟨firstHash, hash, justified⟩) searched
            | some firstJustification =>
                cases searched
                exact ⟨[], rest, rfl, by simp, hash, justified⟩
      · intro found
        obtain ⟨before, after, split, unjustified, hash, justified⟩ := found
        cases before with
        | nil =>
            cases split
            refine ⟨some blockHash, hash, ?_⟩
            simp only [bind_eq_ok, grandpaJustification_eq_ok]
            exact ⟨some justification, justified, rfl⟩
        | cons other before =>
            cases split
            obtain ⟨here, unjustified⟩ := List.forall_mem_cons.mp unjustified
            have later := ih.mpr ⟨before, after, rfl, unjustified, hash, justified⟩
            rcases here with missing | ⟨otherHash, otherFound, unjustified⟩
            · exact ⟨none, missing, later⟩
            · refine ⟨some otherHash, otherFound, ?_⟩
              simp only [bind_eq_ok, grandpaJustification_eq_ok]
              exact ⟨none, unjustified, later⟩

variable {target finalized : UInt32}

theorem findEarliestJustifiedDescendant_eq_none :
    findEarliestJustifiedDescendant primitives client target finalized = .ok none ↔
      ∀ number, target ≤ number → number ≤ finalized → client.Unjustified number := by
  simp only [findEarliestJustifiedDescendant, firstJustified_eq_none, mem_blockNumbers, and_imp]

theorem findEarliestJustifiedDescendant_eq_some {number : UInt32} {blockHash : Hash32}
    {justification : Bytes} : findEarliestJustifiedDescendant primitives client target finalized =
        .ok (some (number, blockHash, justification)) ↔
      target ≤ number ∧ number ≤ finalized ∧
        (∀ other, target ≤ other → other < number → client.Unjustified other) ∧
        client.hash number = .ok (some blockHash) ∧
          client.JustifiedBy blockHash (some justification) := by
  have sorted := blockNumbers_sorted target finalized
  rw [findEarliestJustifiedDescendant, firstJustified_eq_some]
  constructor
  · intro found
    obtain ⟨before, after, split, unjustified, found⟩ := found
    have member : number ∈ blockNumbers target finalized := by simp [split]
    obtain ⟨above, below⟩ := mem_blockNumbers.mp member
    refine ⟨above, below, ?_, found⟩
    intro other above' less
    have listed := mem_blockNumbers.mpr ⟨above', UInt32.le_trans (UInt32.le_of_lt less) below⟩
    rw [split, List.mem_append, List.mem_cons] at listed
    rw [split] at sorted
    rcases listed with here | same | later
    · exact unjustified other here
    · exact absurd (same ▸ less) (UInt32.lt_irrefl _)
    · have more := List.rel_of_pairwise_cons (List.pairwise_append.mp sorted).2.1 later
      exact absurd (UInt32.lt_trans less more) (UInt32.lt_irrefl _)
  · intro found
    obtain ⟨above, below, unjustified, found⟩ := found
    obtain ⟨before, after, split⟩ := List.append_of_mem (mem_blockNumbers.mpr ⟨above, below⟩)
    refine ⟨before, after, split, ?_, found⟩
    intro other member
    have listed : other ∈ blockNumbers target finalized := by simp [split, member]
    rw [split] at sorted
    have less := (List.pairwise_append.mp sorted).2.2 other member number List.mem_cons_self
    exact unjustified other (mem_blockNumbers.mp listed).1 less

theorem stagedBlock_eq_ok {epochId : EpochId} : stagedBlock primitives client epochId = .ok target ↔
    ∃ bytes slot, client.storage client.bestHash
      (summarySlotStorageKey primitives.hashers epochId) =
        .ok (some bytes) ∧ primitives.slots.decode bytes = .ok slot ∧ slot.status = .staged ∧
      slot.stagedAtBlockNumber = some target := by
  simp only [stagedBlock, decodeSlot, clientError, bind_eq_ok, okOr_eq_ok,
    ensure_eq_ok, mapError_eq_ok]
  constructor
  · intro found
    obtain ⟨_, ⟨value, stored, decoded⟩, slot, rfl, _, staged, block⟩ := found
    cases value with
    | none => cases decoded
    | some bytes =>
        simp only [bind_eq_ok, mapError_eq_ok] at decoded
        obtain ⟨_, decoded, same⟩ := decoded
        cases same
        exact ⟨bytes, slot, stored, decoded, staged, block⟩
  · intro found
    obtain ⟨bytes, slot, stored, decoded, staged, block⟩ := found
    refine ⟨some slot, ⟨some bytes, stored, ?_⟩, slot, rfl, (), staged, block⟩
    simp only [bind_eq_ok, mapError_eq_ok]
    exact ⟨slot, decoded, rfl⟩

/-- The parts of a certificate as the node has them: the block the summary was staged in, the first
justified block from there on, and the entry of the summary in the state of the one and of the best
block. -/
structure Certifies (primitives : Primitives Header) (build : Build) (client : FullClient Header)
    (epochId : EpochId) (target : UInt32) (targetHash : Hash32) (resolved : ResolvedProof)
    (header : Header) (nodes : List Bytes) (value : Bytes) : Prop where
  staged : stagedBlock primitives client epochId = .ok target
  hashed : client.hash target = .ok (some targetHash)
  above : target ≤ resolved.proofBlockNumber
  finalized : resolved.proofBlockNumber ≤ client.finalizedNumber
  earliest : ∀ other, target ≤ other → other < resolved.proofBlockNumber → client.Unjustified other
  proof : client.hash resolved.proofBlockNumber = .ok (some resolved.proofBlockHash)
  justified : client.JustifiedBy resolved.proofBlockHash (some resolved.justification)
  ancestry : ancestryHeaders primitives.headers build (client.chain primitives) target
    resolved.proofBlockNumber =
    .ok resolved.ancestryHeaders
  best : client.storage client.bestHash (summaryHeaderStorageKey primitives.hashers epochId) =
    .ok (some value)
  proved : client.storage resolved.proofBlockHash
    (summaryHeaderStorageKey primitives.hashers epochId) =
    .ok (some value)
  read : client.readProof resolved.proofBlockHash
    (summaryHeaderStorageKey primitives.hashers epochId) = .ok nodes
  stored : client.header resolved.proofBlockHash = .ok (some header)
  hash : primitives.headers.hash header = resolved.proofBlockHash
  checked : primitives.readProofCheck (primitives.stateRoot header) nodes
    (summaryHeaderStorageKey primitives.hashers epochId) = .ok (some value)

theorem buildSummaryCertificationBundle_eq_ok {epochId : EpochId} {targetHash : Hash32}
    {resolved : ResolvedProof} {setId : UInt64} {bundle : SummaryCertificationBundle} :
    buildSummaryCertificationBundle primitives client epochId target targetHash resolved setId =
      .ok bundle ↔
      ∃ value nodes header,
        client.storage client.bestHash (summaryHeaderStorageKey primitives.hashers epochId) =
          .ok (some value) ∧
        client.storage resolved.proofBlockHash
          (summaryHeaderStorageKey primitives.hashers epochId) =
          .ok (some value) ∧
        client.readProof resolved.proofBlockHash
          (summaryHeaderStorageKey primitives.hashers epochId) = .ok nodes ∧
        client.header resolved.proofBlockHash = .ok (some header) ∧
        primitives.headers.hash header = resolved.proofBlockHash ∧
        primitives.readProofCheck (primitives.stateRoot header) nodes
          (summaryHeaderStorageKey primitives.hashers epochId) = .ok (some value) ∧
        bundle = certificationBundle primitives epochId target targetHash resolved setId
          (primitives.headers.encode header) nodes := by
  simp only [buildSummaryCertificationBundle, verifySummaryHeaderStorageProofBytes,
    bind_eq_ok, okOr_eq_ok, ensure_eq_ok, mapError_eq_ok, primitives.headers.decode_encode]
  constructor
  · intro built
    obtain ⟨_, best, value, rfl, _, proved, _, rfl, _, same, nodes, listed, _,
        stored, header, rfl, _,
      ⟨_, decoded, _, hashed, _, checked, exact'⟩, result⟩ := built
    cases decoded
    subst same
    cases result
    exact ⟨_, nodes, header, best, proved, listed, stored, hashed, exact' ▸ checked, rfl⟩
  · intro built
    obtain ⟨value, nodes, header, best, proved, listed, stored, hashed, checked, rfl⟩ := built
    exact ⟨_, best, value, rfl, _, proved, value, rfl, (), rfl, nodes, listed, _,
      stored, header, rfl, (), ⟨header, rfl, (), hashed, _, checked, rfl⟩, rfl⟩

theorem certificationReadiness_ready {epochId : EpochId} {readiness : CertificationReadiness}
    {bundle : SummaryCertificationBundle} :
    (certificationReadiness primitives build client epochId = .ok readiness ∧
      readiness.state = .ready bundle) ↔
      ∃ target targetHash resolved header nodes value,
        Certifies primitives build client epochId target targetHash resolved header nodes value ∧
        bundle = certificationBundle primitives epochId target targetHash resolved
          (grandpaSetIdForBlock client resolved.proofBlockNumber)
          (primitives.headers.encode header) nodes ∧
        readiness = {
          epochId
          stagedAtBlockNumber := target
          stagedAtBlockHash := targetHash
          latestFinalizedBlockNumber := client.finalizedNumber
          latestFinalizedBlockHash := client.finalizedHash
          state := .ready bundle } := by
  simp only [certificationReadiness, bind_eq_ok, clientError, mapError_eq_ok]
  constructor
  · rintro ⟨⟨target, staged, found, hashed, answered⟩, ready⟩
    cases found with
    | none =>
        cases answered
        cases ready
    | some targetHash =>
        simp only [bind_eq_ok] at answered
        obtain ⟨state, certified, answered⟩ := answered
        cases answered
        subst ready
        unfold certificationState at certified
        split at certified
        · cases certified
        · simp only [bind_eq_ok] at certified
          obtain ⟨search, searched, certified⟩ := certified
          rcases search with _ | ⟨proofNumber, proofHash, justification⟩
          · cases certified
          · simp only [bind_eq_ok, mapError_eq_ok] at certified
            obtain ⟨ancestry, listed, certified⟩ := certified
            obtain ⟨above, final, earliest, proofHashed, justified⟩ :=
              findEarliestJustifiedDescendant_eq_some.mp searched
            split at certified
            · rename_i built
              cases certified
              obtain ⟨value, nodes, header, best, proved, read, stored, hash, checked, rfl⟩ :=
                buildSummaryCertificationBundle_eq_ok.mp built
              exact ⟨target, targetHash, ⟨proofNumber, proofHash, justification, ancestry⟩,
                header, nodes, value, ⟨staged, hashed, above, final, earliest, proofHashed,
                  justified, listed, best, proved, read, stored, hash, checked⟩, rfl, rfl⟩
            · cases certified
  · rintro ⟨target, targetHash, resolved, header, nodes, value, certifies, rfl, rfl⟩
    refine ⟨⟨target, certifies.staged, some targetHash, certifies.hashed, ?_⟩, rfl⟩
    have final : ¬ client.finalizedNumber < target :=
      UInt32.not_lt.mpr (UInt32.le_trans certifies.above certifies.finalized)
    have searched : findEarliestJustifiedDescendant primitives client target
        client.finalizedNumber =
        .ok (some (resolved.proofBlockNumber, resolved.proofBlockHash, resolved.justification)) :=
      findEarliestJustifiedDescendant_eq_some.mpr
        ⟨certifies.above, certifies.finalized, certifies.earliest, certifies.proof,
          certifies.justified⟩
    have built : buildSummaryCertificationBundle primitives client epochId target
        targetHash resolved
        (grandpaSetIdForBlock client resolved.proofBlockNumber) =
          .ok (certificationBundle primitives epochId target
          targetHash resolved (grandpaSetIdForBlock client resolved.proofBlockNumber)
          (primitives.headers.encode header) nodes) :=
      buildSummaryCertificationBundle_eq_ok.mpr ⟨value, nodes, header,
        certifies.best, certifies.proved, certifies.read, certifies.stored, certifies.hash,
        certifies.checked, rfl⟩
    simp only [bind_eq_ok, certificationState, if_neg final, searched, ok_bind, certifies.ancestry]
    exact ⟨_, ⟨_, rfl, by rw [built]; rfl⟩, rfl⟩

end Exactness

end Ialp.Services
