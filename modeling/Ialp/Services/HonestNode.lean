import Ialp.Pallets.EpochTiling
import Ialp.Services.ChainContext
import Ialp.Services.Packaging

/-!
The certificates of a node that answers truthfully about a chain. When it answers every request,
what it says about an epoch depends on the chain alone. Its certificate of an epoch does not change
from one request to the next, and the importer accepts it.
-/

namespace Ialp.Services

open Scale Epochs Sync

/-- The best chain of a node: the blocks its runtime has run, the header and the GRANDPA
justification of each, and the storage proofs for the state after it. -/
structure NodeChain (σ : Type) {Header : Type} (headers : HeaderCodec Header) where
  epochLengthBlocks : UInt32
  rest : σ
  blocks : List (Block σ)
  header : Nat → Header
  justification : Nat → Option Bytes
  proof : Nat → Bytes → List Bytes
  started : 1 ≤ blocks.length
  short : blocks.length + 1 < 2 ^ 32
  numbered : ∀ n ≤ blocks.length, (headers.number (header n)).toNat = n
  linked : ∀ n < blocks.length, headers.parentHash (header (n + 1)) = headers.hash (header n)

section Chain

variable {σ Header : Type} {headers : HeaderCodec Header} (blake2 : Bytes → Hash32)
  (config : Config σ) (chain : NodeChain σ headers)

namespace NodeChain

def hash (n : Nat) : Hash32 := headers.hash (chain.header n)

def stateAt (n : Nat) : State :=
  (runBlocks blake2 config chain.epochLengthBlocks chain.rest (chain.blocks.take n)).epochs

def epochLength : Nat := (max chain.epochLengthBlocks 1).toNat

def stagedAt (epochId : EpochId) : Nat := (epochId.toNat + 1) * chain.epochLength + 1

variable {blake2 config chain} {n : Nat} {epochId : EpochId}

theorem epochLength_pos : 0 < chain.epochLength := length_pos _

theorem tiled (positive : 1 ≤ n) (within : n ≤ chain.blocks.length) :
    Tiled blake2 config chain.epochLength chain.blocks n (chain.stateAt blake2 config n) :=
  runBlocks_tiled blake2 config chain.epochLengthBlocks chain.rest
    (Nat.lt_of_succ_lt chain.short) positive within

theorem closed_iff (positive : 1 ≤ n) (within : n ≤ chain.blocks.length) :
    epochId < (chain.stateAt blake2 config n).currentEpoch ↔ chain.stagedAt epochId ≤ n := by
  have current : (chain.stateAt blake2 config n).currentEpoch.toNat = (n - 1) / chain.epochLength :=
    (tiled positive within).currentEpoch
  rw [UInt64.lt_iff_toNat_lt, current, ← Nat.succ_le_iff, Nat.le_div_iff_mul_le epochLength_pos,
    stagedAt, Nat.succ_eq_add_one]
  omega

theorem closedEpoch (within : n ≤ chain.blocks.length) (closed : chain.stagedAt epochId ≤ n) :
    ∃ header slot, ClosedEpoch blake2 config chain.epochLength chain.blocks
      (chain.stateAt blake2 config n) epochId header slot :=
  have positive : 1 ≤ n := Nat.le_trans (Nat.le_add_left _ _) closed
  (tiled positive within).closed epochId ((closed_iff positive within).mpr closed)

theorem header_kept {m : Nat} {header : EpochSummaryHeader} (closed : chain.stagedAt epochId ≤ n)
    (le : n ≤ m) (within : m ≤ chain.blocks.length)
    (stored : (chain.stateAt blake2 config n).summaryHeaders epochId = some header) :
    (chain.stateAt blake2 config m).summaryHeaders epochId = some header :=
  runBlocks_header_kept blake2 config chain.epochLengthBlocks chain.rest
    (Nat.lt_of_succ_lt chain.short) (Nat.le_trans (Nat.le_add_left _ _) closed) le within stored

theorem stagedAt_of_slot {slot : SummarySlotRecord} (positive : 1 ≤ n)
    (within : n ≤ chain.blocks.length)
    (stored : (chain.stateAt blake2 config n).summarySlots epochId = some slot)
    (staged : slot.status = .staged) :
    chain.stagedAt epochId ≤ n ∧ slot.stagedAtBlockNumber.map UInt32.toNat =
      some (chain.stagedAt epochId) := by
  rcases Nat.lt_trichotomy epochId.toNat (chain.stateAt blake2 config n).currentEpoch.toNat with
    closed | here | ahead
  · rw [← UInt64.lt_iff_toNat_lt, closed_iff positive within] at closed
    obtain ⟨_, slot', closedEpoch⟩ := closedEpoch within closed
    rw [closedEpoch.slotStored] at stored
    cases stored
    exact ⟨closed, closedEpoch.stagedAt⟩
  · obtain ⟨open', opened, reserved, _⟩ := (tiled positive within).openSlot
    rw [UInt64.toNat_inj.mp here, opened] at stored
    cases stored
    rw [reserved] at staged
    cases staged
  · have none' := runBlocks_noneAhead blake2 config chain.epochLengthBlocks chain.rest
      (Nat.lt_of_succ_lt chain.short) positive within epochId (UInt64.lt_iff_toNat_lt.mpr ahead)
    cases none'.symm.trans stored

end NodeChain

end Chain

section Answers

variable {σ Header : Type} (primitives : Primitives Header) (blake2 : Bytes → Hash32)
  (config : Config σ) (client : FullClient Header) (chain : NodeChain σ primitives.headers)

/-- What the client answers about the chain is true. It may fail to answer. -/
structure Answers : Prop where
  finalized : client.finalizedNumber.toNat ≤ chain.blocks.length
  best : client.bestHash = chain.hash chain.blocks.length
  hash : ∀ {number : UInt32} {found}, number.toNat ≤ chain.blocks.length →
    client.hash number = .ok found →
    found = some (chain.hash number.toNat)
  header : ∀ {n found}, n ≤ chain.blocks.length → client.header (chain.hash n) = .ok found →
    found = some (chain.header n)
  summary : ∀ {n epochId found}, n ≤ chain.blocks.length →
    client.storage (chain.hash n) (summaryHeaderStorageKey primitives.hashers epochId) = .ok found →
    found = ((chain.stateAt blake2 config n).summaryHeaders epochId).map encode
  slot : ∀ {n epochId found}, n ≤ chain.blocks.length →
    client.storage (chain.hash n) (summarySlotStorageKey primitives.hashers epochId) = .ok found →
    found = ((chain.stateAt blake2 config n).summarySlots epochId).map primitives.slots.encode
  proof : ∀ {n key nodes}, n ≤ chain.blocks.length →
    client.readProof (chain.hash n) key = .ok nodes →
    nodes = chain.proof n key
  justification : ∀ {n found}, n ≤ client.finalizedNumber.toNat →
    client.JustifiedBy (chain.hash n) found →
    found = chain.justification n

/-- The client answers every request about the chain, and its storage proofs are good. -/
structure Serves : Prop extends Answers primitives blake2 config client chain where
  hashes : ∀ {number : UInt32}, number.toNat ≤ chain.blocks.length → ∃ found,
    client.hash number = .ok found
  headers : ∀ {n}, n ≤ chain.blocks.length → ∃ found, client.header (chain.hash n) = .ok found
  storage : ∀ {n key}, n ≤ chain.blocks.length → ∃ found,
    client.storage (chain.hash n) key = .ok found
  proofs : ∀ {n key}, n ≤ chain.blocks.length → ∃ nodes,
    client.readProof (chain.hash n) key = .ok nodes
  justifications : ∀ {n}, n ≤ client.finalizedNumber.toNat → ∃ found,
    client.justifications (chain.hash n) = .ok found
  proved : ∀ {n key value}, n ≤ chain.blocks.length →
    client.storage (chain.hash n) key = .ok (some value) →
    primitives.readProofCheck (primitives.stateRoot (chain.header n))
    (chain.proof n key) key = .ok (some value)

end Answers

section Stability

variable {σ Header : Type} {primitives : Primitives Header} {blake2 : Bytes → Hash32}
  {config : Config σ} {client : FullClient Header} {chain : NodeChain σ primitives.headers}
  {build : Build} {epochId : EpochId} {target : UInt32}

theorem Answers.stagedAt (answers : Answers primitives blake2 config client chain)
    (staged : stagedBlock primitives client epochId = .ok target) :
    target.toNat = chain.stagedAt epochId ∧ chain.stagedAt epochId ≤ chain.blocks.length := by
  obtain ⟨bytes, slot, stored, decoded, status, block⟩ := stagedBlock_eq_ok.mp staged
  rw [answers.best] at stored
  obtain ⟨slot', found, encoded⟩ := Option.map_eq_some_iff.mp (answers.slot (le_refl _) stored).symm
  rw [← encoded, primitives.slots.decode_encode] at decoded
  cases decoded
  obtain ⟨within, at'⟩ := NodeChain.stagedAt_of_slot chain.started (le_refl _) found status
  rw [block] at at'
  exact ⟨Option.some.inj at', within⟩

structure NodeChain.FirstJustified {headers : HeaderCodec Header} (chain : NodeChain σ headers)
    (epochId : EpochId) (proof : Nat) (justification : Bytes) : Prop where
  above : chain.stagedAt epochId ≤ proof
  justified : chain.justification proof = some justification
  earliest : ∀ n, chain.stagedAt epochId ≤ n → n < proof → chain.justification n = none

def NodeChain.bundle (primitives : Primitives Header) (chain : NodeChain σ primitives.headers)
    (epochId : EpochId) (proof : Nat) (justification : Bytes) (setId : UInt64) :
    SummaryCertificationBundle :=
  certificationBundle primitives epochId (UInt32.ofNat (chain.stagedAt epochId))
    (chain.hash (chain.stagedAt epochId)) {
      proofBlockNumber := UInt32.ofNat proof
      proofBlockHash := chain.hash proof
      justification
      ancestryHeaders :=
        (List.range' (chain.stagedAt epochId + 1) (proof - chain.stagedAt epochId)).map fun n =>
        primitives.headers.encode (chain.header n) }
    setId (primitives.headers.encode (chain.header proof))
    (chain.proof proof (summaryHeaderStorageKey primitives.hashers epochId))

theorem eq_map_of_mapM {ε α β : Type} {f : α → Except ε β} {g : α → β}
    {items : List α} {results : List β} (only : ∀ item ∈ items, ∀ result, f item = .ok result →
      result = g item) (mapped : items.mapM f = .ok results) :
    results = items.map g := by
  induction items generalizing results with
  | nil =>
      cases mapped
      rfl
  | cons item rest ih =>
      simp only [List.mapM_cons, bind_eq_ok] at mapped
      obtain ⟨first, here, later, there, mapped⟩ := mapped
      cases mapped
      rw [only item List.mem_cons_self first here,
        ih (fun other member => only other (List.mem_cons_of_mem _ member)) there, List.map_cons]

theorem NodeChain.toNat_ofNat {headers : HeaderCodec Header} (chain : NodeChain σ headers) {n : Nat}
    (within : n ≤ chain.blocks.length) : (UInt32.ofNat n).toNat = n := by
  have short := chain.short
  exact UInt32.toNat_ofNat_of_lt' (by rw [UInt32.size]; omega)

theorem Answers.ancestryHeaders (answers : Answers primitives blake2 config client chain)
    {proof : UInt32} {encoded : List Bytes} (ordered : target ≤ proof)
    (within : proof.toNat ≤ chain.blocks.length)
    (listed : ancestryHeaders primitives.headers build (client.chain primitives) target proof =
      .ok encoded) :
    encoded = (List.range' (target.toNat + 1) (proof.toNat - target.toNat)).map fun n =>
      primitives.headers.encode (chain.header n) := by
  have room : target.toNat + 1 < 2 ^ 32 := by
    have short := chain.short
    have ordered := UInt32.le_iff_toNat_le.mp ordered
    omega
  rw [ancestryHeaders_eq_mapM room] at listed
  refine eq_map_of_mapM ?_ listed
  intro n inside bytes canonical
  rw [List.mem_range'_1] at inside
  have within' : n ≤ chain.blocks.length := by omega
  have number := chain.toNat_ofNat within'
  simp only [Function.comp_apply, canonicalHeader, FullClient.chain, bind_eq_ok,
    mapError_eq_ok, okOr_eq_ok] at canonical
  obtain ⟨_, hashed, hash, rfl, _, stored, header, rfl, result⟩ := canonical
  have hashed := answers.hash (by rwa [number]) hashed
  rw [number] at hashed
  cases hashed
  cases answers.header within' stored
  cases result
  rfl

theorem Answers.certificate (answers : Answers primitives blake2 config client chain)
    {readiness : CertificationReadiness} {bundle : SummaryCertificationBundle}
    (answered : certificationReadiness primitives build client epochId = .ok readiness)
    (ready : readiness.state = .ready bundle) :
    ∃ proof justification summary, chain.FirstJustified epochId proof justification ∧
      proof ≤ client.finalizedNumber.toNat ∧
      (chain.stateAt blake2 config chain.blocks.length).summaryHeaders epochId = some summary ∧
      primitives.readProofCheck (primitives.stateRoot (chain.header proof))
        (chain.proof proof (summaryHeaderStorageKey primitives.hashers epochId))
        (summaryHeaderStorageKey primitives.hashers epochId) = .ok (some (encode summary)) ∧
      bundle = chain.bundle primitives epochId proof justification
        (grandpaSetIdForBlock client (UInt32.ofNat proof)) := by
  obtain ⟨target, targetHash, resolved, header, nodes, value, certifies, rfl, _⟩ :=
    certificationReadiness_ready.mp ⟨answered, ready⟩
  obtain ⟨staged, _⟩ := answers.stagedAt certifies.staged
  have above := UInt32.le_iff_toNat_le.mp certifies.above
  have final := UInt32.le_iff_toNat_le.mp certifies.finalized
  have within : resolved.proofBlockNumber.toNat ≤ chain.blocks.length :=
    Nat.le_trans final answers.finalized
  have targetHashed := answers.hash (Nat.le_trans above within) certifies.hashed
  have proofHashed := answers.hash within certifies.proof
  have justified := certifies.justified
  have stored := certifies.stored
  have read := certifies.read
  have best := certifies.best
  have checked := certifies.checked
  cases targetHashed
  rw [Option.some.inj proofHashed] at justified stored read
  rw [answers.best] at best
  obtain ⟨summary, found, rfl⟩ := Option.map_eq_some_iff.mp (answers.summary (le_refl _) best).symm
  cases answers.header within stored
  rw [answers.proof within read] at checked
  refine ⟨resolved.proofBlockNumber.toNat, resolved.justification, summary, ⟨?_, ?_, ?_⟩, final,
    found, checked, ?_⟩
  · rwa [← staged]
  · exact (answers.justification final justified).symm
  · intro n from' before
    have below : n ≤ chain.blocks.length := by omega
    have number := chain.toNat_ofNat below
    rcases certifies.earliest (UInt32.ofNat n)
      (by rw [UInt32.le_iff_toNat_le, number, staged]; exact from')
      (by rwa [UInt32.lt_iff_toNat_lt, number]) with missing | ⟨hash, hashed, unjustified⟩
    · cases answers.hash (by rwa [number]) missing
    · have hashed := answers.hash (by rwa [number]) hashed
      rw [number] at hashed
      cases hashed
      exact (answers.justification (by omega) unjustified).symm
  · have encoded := answers.ancestryHeaders certifies.above within certifies.ancestry
    rw [staged] at encoded
    rw [answers.proof within read, NodeChain.bundle, ← staged, UInt32.ofNat_toNat,
      UInt32.ofNat_toNat, staged, ← encoded, ← Option.some.inj proofHashed]

/-- The authority sets of a chain, each with its last block, and the set after them. A node knows
those that have ended by the block it has finalized, and the current one. -/
structure Tracks (history : List (UInt64 × UInt32)) (last : UInt64) (client : FullClient Header)
    (later : List (UInt64 × UInt32)) : Prop where
  known : history = client.authoritySetChanges.getD [] ++ later
  current : client.setId = (later.head?.map Prod.fst).getD last
  unfinished : ∀ change ∈ later, client.finalizedNumber ≤ change.2

theorem Tracks.setId {history later : List (UInt64 × UInt32)} {last : UInt64}
    (tracks : Tracks history last client later) {number : UInt32}
    (final : number ≤ client.finalizedNumber) :
    grandpaSetIdForBlock client number = resolveGrandpaSetId last history number := by
  rw [grandpaSetIdForBlock, tracks.known, resolveGrandpaSetId,
    resolveGrandpaSetId, List.find?_append]
  cases client.authoritySetChanges.getD [] |>.find? fun change => number ≤ change.2 with
  | some change => rfl
  | none =>
      rw [Option.none_or, tracks.current]
      cases later with
      | nil => rfl
      | cons change rest =>
          have covers : number ≤ change.2 :=
            UInt32.le_trans final (tracks.unfinished change List.mem_cons_self)
          simp [covers]

/-- Two moments of a node, or two nodes, agree about the blocks that are final in both. -/
structure Agree {headers : HeaderCodec Header} (client client' : FullClient Header)
    (chain chain' : NodeChain σ headers) : Prop where
  epochLength : chain.epochLengthBlocks = chain'.epochLengthBlocks
  header : ∀ {n}, n ≤ client.finalizedNumber.toNat → n ≤ client'.finalizedNumber.toNat →
    chain.header n = chain'.header n
  justification : ∀ {n}, n ≤ client.finalizedNumber.toNat → n ≤ client'.finalizedNumber.toNat →
    chain.justification n = chain'.justification n
  proof : ∀ {n key}, n ≤ client.finalizedNumber.toNat → n ≤ client'.finalizedNumber.toNat →
    chain.proof n key = chain'.proof n key
  sets : ∃ history last later later', Tracks history last client later ∧
    Tracks history last client' later'

variable {client' : FullClient Header} {chain' : NodeChain σ primitives.headers}

theorem Agree.symm (agree : Agree client client' chain chain') :
    Agree client' client chain' chain where
  epochLength := agree.epochLength.symm
  header below below' := (agree.header below' below).symm
  justification below below' := (agree.justification below' below).symm
  proof below below' := (agree.proof below' below).symm
  sets := by
    obtain ⟨history, last, later, later', tracks, tracks'⟩ := agree.sets
    exact ⟨history, last, later', later, tracks', tracks⟩

theorem Agree.stagedAt (agree : Agree client client' chain chain') :
    chain.stagedAt epochId = chain'.stagedAt epochId := by
  rw [NodeChain.stagedAt, NodeChain.stagedAt, NodeChain.epochLength,
    NodeChain.epochLength, agree.epochLength]

theorem Agree.first_le (agree : Agree client client' chain chain') {proof proof' : Nat}
    {justification justification' : Bytes}
    (first : chain.FirstJustified epochId proof justification)
    (first' : chain'.FirstJustified epochId proof' justification')
    (final : proof ≤ client.finalizedNumber.toNat)
    (final' : proof ≤ client'.finalizedNumber.toNat) : proof' ≤ proof := by
  by_contra later
  have none' := first'.earliest proof (agree.stagedAt ▸ first.above) (by omega)
  rw [← agree.justification final final', first.justified] at none'
  cases none'

theorem Agree.proof_eq (agree : Agree client client' chain chain') {proof proof' : Nat}
    {justification justification' : Bytes}
    (first : chain.FirstJustified epochId proof justification)
    (first' : chain'.FirstJustified epochId proof' justification')
    (final : proof ≤ client.finalizedNumber.toNat)
    (final' : proof' ≤ client'.finalizedNumber.toNat) : proof = proof' := by
  rcases Nat.le_total client.finalizedNumber.toNat client'.finalizedNumber.toNat with less | more
  · have below := agree.first_le first first' final (Nat.le_trans final less)
    exact Nat.le_antisymm (agree.symm.first_le first' first final' (Nat.le_trans below final)) below
  · have below := agree.symm.first_le first' first final' (Nat.le_trans final' more)
    exact Nat.le_antisymm below (agree.first_le first first' final (Nat.le_trans below final'))

theorem Agree.bundle_eq (agree : Agree client client' chain chain') {proof : Nat}
    {justification : Bytes} {setId : UInt64} (above : chain.stagedAt epochId ≤ proof)
    (final : proof ≤ client.finalizedNumber.toNat)
    (final' : proof ≤ client'.finalizedNumber.toNat) :
    chain.bundle primitives epochId proof justification setId =
      chain'.bundle primitives epochId proof justification setId := by
  have ancestry :
      ((List.range' (chain.stagedAt epochId + 1) (proof - chain.stagedAt epochId)).map fun n =>
        primitives.headers.encode (chain.header n)) =
      (List.range' (chain.stagedAt epochId + 1) (proof - chain.stagedAt epochId)).map fun n =>
        primitives.headers.encode (chain'.header n) := by
    refine List.map_congr_left fun n inside => ?_
    rw [List.mem_range'_1] at inside
    rw [agree.header (by omega) (by omega)]
  rw [NodeChain.bundle, NodeChain.bundle, ancestry, ← agree.stagedAt, NodeChain.hash,
    NodeChain.hash, NodeChain.hash, NodeChain.hash, agree.header (Nat.le_trans above final)
    (Nat.le_trans above final'), agree.header final final',
    agree.proof final final']

/-- Certificates are stable. Two truthful nodes, or one node at two moments with any requests
failing in between, give the same certificate for an epoch if they give one, provided they agree
about finalized blocks. -/
theorem certificate_stable {build' : Build}
    (answers : Answers primitives blake2 config client chain)
    (answers' : Answers primitives blake2 config client' chain')
    (agree : Agree client client' chain chain') {readiness readiness' : CertificationReadiness}
    {bundle bundle' : SummaryCertificationBundle}
    (answered : certificationReadiness primitives build client epochId = .ok readiness)
    (answered' : certificationReadiness primitives build' client' epochId = .ok readiness')
    (ready : readiness.state = .ready bundle) (ready' : readiness'.state = .ready bundle') :
    bundle = bundle' := by
  obtain ⟨proof, justification, _, first, final, _, _, rfl⟩ := answers.certificate answered ready
  obtain ⟨proof', justification', _, first', final', _, _, rfl⟩ :=
    answers'.certificate answered' ready'
  obtain rfl := agree.proof_eq first first' final final'
  have same : justification = justification' := by
    have justified := agree.justification final final'
    rw [first.justified, first'.justified] at justified
    exact Option.some.inj justified
  obtain ⟨history, last, later, later', tracks, tracks'⟩ := agree.sets
  have number : (UInt32.ofNat proof).toNat = proof :=
    UInt32.toNat_ofNat_of_lt' (Nat.lt_of_le_of_lt final client.finalizedNumber.toNat_lt)
  have set := tracks.setId (UInt32.le_iff_toNat_le.mpr (number.symm ▸ final))
  have set' := tracks'.setId (UInt32.le_iff_toNat_le.mpr (number.symm ▸ final'))
  rw [same, set, set', agree.bundle_eq first.above final final']

end Stability

section Acceptance

variable {σ Header Justification Authority : Type} {primitives : Primitives Header}
  {blake2 : Bytes → Hash32} {config : Config σ} {client : FullClient Header}
  {chain : NodeChain σ primitives.headers} {build : Build} {epochId : EpochId}

theorem linkedFrom_range {headers : HeaderCodec Header} {header : Nat → Header} (first count : Nat)
    (numbered : ∀ n ≤ first + count, (headers.number (header n)).toNat = n)
    (linked : ∀ n < first + count, headers.parentHash (header (n + 1)) = headers.hash (header n)) :
    LinkedFrom headers (headers.hash (header first)) first
        ((List.range' (first + 1) count).map fun n => headers.encode (header n))
        ((List.range' (first + 1) count).map header) ∧
      (headers.hash (header first) :: ((List.range' (first + 1) count).map header).map
        headers.hash)[count]? =
        some (headers.hash (header (first + count))) := by
  induction count generalizing first with
  | zero => exact ⟨.nil, rfl⟩
  | succ count ih =>
      obtain ⟨above, last⟩ := ih (first + 1) (fun n within => numbered n (by omega))
        (fun n within => linked n (by omega))
      rw [List.range'_succ, List.map_cons, List.map_cons]
      refine ⟨linkedFrom_cons_iff.mpr ⟨headers.decode_encode _, linked first (by omega),
        numbered _ (by omega), above⟩, ?_⟩
      rw [List.map_cons, List.getElem?_cons_succ, last]
      congr 3
      omega

theorem NodeChain.linkedBundle {proof : Nat} {justification : Bytes} {setId : UInt64}
    (above : chain.stagedAt epochId ≤ proof) (within : proof ≤ chain.blocks.length)
    {certificate : GrandpaFinalityCertificate}
    (certified : (chain.bundle primitives epochId proof justification setId).certificate =
      .grandpaV1 certificate) :
    Linked primitives.headers certificate := by
  have staged := chain.toNat_ofNat (Nat.le_trans above within)
  have number := chain.toNat_ofNat within
  cases certified
  have reaches : chain.stagedAt epochId + (proof - chain.stagedAt epochId) = proof :=
    Nat.add_sub_cancel' above
  obtain ⟨linked, last⟩ :=
    linkedFrom_range (chain.stagedAt epochId) (proof - chain.stagedAt epochId)
    (fun n below => chain.numbered n (by omega)) (fun n below => chain.linked n (by omega))
  rw [reaches] at last
  refine ⟨(List.range' (chain.stagedAt epochId + 1) (proof - chain.stagedAt epochId)).map
    chain.header, ?_, ?_, ?_⟩
  · rw [staged]
    exact linked
  · rw [List.length_map, List.length_range']
    exact last
  · rw [List.length_map, List.length_range', staged]
    exact reaches.trans number.symm

/-- The authorities have signed the justifications of the chain's finalized blocks, each with the
set the node finds for its block. -/
def SignedBy {headers : HeaderCodec Header} (client : FullClient Header)
    (chain : NodeChain σ headers) (grandpa : Grandpa Justification Authority)
    (authorities : List (Authority × UInt64)) : Prop :=
  ∀ n ≤ client.finalizedNumber.toNat, ∀ justification, chain.justification n = some justification →
    ∃ decoded, grandpa.decode justification = .ok decoded ∧
      grandpa.targetHash decoded = chain.hash n ∧
      grandpa.targetNumber decoded = UInt32.ofNat n ∧
      grandpa.verify decoded (grandpaSetIdForBlock client (UInt32.ofNat n)) authorities = .ok ()

/-- The importer accepts the certificates of a truthful node: a package with the summary of the best
block, a certificate the node gave for the epoch and any further proofs passes the checks of its
certificate. -/
theorem certificate_accepted (answers : Answers primitives blake2 config client chain)
    (hash : Bytes → Hash32) (codec : PackageCodec) (grandpa : Grandpa Justification Authority)
    (loadSeeds : DomainId → Except String (List String)) {seeds : List String}
    {authorities : List (Authority × UInt64)} (loaded : loadSeeds config.domainId = .ok seeds)
    (derived : grandpaAuthorities grandpa seeds = .ok authorities)
    (signed : SignedBy client chain grandpa authorities) {readiness : CertificationReadiness}
    {bundle : SummaryCertificationBundle} {summary : EpochSummaryHeader}
    (answered : certificationReadiness primitives build client epochId = .ok readiness)
    (ready : readiness.state = .ready bundle)
    (stored : (chain.stateAt blake2 config chain.blocks.length).summaryHeaders epochId =
      some summary)
    (items : VerifiedPackageItems) (importer : Build) :
    verifyCertification primitives codec importer grandpa loadSeeds
      (packageOf hash codec summary bundle items) =
      .ok () := by
  obtain ⟨proof, justification, found, first, final, here, checked, rfl⟩ :=
    answers.certificate answered ready
  have within : proof ≤ chain.blocks.length := Nat.le_trans final answers.finalized
  cases stored.symm.trans here
  obtain ⟨_, slot, closed⟩ : ∃ header slot, ClosedEpoch blake2 config chain.epochLength chain.blocks
      (chain.stateAt blake2 config chain.blocks.length) epochId header slot :=
    NodeChain.closedEpoch (le_refl _) (Nat.le_trans first.above within)
  cases stored.symm.trans closed.headerStored
  obtain ⟨decoded, decodes, hashed, numbered, verified⟩ :=
    signed proof final justification first.justified
  refine (verifyCertification_eq_ok rfl).mpr ⟨?_, verifyAncestryChain_linked
    (NodeChain.linkedBundle first.above within rfl) importer, seeds, authorities, decoded, ?_,
    derived, decodes, hashed,
    numbered, verified⟩
  · refine ⟨(chain.bundle primitives epochId proof justification
      (grandpaSetIdForBlock client (UInt32.ofNat proof))).summaryHeaderStorageProof,
      chain.header proof, rfl, ?_, rfl, rfl,
      primitives.headers.decode_encode _, rfl, ?_, ?_, checked⟩
    · rw [packageOf_inclusionProofs]
      exact ⟨_, rfl, codec.proof.decode_encode _⟩
    · rw [← UInt32.toNat_inj, chain.numbered proof within]
      exact (chain.toNat_ofNat within).symm
    · exact congrArg (summaryHeaderStorageKey primitives.hashers) closed.epochId.symm
  · exact closed.domainId ▸ loaded

end Acceptance

section Verdict

variable {σ Header : Type} {primitives : Primitives Header} {blake2 : Bytes → Hash32}
  {config : Config σ} {client : FullClient Header} {chain : NodeChain σ primitives.headers}
  {build : Build} {epochId : EpochId}

variable (primitives client chain epochId) in
inductive Verdict : SummaryCertificationState → Prop where
  | unfinalized (later : client.finalizedNumber.toNat < chain.stagedAt epochId) :
      Verdict (.pending .targetBlockNotFinalized)
  | unjustified (final : chain.stagedAt epochId ≤ client.finalizedNumber.toNat)
      (none' : ∀ n, chain.stagedAt epochId ≤ n → n ≤ client.finalizedNumber.toNat →
        chain.justification n = none) :
      Verdict (.pending .noJustifiedDescendantYet)
  | certified (proof : Nat) (justification : Bytes)
      (first : chain.FirstJustified epochId proof justification)
      (final : proof ≤ client.finalizedNumber.toNat) :
      Verdict (.ready (chain.bundle primitives epochId proof justification
        (grandpaSetIdForBlock client (UInt32.ofNat proof))))

namespace Serves

variable (serves : Serves primitives blake2 config client chain)
include serves

theorem hash_eq {n : Nat} (within : n ≤ chain.blocks.length) :
    client.hash (UInt32.ofNat n) = .ok (some (chain.hash n)) := by
  have number := chain.toNat_ofNat within
  obtain ⟨found, answered⟩ := serves.hashes (number.symm ▸ within)
  rw [answered, serves.hash (number.symm ▸ within) answered, number]

theorem header_eq {n : Nat} (within : n ≤ chain.blocks.length) :
    client.header (chain.hash n) = .ok (some (chain.header n)) := by
  obtain ⟨found, answered⟩ := serves.headers within
  rw [answered, serves.header within answered]

theorem summary_eq (epochId : EpochId) {n : Nat} (within : n ≤ chain.blocks.length) :
    client.storage (chain.hash n) (summaryHeaderStorageKey primitives.hashers epochId) =
      .ok (((chain.stateAt blake2 config n).summaryHeaders epochId).map encode) := by
  obtain ⟨found, answered⟩ := serves.storage within
  rw [answered, serves.summary within answered]

theorem slot_eq (epochId : EpochId) {n : Nat} (within : n ≤ chain.blocks.length) :
    client.storage (chain.hash n) (summarySlotStorageKey primitives.hashers epochId) =
      .ok (((chain.stateAt blake2 config n).summarySlots epochId).map primitives.slots.encode) := by
  obtain ⟨found, answered⟩ := serves.storage within
  rw [answered, serves.slot within answered]

theorem proof_eq {n : Nat} {key : Bytes} (within : n ≤ chain.blocks.length) :
    client.readProof (chain.hash n) key = .ok (chain.proof n key) := by
  obtain ⟨found, answered⟩ := serves.proofs within
  rw [answered, serves.proof within answered]

theorem justifiedBy {n : Nat} (final : n ≤ client.finalizedNumber.toNat) :
    client.JustifiedBy (chain.hash n) (chain.justification n) := by
  obtain ⟨found, answered⟩ := serves.justifications final
  have justified : client.JustifiedBy (chain.hash n) (found.bind extractGrandpaJustification) :=
    ⟨found, answered, rfl⟩
  rwa [← serves.justification final justified]

theorem unjustified {number : UInt32} (final : number ≤ client.finalizedNumber)
    (none' : chain.justification number.toNat = none) : client.Unjustified number := by
  have below := UInt32.le_iff_toNat_le.mp final
  have hashed := serves.hash_eq (Nat.le_trans below serves.finalized)
  rw [UInt32.ofNat_toNat] at hashed
  exact .inr ⟨_, hashed, none' ▸ serves.justifiedBy below⟩

theorem stagedBlock_eq (closed : chain.stagedAt epochId ≤ chain.blocks.length) :
    stagedBlock primitives client epochId = .ok (UInt32.ofNat (chain.stagedAt epochId)) := by
  obtain ⟨_, slot, epoch⟩ : ∃ header slot, ClosedEpoch blake2 config chain.epochLength chain.blocks
      (chain.stateAt blake2 config chain.blocks.length) epochId header slot :=
    NodeChain.closedEpoch (le_refl _) closed
  refine stagedBlock_eq_ok.mpr ⟨_, slot, ?_, primitives.slots.decode_encode slot,
    epoch.slotStatus, ?_⟩
  · rw [serves.best, serves.slot_eq epochId (le_refl _), epoch.slotStored]
    rfl
  · obtain ⟨block, found, at'⟩ := Option.map_eq_some_iff.mp epoch.stagedAt
    rw [found, ← UInt32.ofNat_toNat (x := block), at']
    rfl

theorem ancestryHeaders_eq {target proof : Nat} (ordered : target ≤ proof)
    (within : proof ≤ chain.blocks.length) :
    ancestryHeaders primitives.headers build (client.chain primitives) (UInt32.ofNat target)
    (UInt32.ofNat proof) =
      .ok ((List.range' (target + 1) (proof - target)).map fun n =>
        primitives.headers.encode (chain.header n)) := by
  have short := chain.short
  have first := chain.toNat_ofNat (Nat.le_trans ordered within)
  have last := chain.toNat_ofNat within
  have known : ∀ number ≤ chain.blocks.length,
      (client.chain primitives).hash (UInt32.ofNat number) =
        .ok (some (primitives.headers.hash (chain.header number))) ∧
        (client.chain primitives).header (primitives.headers.hash (chain.header number)) =
          .ok (some (chain.header number)) := by
    intro number below
    simp only [FullClient.chain, serves.hash_eq below, Except.mapError]
    exact ⟨rfl, by rw [← NodeChain.hash, serves.header_eq below]⟩
  rw [ancestryHeaders_eq_ok (by omega) fun number _ below => known number (by omega), first, last]

theorem certifies (build : Build) {proof : Nat} {justification : Bytes}
    (first : chain.FirstJustified epochId proof justification)
    (final : proof ≤ client.finalizedNumber.toNat) :
    ∃ value, Certifies primitives build client epochId (UInt32.ofNat (chain.stagedAt epochId))
      (chain.hash (chain.stagedAt epochId))
      { proofBlockNumber := UInt32.ofNat proof
        proofBlockHash := chain.hash proof
        justification
        ancestryHeaders :=
          (List.range' (chain.stagedAt epochId + 1) (proof - chain.stagedAt epochId)).map fun n =>
          primitives.headers.encode (chain.header n) }
      (chain.header proof) (chain.proof proof (summaryHeaderStorageKey primitives.hashers epochId))
        value := by
  have within : proof ≤ chain.blocks.length := Nat.le_trans final serves.finalized
  have above := first.above
  have staged := chain.toNat_ofNat (Nat.le_trans above within)
  have number := chain.toNat_ofNat within
  -- the summary is in the state of the proof block, and the best block still has it
  obtain ⟨summary, _, closed⟩ :
      ∃ header slot, ClosedEpoch blake2 config chain.epochLength chain.blocks
      (chain.stateAt blake2 config proof) epochId header slot := NodeChain.closedEpoch within above
  have proved := serves.summary_eq epochId within
  have best := serves.summary_eq epochId (le_refl chain.blocks.length)
  rw [closed.headerStored] at proved
  rw [NodeChain.header_kept above within (le_refl _) closed.headerStored, ← serves.best] at best
  refine ⟨encode summary, serves.stagedBlock_eq (Nat.le_trans above within),
    serves.hash_eq (Nat.le_trans above within), ?_, ?_, ?_, serves.hash_eq within, ?_,
    serves.ancestryHeaders_eq above within, best, proved, serves.proof_eq within,
    serves.header_eq within, rfl, serves.proved within proved⟩
  · rwa [UInt32.le_iff_toNat_le, staged, number]
  · rwa [UInt32.le_iff_toNat_le, number]
  · intro other from' before
    rw [UInt32.le_iff_toNat_le, staged] at from'
    rw [UInt32.lt_iff_toNat_lt, number] at before
    exact serves.unjustified (UInt32.le_iff_toNat_le.mpr (by omega)) (first.earliest _ from' before)
  · exact first.justified ▸ serves.justifiedBy final

theorem closed_answer (closed : chain.stagedAt epochId ≤ chain.blocks.length) :
    ∃ state, Verdict primitives client chain epochId state ∧
      certificationReadiness primitives build client epochId = .ok {
        epochId
        stagedAtBlockNumber := UInt32.ofNat (chain.stagedAt epochId)
        stagedAtBlockHash := chain.hash (chain.stagedAt epochId)
        latestFinalizedBlockNumber := client.finalizedNumber
        latestFinalizedBlockHash := client.finalizedHash
        state } := by
  have staged := chain.toNat_ofNat closed
  have answer {state : SummaryCertificationState}
      (found : certificationState primitives build client epochId
      (UInt32.ofNat (chain.stagedAt epochId)) (chain.hash (chain.stagedAt epochId)) = .ok state) :
      certificationReadiness primitives build client epochId = .ok {
        epochId
        stagedAtBlockNumber := UInt32.ofNat (chain.stagedAt epochId)
        stagedAtBlockHash := chain.hash (chain.stagedAt epochId)
        latestFinalizedBlockNumber := client.finalizedNumber
        latestFinalizedBlockHash := client.finalizedHash
        state } := by
    rw [certificationReadiness, serves.stagedBlock_eq closed, ok_bind, clientError,
      serves.hash_eq closed]
    simp only [Except.mapError, ok_bind, found]
    rfl
  by_cases final : chain.stagedAt epochId ≤ client.finalizedNumber.toNat
  · by_cases justified : ∃ n, (chain.stagedAt epochId ≤ n ∧ n ≤ client.finalizedNumber.toNat) ∧
        (chain.justification n).isSome
    · -- the least such block is the one the node finds
      obtain ⟨⟨above, below⟩, found⟩ := Nat.find_spec justified
      obtain ⟨justification, found⟩ := Option.isSome_iff_exists.mp found
      have first : chain.FirstJustified epochId (Nat.find justified) justification := by
        refine ⟨above, found, ?_⟩
        intro n from' before
        have none' := Nat.find_min justified before
        rw [not_and, Option.not_isSome_iff_eq_none] at none'
        exact none' ⟨from', by omega⟩
      obtain ⟨value, certifies⟩ := serves.certifies build first below
      obtain ⟨answered, _⟩ :=
        certificationReadiness_ready.mpr ⟨_, _, _, _, _, _, certifies, rfl, rfl⟩
      exact ⟨_, .certified _ justification first below, answered⟩
    · refine ⟨_, .unjustified final ?_, answer ?_⟩
      · intro n above below
        by_contra found
        exact justified ⟨n, ⟨above, below⟩, Option.isSome_iff_ne_none.mpr found⟩
      · have searched : findEarliestJustifiedDescendant primitives client
          (UInt32.ofNat (chain.stagedAt epochId))
            client.finalizedNumber = .ok none := by
          refine findEarliestJustifiedDescendant_eq_none.mpr fun number above below =>
            serves.unjustified below ?_
          rw [UInt32.le_iff_toNat_le, staged] at above
          by_contra found
          exact justified ⟨_, ⟨above, UInt32.le_iff_toNat_le.mp below⟩,
            Option.isSome_iff_ne_none.mpr found⟩
        have here : ¬ client.finalizedNumber < UInt32.ofNat (chain.stagedAt epochId) := by
          rw [UInt32.lt_iff_toNat_lt, staged]
          omega
        rw [certificationState, if_neg here, searched, ok_bind]
        rfl
  · refine ⟨_, .unfinalized (by omega), answer ?_⟩
    have here : client.finalizedNumber < UInt32.ofNat (chain.stagedAt epochId) := by
      rw [UInt32.lt_iff_toNat_lt, staged]
      omega
    rw [certificationState, if_pos here]

theorem open_answer (later : chain.blocks.length < chain.stagedAt epochId) :
    certificationReadiness primitives build client epochId = .error (.rejected (invalidParams
      (if epochId = (chain.stateAt blake2 config chain.blocks.length).currentEpoch then
        "epoch " ++ toString epochId.toNat ++ " is not staged yet (current status: " ++
          "Reserved" ++ ")"
      else "epoch " ++ toString epochId.toNat ++ " does not have a staged slot"))) := by
  have unclosed : ¬ epochId < (chain.stateAt blake2 config chain.blocks.length).currentEpoch := by
    rw [NodeChain.closed_iff chain.started (le_refl _)]
    omega
  have stored := serves.slot_eq epochId (le_refl chain.blocks.length)
  rw [← serves.best] at stored
  rw [certificationReadiness, stagedBlock, decodeSlot, clientError, stored]
  split
  · rename_i here
    have tiled : Tiled blake2 config chain.epochLength chain.blocks chain.blocks.length
        (chain.stateAt blake2 config chain.blocks.length) :=
          NodeChain.tiled chain.started (le_refl _)
    obtain ⟨slot, opened, reserved, _⟩ := tiled.openSlot
    rw [here, opened]
    simp only [Option.map_some, Except.mapError, ok_bind, primitives.slots.decode_encode]
    simp [okOr, ensure, reserved, slotStatusName, pure, Except.pure, bind, Except.bind]
  · rename_i other
    have ahead : (chain.stateAt blake2 config chain.blocks.length).currentEpoch < epochId :=
      UInt64.lt_of_le_of_ne (UInt64.not_lt.mp unclosed) (Ne.symm other)
    have none' := runBlocks_noneAhead blake2 config chain.epochLengthBlocks chain.rest
      (Nat.lt_of_succ_lt chain.short) chain.started (le_refl _) epochId ahead
    rw [NodeChain.stateAt, none']
    rfl

end Serves

variable (serves : Serves primitives blake2 config client chain)
include serves

/-- What a node that answers every request says about an epoch is determined by its chain. A closed
epoch is pending while the block that staged its summary is not final or no block from it on is
justified, and has its certificate from the first justified block otherwise; nothing else keeps it
pending. For an epoch that is not closed the request is refused. -/
theorem readiness_exact (build : Build) (epochId : EpochId) :
    (chain.stagedAt epochId ≤ chain.blocks.length → ∃ state,
      Verdict primitives client chain epochId state ∧
      certificationReadiness primitives build client epochId = .ok {
        epochId
        stagedAtBlockNumber := UInt32.ofNat (chain.stagedAt epochId)
        stagedAtBlockHash := chain.hash (chain.stagedAt epochId)
        latestFinalizedBlockNumber := client.finalizedNumber
        latestFinalizedBlockHash := client.finalizedHash
        state }) ∧
    (chain.blocks.length < chain.stagedAt epochId →
      certificationReadiness primitives build client epochId = .error (.rejected (invalidParams
        (if epochId = (chain.stateAt blake2 config chain.blocks.length).currentEpoch then
          "epoch " ++ toString epochId.toNat ++ " is not staged yet (current status: " ++
            "Reserved" ++ ")"
        else "epoch " ++ toString epochId.toNat ++ " does not have a staged slot")))) :=
  ⟨serves.closed_answer, serves.open_answer⟩

end Verdict

section Node

variable {σ Header : Type}

section Entries

variable {headers : HeaderCodec Header} (chain : NodeChain σ headers)

def NodeChain.numberOf (hash : Hash32) : Option Nat :=
  (List.range (chain.blocks.length + 1)).find? fun n => chain.hash n = hash

def NodeChain.entries (blake2 : Bytes → Hash32) (config : Config σ)
    (slots : Codec SummarySlotRecord) (n : Nat) : (item : StorageItem) → item.Key → Option Bytes
  | .summaryHeaders, epochId => ((chain.stateAt blake2 config n).summaryHeaders epochId).map encode
  | .summarySlots, epochId =>
      ((chain.stateAt blake2 config n).summarySlots epochId).map slots.encode
  | _, _ => none

def NodeChain.Distinct : Prop := Set.InjOn chain.hash {n | n ≤ chain.blocks.length}

variable {chain}

theorem NodeChain.numberOf_hash (distinct : chain.Distinct) {n : Nat}
    (within : n ≤ chain.blocks.length) : chain.numberOf (chain.hash n) = some n := by
  have known : ((List.range (chain.blocks.length + 1)).find? fun m =>
      chain.hash m = chain.hash n).isSome := by
    rw [List.find?_isSome]
    exact ⟨n, List.mem_range.mpr (by omega), by simp⟩
  obtain ⟨m, found⟩ := Option.isSome_iff_exists.mp known
  have same : chain.hash m = chain.hash n := by simpa using List.find?_some found
  have below : m ≤ chain.blocks.length := by
    have member := List.mem_range.mp (List.mem_of_find?_eq_some found)
    omega
  rw [NodeChain.numberOf, found, distinct below within same]

end Entries

variable (primitives : Primitives Header) (blake2 : Bytes → Hash32) (config : Config σ)
  (chain : NodeChain σ primitives.headers)

noncomputable def NodeChain.node (finalized : UInt32) : FullClient Header where
  bestHash := chain.hash chain.blocks.length
  finalizedHash := chain.hash finalized.toNat
  finalizedNumber := finalized
  hash number := .ok (if number.toNat ≤ chain.blocks.length then
    some (chain.hash number.toNat) else none)
  header hash := .ok ((chain.numberOf hash).map chain.header)
  storage hash key := .ok ((chain.numberOf hash).bind fun n =>
    StorageItem.flat primitives.hashers (chain.entries blake2 config primitives.slots n) key)
  readProof hash key := .ok (((chain.numberOf hash).map fun n => chain.proof n key).getD [])
  justifications hash :=
    .ok (((chain.numberOf hash).bind chain.justification).map fun justification =>
    [(grandpaEngineId, justification)])
  setId := 0
  authoritySetChanges := some []

variable {primitives blake2 config chain}

theorem NodeChain.node_serves (distinct : chain.Distinct)
    (keys : Set.InjOn primitives.hashers.twox128 StorageItem.names) {finalized : UInt32}
    (final : finalized.toNat ≤ chain.blocks.length)
    (proved : ∀ {n key}, n ≤ chain.blocks.length →
      primitives.readProofCheck (primitives.stateRoot (chain.header n)) (chain.proof n key) key =
        .ok (StorageItem.flat primitives.hashers (chain.entries blake2 config primitives.slots n)
          key)) :
    Serves primitives blake2 config (chain.node primitives blake2 config finalized) chain where
  finalized := final
  best := rfl
  hash within answered := by
    rw [← Except.ok.inj answered, if_pos within]
  header within answered := by
    rw [← Except.ok.inj answered, numberOf_hash distinct within]
    rfl
  summary within answered := by
    rw [← Except.ok.inj answered, numberOf_hash distinct within]
    exact StorageItem.flat_storageKey keys _ .summaryHeaders _
  slot within answered := by
    rw [← Except.ok.inj answered, numberOf_hash distinct within]
    exact StorageItem.flat_storageKey keys _ .summarySlots _
  proof within answered := by
    rw [← Except.ok.inj answered, numberOf_hash distinct within]
    rfl
  justification {n found} below answered := by
    obtain ⟨justifications, answered, extracted⟩ := answered
    rw [← extracted, ← Except.ok.inj answered, numberOf_hash distinct (Nat.le_trans below final),
      Option.bind_some]
    cases chain.justification n with
    | none => rfl
    | some justification => simp [extractGrandpaJustification]
  hashes _ := ⟨_, rfl⟩
  headers _ := ⟨_, rfl⟩
  storage _ := ⟨_, rfl⟩
  proofs _ := ⟨_, rfl⟩
  justifications _ := ⟨_, rfl⟩
  proved within answered := by
    have stored := Except.ok.inj answered
    rw [numberOf_hash distinct within, Option.bind_some] at stored
    rw [proved within, stored]

end Node

section Sample

/-- Blocks with one-byte headers and epochs of one block. Every third block has a justification. -/
def byteChain (count : Nat) (started : 1 ≤ count) (few : count ≤ 8) :
    NodeChain Unit byteHeaders where
  epochLengthBlocks := 1
  rest := ()
  blocks := List.replicate count sampleBlock
  header := UInt8.ofNat
  justification n := if 3 ∣ n then some [UInt8.ofNat n] else none
  proof _ _ := []
  started := by simpa using started
  short := by rw [List.length_replicate]; omega
  numbered n within := by
    rw [List.length_replicate] at within
    change (UInt8.ofNat n).toUInt32.toNat = n
    rw [UInt8.toNat_toUInt32, UInt8.toNat_ofNat']
    omega
  linked n within := by
    have before : UInt8.ofNat (n + 1) - 1 = UInt8.ofNat n := by
      rw [UInt8.ofNat_add]
      exact UInt8.add_sub_cancel _ _
    change sampleHash [UInt8.ofNat (n + 1) - 1] = sampleHash [UInt8.ofNat n]
    rw [before]

theorem byteChain_distinct {count : Nat} {started : 1 ≤ count} {few : count ≤ 8} :
    (byteChain count started few).Distinct := by
  intro n within n' within' same
  have bytes : UInt8.ofNat n = UInt8.ofNat n' := byteHash_injective same
  have numbers := congrArg UInt8.toNat bytes
  rw [Set.mem_ofPred_eq, byteChain, List.length_replicate] at within within'
  rw [UInt8.toNat_ofNat', UInt8.toNat_ofNat'] at numbers
  omega

def fullChain : NodeChain Unit byteHeaders := byteChain 8 (by decide) (by decide)

theorem byteChain_stateAt {count n : Nat} {started : 1 ≤ count} {few : count ≤ 8}
    (within : n ≤ count) : (byteChain count started few).stateAt sampleHash sampleConfig n =
      fullChain.stateAt sampleHash sampleConfig n := by
  have short : n ≤ 8 := Nat.le_trans within few
  change (runBlocks _ _ _ _ ((List.replicate count sampleBlock).take n)).epochs =
    (runBlocks _ _ _ _ ((List.replicate 8 sampleBlock).take n)).epochs
  rw [List.take_replicate, List.take_replicate, min_eq_left within, min_eq_left short]
  rfl

/-- The root of a block is its hash; a storage proof is empty, and its check looks up the block. -/
noncomputable def bytePrimitives : Primitives UInt8 where
  headers := byteHeaders
  stateRoot := byteHeaders.hash
  slots := .ofCountable _
  hashers := StorageItem.sampleHashers
  readProofCheck root _ key := .ok ((fullChain.numberOf root).bind fun n =>
    StorageItem.flat StorageItem.sampleHashers
      (fullChain.entries sampleHash sampleConfig (.ofCountable _) n) key)
  display _ := "client error"

variable {count : Nat} {started : 1 ≤ count} {few : count ≤ 8}

theorem byteProved {n : Nat} (key : Bytes) (nodes : List Bytes) (within : n ≤ count) :
    bytePrimitives.readProofCheck (byteHeaders.hash (UInt8.ofNat n)) nodes key =
      .ok (StorageItem.flat StorageItem.sampleHashers
        ((byteChain count started few).entries sampleHash sampleConfig bytePrimitives.slots n)
          key) := by
  have found : fullChain.numberOf (fullChain.hash n) = some n :=
    NodeChain.numberOf_hash byteChain_distinct (Nat.le_trans within few)
  change Except.ok ((fullChain.numberOf (fullChain.hash n)).bind _) = _
  rw [found, Option.bind_some]
  congr 2
  funext item entry
  cases item with
  | summaryHeaders | summarySlots =>
      simp only [NodeChain.entries, byteChain_stateAt within, bytePrimitives]
  | _ => rfl

noncomputable def byteNode (chain : NodeChain Unit byteHeaders) (finalized : UInt32) :
    FullClient UInt8 :=
  NodeChain.node bytePrimitives sampleHash sampleConfig chain finalized

theorem byteServes {finalized : UInt32} (final : finalized.toNat ≤ count) :
    Serves bytePrimitives sampleHash sampleConfig (byteNode (byteChain count started few) finalized)
      (byteChain count started few) := by
  have length : (byteChain count started few).blocks.length = count := List.length_replicate
  refine NodeChain.node_serves byteChain_distinct StorageItem.sampleHashers_distinct
    (by rwa [length]) ?_
  intro n key within
  exact byteProved key _ (by rwa [length] at within)

def fourBlocks : NodeChain Unit byteHeaders := byteChain 4 (by decide) (by decide)

def fiveBlocks : NodeChain Unit byteHeaders := byteChain 5 (by decide) (by decide)

theorem fourServes : Serves bytePrimitives sampleHash sampleConfig
    (byteNode fourBlocks 3) fourBlocks :=
  byteServes (by decide)

theorem fiveServes : Serves bytePrimitives sampleHash sampleConfig
    (byteNode fiveBlocks 4) fiveBlocks :=
  byteServes (by decide)

/-- Epoch 0 is certified by block 3, epoch 2 waits for block 4, and epoch 3 is open. -/
theorem readiness_exact_sample :
    (∃ readiness bundle, certificationReadiness bytePrimitives .checked (byteNode fourBlocks 3) 0 =
      .ok readiness ∧
      readiness.state = .ready bundle) ∧
    (∃ readiness, certificationReadiness bytePrimitives .checked (byteNode fourBlocks 3) 2 =
      .ok readiness ∧
      readiness.state = .pending .targetBlockNotFinalized) ∧
    ∃ refusal, certificationReadiness bytePrimitives .checked (byteNode fourBlocks 3) 3 =
      .error refusal := by
  refine ⟨?_, ?_, ?_⟩
  · obtain ⟨state, verdict, answered⟩ := (readiness_exact fourServes .checked 0).1 (by decide)
    cases verdict with
    | unfinalized later => exact absurd later (by decide)
    | unjustified final none' => exact absurd (none' 3 (by decide) (by decide)) (by decide)
    | certified proof justification first final => exact ⟨_, _, answered, rfl⟩
  · obtain ⟨state, verdict, answered⟩ := (readiness_exact fourServes .checked 2).1 (by decide)
    cases verdict with
    | unfinalized later => exact ⟨_, answered, rfl⟩
    | unjustified final none' => exact absurd final (by decide)
    | certified proof justification first final =>
        exact absurd (Nat.le_trans first.above final) (by decide)
  · exact ⟨_, (readiness_exact fourServes .checked 3).2 (by decide)⟩

theorem certified_of_serves {chain : NodeChain Unit byteHeaders}
    {client : FullClient UInt8} (build : Build)
    (serves : Serves bytePrimitives sampleHash sampleConfig client chain)
    (closed : chain.stagedAt 0 ≤ chain.blocks.length) {n : Nat} (above : chain.stagedAt 0 ≤ n)
    (final : n ≤ client.finalizedNumber.toNat) (justified : chain.justification n ≠ none) :
    ∃ readiness bundle, certificationReadiness bytePrimitives build client 0 = .ok readiness ∧
      readiness.state = .ready bundle := by
  obtain ⟨state, verdict, answered⟩ := serves.closed_answer closed
  cases verdict with
  | unfinalized later => exact absurd (Nat.le_trans above final) (Nat.not_le_of_lt later)
  | unjustified _ none' => exact absurd (none' n above final) justified
  | certified => exact ⟨_, _, answered, rfl⟩

theorem fourReady (build : Build) : ∃ readiness bundle,
    certificationReadiness bytePrimitives build (byteNode fourBlocks 3) 0 = .ok readiness ∧
      readiness.state = .ready bundle :=
  certified_of_serves build fourServes (by decide) (n := 3) (by decide) (by decide) (by decide)

theorem fiveReady (build : Build) : ∃ readiness bundle,
    certificationReadiness bytePrimitives build (byteNode fiveBlocks 4) 0 = .ok readiness ∧
      readiness.state = .ready bundle :=
  certified_of_serves build fiveServes (by decide) (n := 3) (by decide) (by decide) (by decide)

theorem certificate_stable_sample : ∃ readiness readiness' bundle,
    certificationReadiness bytePrimitives .checked (byteNode fourBlocks 3) 0 = .ok readiness ∧
      certificationReadiness bytePrimitives .wrapping (byteNode fiveBlocks 4) 0 = .ok readiness' ∧
      readiness.state = .ready bundle ∧ readiness'.state = .ready bundle := by
  obtain ⟨readiness, bundle, answered, ready⟩ := fourReady .checked
  obtain ⟨readiness', bundle', answered', ready'⟩ := fiveReady .wrapping
  have tracks (chain : NodeChain Unit byteHeaders) (finalized : UInt32) :
      Tracks [] 0 (byteNode chain finalized) [] :=
    ⟨rfl, rfl, by simp⟩
  have agree : Agree (byteNode fourBlocks 3) (byteNode fiveBlocks 4) fourBlocks fiveBlocks :=
    ⟨rfl, fun _ _ => rfl, fun _ _ => rfl, fun _ _ => rfl, [], 0, [], [], tracks _ _, tracks _ _⟩
  have same := certificate_stable fourServes.toAnswers fiveServes.toAnswers agree answered
    answered' ready ready'
  exact ⟨readiness, readiness', bundle, answered, answered', ready, same ▸ ready'⟩

theorem fourSigned (authorities : List (String × UInt64)) :
    SignedBy (byteNode fourBlocks 3) fourBlocks byteGrandpa authorities := by
  intro n below justification justified
  have three : n = 0 ∨ n = 1 ∨ n = 2 ∨ n = 3 := by
    change n ≤ 3 at below
    omega
  rcases three with rfl | rfl | rfl | rfl
  · cases justified
    exact ⟨[0], rfl, rfl, rfl, rfl⟩
  · cases justified
  · cases justified
  · cases justified
    exact ⟨[3], rfl, rfl, rfl, rfl⟩

theorem certificate_accepted_sample : ∃ readiness bundle summary,
    certificationReadiness bytePrimitives .checked (byteNode fourBlocks 3) 0 = .ok readiness ∧
      readiness.state = .ready bundle ∧
        (fourBlocks.stateAt sampleHash sampleConfig 4).summaryHeaders 0 = some summary ∧
      verifyCertification bytePrimitives sampleCodec .wrapping byteGrandpa
        (fun _ => .ok ["//Alice"]) (packageOf sampleHash sampleCodec summary bundle ⟨[], [], []⟩) =
          .ok () := by
  obtain ⟨readiness, bundle, answered, ready⟩ := fourReady .checked
  obtain ⟨_, _, summary, _, _, stored, _⟩ := fourServes.toAnswers.certificate answered ready
  exact ⟨readiness, bundle, summary, answered, ready, stored,
    certificate_accepted fourServes.toAnswers sampleHash sampleCodec byteGrandpa (fun _ =>
      .ok ["//Alice"]) rfl rfl (fourSigned _) answered ready stored ⟨[], [], []⟩ .wrapping⟩

end Sample

end Ialp.Services
