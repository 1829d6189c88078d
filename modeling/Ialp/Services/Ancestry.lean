import Ialp.Services.Acceptance

/-!
The headers between the block a summary was staged in and the block its certificate proves. The node
lists them and the importer checks that each descends from the one before. Both count blocks with
the bare `+` of `u32`, which a build with overflow checks stops at and another one wraps.
-/

namespace Ialp.Services

open Scale

/-- What the build makes of an addition that overflows. -/
inductive Build where
  | checked
  | wrapping
  deriving DecidableEq

inductive Halt where
  | failed (message : String)
  | overflow
  deriving DecidableEq

def succ32 (build : Build) (number : UInt32) : Except Halt UInt32 :=
  match build with
  | .checked => if number.toNat + 1 < 2 ^ 32 then .ok (number + 1) else .error .overflow
  | .wrapping => .ok (number + 1)

structure HeaderCodec (Header : Type) extends Codec Header where
  parentHash : Header → Hash32
  number : Header → UInt32
  hash : Header → Hash32

structure ChainClient (Header : Type) where
  hash : UInt32 → Except String (Option Hash32)
  header : Hash32 → Except String (Option Header)

section Ancestry

variable {Header : Type} (headers : HeaderCodec Header) (build : Build)

/-- One turn of the loop of `verify_ancestry_chain`: `current_hash` and `current_number` move to the
next header. -/
def descend (current : Hash32 × UInt32) (encoded : Bytes) : Except Halt (Hash32 × UInt32) := do
  let header ← (decodeAs headers.toCodec "failed to decode ancestry header: " encoded).mapError
      .failed
  ensure (headers.parentHash header = current.1)
    (.failed "ancestry header chain does not descend from the staged target block")
  let next ← succ32 build current.2
  ensure (headers.number header = next) (.failed "ancestry header numbering is not contiguous")
  return (headers.hash header, headers.number header)

def verifyAncestryChain (certificate : GrandpaFinalityCertificate) : Except Halt Unit := do
  let current ← certificate.ancestryHeaders.foldlM (descend headers build)
    (certificate.targetBlockHash, certificate.targetBlockNumber)
  ensure (current.1 = certificate.proofBlockHash ∧ current.2 = certificate.proofBlockNumber)
    (.failed "ancestry headers do not terminate at the certificate proof block")

variable (client : ChainClient Header)

def canonicalHeader (blockNumber : UInt32) : Except Halt Bytes := do
  let blockHash ← (client.hash blockNumber).mapError .failed
  let blockHash ← okOr blockHash
      (.failed ("missing canonical block hash for #" ++ toString blockNumber.toNat))
  let header ← (client.header blockHash).mapError .failed
  let header ← okOr header
      (.failed ("missing canonical header for block #" ++ toString blockNumber.toNat))
  return headers.encode header

def blockNumbers (first last : UInt32) : List UInt32 :=
  (List.range' first.toNat (last.toNat + 1 - first.toNat)).map UInt32.ofNat

def ancestryHeaders (targetBlockNumber proofBlockNumber : UInt32) : Except Halt (List Bytes) := do
  let first ← succ32 build targetBlockNumber
  (blockNumbers first proofBlockNumber).mapM (canonicalHeader headers client)

end Ancestry

section Linked

variable {Header : Type} (headers : HeaderCodec Header)

/-- The encoded headers are those of a chain: it starts under the block of the given hash and
number, and its numbers are exact. -/
structure LinkedFrom (hash : Hash32) (number : Nat) (encoded : List Bytes) (chain : List Header) :
    Prop where
  decoded : List.Forall₂ (fun bytes header => headers.decode bytes = .ok header) encoded chain
  parents : ∀ (i : Nat) header, chain[i]? = some header →
    (hash :: chain.map headers.hash)[i]? = some (headers.parentHash header)
  numbers : ∀ (i : Nat) header, chain[i]? = some header →
    (headers.number header).toNat = number + (i + 1)

def Linked (certificate : GrandpaFinalityCertificate) : Prop :=
  ∃ chain, LinkedFrom headers certificate.targetBlockHash certificate.targetBlockNumber.toNat
      certificate.ancestryHeaders chain ∧
    (certificate.targetBlockHash :: chain.map headers.hash)[chain.length]? =
      some certificate.proofBlockHash ∧
    certificate.targetBlockNumber.toNat + chain.length = certificate.proofBlockNumber.toNat

/-- Some header descends from a block that is linked to the target and has the last number there
is. -/
def PastLastNumber (certificate : GrandpaFinalityCertificate) : Prop :=
  ∃ front next rest chain header, certificate.ancestryHeaders = front ++ next :: rest ∧
    LinkedFrom headers certificate.targetBlockHash certificate.targetBlockNumber.toNat front chain ∧
    certificate.targetBlockNumber.toNat + chain.length = 2 ^ 32 - 1 ∧
      headers.decode next = .ok header ∧
    (certificate.targetBlockHash :: chain.map headers.hash)[chain.length]? =
      some (headers.parentHash header)

variable {headers} {hash : Hash32} {number : Nat}

theorem LinkedFrom.nil : LinkedFrom headers hash number [] [] :=
  ⟨.nil, by simp, by simp⟩

theorem linkedFrom_cons_iff {bytes : Bytes} {encoded : List Bytes} {header : Header}
    {chain : List Header} : LinkedFrom headers hash number (bytes :: encoded) (header :: chain) ↔
      headers.decode bytes = .ok header ∧ headers.parentHash header = hash ∧
        (headers.number header).toNat = number + 1 ∧
        LinkedFrom headers (headers.hash header) (number + 1) encoded chain := by
  constructor
  · intro linked
    have decoded := List.forall₂_cons.mp linked.decoded
    refine ⟨decoded.1, ?_, linked.numbers 0 header rfl, decoded.2, ?_, ?_⟩
    · have parent := linked.parents 0 header rfl
      exact (Option.some.inj parent).symm
    · intro i later found
      exact linked.parents (i + 1) later found
    · intro i later found
      rw [linked.numbers (i + 1) later found]
      omega
  · intro linked
    obtain ⟨decoded, parent, numbered, linked⟩ := linked
    refine ⟨.cons decoded linked.decoded, ?_, ?_⟩
    · intro i later found
      cases i with
      | zero =>
          cases found
          simp [parent]
      | succ i => exact linked.parents i later found
    · intro i later found
      cases i with
      | zero =>
          cases found
          exact numbered
      | succ i =>
          rw [linked.numbers i later found]
          omega

end Linked

section Check

variable {Header : Type} {headers : HeaderCodec Header} {current next : Hash32 × UInt32}
  {bytes : Bytes} {encoded : List Bytes}

theorem mapError_failed_ne_overflow {α : Type} {result : Except String α} :
    result.mapError Halt.failed ≠ .error .overflow := by
  cases result <;> simp [Except.mapError]

theorem succ32_checked {number : UInt32} (room : number.toNat + 1 < 2 ^ 32) :
    succ32 .checked number = .ok (number + 1) :=
  if_pos room

theorem succ32_checked_last {number : UInt32} (last : number.toNat = 2 ^ 32 - 1) :
    succ32 .checked number = .error .overflow := by
  refine if_neg ?_
  omega

theorem succ32_checked_eq_ok {number next : UInt32} :
    succ32 .checked number = .ok next ↔ next.toNat = number.toNat + 1 := by
  by_cases room : number.toNat + 1 < 2 ^ 32
  · rw [succ32_checked room, Except.ok.injEq, ← UInt32.toNat_inj, UInt32.toNat_succ room]
    exact eq_comm
  · have last : number.toNat = 2 ^ 32 - 1 := by
      have := number.toNat_lt
      omega
    have bound := next.toNat_lt
    simp only [succ32_checked_last last, reduceCtorEq, false_iff]
    omega

theorem succ32_checked_eq_overflow {number : UInt32} :
    succ32 .checked number = .error .overflow ↔ number.toNat = 2 ^ 32 - 1 := by
  refine ⟨?_, succ32_checked_last⟩
  intro overflows
  by_contra more
  have room : number.toNat + 1 < 2 ^ 32 := by
    have := number.toNat_lt
    omega
  rw [succ32_checked room] at overflows
  cases overflows

theorem descend_eq_ok : descend headers .checked current bytes = .ok next ↔
    ∃ header, headers.decode bytes = .ok header ∧ headers.parentHash header = current.1 ∧
      (headers.number header).toNat = current.2.toNat + 1 ∧
      (headers.hash header, headers.number header) = next := by
  simp only [descend, bind_eq_ok, ensure_eq_ok, mapError_eq_ok, decodeAs_eq_ok]
  constructor
  · intro descends
    obtain ⟨header, decoded, _, parent, number, counted, _, same, result⟩ := descends
    rw [succ32_checked_eq_ok, ← same] at counted
    exact ⟨header, decoded, parent, counted, Except.ok.inj result⟩
  · intro linked
    obtain ⟨header, decoded, parent, counted, result⟩ := linked
    exact ⟨header, decoded, (), parent, _, succ32_checked_eq_ok.mpr counted, (), rfl,
      congrArg Except.ok result⟩

theorem descend_eq_overflow : descend headers .checked current bytes = .error .overflow ↔
    ∃ header, headers.decode bytes = .ok header ∧ headers.parentHash header = current.1 ∧
      current.2.toNat = 2 ^ 32 - 1 := by
  simp only [descend, bind_eq_error, ensure_eq_error, ensure_eq_ok, mapError_eq_ok, decodeAs_eq_ok,
    mapError_failed_ne_overflow, succ32_checked_eq_overflow, reduceCtorEq, and_false,
    false_or, or_false,
    exists_const, pure, Except.pure]

theorem descend_wrapping (short : descend headers .checked current bytes ≠ .error .overflow) :
    descend headers .wrapping current bytes = descend headers .checked current bytes := by
  by_cases room : current.2.toNat + 1 < 2 ^ 32
  · have agree : succ32 .wrapping current.2 = succ32 .checked current.2 :=
      (succ32_checked room).symm
    simp only [descend, agree]
  · have last : current.2.toNat = 2 ^ 32 - 1 := by
      have := current.2.toNat_lt
      omega
    simp only [ne_eq, descend_eq_overflow, last, and_true, not_exists, not_and] at short
    unfold descend
    cases decoded : (decodeAs headers.toCodec "failed to decode ancestry header: " bytes).mapError
      Halt.failed with
    | error halt => rfl
    | ok header =>
        rw [mapError_eq_ok, decodeAs_eq_ok] at decoded
        simp only [ok_bind, ensure, if_neg (short header decoded)]
        rfl

theorem descents_eq_ok : encoded.foldlM (descend headers .checked) current = .ok next ↔
    ∃ chain, LinkedFrom headers current.1 current.2.toNat encoded chain ∧
      (current.1 :: chain.map headers.hash)[chain.length]? = some next.1 ∧
      current.2.toNat + chain.length = next.2.toNat := by
  induction encoded generalizing current with
  | nil =>
      constructor
      · intro same
        cases same
        exact ⟨[], .nil, rfl, rfl⟩
      · intro reached
        obtain ⟨chain, linked, hash, number⟩ := reached
        cases linked.decoded
        have same : current = next := Prod.ext (Option.some.inj hash) (UInt32.toNat_inj.mp number)
        exact congrArg Except.ok same
  | cons bytes encoded ih =>
      simp only [List.foldlM_cons, bind_eq_ok, descend_eq_ok]
      constructor
      · intro descends
        obtain ⟨middle, ⟨header, decoded, parent, numbered, reached⟩, follows⟩ := descends
        subst reached
        obtain ⟨chain, linked, hash, number⟩ := ih.mp follows
        rw [numbered] at linked number
        refine ⟨header :: chain, linkedFrom_cons_iff.mpr ⟨decoded, parent, numbered, linked⟩, hash,
          ?_⟩
        rw [← number, List.length_cons]
        omega
      · intro reached
        obtain ⟨chain, linked, hash, number⟩ := reached
        cases chain with
        | nil => cases linked.decoded
        | cons header chain =>
            obtain ⟨decoded, parent, numbered, linked⟩ := linkedFrom_cons_iff.mp linked
            refine ⟨_, ⟨header, decoded, parent, numbered, rfl⟩, ih.mpr ⟨chain, ?_, hash, ?_⟩⟩
            · rw [numbered]
              exact linked
            · rw [numbered, ← number, List.length_cons]
              omega

theorem descents_eq_overflow :
    encoded.foldlM (descend headers .checked) current = .error .overflow ↔
    ∃ front bytes rest middle, encoded = front ++ bytes :: rest ∧
      front.foldlM (descend headers .checked) current = .ok middle ∧
      descend headers .checked middle bytes = .error .overflow := by
  induction encoded generalizing current with
  | nil =>
      constructor
      · intro overflows
        cases overflows
      · intro stops
        obtain ⟨front, bytes, rest, middle, split, _⟩ := stops
        cases front <;> cases split
  | cons bytes encoded ih =>
      simp only [List.foldlM_cons, bind_eq_error]
      constructor
      · intro overflows
        rcases overflows with now | ⟨middle, stepped, later⟩
        · exact ⟨[], bytes, encoded, current, rfl, rfl, now⟩
        · obtain ⟨front, bytes', rest, last, split, reached, overflows⟩ := ih.mp later
          refine ⟨bytes :: front, bytes', rest, last, by rw [split]; rfl, ?_, overflows⟩
          rw [List.foldlM_cons, stepped]
          exact reached
      · intro stops
        obtain ⟨front, bytes', rest, last, split, reached, overflows⟩ := stops
        cases front with
        | nil =>
            cases split
            cases reached
            exact .inl overflows
        | cons first front =>
            cases split
            rw [List.foldlM_cons, bind_eq_ok] at reached
            obtain ⟨middle, stepped, reached⟩ := reached
            exact .inr ⟨middle, stepped,
              ih.mpr ⟨front, bytes', rest, last, rfl, reached, overflows⟩⟩

theorem descents_wrapping (short : encoded.foldlM (descend headers .checked) current ≠
    .error .overflow) : encoded.foldlM (descend headers .wrapping) current =
      encoded.foldlM (descend headers .checked) current := by
  induction encoded generalizing current with
  | nil => rfl
  | cons bytes encoded ih =>
      simp only [List.foldlM_cons, ne_eq, bind_eq_error, not_or] at short ⊢
      rw [descend_wrapping short.1]
      cases stepped : descend headers .checked current bytes with
      | error => rfl
      | ok middle =>
          refine ih ?_
          intro later
          exact short.2 ⟨middle, stepped, later⟩

variable {certificate : GrandpaFinalityCertificate}

theorem verifyAncestryChain_eq_ok : verifyAncestryChain headers .checked certificate = .ok () ↔
    Linked headers certificate := by
  simp only [verifyAncestryChain, bind_eq_ok, ensure_eq_ok, descents_eq_ok, Linked]
  constructor
  · intro accepted
    obtain ⟨last, ⟨chain, linked, hash, number⟩, sameHash, sameNumber⟩ := accepted
    rw [sameHash] at hash
    rw [sameNumber] at number
    exact ⟨chain, linked, hash, number⟩
  · intro whole
    obtain ⟨chain, linked, hash, number⟩ := whole
    exact ⟨(_, _), ⟨chain, linked, hash, number⟩, rfl, rfl⟩

theorem verifyAncestryChain_eq_overflow :
    verifyAncestryChain headers .checked certificate = .error .overflow ↔
    PastLastNumber headers certificate := by
  simp only [verifyAncestryChain, bind_eq_error, ensure_eq_error, reduceCtorEq, and_false,
    exists_false, or_false, descents_eq_overflow, descents_eq_ok,
    descend_eq_overflow, PastLastNumber]
  constructor
  · intro overflows
    obtain ⟨front, next, rest, middle, split, ⟨chain, linked, hash, number⟩, header, decoded,
        parent, last⟩ := overflows
    rw [← parent] at hash
    rw [last] at number
    exact ⟨front, next, rest, chain, header, split, linked, number, decoded, hash⟩
  · intro past
    obtain ⟨front, next, rest, chain, header, split, linked, number, decoded, hash⟩ := past
    exact ⟨front, next, rest, (headers.parentHash header, UInt32.ofNat (2 ^ 32 - 1)), split,
      ⟨chain, linked, hash, number.trans rfl⟩, header, decoded, rfl, rfl⟩

theorem verifyAncestryChain_wrapping (short : ¬ PastLastNumber headers certificate) :
    verifyAncestryChain headers .wrapping certificate =
      verifyAncestryChain headers .checked certificate := by
  rw [← verifyAncestryChain_eq_overflow] at short
  unfold verifyAncestryChain
  rw [descents_wrapping]
  intro overflows
  refine short ?_
  rw [verifyAncestryChain, overflows]
  rfl

theorem verifyAncestryChain_eq_checked {build : Build}
    (short : build = .wrapping → ¬ PastLastNumber headers certificate) :
    verifyAncestryChain headers build certificate =
      verifyAncestryChain headers .checked certificate := by
  cases build with
  | checked => rfl
  | wrapping => exact verifyAncestryChain_wrapping (short rfl)

theorem verifyAncestryChain_linked (linked : Linked headers certificate) (build : Build) :
    verifyAncestryChain headers build certificate = .ok () := by
  have accepted := verifyAncestryChain_eq_ok.mpr linked
  cases build with
  | checked => exact accepted
  | wrapping =>
      refine (verifyAncestryChain_wrapping ?_).trans accepted
      rw [← verifyAncestryChain_eq_overflow, accepted]
      intro overflows
      cases overflows

end Check

section Node

variable {Header : Type} (headers : HeaderCodec Header)

structure Canonical (client : ChainClient Header) (certificate : GrandpaFinalityCertificate)
    (chain : Nat → Header) : Prop where
  ordered : certificate.targetBlockNumber.toNat ≤ certificate.proofBlockNumber.toNat
  target : headers.hash (chain certificate.targetBlockNumber.toNat) = certificate.targetBlockHash
  proof : headers.hash (chain certificate.proofBlockNumber.toNat) = certificate.proofBlockHash
  listed : ∀ number, certificate.targetBlockNumber.toNat ≤ number →
    number ≤ certificate.proofBlockNumber.toNat →
    client.hash (UInt32.ofNat number) = .ok (some (headers.hash (chain number)))
  stored : ∀ number, certificate.targetBlockNumber.toNat ≤ number →
    number ≤ certificate.proofBlockNumber.toNat →
    client.header (headers.hash (chain number)) = .ok (some (chain number))
  numbered : ∀ number, certificate.targetBlockNumber.toNat ≤ number →
    number ≤ certificate.proofBlockNumber.toNat →
    (headers.number (chain number)).toNat = number
  linked : ∀ number, certificate.targetBlockNumber.toNat ≤ number →
    number < certificate.proofBlockNumber.toNat →
    headers.parentHash (chain (number + 1)) = headers.hash (chain number)

variable {headers} {client : ChainClient Header} {certificate : GrandpaFinalityCertificate}
  {chain : Nat → Header}

def blocksAbove (certificate : GrandpaFinalityCertificate) (chain : Nat → Header) : List Header :=
  (List.range' (certificate.targetBlockNumber.toNat + 1)
    (certificate.proofBlockNumber.toNat - certificate.targetBlockNumber.toNat)).map chain

@[simp] theorem blocksAbove_length : (blocksAbove certificate chain).length =
    certificate.proofBlockNumber.toNat - certificate.targetBlockNumber.toNat := by
  simp [blocksAbove]

theorem blocksAbove_getElem? {i : Nat} {header : Header}
    (found : (blocksAbove certificate chain)[i]? = some header) :
    certificate.targetBlockNumber.toNat + i < certificate.proofBlockNumber.toNat ∧
      header = chain (certificate.targetBlockNumber.toNat + i + 1) := by
  obtain ⟨bound, found⟩ := List.getElem?_eq_some_iff.mp found
  rw [blocksAbove_length] at bound
  simp only [blocksAbove, List.getElem_map, List.getElem_range', Nat.one_mul] at found
  refine ⟨by omega, ?_⟩
  rw [← found]
  congr 1
  omega

theorem hashes_getElem? {i : Nat} (hash : headers.hash (chain certificate.targetBlockNumber.toNat) =
      certificate.targetBlockHash)
    (bound : certificate.targetBlockNumber.toNat + i ≤ certificate.proofBlockNumber.toNat) :
    (certificate.targetBlockHash :: (blocksAbove certificate chain).map headers.hash)[i]? =
      some (headers.hash (chain (certificate.targetBlockNumber.toNat + i))) := by
  cases i with
  | zero => rw [List.getElem?_cons_zero, ← hash, Nat.add_zero]
  | succ i =>
      have inside :
          i < certificate.proofBlockNumber.toNat - certificate.targetBlockNumber.toNat := by omega
      simp only [List.getElem?_cons_succ, blocksAbove, List.map_map, List.getElem?_map,
        List.getElem?_range' inside, Option.map_some, Function.comp_apply]
      congr 3
      omega

theorem ancestryHeaders_eq_mapM {build : Build} {target proof : UInt32}
    (room : target.toNat + 1 < 2 ^ 32) : ancestryHeaders headers build client target proof =
      (List.range' (target.toNat + 1) (proof.toNat - target.toNat)).mapM
        (canonicalHeader headers client ∘ UInt32.ofNat) := by
  have first : succ32 build target = .ok (target + 1) := by
    cases build with
    | checked => exact succ32_checked room
    | wrapping => rfl
  rw [ancestryHeaders, first, ok_bind, blockNumbers, UInt32.toNat_succ room,
    Nat.add_sub_add_right, List.mapM_map]

theorem ancestryHeaders_eq_ok {build : Build} {target proof : UInt32}
    (room : target.toNat + 1 < 2 ^ 32)
    (known : ∀ number, target.toNat < number → number ≤ proof.toNat →
      client.hash (UInt32.ofNat number) = .ok (some (headers.hash (chain number))) ∧
        client.header (headers.hash (chain number)) = .ok (some (chain number))) :
    ancestryHeaders headers build client target proof =
      .ok ((List.range' (target.toNat + 1) (proof.toNat - target.toNat)).map fun n =>
        headers.encode (chain n)) := by
  rw [ancestryHeaders_eq_mapM room]
  apply mapM_eq_ok
  intro number inside
  rw [List.mem_range'_1] at inside
  obtain ⟨listed, stored⟩ := known number (by omega) (by omega)
  simp only [Function.comp_apply, canonicalHeader, listed, stored, Except.mapError, okOr, ok_bind]
  rfl

theorem Canonical.ancestryHeaders (canonical : Canonical headers client certificate chain)
    (room : certificate.targetBlockNumber.toNat + 1 < 2 ^ 32) (build : Build) :
    ancestryHeaders headers build client certificate.targetBlockNumber
      certificate.proofBlockNumber =
      .ok ((blocksAbove certificate chain).map headers.encode) := by
  rw [blocksAbove, List.map_map]
  exact ancestryHeaders_eq_ok room fun number above below =>
    ⟨canonical.listed number (Nat.le_of_lt above) below,
      canonical.stored number (Nat.le_of_lt above) below⟩

theorem Canonical.linkedBlocks (canonical : Canonical headers client certificate chain) :
    Linked headers { certificate with
      ancestryHeaders := (blocksAbove certificate chain).map headers.encode } := by
  have ordered := canonical.ordered
  refine ⟨blocksAbove certificate chain, ⟨?_, ?_, ?_⟩, ?_, ?_⟩
  · rw [List.forall₂_map_left_iff]
    exact List.forall₂_same.mpr fun header _ => headers.decode_encode header
  · intro i header found
    obtain ⟨bound, here⟩ := blocksAbove_getElem? found
    rw [hashes_getElem? canonical.target (Nat.le_of_lt bound), here,
      canonical.linked _ (Nat.le_add_right _ _) bound]
  · intro i header found
    obtain ⟨bound, here⟩ := blocksAbove_getElem? found
    rw [here, canonical.numbered _ (by omega) bound]
    rfl
  · rw [blocksAbove_length, hashes_getElem? canonical.target (by omega),
      Nat.add_sub_cancel' ordered, canonical.proof]
  · rw [blocksAbove_length]
    exact Nat.add_sub_cancel' ordered

end Node

section Exactness

variable {Header : Type} (headers : HeaderCodec Header)

/-- In every build the check accepts exactly the linked chains, unless a header descends from the
block with the last number. The headers of a canonical chain are accepted unless its target has that
number. -/
theorem ancestry_check_exact :
    (∀ certificate, (∀ build, verifyAncestryChain headers build certificate ≠ .error .overflow ∧
        (verifyAncestryChain headers build certificate = .ok () ↔ Linked headers certificate)) ↔
      ¬ PastLastNumber headers certificate) ∧
    ∀ client certificate chain, Canonical headers client certificate chain →
      ((∀ node importer, ∃ encoded,
          ancestryHeaders headers node client certificate.targetBlockNumber
            certificate.proofBlockNumber =
            .ok encoded ∧
          verifyAncestryChain headers importer { certificate with ancestryHeaders := encoded } =
            .ok ()) ↔
        certificate.targetBlockNumber.toNat ≠ 2 ^ 32 - 1) := by
  constructor
  · intro certificate
    constructor
    · intro exactly past
      exact (exactly .checked).1 (verifyAncestryChain_eq_overflow.mpr past)
    · intro short build
      rw [verifyAncestryChain_eq_checked fun _ => short, verifyAncestryChain_eq_ok, ne_eq,
        verifyAncestryChain_eq_overflow]
      exact ⟨short, Iff.rfl⟩
  · intro client certificate chain canonical
    constructor
    · intro accepted last
      obtain ⟨encoded, listed, _⟩ := accepted .checked .checked
      rw [ancestryHeaders, succ32_checked_last last] at listed
      cases listed
    · intro notLast node importer
      have room : certificate.targetBlockNumber.toNat + 1 < 2 ^ 32 := by
        have := certificate.targetBlockNumber.toNat_lt
        omega
      exact ⟨_, canonical.ancestryHeaders room node,
        verifyAncestryChain_linked canonical.linkedBlocks importer⟩

/-- Headers of one byte, which is the number. The block before has the byte before. -/
def byteHeaders : HeaderCodec UInt8 where
  encode byte := [byte]
  decode bytes :=
    match bytes with
    | [byte] => .ok byte
    | _ => .error "not a byte"
  decode_encode _ := rfl
  parentHash byte := sampleHash [byte - 1]
  number byte := byte.toUInt32
  hash byte := sampleHash [byte]

def byteClient : ChainClient UInt8 where
  hash number := .ok (some (sampleHash [UInt8.ofNat number.toNat]))
  header hash := .ok (hash.toList.head?.map (· - 1))

def byteCertificate (target proof : UInt32) (targetHash proofHash : UInt8) (encoded : List Bytes) :
    GrandpaFinalityCertificate :=
  { version := 1, grandpaSetId := 0
    targetBlockNumber := target, targetBlockHash := sampleHash [targetHash]
    proofBlockNumber := proof, proofBlockHash := sampleHash [proofHash]
    justification := [], ancestryHeaders := encoded }

theorem byteCanonical :
    Canonical byteHeaders byteClient (byteCertificate 1 3 1 3 [[2], [3]]) UInt8.ofNat := by
  have three : ∀ {number : Nat}, 1 ≤ number → number ≤ 3 → number = 1 ∨ number = 2 ∨
      number = 3 := by omega
  refine ⟨by decide, rfl, rfl, ?_, ?_, ?_, ?_⟩
  · intro number above below
    rcases three above below with here | here | here <;> subst here <;> decide +kernel
  · intro number above below
    rcases three above below with here | here | here <;> subst here <;> decide +kernel
  · intro number above below
    rcases three above below with here | here | here <;> subst here <;> decide +kernel
  · intro number above below
    have two : ∀ {number : Nat}, 1 ≤ number → number < 3 → number = 1 ∨ number = 2 := by omega
    rcases two above below with here | here <;> subst here <;> decide +kernel

theorem ancestry_check_exact_bytes :
    verifyAncestryChain byteHeaders .checked (byteCertificate 1 3 1 3 [[2], [3]]) = .ok () ∧
      Linked byteHeaders (byteCertificate 1 3 1 3 [[2], [3]]) ∧
      ∃ encoded, ancestryHeaders byteHeaders .wrapping byteClient 1 3 = .ok encoded ∧
        verifyAncestryChain byteHeaders .checked (byteCertificate 1 3 1 3 encoded) = .ok () := by
  have accepted : verifyAncestryChain byteHeaders .checked (byteCertificate 1 3 1 3 [[2], [3]]) =
      .ok () := by
    decide +kernel
  have short : ¬ PastLastNumber byteHeaders (byteCertificate 1 3 1 3 [[2], [3]]) := by
    rw [← verifyAncestryChain_eq_overflow, accepted]
    decide
  have exactly := ((ancestry_check_exact byteHeaders).1 _).mpr short .checked
  have listed := ((ancestry_check_exact byteHeaders).2 _ _ _ byteCanonical).mpr
    (by decide) .wrapping .checked
  exact ⟨accepted, exactly.2.mp accepted, listed⟩

/-- Above the block with the last number a checked build stops, and a wrapping one accepts block
0. -/
theorem last_block_number_overflows :
    verifyAncestryChain byteHeaders .checked (byteCertificate 4294967295 0 255 0 [[0]]) =
      .error .overflow ∧
      verifyAncestryChain byteHeaders .wrapping (byteCertificate 4294967295 0 255 0 [[0]]) =
        .ok () ∧
      ¬ Linked byteHeaders (byteCertificate 4294967295 0 255 0 [[0]]) ∧
      ancestryHeaders byteHeaders .checked byteClient 4294967295 4294967295 = .error .overflow := by
  have stopped : verifyAncestryChain byteHeaders .checked
      (byteCertificate 4294967295 0 255 0 [[0]]) =
      .error .overflow := by
    decide +kernel
  refine ⟨stopped, by decide +kernel, ?_, by decide +kernel⟩
  rw [← verifyAncestryChain_eq_ok, stopped]
  decide

end Exactness

end Ialp.Services
