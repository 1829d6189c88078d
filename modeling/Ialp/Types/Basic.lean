import Ialp.Lib.Scale
import Ialp.Lib.Merkle
import Mathlib.Data.Fintype.Vector
import Mathlib.Data.List.Sort

/-!
Shared vocabulary of the chains and of the services around them. `blake2` stands for
`sp_io::hashing::blake2_256`: it is a parameter of every definition that hashes.
-/

namespace Ialp

open Scale

abbrev Hash32 := List.Vector UInt8 32

instance : Inhabited Hash32 := ⟨List.Vector.replicate 32 0⟩

abbrev EpochId := UInt64
abbrev ExportId := Hash32
abbrev AccountIdBytes := Hash32
abbrev GovernanceProposalId := Hash32

section MachineIntegers

def saturatingAdd32 (a b : UInt32) : UInt32 := UInt32.ofNat (min (a.toNat + b.toNat) (2 ^ 32 - 1))

def saturatingAdd64 (a b : UInt64) : UInt64 := UInt64.ofNat (min (a.toNat + b.toNat) (2 ^ 64 - 1))

def saturatingMul64 (a b : UInt64) : UInt64 := UInt64.ofNat (min (a.toNat * b.toNat) (2 ^ 64 - 1))

def saturatingAdd128 (a b : U128) : U128 := BitVec.ofNat 128 (min (a.toNat + b.toNat) (2 ^ 128 - 1))

def saturatingMul128 (a b : U128) : U128 := BitVec.ofNat 128 (min (a.toNat * b.toNat) (2 ^ 128 - 1))

theorem toNat_saturatingAdd32 (a b : UInt32) :
    (saturatingAdd32 a b).toNat = min (a.toNat + b.toNat) (2 ^ 32 - 1) := by
  rw [saturatingAdd32, UInt32.toNat_ofNat']
  exact Nat.mod_eq_of_lt (by omega)

theorem toNat_saturatingAdd64 (a b : UInt64) :
    (saturatingAdd64 a b).toNat = min (a.toNat + b.toNat) (2 ^ 64 - 1) := by
  rw [saturatingAdd64, UInt64.toNat_ofNat']
  exact Nat.mod_eq_of_lt (by omega)

theorem toNat_saturatingMul64 (a b : UInt64) :
    (saturatingMul64 a b).toNat = min (a.toNat * b.toNat) (2 ^ 64 - 1) := by
  rw [saturatingMul64, UInt64.toNat_ofNat']
  exact Nat.mod_eq_of_lt (by omega)

theorem toNat_saturatingAdd128 (a b : U128) :
    (saturatingAdd128 a b).toNat = min (a.toNat + b.toNat) (2 ^ 128 - 1) := by
  rw [saturatingAdd128, BitVec.toNat_ofNat]
  exact Nat.mod_eq_of_lt (by omega)

theorem toNat_saturatingMul128 (a b : U128) :
    (saturatingMul128 a b).toNat = min (a.toNat * b.toNat) (2 ^ 128 - 1) := by
  rw [saturatingMul128, BitVec.toNat_ofNat]
  exact Nat.mod_eq_of_lt (Nat.lt_of_le_of_lt (Nat.min_le_right _ _) (by decide))

theorem le_saturatingAdd64 (a b : UInt64) : a ≤ saturatingAdd64 a b := by
  have bound := a.toNat_lt
  rw [UInt64.le_iff_toNat_le, toNat_saturatingAdd64]
  omega

theorem lt_saturatingAdd64_one {n : UInt64} (room : n.toNat + 1 < 2 ^ 64) :
    n < saturatingAdd64 n 1 := by
  rw [UInt64.lt_iff_toNat_lt, toNat_saturatingAdd64]
  have one : (1 : UInt64).toNat = 1 := rfl
  omega

theorem UInt64.toNat_succ {n : UInt64} (bound : n.toNat + 1 < 2 ^ 64) :
    (n + 1).toNat = n.toNat + 1 := by
  rw [UInt64.toNat_add]
  exact Nat.mod_eq_of_lt bound

theorem UInt64.lt_succ_iff {m n : UInt64} (bound : n.toNat + 1 < 2 ^ 64) :
    m < n + 1 ↔ m < n ∨ m = n := by
  rw [UInt64.lt_iff_toNat_lt, UInt64.toNat_succ bound, UInt64.lt_iff_toNat_lt, ← UInt64.toNat_inj]
  omega

theorem UInt64.lt_succ_self {n : UInt64} (bound : n.toNat + 1 < 2 ^ 64) : n < n + 1 :=
  (UInt64.lt_succ_iff bound).mpr (.inr rfl)

theorem UInt64.toNat_pred {n : UInt64} (nonzero : n ≠ 0) : (n - 1).toNat = n.toNat - 1 := by
  have positive : 1 ≤ n := by grind
  exact UInt64.toNat_sub_of_le _ _ positive

theorem UInt64.pred_lt {n : UInt64} (nonzero : n ≠ 0) : n - 1 < n := by
  have positive : n.toNat ≠ 0 := fun zero => nonzero (UInt64.toNat_inj.mp zero)
  rw [UInt64.lt_iff_toNat_lt, UInt64.toNat_pred nonzero]
  omega

theorem UInt32.toNat_succ {n : UInt32} (bound : n.toNat + 1 < 2 ^ 32) :
    (n + 1).toNat = n.toNat + 1 := by
  rw [UInt32.toNat_add]
  exact Nat.mod_eq_of_lt bound

theorem UInt32.toNat_max_one (n : UInt32) : (max n 1).toNat = max n.toNat 1 := by
  change (if n ≤ 1 then (1 : UInt32) else n).toNat = _
  have one : (1 : UInt32).toNat = 1 := rfl
  split
  · rename_i small
    rw [UInt32.le_iff_toNat_le] at small
    omega
  · rename_i large
    rw [UInt32.le_iff_toNat_le] at large
    omega

end MachineIntegers

def emptyHash : Hash32 := List.Vector.replicate 32 0

inductive DomainId where
  | earth
  | moon
  | mars
  deriving DecidableEq, Repr

namespace DomainId

def index : DomainId → UInt8
  | earth => 0
  | moon => 1
  | mars => 2

theorem index_injective : Function.Injective index := by
  intro a b same
  cases a <;> cases b <;> first | rfl | simp [index] at same

instance : Fintype DomainId where
  elems := {earth, moon, mars}
  complete domain := by cases domain <;> decide

instance : Inhabited DomainId := ⟨earth⟩

instance : Ord DomainId := ⟨fun a b => compare a.index b.index⟩

instance : Std.TransOrd DomainId := inferInstanceAs (Std.TransCmp (compareOn index))

instance : Std.LawfulEqOrd DomainId where
  eq_of_compare same := index_injective (Std.LawfulEqOrd.eq_of_compare same)

instance : FixedEncode DomainId := FixedEncode.comap index index_injective

end DomainId

/-- `slice::sort_by`: a stable sort. -/
def sortBy {α : Type} (ordering : α → α → Ordering) (items : List α) : List α :=
  items.insertionSort fun a b => (ordering a b).isLE = true

theorem sortBy_perm {α : Type} (ordering : α → α → Ordering) (items : List α) :
    (sortBy ordering items).Perm items :=
  List.perm_insertionSort _ items

@[simp] theorem mem_sortBy {α : Type} {ordering : α → α → Ordering} {items : List α} {item : α} :
    item ∈ sortBy ordering items ↔ item ∈ items :=
  (sortBy_perm ordering items).mem_iff

@[simp] theorem sortBy_length {α : Type} (ordering : α → α → Ordering) (items : List α) :
    (sortBy ordering items).length = items.length :=
  (sortBy_perm ordering items).length_eq

theorem sortBy_pairwise {α : Type} (ordering : α → α → Ordering)
    [Std.TransCmp ordering] (items : List α) :
    (sortBy ordering items).Pairwise fun a b => (ordering a b).isLE = true := by
  have total : ∀ a b, (ordering a b).isLE = true ∨ (ordering b a).isLE = true := by
    intro a b
    have swapped : ordering b a = (ordering a b).swap := Std.OrientedCmp.eq_swap
    cases order : ordering a b <;> simp [swapped, order]
  have : Std.Total fun a b : α => (ordering a b).isLE = true := ⟨total⟩
  have : IsTrans α fun a b => (ordering a b).isLE = true := ⟨fun a b c => Std.TransCmp.isLE_trans⟩
  exact List.pairwise_insertionSort _ _

theorem sortBy_sortBy {α : Type} (ordering : α → α → Ordering)
    [Std.TransCmp ordering] (items : List α) :
    sortBy ordering (sortBy ordering items) = sortBy ordering items :=
  (sortBy_pairwise ordering items).insertionSort_eq

theorem sortBy_eq_of_perm {α : Type} (ordering : α → α → Ordering) [Std.TransCmp ordering]
    {items items' : List α} (perm : items.Perm items')
    (untied : ∀ a ∈ items, ∀ b ∈ items, ordering a b = .eq → a = b) :
    sortBy ordering items = sortBy ordering items' := by
  have sorted : (sortBy ordering items).Perm (sortBy ordering items') :=
    (sortBy_perm ordering items).trans (perm.trans (sortBy_perm ordering items').symm)
  refine sorted.eq_of_pairwise ?_ (sortBy_pairwise ordering items) (sortBy_pairwise ordering items')
  intro a b ha hb le ge
  have swapped : ordering b a = (ordering a b).swap := Std.OrientedCmp.eq_swap
  have tie : ordering a b = .eq := by
    cases order : ordering a b <;> simp_all
  exact untied a (mem_sortBy.mp ha) b (perm.mem_iff.mpr (mem_sortBy.mp hb)) tie

/-- `Vec::dedup`: drops an element equal to the one before it. -/
def dedup {α : Type} [DecidableEq α] : List α → List α
  | [] => []
  | [last] => [last]
  | first :: second :: rest =>
      if first = second then dedup (second :: rest) else first :: dedup (second :: rest)

@[simp] theorem mem_dedup {α : Type} [DecidableEq α] {items : List α} {item : α} :
    item ∈ dedup items ↔ item ∈ items := by
  induction items using dedup.induct with
  | case1 => simp [dedup]
  | case2 last => simp [dedup]
  | case3 first rest ih => simp [dedup, ih]
  | case4 first second rest distinct ih => simp [dedup, distinct, ih]

theorem dedup_nodup {α : Type} [DecidableEq α] {le : α → α → Prop}
    (antisymm : ∀ a b, le a b → le b a → a = b) {items : List α} (sorted : items.Pairwise le) :
    (dedup items).Nodup := by
  induction items using dedup.induct with
  | case1 => exact List.nodup_nil
  | case2 last => exact List.nodup_singleton last
  | case3 first rest ih =>
      rw [dedup, if_pos rfl]
      exact ih (List.pairwise_cons.mp sorted).2
  | case4 first second rest distinct ih =>
      have ordered := List.pairwise_cons.mp sorted
      rw [dedup, if_neg distinct, List.nodup_cons, mem_dedup]
      refine ⟨fun member => ?_, ih ordered.2⟩
      rcases List.mem_cons.mp member with same | later
      · exact distinct same
      · exact distinct (antisymm _ _ (ordered.1 second List.mem_cons_self)
          ((List.pairwise_cons.mp ordered.2).1 first later))

def compareBytes (a b : Hash32) : Ordering := compare a.toList b.toList

theorem compareBytes_eq {a b : Hash32} (same : compareBytes a b = .eq) : a = b :=
  List.Vector.toList_injective (Std.LawfulEqOrd.compare_eq_iff_eq.mp same)

instance : Std.TransCmp compareBytes :=
  inferInstanceAs (Std.TransCmp (compareOn fun bytes : Hash32 => bytes.toList))

section Ids

variable (blake2 : Bytes → Hash32)

def exportId (sourceDomain : DomainId) (exportSequence : UInt64) : ExportId :=
  blake2 (encode (sourceDomain, exportSequence))

def governanceProposalId (sourceDomain : DomainId) (proposalSequence : UInt64) :
    GovernanceProposalId :=
  blake2 (encode (sourceDomain, proposalSequence))

/-- No collision of `blake2` between the nine-byte strings ids are derived from. -/
def IdInjective : Prop :=
  ∀ (d d' : DomainId) (n n' : UInt64), blake2 (encode (d, n)) = blake2 (encode (d', n')) → d = d' ∧
    n = n'

end Ids

section Sample

def sampleFold (bytes : Bytes) : Nat :=
  bytes.foldl (fun acc byte => (acc * 257 + byte.toNat + 1) % 2 ^ 256) 0

/-- A concrete hash function, for evaluating the model on sample inputs. -/
def sampleHash (bytes : Bytes) : Hash32 := ⟨leBytes 32 (sampleFold bytes), leBytes_length _ _⟩

theorem sampleFold_concat (bytes : Bytes) (byte : UInt8) :
    sampleFold (bytes ++ [byte]) = (sampleFold bytes * 257 + byte.toNat + 1) % 2 ^ 256 := by
  simp [sampleFold]

theorem sampleFold_lt (bytes : Bytes) : sampleFold bytes < 257 ^ bytes.length := by
  induction bytes using List.reverseRecOn with
  | nil => exact Nat.one_pos
  | append_singleton bytes byte ih =>
      have digit := byte.toNat_lt
      rw [sampleFold_concat, List.length_append, List.length_singleton, pow_succ]
      apply lt_of_le_of_lt (Nat.mod_le _ _)
      omega

theorem sampleFold_injective {a b : Bytes} (sameLength : a.length = b.length)
    (short : a.length ≤ 31) (same : sampleFold a = sampleFold b) : a = b := by
  induction a using List.reverseRecOn generalizing b with
  | nil => exact (List.length_eq_zero_iff.mp sameLength.symm).symm
  | append_singleton a x ih =>
      cases b using List.reverseRecOn with
      | nil => simp at sameLength
      | append_singleton b y =>
          simp only [List.length_append, List.length_singleton] at sameLength short
          have unreduced : ∀ (bytes : Bytes) (byte : UInt8), bytes.length ≤ 30 →
              sampleFold (bytes ++ [byte]) = sampleFold bytes * 257 + byte.toNat + 1 := by
            intro bytes byte bound
            have digit := byte.toNat_lt
            have below : sampleFold bytes < 257 ^ 30 :=
              lt_of_lt_of_le (sampleFold_lt bytes) (Nat.pow_le_pow_right (by decide) bound)
            rw [sampleFold_concat]
            have wide : 257 ^ 30 * 257 ≤ 2 ^ 256 := by decide
            exact Nat.mod_eq_of_lt (by omega)
          rw [unreduced a x (by omega), unreduced b y (by omega)] at same
          have low := x.toNat_lt
          have low' := y.toNat_lt
          have rest : a = b := ih (by omega) (by omega) (by omega)
          have last : x = y := UInt8.toNat_inj.mp (by omega)
          rw [rest, last]

theorem sampleHash_idInjective : IdInjective sampleHash := by
  intro d d' n n' same
  have length : ∀ (d : DomainId) (n : UInt64), (encode (d, n)).length = 9 :=
    fun d n => length_encode (d, n)
  have bound : ∀ (d : DomainId) (n : UInt64), sampleFold (encode (d, n)) < 256 ^ 32 := by
    intro d n
    have below := sampleFold_lt (encode (d, n))
    rw [length] at below
    exact lt_trans below (by decide)
  have fold := leBytes_injective 32 (bound d n) (bound d' n') (congrArg Subtype.val same)
  have bytes := sampleFold_injective ((length d n).trans (length d' n').symm)
    (by rw [length]; decide) fold
  exact Prod.mk.inj (encode_injective bytes)

end Sample

end Ialp
