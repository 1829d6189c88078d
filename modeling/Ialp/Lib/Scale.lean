import Mathlib.Data.Vector.Basic
import Mathlib.Data.List.Sort
import Mathlib.Logic.Function.Basic
import Mathlib.Tactic.Common

/-!
Byte encodings in the SCALE format, restricted to what hashing needs: little-endian integers,
fixed byte arrays, tuples, compact length prefixes, vectors and labels. Every fixed-width type
carries its width and the injectivity of its encoding.
-/

namespace Scale

abbrev Bytes := List UInt8

abbrev U128 := BitVec 128

def leBytes : Nat → Nat → Bytes
  | 0, _ => []
  | width + 1, value => UInt8.ofNat (value % 256) :: leBytes width (value / 256)

@[simp] theorem leBytes_length (width value : Nat) : (leBytes width value).length = width := by
  induction width generalizing value with
  | zero => rfl
  | succ width ih => simp [leBytes, ih]

theorem leBytes_injective (width : Nat) {a b : Nat} (below : a < 256 ^ width)
    (below' : b < 256 ^ width) (same : leBytes width a = leBytes width b) : a = b := by
  induction width generalizing a b with
  | zero => simp at below below'; omega
  | succ width ih =>
      simp only [leBytes, List.cons.injEq] at same
      have low : a % 256 = b % 256 := by
        have := congrArg UInt8.toNat same.1
        simp only [UInt8.toNat_ofNat'] at this
        omega
      have high : a / 256 = b / 256 := by
        rw [pow_succ] at below below'
        exact ih (by omega) (by omega) same.2
      omega

class Encode (α : Type) where
  encode : α → Bytes

export Encode (encode)

/-- Types whose values all encode to the same number of bytes, and do so injectively. -/
class FixedEncode (α : Type) extends Encode α where
  width : Nat
  length_encode : ∀ value, (encode value).length = width
  encode_injective : Function.Injective encode

export FixedEncode (width length_encode encode_injective)

instance : FixedEncode UInt8 where
  encode value := [value]
  width := 1
  length_encode _ := rfl
  encode_injective := by
    intro a b same
    simpa using same

instance : FixedEncode UInt16 where
  encode value := leBytes 2 value.toNat
  width := 2
  length_encode _ := leBytes_length _ _
  encode_injective := by
    intro a b same
    exact UInt16.toNat_inj.mp (leBytes_injective 2 a.toNat_lt b.toNat_lt same)

instance : FixedEncode UInt32 where
  encode value := leBytes 4 value.toNat
  width := 4
  length_encode _ := leBytes_length _ _
  encode_injective := by
    intro a b same
    exact UInt32.toNat_inj.mp (leBytes_injective 4 a.toNat_lt b.toNat_lt same)

instance : FixedEncode UInt64 where
  encode value := leBytes 8 value.toNat
  width := 8
  length_encode _ := leBytes_length _ _
  encode_injective := by
    intro a b same
    exact UInt64.toNat_inj.mp (leBytes_injective 8 a.toNat_lt b.toNat_lt same)

instance : FixedEncode U128 where
  encode value := leBytes 16 value.toNat
  width := 16
  length_encode _ := leBytes_length _ _
  encode_injective := by
    intro a b same
    exact BitVec.toNat_inj.mp (leBytes_injective 16 a.isLt b.isLt same)

instance (n : Nat) : FixedEncode (List.Vector UInt8 n) where
  encode value := value.toList
  width := n
  length_encode value := value.toList_length
  encode_injective := Subtype.val_injective

instance {α β : Type} [Encode α] [Encode β] : Encode (α × β) where
  encode value := encode value.1 ++ encode value.2

instance {α β : Type} [FixedEncode α] [FixedEncode β] : FixedEncode (α × β) where
  width := width α + width β
  length_encode value := by
    change (encode value.1 ++ encode value.2).length = _
    rw [List.length_append, length_encode, length_encode]
  encode_injective := by
    rintro ⟨a, b⟩ ⟨a', b'⟩ same
    obtain ⟨left, right⟩ := List.append_inj same ((length_encode a).trans (length_encode a').symm)
    exact Prod.ext (encode_injective left) (encode_injective right)

@[reducible] def FixedEncode.comap {α β : Type} [FixedEncode β] (view : α → β)
    (injective : Function.Injective view) : FixedEncode α where
  encode value := encode (view value)
  width := width β
  length_encode value := length_encode (view value)
  encode_injective := encode_injective.comp injective

theorem encode_fixed_append {α : Type} [FixedEncode α] {a b : α} {s t : Bytes}
    (same : encode a ++ s = encode b ++ t) : a = b ∧ s = t := by
  obtain ⟨left, right⟩ := List.append_inj same ((length_encode a).trans (length_encode b).symm)
  exact ⟨encode_injective left, right⟩

/-- The compact length prefix. A collection length is a `u32`; longer ones are refused by the
encoder, so the last mode has its four-byte form only. -/
def compact (n : Nat) : Bytes :=
  if n < 2 ^ 6 then [UInt8.ofNat (4 * n)]
  else if n < 2 ^ 14 then leBytes 2 (4 * n + 1)
  else if n < 2 ^ 30 then leBytes 4 (4 * n + 2)
  else 3 :: leBytes 4 n

theorem compact_length_mono {m n : Nat} (le : m ≤ n) : (compact m).length ≤ (compact n).length := by
  unfold compact
  split_ifs <;> simp <;> omega

theorem compact_length_pos (n : Nat) : 0 < (compact n).length := by
  unfold compact
  split_ifs <;> simp

instance {α : Type} [Encode α] : Encode (List α) where
  encode items := compact items.length ++ items.flatMap encode

section Vectors

variable {α : Type} [FixedEncode α]

theorem flatMap_encode_length (items : List α) :
    (items.flatMap encode).length = items.length * width α := by
  induction items with
  | nil => simp
  | cons head tail ih =>
      simp only [List.flatMap_cons, List.length_append, length_encode, ih,
        List.length_cons, Nat.succ_mul]
      omega

theorem encode_list_length (items : List α) :
    (encode items).length = (compact items.length).length + items.length * width α := by
  change (compact items.length ++ items.flatMap encode).length = _
  rw [List.length_append, flatMap_encode_length]

theorem flatMap_encode_injective {xs ys : List α} (size : xs.length = ys.length)
    (same : xs.flatMap encode = ys.flatMap encode) : xs = ys := by
  induction xs generalizing ys with
  | nil => exact (List.length_eq_zero_iff.mp size.symm).symm
  | cons x xs ih =>
      cases ys with
      | nil => simp at size
      | cons y ys =>
          obtain ⟨head, tail⟩ := encode_fixed_append (by simpa using same)
          rw [head, ih (by simpa using size) tail]

theorem list_length_of_encode_length (positive : 0 < width α) {xs ys : List α}
    (same : (encode xs).length = (encode ys).length) : xs.length = ys.length := by
  rw [encode_list_length, encode_list_length] at same
  rcases Nat.lt_trichotomy xs.length ys.length with less | equal | more
  · have step := Nat.mul_lt_mul_of_pos_right less positive
    have compact_le := compact_length_mono less.le
    omega
  · exact equal
  · have step := Nat.mul_lt_mul_of_pos_right more positive
    have compact_le := compact_length_mono more.le
    omega

/-- A vector inside a record is recovered when what follows it has a known length: the total length
of prefix and items strictly grows with the number of items. -/
theorem encode_list_append (positive : 0 < width α) {xs ys : List α} {s t : Bytes}
    (same : encode xs ++ s = encode ys ++ t) (tails : s.length = t.length) : xs = ys ∧ s = t := by
  have total : (encode xs).length = (encode ys).length := by
    have := congrArg List.length same
    simp only [List.length_append] at this
    omega
  obtain ⟨left, right⟩ := List.append_inj same total
  have size := list_length_of_encode_length positive total
  have items : xs.flatMap encode = ys.flatMap encode := by
    change compact xs.length ++ xs.flatMap encode = compact ys.length ++ ys.flatMap encode at left
    rw [size] at left
    exact List.append_cancel_left left
  exact ⟨flatMap_encode_injective size items, right⟩

end Vectors

/-- A string label: the compact length of its UTF-8 bytes, then the bytes. -/
instance : Encode String where
  encode label := compact label.toUTF8.data.toList.length ++ label.toUTF8.data.toList

end Scale
