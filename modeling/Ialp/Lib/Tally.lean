import Mathlib.Algebra.BigOperators.Group.Finset.Basic
import Mathlib.Algebra.GroupWithZero.Nat
import Mathlib.Algebra.Order.BigOperators.Group.Finset
import Mathlib.Data.Fintype.BigOperators

/-!
Books over a finite set of keys: sums of weights under a point update, and logs that record each
settled key once.
-/

namespace Books

open Function

variable {Key Value : Type*}

theorem sum_comp_update [DecidableEq Key] [Fintype Key] (weight : Value → ℕ) (book : Key → Value)
    (key : Key) (value : Value) :
    ∑ other, weight (update book key value other) + weight (book key) =
      ∑ other, weight (book other) + weight value := by
  have weighed := comp_update weight book key value
  calc ∑ other, weight (update book key value other) + weight (book key)
      = ∑ other, update (weight ∘ book) key (weight value) other + weight (book key) := by
        rw [← weighed]
        rfl
    _ = weight value + ∑ other ∈ Finset.univ \ {key}, weight (book other) + weight (book key) := by
        rw [Finset.sum_update_of_mem (Finset.mem_univ key)]
        rfl
    _ = ∑ other, weight (book other) + weight value := by
        rw [Finset.sum_eq_add_sum_sdiff_singleton_of_mem (Finset.mem_univ key) fun other =>
          weight (book other)]
        omega

theorem sum_le_roll [DecidableEq Key] [Fintype Key] {roll : List Key} (distinct : roll.Nodup)
    {weight bound : Key → ℕ} (below : ∀ key ∈ roll, weight key ≤ bound key)
    (off : ∀ key, key ∉ roll → weight key = 0) : ∑ key, weight key ≤ (roll.map bound).sum :=
  calc ∑ key, weight key = ∑ key ∈ roll.toFinset, weight key := by
        symm
        apply Finset.sum_subset (Finset.subset_univ _)
        intro key _ absent
        exact off key (by simpa using absent)
    _ ≤ ∑ key ∈ roll.toFinset, bound key :=
      Finset.sum_le_sum fun key member => below key (by simpa using member)
    _ = (roll.map bound).sum := List.sum_toFinset bound distinct

/-- A log that settles each key of a book at most once, and the book it settles. -/
structure Tally (log : List (Key × Value)) (settled : Key → Option Value) : Prop where
  mem_iff : ∀ key value, (key, value) ∈ log ↔ settled key = some value
  nodup : (log.map Prod.fst).Nodup

namespace Tally

variable {log : List (Key × Value)} {settled : Key → Option Value} {key : Key} {value : Value}

theorem empty : Tally ([] : List (Key × Value)) (fun _ => none) where
  mem_iff := by simp
  nodup := List.nodup_nil

theorem congr {settled' : Key → Option Value} (tally : Tally log settled)
    (same : ∀ key, settled' key = settled key) : Tally log settled' := by
  rwa [funext same]

theorem mem_keys_iff (tally : Tally log settled) : key ∈ log.map Prod.fst ↔ settled key ≠ none := by
  rw [Option.ne_none_iff_exists', List.mem_map]
  constructor
  · rintro ⟨⟨_, value⟩, member, rfl⟩
    exact ⟨value, (tally.mem_iff _ _).mp member⟩
  · rintro ⟨value, held⟩
    exact ⟨(key, value), (tally.mem_iff _ _).mpr held, rfl⟩

theorem settle [DecidableEq Key] (tally : Tally log settled) (unsettled : settled key = none)
    (value : Value) : Tally (log ++ [(key, value)]) (update settled key (some value)) where
  mem_iff other amount := by
    by_cases same : other = key
    · subst same
      have absent : (other, amount) ∉ log := by
        rw [tally.mem_iff, unsettled]
        simp
      simp [absent, eq_comm]
    · simp [same, tally.mem_iff]
  nodup := by
    rw [List.map_append]
    refine tally.nodup.append (List.nodup_singleton _) ?_
    simpa using fun value member => by simpa [unsettled] using (tally.mem_iff _ _).mp member

theorem count_le_one [DecidableEq Key] (tally : Tally log settled) (key : Key) :
    (log.map Prod.fst).count key ≤ 1 :=
  List.nodup_iff_count_le_one.mp tally.nodup key

theorem filter_eq [DecidableEq Key] (tally : Tally log settled) (held : settled key = some value) :
    (log.filter fun entry => entry.1 = key) = [(key, value)] := by
  have member := (tally.mem_iff key value).mpr held
  have distinct := tally.nodup
  clear tally held
  induction log with
  | nil => cases member
  | cons entry rest ih =>
      have apart := List.nodup_cons.mp distinct
      rcases List.mem_cons.mp member with here | later
      · subst here
        have others : (rest.filter fun entry => entry.1 = key) = [] := by
          rw [List.filter_eq_nil_iff]
          intro other inRest same
          exact apart.1 (List.mem_map.mpr ⟨other, inRest, of_decide_eq_true same⟩)
        rw [List.filter_cons_of_pos (by simp), others]
      · have other : entry.1 ≠ key := by
          intro same
          exact apart.1 (same ▸ List.mem_map_of_mem later)
        rw [List.filter_cons_of_neg (by simpa using other)]
        exact ih later apart.2

theorem filter_eq_nil [DecidableEq Key] (tally : Tally log settled)
    (unsettled : settled key = none) : (log.filter fun entry => entry.1 = key) = [] := by
  rw [List.filter_eq_nil_iff]
  intro entry member same
  have listed := tally.mem_keys_iff.mp (List.mem_map.mpr ⟨entry, member, of_decide_eq_true same⟩)
  exact listed unsettled

theorem tail [DecidableEq Key] (tally : Tally ((key, value) :: log) settled) :
    Tally log (update settled key none) := by
  have distinct := List.nodup_cons.mp tally.nodup
  constructor
  · intro other amount
    by_cases same : other = key
    · subst same
      have absent : (other, amount) ∉ log :=
        fun member => distinct.1 (List.mem_map.mpr ⟨_, member, rfl⟩)
      simp [absent]
    · rw [update_of_ne same, ← tally.mem_iff]
      simp [same]
  · exact distinct.2

theorem sum_eq [DecidableEq Key] [Fintype Key] (tally : Tally log settled) (weight : Value → ℕ) :
    (log.map fun entry => weight entry.2).sum = ∑ key, ((settled key).map weight).getD 0 := by
  induction log generalizing settled with
  | nil =>
      have unsettled : ∀ key, settled key = none := by
        intro key
        by_contra held
        exact absurd (tally.mem_keys_iff.mpr held) List.not_mem_nil
      simp [unsettled]
  | cons entry rest ih =>
      obtain ⟨key, value⟩ := entry
      have held : settled key = some value := (tally.mem_iff _ _).mp List.mem_cons_self
      have moved := sum_comp_update (fun entry : Option Value => (entry.map weight).getD 0) settled
        key none
      rw [held] at moved
      rw [List.map_cons, List.sum_cons, ih tally.tail]
      simp only [Option.map_some, Option.getD_some, Option.map_none, Option.getD_none] at moved
      change weight value + _ = _
      omega

end Tally

end Books
