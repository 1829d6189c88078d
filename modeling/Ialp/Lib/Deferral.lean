import Mathlib.Data.List.Basic
import Mathlib.Order.Bounds.Basic
import Mathlib.Tactic.Common

/-!
Deferring an instant past a list of half-open windows, in any order and overlapping: passes over the
list move the candidate to the end of each window that covers it, until a pass moves it no further.
-/

namespace Deferral

structure Window (Instant : Type*) where
  start : Instant
  stop : Instant
  deriving DecidableEq

variable {Instant : Type*} [LinearOrder Instant]

def Window.Covers (window : Window Instant) (instant : Instant) : Prop :=
  window.start ≤ instant ∧ instant < window.stop

instance (window : Window Instant) (instant : Instant) : Decidable (window.Covers instant) :=
  inferInstanceAs (Decidable (_ ∧ _))

/-- One pass over the windows; the flag says whether the candidate was moved. -/
def sweep : List (Window Instant) → Instant → Bool → Instant × Bool
  | [], candidate, advanced => (candidate, advanced)
  | window :: rest, candidate, advanced =>
      if window.Covers candidate then sweep rest window.stop true else sweep rest candidate advanced

/-- Passes until one does not move the candidate, at most `fuel` of them. -/
def search : Nat → List (Window Instant) → Instant → Instant
  | 0, _, candidate => candidate
  | fuel + 1, windows, candidate =>
      let swept := sweep windows candidate false
      if swept.2 then search fuel windows swept.1 else swept.1

def defer (windows : List (Window Instant)) (candidate : Instant) : Instant :=
  search (windows.length + 1) windows candidate

/-- What the unbounded loop returns: passes are made until one does not move the candidate. -/
inductive Returns (windows : List (Window Instant)) : Instant → Instant → Prop where
  | still {candidate : Instant} (unmoved : (sweep windows candidate false).2 = false) :
      Returns windows candidate (sweep windows candidate false).1
  | again {candidate final : Instant} (moved : (sweep windows candidate false).2 = true)
      (rest : Returns windows (sweep windows candidate false).1 final) :
      Returns windows candidate final

def allowedFrom (windows : List (Window Instant)) (earliest : Instant) : Set Instant :=
  { instant | earliest ≤ instant ∧ ∀ window ∈ windows, ¬ window.Covers instant }

variable {windows : List (Window Instant)} {candidate : Instant}

theorem le_sweep (windows : List (Window Instant)) (candidate : Instant) (advanced : Bool) :
    candidate ≤ (sweep windows candidate advanced).1 := by
  induction windows generalizing candidate advanced with
  | nil => exact le_refl _
  | cons window rest ih =>
      rw [sweep]
      split
      · rename_i covered
        exact le_trans (le_of_lt covered.2) (ih _ _)
      · exact ih _ _

theorem sweep_of_advanced : (sweep windows candidate true).2 = true := by
  induction windows generalizing candidate with
  | nil => rfl
  | cons window rest ih =>
      rw [sweep]
      split
      · exact ih
      · exact ih

theorem sweep_still (still : (sweep windows candidate false).2 = false) :
    (sweep windows candidate false).1 = candidate ∧ ∀ window ∈ windows,
      ¬ window.Covers candidate := by
  induction windows with
  | nil => exact ⟨rfl, by simp⟩
  | cons window rest ih =>
      rw [sweep] at still ⊢
      split at still
      · exact absurd still (by simp [sweep_of_advanced])
      · rename_i outside
        rw [if_neg outside]
        obtain ⟨same, others⟩ := ih still
        exact ⟨same, List.forall_mem_cons.mpr ⟨outside, others⟩⟩

def pending (windows : List (Window Instant)) (instant : Instant) : Nat :=
  windows.countP fun window => instant < window.stop

theorem pending_mono (windows : List (Window Instant)) {earlier later : Instant}
    (le : earlier ≤ later) : pending windows later ≤ pending windows earlier := by
  apply List.countP_mono_left
  intro window _ ends
  exact decide_eq_true (lt_of_le_of_lt le (of_decide_eq_true ends))

theorem pending_sweep (moved : (sweep windows candidate false).2 = true) :
    pending windows (sweep windows candidate false).1 < pending windows candidate := by
  induction windows with
  | nil => cases moved
  | cons window rest ih =>
      rw [sweep] at moved ⊢
      split at moved
      · rename_i covered
        rw [if_pos covered]
        have past : ¬ (sweep rest window.stop true).1 < window.stop := not_lt.mpr (le_sweep _ _ _)
        have before : candidate < window.stop := covered.2
        have others :=
          pending_mono rest (le_trans (le_of_lt before) (le_sweep rest window.stop true))
        simp only [pending, List.countP_cons, past, before, decide_true, decide_false] at others ⊢
        simp only [if_true, Bool.false_eq_true, if_false]
        omega
      · rename_i outside
        rw [if_neg outside]
        have le := le_sweep rest candidate false
        have tail := ih moved
        have head : (if decide ((sweep rest candidate false).1 < window.stop) = true then
            1 else 0) ≤
            if decide (candidate < window.stop) = true then 1 else 0 := by
          split
          · rename_i ends
            exact Nat.le_of_eq (if_pos
              (decide_eq_true (lt_of_le_of_lt le (of_decide_eq_true ends)))).symm
          · exact Nat.zero_le _
        simp only [pending, List.countP_cons] at tail ⊢
        omega

theorem search_outside {fuel : Nat} (enough : pending windows candidate < fuel) :
    candidate ≤ search fuel windows candidate ∧ ∀ window ∈ windows,
      ¬ window.Covers (search fuel windows candidate) := by
  induction fuel generalizing candidate with
  | zero => exact absurd enough (Nat.not_lt_zero _)
  | succ fuel ih =>
      simp only [search]
      split
      · rename_i moved
        obtain ⟨later, outside⟩ :=
          ih (Nat.lt_of_lt_of_le (pending_sweep moved) (Nat.le_of_lt_succ enough))
        exact ⟨le_trans (le_sweep _ _ _) later, outside⟩
      · rename_i still
        obtain ⟨same, outside⟩ := sweep_still (by simpa using still)
        rw [same]
        exact ⟨le_refl _, outside⟩

theorem sweep_mem (windows : List (Window Instant)) (candidate : Instant) (advanced : Bool) :
    (sweep windows candidate advanced).1 = candidate ∨
      ∃ window ∈ windows, (sweep windows candidate advanced).1 = window.stop := by
  induction windows generalizing candidate advanced with
  | nil => exact .inl rfl
  | cons window rest ih =>
      rw [sweep]
      split
      · rcases ih window.stop true with same | ⟨later, member, stopped⟩
        · exact .inr ⟨window, List.mem_cons_self, same⟩
        · exact .inr ⟨later, List.mem_cons_of_mem _ member, stopped⟩
      · rcases ih candidate advanced with same | ⟨later, member, stopped⟩
        · exact .inl same
        · exact .inr ⟨later, List.mem_cons_of_mem _ member, stopped⟩

theorem search_mem (fuel : Nat) (windows : List (Window Instant)) (candidate : Instant) :
    search fuel windows candidate = candidate ∨ ∃ window ∈ windows,
      search fuel windows candidate = window.stop := by
  induction fuel generalizing candidate with
  | zero => exact .inl rfl
  | succ fuel ih =>
      simp only [search]
      split
      · rcases ih (sweep windows candidate false).1 with same | stopped
        · rw [same]
          exact sweep_mem windows candidate false
        · exact .inr stopped
      · exact sweep_mem windows candidate false

theorem defer_outside (windows : List (Window Instant)) (candidate : Instant) :
    candidate ≤ defer windows candidate ∧ ∀ window ∈ windows,
      ¬ window.Covers (defer windows candidate) :=
  search_outside (Nat.lt_succ_of_le List.countP_le_length)

theorem Window.stop_le {window : Window Instant} {instant : Instant}
    (covered : window.Covers candidate) (later : candidate ≤ instant)
    (outside : ¬ window.Covers instant) : window.stop ≤ instant := by
  by_contra past
  exact outside ⟨le_trans covered.1 later, lt_of_not_ge past⟩

theorem sweep_le {instant : Instant} (advanced : Bool)
    (allowed : instant ∈ allowedFrom windows candidate) :
    (sweep windows candidate advanced).1 ≤ instant := by
  obtain ⟨later, outside⟩ := allowed
  induction windows generalizing candidate advanced with
  | nil => exact later
  | cons window rest ih =>
      have others : ∀ window ∈ rest, ¬ window.Covers instant :=
        fun other member => outside other (List.mem_cons_of_mem _ member)
      rw [sweep]
      split
      · rename_i covered
        exact ih true (Window.stop_le covered later (outside window List.mem_cons_self)) others
      · exact ih advanced later others

theorem Returns.isLeast {final : Instant} (returns : Returns windows candidate final) :
    IsLeast (allowedFrom windows candidate) final := by
  induction returns with
  | still unmoved =>
      obtain ⟨same, outside⟩ := sweep_still unmoved
      rw [same]
      exact ⟨⟨le_refl _, outside⟩, fun instant allowed => allowed.1⟩
  | again moved rest ih =>
      obtain ⟨⟨later, outside⟩, least⟩ := ih
      refine ⟨⟨le_trans (le_sweep _ _ _) later, outside⟩, ?_⟩
      intro instant allowed
      exact least ⟨sweep_le false allowed, allowed.2⟩

theorem returns_search {fuel : Nat} (enough : pending windows candidate < fuel) :
    Returns windows candidate (search fuel windows candidate) := by
  induction fuel generalizing candidate with
  | zero => exact absurd enough (Nat.not_lt_zero _)
  | succ fuel ih =>
      simp only [search]
      split
      · rename_i moved
        exact .again moved (ih
          (Nat.lt_of_lt_of_le (pending_sweep moved) (Nat.le_of_lt_succ enough)))
      · rename_i still
        exact .still (by simpa using still)

/-- The loop returns, and `defer` is what it returns. -/
theorem returns_iff {final : Instant} :
    Returns windows candidate final ↔ final = defer windows candidate := by
  have returned : Returns windows candidate (defer windows candidate) :=
    returns_search (Nat.lt_succ_of_le List.countP_le_length)
  constructor
  · intro returns
    exact returns.isLeast.unique returned.isLeast
  · intro same
    rw [same]
    exact returned

theorem defer_isLeast (windows : List (Window Instant)) (candidate : Instant) :
    IsLeast (allowedFrom windows candidate) (defer windows candidate) :=
      (returns_iff.mpr rfl).isLeast

theorem defer_defer (windows : List (Window Instant)) (candidate : Instant) :
    defer windows (defer windows candidate) = defer windows candidate := by
  refine le_antisymm ((defer_isLeast windows _).2 ?_) (defer_outside windows _).1
  exact ⟨le_refl _, (defer_outside windows candidate).2⟩

theorem defer_mono (windows : List (Window Instant)) : Monotone (defer windows) := by
  intro earlier later le
  obtain ⟨after, outside⟩ := defer_outside windows later
  exact (defer_isLeast windows earlier).2 ⟨le_trans le after, outside⟩

end Deferral
