import Mathlib.Algebra.Ring.Parity
import Mathlib.Data.List.Basic
import Mathlib.Tactic.Common

/-!
Binary Merkle trees whose last node is paired with itself on a level of odd width, and the path
checker that goes with them. Strings and digests are arbitrary types; the hash is an arbitrary
function, and every soundness statement offers a collision among the strings that were hashed.
-/

namespace Hashing

variable {Str Digest : Type} {hash : Str → Digest}

def Collides (hash : Str → Digest) (strings : List Str) : Prop :=
  ∃ x ∈ strings, ∃ y ∈ strings, x ≠ y ∧ hash x = hash y

instance [DecidableEq Str] [DecidableEq Digest] (strings : List Str) :
    Decidable (Collides hash strings) :=
  inferInstanceAs (Decidable (∃ x ∈ strings, ∃ y ∈ strings, x ≠ y ∧ hash x = hash y))

theorem Collides.mono {strings larger : List Str} (collides : Collides hash strings)
    (sub : strings ⊆ larger) : Collides hash larger := by
  obtain ⟨x, hx, y, hy, distinct, same⟩ := collides
  exact ⟨x, sub hx, y, sub hy, distinct, same⟩

theorem eq_or_collides {strings : List Str} {x y : Str} (hx : x ∈ strings) (hy : y ∈ strings)
    (same : hash x = hash y) : x = y ∨ Collides hash strings := by
  by_cases equal : x = y
  · exact .inl equal
  · exact .inr ⟨x, hx, y, hy, equal, same⟩

theorem eq_of_not_collides {strings : List Str} (free : ¬ Collides hash strings) {x y : Str}
    (hx : x ∈ strings) (hy : y ∈ strings) (same : hash x = hash y) : x = y :=
  (eq_or_collides hx hy same).resolve_right free

end Hashing

namespace Merkle

open Hashing

section Tree

variable {Digest : Type} (parent : Digest → Digest → Digest)

/-- One round over a level: neighbours are joined, a last node without a neighbour joins itself. -/
def pairUp : List Digest → List Digest
  | [] => []
  | [last] => [parent last last]
  | left :: right :: rest => parent left right :: pairUp rest

/-- The loop that shrinks a level until at most one node is left, cut off after `fuel` rounds. -/
def climb : Nat → List Digest → List Digest
  | 0, level => level
  | fuel + 1, level => if 1 < level.length then climb fuel (pairUp parent level) else level

def root? (level : List Digest) : Option Digest := (climb parent level.length level).head?

theorem pairUp_length (level : List Digest) :
    (pairUp parent level).length = (level.length + 1) / 2 := by
  induction level using pairUp.induct with
  | case1 => simp [pairUp]
  | case2 last => simp [pairUp]
  | case3 left right rest ih =>
      simp only [pairUp, List.length_cons, ih]
      omega

/-- The fuel given by the width of the level is enough: a non-empty level ends in one node. -/
theorem climb_length (fuel : Nat) {level : List Digest} (nonempty : 0 < level.length)
    (enough : level.length ≤ fuel + 1) : (climb parent fuel level).length = 1 := by
  induction fuel generalizing level with
  | zero => simp only [climb]; omega
  | succ fuel ih =>
      simp only [climb]
      split
      · apply ih <;> rw [pairUp_length] <;> omega
      · omega

theorem root?_isSome {level : List Digest} (nonempty : 0 < level.length) :
    ∃ top, root? parent level = some top ∧ climb parent level.length level = [top] := by
  have size := climb_length parent level.length nonempty (by omega)
  obtain ⟨top, climbed⟩ := List.length_eq_one_iff.mp size
  exact ⟨top, by simp [root?, climbed], climbed⟩

end Tree

section Path

variable {Digest : Type} (parent : Digest → Digest → Digest)

/-- One step of a path: an even index is a left child, and joins itself at a duplicated edge. -/
def replayStep (index width : Nat) (hash sibling : Digest) : Digest :=
  if index % 2 = 0 then parent hash (if width % 2 = 1 ∧ index = width - 1 then hash else sibling)
  else parent sibling hash

def replay : Nat → Nat → Digest → List Digest → Digest
  | _, _, hash, [] => hash
  | index, width, hash, sibling :: rest =>
      replay (index / 2) ((width + 1) / 2) (replayStep parent index width hash sibling) rest

def verify [DecidableEq Digest] (root leaf : Digest) (index count : Nat) (siblings : List Digest) :
    Bool :=
  if count = 0 ∨ count ≤ index then false
  else if count = 1 then leaf = root && siblings.isEmpty
  else replay parent index count leaf siblings = root

theorem replay_of_verify [DecidableEq Digest] {root leaf : Digest} {index count : Nat}
    {siblings : List Digest} (accepted : verify parent root leaf index count siblings = true) :
    replay parent index count leaf siblings = root := by
  unfold verify at accepted
  split_ifs at accepted
  · simp only [Bool.and_eq_true, decide_eq_true_eq, List.isEmpty_iff] at accepted
    rw [accepted.2]
    exact accepted.1
  · simpa using accepted

theorem index_lt_of_verify [DecidableEq Digest] {root leaf : Digest} {index count : Nat}
    {siblings : List Digest} (accepted : verify parent root leaf index count siblings = true) :
    index < count := by
  unfold verify at accepted
  split at accepted
  · simp at accepted
  · omega

def siblingIndex (index width : Nat) : Nat :=
  if index % 2 = 0 then (if index + 1 < width then index + 1 else index) else index - 1

/-- The prover's loop: one sibling per round of `climb`. -/
def siblings [Inhabited Digest] : Nat → Nat → List Digest → List Digest
  | 0, _, _ => []
  | fuel + 1, index, level =>
      if 1 < level.length then
        level.getD (siblingIndex index level.length) default ::
          siblings fuel (index / 2) (pairUp parent level)
      else []

end Path

section Completeness

variable {Digest : Type} (parent : Digest → Digest → Digest)

theorem pairUp_getElem? (level : List Digest) (index : Nat) {left : Digest}
    (present : level[2 * index]? = some left) :
    (pairUp parent level)[index]? = some (parent left ((level[2 * index + 1]?).getD left)) := by
  induction level using pairUp.induct generalizing index with
  | case1 => simp at present
  | case2 last =>
      cases index with
      | zero =>
          simp only [Nat.mul_zero, List.getElem?_cons_zero, Option.some.injEq] at present
          simp [pairUp, present]
      | succ index => simp [Nat.mul_add] at present
  | case3 first second rest ih =>
      cases index with
      | zero =>
          simp only [Nat.mul_zero, List.getElem?_cons_zero, Option.some.injEq] at present
          simp [pairUp, present]
      | succ index =>
          have shifted : rest[2 * index]? = some left := by simpa [Nat.mul_add] using present
          simpa [pairUp, Nat.mul_add] using ih index shifted

theorem replayStep_getElem? [Inhabited Digest] {level : List Digest} {index : Nat} {leaf : Digest}
    (present : level[index]? = some leaf) :
    (pairUp parent level)[index / 2]? =
      some (replayStep parent index level.length leaf
        (level.getD (siblingIndex index level.length) default)) := by
  obtain ⟨bound, _⟩ := List.getElem?_eq_some_iff.mp present
  rcases Nat.even_or_odd' index with ⟨half, rfl | rfl⟩
  · have pair := pairUp_getElem? parent level half present
    have even : 2 * half % 2 = 0 := by omega
    rw [show 2 * half / 2 = half by omega, pair, replayStep, if_pos even, siblingIndex, if_pos even]
    by_cases neighbour : 2 * half + 1 < level.length
    · rw [if_neg (by omega), if_pos neighbour, List.getD_eq_getElem?_getD,
        List.getElem?_eq_getElem neighbour]
      rfl
    · have missing : level[2 * half + 1]? = none := List.getElem?_eq_none (by omega)
      rw [if_pos (by omega), missing]
      rfl
  · have left := List.getElem?_eq_getElem (show 2 * half < level.length by omega)
    have pair := pairUp_getElem? parent level half left
    have odd : ¬ (2 * half + 1) % 2 = 0 := by omega
    rw [show (2 * half + 1) / 2 = half by omega, pair, replayStep, if_neg odd, siblingIndex,
      if_neg odd, present, List.getD_eq_getElem?_getD, Nat.add_sub_cancel, left]
    rfl

theorem climb_eq_replay [Inhabited Digest] (fuel : Nat) {index : Nat}
    {level : List Digest} {leaf : Digest} (enough : level.length ≤ fuel + 1)
    (present : level[index]? = some leaf) : climb parent fuel level =
      [replay parent index level.length leaf (siblings parent fuel index level)] := by
  obtain ⟨bound, value⟩ := List.getElem?_eq_some_iff.mp present
  induction fuel generalizing level index leaf with
  | zero =>
      obtain ⟨top, rfl⟩ := List.length_eq_one_iff.mp (show level.length = 1 by omega)
      have first : index = 0 := by simpa using bound
      subst first
      simpa [climb, siblings, replay] using value
  | succ fuel ih =>
      simp only [climb, siblings]
      split
      · have next := replayStep_getElem? parent present
        obtain ⟨bound', value'⟩ := List.getElem?_eq_some_iff.mp next
        rw [ih (by rw [pairUp_length]; omega) next bound' value', replay, pairUp_length]
      · obtain ⟨top, rfl⟩ := List.length_eq_one_iff.mp (show level.length = 1 by omega)
        have first : index = 0 := by simpa using bound
        subst first
        simpa [replay] using value

theorem verify_siblings [Inhabited Digest] [DecidableEq Digest] {level : List Digest} {index : Nat}
    {leaf root : Digest} (present : level[index]? = some leaf)
    (top : root? parent level = some root) :
    verify parent root leaf index level.length (siblings parent level.length index level) =
      true := by
  obtain ⟨bound, _⟩ := List.getElem?_eq_some_iff.mp present
  have climbed := climb_eq_replay parent level.length (by omega) present
  have reached : replay parent index level.length leaf (siblings parent level.length index level) =
      root := by
    simpa [root?, climbed] using top
  rw [verify, if_neg (by omega)]
  split
  · obtain ⟨only, rfl⟩ := List.length_eq_one_iff.mp (show level.length = 1 by assumption)
    simpa [siblings, replay] using reached
  · simpa using reached

end Completeness

section Soundness

variable {Str Digest : Type} (hash : Str → Digest) (node : Digest → Digest → Str)

def pairStrings : List Digest → List Str
  | [] => []
  | [last] => [node last last]
  | left :: right :: rest => node left right :: pairStrings rest

def climbStrings : Nat → List Digest → List Str
  | 0, _ => []
  | fuel + 1, level =>
      if 1 < level.length then
        pairStrings node level ++ climbStrings fuel (pairUp (fun a b => hash (node a b)) level)
      else []

def treeStrings (level : List Digest) : List Str := climbStrings hash node level.length level

def replayStepString (index width : Nat) (current sibling : Digest) : Str :=
  if index % 2 = 0 then node current (if width % 2 = 1 ∧ index = width - 1 then
    current else sibling)
  else node sibling current

def replayStrings : Nat → Nat → Digest → List Digest → List Str
  | _, _, _, [] => []
  | index, width, current, sibling :: rest =>
      replayStepString node index width current sibling ::
        replayStrings (index / 2) ((width + 1) / 2)
        (hash (replayStepString node index width current sibling)) rest

theorem replayStep_eq_hash (index width : Nat) (current sibling : Digest) :
    replayStep (fun a b => hash (node a b)) index width current sibling =
      hash (replayStepString node index width current sibling) := by
  unfold replayStep replayStepString
  split_ifs <;> rfl

theorem replayStepString_child (index width : Nat) (current sibling : Digest) :
    ∃ a b, replayStepString node index width current sibling = node a b ∧
      (current = a ∨ current = b) := by
  unfold replayStepString
  split_ifs
  · exact ⟨_, _, rfl, .inl rfl⟩
  · exact ⟨_, _, rfl, .inl rfl⟩
  · exact ⟨_, _, rfl, .inr rfl⟩

theorem replayStrings_eq_node {index width : Nat} {current : Digest}
    {path : List Digest} {string : Str}
    (member : string ∈ replayStrings hash node index width current path) :
    ∃ a b, string = node a b := by
  induction path generalizing index width current with
  | nil => simp [replayStrings] at member
  | cons sibling rest ih =>
      rcases List.mem_cons.mp member with rfl | later
      · obtain ⟨a, b, shape, _⟩ := replayStepString_child node index width current sibling
        exact ⟨a, b, shape⟩
      · exact ih later

variable {hash node}

theorem pairStrings_child {level : List Digest} {string : Str}
    (member : string ∈ pairStrings node level) : ∃ a ∈ level, ∃ b ∈ level, string = node a b := by
  induction level using pairUp.induct with
  | case1 => simp [pairStrings] at member
  | case2 last => exact ⟨last, by simp, last, by simp, by simpa [pairStrings] using member⟩
  | case3 left right rest ih =>
      rcases List.mem_cons.mp member with rfl | later
      · exact ⟨left, by simp, right, by simp, rfl⟩
      · obtain ⟨a, ha, b, hb, shape⟩ := ih later
        exact ⟨a, by simp [ha], b, by simp [hb], shape⟩

theorem pairUp_eq_map (level : List Digest) :
    pairUp (fun a b => hash (node a b)) level = (pairStrings node level).map hash := by
  induction level using pairUp.induct with
  | case1 => rfl
  | case2 last => rfl
  | case3 left right rest ih => simp [pairUp, pairStrings, ih]

theorem climbStrings_child {fuel : Nat} {level : List Digest} {string : Str}
    (member : string ∈ climbStrings hash node fuel level) :
    ∃ a b, string = node a b ∧ (a ∈ level ∨ a ∈ (climbStrings hash node fuel level).map hash) ∧
      (b ∈ level ∨ b ∈ (climbStrings hash node fuel level).map hash) := by
  induction fuel generalizing level with
  | zero => simp [climbStrings] at member
  | succ fuel ih =>
      simp only [climbStrings] at member ⊢
      split at member
      · rw [if_pos (by assumption), List.map_append, ← pairUp_eq_map]
        rcases List.mem_append.mp member with here | above
        · obtain ⟨a, ha, b, hb, shape⟩ := pairStrings_child here
          exact ⟨a, b, shape, .inl ha, .inl hb⟩
        · obtain ⟨a, b, shape, ha, hb⟩ := ih above
          exact ⟨a, b, shape, .inr (List.mem_append.mpr ha), .inr (List.mem_append.mpr hb)⟩
      · simp at member

theorem treeStrings_eq_node {level : List Digest} {string : Str}
    (member : string ∈ treeStrings hash node level) : ∃ a b, string = node a b := by
  obtain ⟨a, b, shape, _⟩ := climbStrings_child member
  exact ⟨a, b, shape⟩

theorem mem_climb {fuel : Nat} {level : List Digest} {top : Digest}
    (member : top ∈ climb (fun a b => hash (node a b)) fuel level) :
    top ∈ level ∨ top ∈ (climbStrings hash node fuel level).map hash := by
  induction fuel generalizing level with
  | zero => exact .inl member
  | succ fuel ih =>
      simp only [climb] at member
      simp only [climbStrings]
      split at member
      · rw [if_pos (by assumption), List.map_append, ← pairUp_eq_map, List.mem_append]
        exact .inr (ih member)
      · exact .inl member

/-- A path that ends inside a tree stays inside it down to its start, unless a node of the path
hashes to a leaf of the tree or two hashed strings collide. -/
theorem replay_descends (injective : ∀ a b c d, node a b = node c d → a = c ∧ b = d)
    {strings : List Str} {level : List Digest} {fuel index width : Nat} {current : Digest}
    {path : List Digest} (tree : climbStrings hash node fuel level ⊆ strings)
    (replayed : replayStrings hash node index width current path ⊆ strings)
    (ends : replay (fun a b => hash (node a b)) index width current path ∈ level ∨
      replay (fun a b => hash (node a b)) index width current path ∈
        (climbStrings hash node fuel level).map hash) :
    (current ∈ level ∨ current ∈ (climbStrings hash node fuel level).map hash) ∨
      (∃ string ∈ replayStrings hash node index width current path, hash string ∈ level) ∨
      Collides hash strings := by
  induction path generalizing index width current with
  | nil => exact .inl ends
  | cons sibling rest ih =>
      simp only [replay, replayStep_eq_hash] at ends
      simp only [replayStrings, List.cons_subset] at replayed
      rcases ih replayed.2 ends with (leaf | interior) | ⟨string, member, atLeaf⟩ | collides
      · exact .inr (.inl ⟨_, List.mem_cons_self, leaf⟩)
      · obtain ⟨string, member, same⟩ := List.mem_map.mp interior
        rcases eq_or_collides (tree member) replayed.1 same with rfl | collides
        · obtain ⟨a, b, shape, ha, hb⟩ := climbStrings_child member
          obtain ⟨c, d, shape', child⟩ := replayStepString_child node index width current sibling
          obtain ⟨rfl, rfl⟩ := injective _ _ _ _ (shape'.symm.trans shape)
          rcases child with rfl | rfl
          · exact .inl ha
          · exact .inl hb
        · exact .inr (.inr collides)
      · exact .inr (.inl ⟨string, List.mem_cons_of_mem _ member, atLeaf⟩)
      · exact .inr (.inr collides)

variable (hash node) in
def rootOr (marker : Str) (level : List Digest) : Digest :=
  (root? (fun a b => hash (node a b)) level).getD (hash marker)

variable (hash node) in
def rootStrings (marker : Str) (level : List Digest) : List Str :=
  if level.isEmpty then [marker] else treeStrings hash node level

variable (hash node) in
/-- Everything hashed by building the root over `leaves` and replaying a path for the string
`leaf`. -/
def inclusionStrings (marker : Str) (leaves : List Str) (leaf : Str) (index count : Nat)
    (path : List Digest) : List Str :=
  leaves ++ rootStrings hash node marker (leaves.map hash) ++
    leaf :: replayStrings hash node index count (hash leaf) path

variable (hash node) in
theorem rootOr_cons (marker : Str) {level : List Digest} (nonempty : 0 < level.length) :
    ∃ top, rootOr hash node marker level = top ∧
      (top ∈ level ∨ top ∈ (treeStrings hash node level).map hash) := by
  obtain ⟨top, found, climbed⟩ := root?_isSome (fun a b => hash (node a b)) nonempty
  refine ⟨top, by simp [rootOr, found], mem_climb ?_⟩
  rw [climbed]
  exact List.mem_singleton_self top

variable (hash node) in
theorem replay_eq_hash (index width : Nat) (start : Str) (path : List Digest) :
    ∃ string ∈ start :: replayStrings hash node index width (hash start) path,
      replay (fun a b => hash (node a b)) index width (hash start) path = hash string := by
  induction path generalizing index width start with
  | nil => exact ⟨start, by simp, rfl⟩
  | cons sibling rest ih =>
      simp only [replay, replayStep_eq_hash, replayStrings]
      obtain ⟨string, member, same⟩ := ih (index / 2) ((width + 1) / 2)
        (replayStepString node index width (hash start) sibling)
      exact ⟨string, List.mem_cons_of_mem _ member, same⟩

/-- Soundness of an accepted path. Leaf strings of the tree are assumed different from node strings,
and the marker of the empty tree from both; nothing is assumed of the string the path starts from,
which may therefore be an interior node of the tree. -/
theorem inclusion_sound [DecidableEq Digest]
    (injective : ∀ a b c d, node a b = node c d → a = c ∧ b = d)
    {marker : Str} {leaves : List Str} {leaf : Str} {index count : Nat} {path : List Digest}
    (separated : ∀ string ∈ leaves, ∀ a b, string ≠ node a b)
    (unmarked : leaf ≠ marker) (unmarkedNode : ∀ a b, node a b ≠ marker)
    (accepted : verify (fun a b => hash (node a b)) (rootOr hash node marker (leaves.map hash))
      (hash leaf) index count path = true) :
    leaf ∈ leaves ∨ leaf ∈ treeStrings hash node (leaves.map hash) ∨
      Collides hash (inclusionStrings hash node marker leaves leaf index count path) := by
  have reached := replay_of_verify _ accepted
  have pathStrings : leaf :: replayStrings hash node index count (hash leaf) path ⊆
      inclusionStrings hash node marker leaves leaf index count path :=
    List.subset_append_right _ _
  have leafStrings : leaves ⊆ inclusionStrings hash node marker leaves leaf index count path :=
    fun string member => List.mem_append_left _ (List.mem_append_left _ member)
  rcases Nat.eq_zero_or_pos leaves.length with none | some
  · -- the empty tree: the marker's hash is reached by the leaf or by a node of the path
    obtain rfl := List.length_eq_zero_iff.mp none
    obtain ⟨string, member, same⟩ := replay_eq_hash hash node index count leaf path
    have distinct : string ≠ marker := by
      rcases List.mem_cons.mp member with rfl | later
      · exact unmarked
      · obtain ⟨a, b, rfl⟩ := replayStrings_eq_node hash node later
        exact unmarkedNode a b
    refine .inr (.inr ⟨string, pathStrings member, marker, ?_, distinct, same.symm.trans reached⟩)
    simp [inclusionStrings, rootStrings]
  · have nonempty : 0 < (leaves.map hash).length := by simpa using some
    have treeSub : treeStrings hash node (leaves.map hash) ⊆
        inclusionStrings hash node marker leaves leaf index count path := by
      intro string member
      have filled : (leaves.map hash).isEmpty = false := by
        simpa using List.ne_nil_of_length_pos some
      refine List.mem_append_left _ (List.mem_append_right _ ?_)
      rw [rootStrings, filled]
      exact member
    obtain ⟨top, rootEq, inTree⟩ := rootOr_cons hash node marker nonempty
    rw [← rootEq, ← reached] at inTree
    have descent := replay_descends injective treeSub
      (fun string member => pathStrings (List.mem_cons_of_mem _ member)) inTree
    rcases descent with (atLeaf | interior) | ⟨string, member, atLeaf⟩ | collides
    · obtain ⟨other, present, same⟩ := List.mem_map.mp atLeaf
      rcases eq_or_collides (leafStrings present) (pathStrings List.mem_cons_self) same with
        rfl | collides
      · exact .inl present
      · exact .inr (.inr collides)
    · obtain ⟨other, present, same⟩ := List.mem_map.mp interior
      rcases eq_or_collides (treeSub present) (pathStrings List.mem_cons_self) same with
        rfl | collides
      · exact .inr (.inl present)
      · exact .inr (.inr collides)
    · obtain ⟨other, present, same⟩ := List.mem_map.mp atLeaf
      obtain ⟨a, b, rfl⟩ := replayStrings_eq_node hash node member
      exact .inr (.inr ⟨other, leafStrings present, node a b,
        pathStrings (List.mem_cons_of_mem _ member), separated other present a b, same⟩)
    · exact .inr (.inr collides)

end Soundness

end Merkle
