import Ialp.Lib.Merkle

/-!
What the root of a tree says about its leaves. Two trees with one root have the same leaves,
whatever their sizes. A path that reaches the root has as many siblings as the tree has rounds, and
starts from the leaf at its index, where an index past the end of an odd level means the last node
of that level. Node strings hashed for leaves are not assumed away: both statements name the
alternatives.
-/

namespace Merkle

open Hashing

variable {Str Digest : Type} {hash : Str → Digest} {node : Digest → Digest → Str}

section Rounds

theorem climb_cases {parent : Digest → Digest → Digest} {fuel : Nat}
    {level : List Digest} {top : Digest} (climbed : climb parent fuel level = [top]) :
    level = [top] ∨ ∃ rest, fuel = rest + 1 ∧ 1 < level.length ∧
      climb parent rest (pairUp parent level) = [top] := by
  cases fuel with
  | zero => exact .inl climbed
  | succ rest =>
      simp only [climb] at climbed
      split at climbed
      · exact .inr ⟨rest, rfl, by assumption, climbed⟩
      · exact .inl climbed

theorem climbStrings_succ {fuel : Nat} {level : List Digest} (wide : 1 < level.length) :
    climbStrings hash node (fuel + 1) level =
      pairStrings node level ++ climbStrings hash node fuel
        (pairUp (fun a b => hash (node a b)) level) :=
  if_pos wide

theorem map_climbStrings_succ {fuel : Nat} {level : List Digest} (wide : 1 < level.length) :
    (climbStrings hash node (fuel + 1) level).map hash =
      pairUp (fun a b => hash (node a b)) level ++
      (climbStrings hash node fuel (pairUp (fun a b => hash (node a b)) level)).map hash := by
  rw [climbStrings_succ wide, List.map_append, ← pairUp_eq_map]

theorem mem_climbStrings_succ {fuel : Nat} {level : List Digest} {digest : Digest}
    (wide : 1 < level.length) (above : digest ∈ pairUp (fun a b => hash (node a b)) level ∨
      digest ∈ (climbStrings hash node fuel (pairUp (fun a b => hash (node a b)) level)).map hash) :
    digest ∈ (climbStrings hash node (fuel + 1) level).map hash := by
  rw [map_climbStrings_succ wide]
  exact List.mem_append.mpr above

theorem root_mem_climbStrings {fuel : Nat} {level : List Digest} {top : Digest}
    (wide : 1 < level.length)
    (climbed : climb (fun a b => hash (node a b)) fuel (pairUp (fun a b => hash (node a b)) level) =
      [top]) :
    top ∈ (climbStrings hash node (fuel + 1) level).map hash := by
  have member : top ∈ climb (fun a b => hash (node a b)) fuel
      (pairUp (fun a b => hash (node a b)) level) := by
    rw [climbed]
    exact List.mem_singleton_self top
  exact mem_climbStrings_succ wide (mem_climb member)

end Rounds

section Binding

theorem mem_pairStrings {level : List Digest} {child : Digest} (member : child ∈ level) :
    ∃ a b, node a b ∈ pairStrings node level ∧ (child = a ∨ child = b) := by
  induction level using pairUp.induct with
  | case1 => simp at member
  | case2 last => exact ⟨last, last, by simp [pairStrings], .inl (List.mem_singleton.mp member)⟩
  | case3 left right rest ih =>
      rcases List.mem_cons.mp member with here | later
      · exact ⟨left, right, by simp [pairStrings], .inl here⟩
      · rcases List.mem_cons.mp later with here | later
        · exact ⟨left, right, by simp [pairStrings], .inr here⟩
        · obtain ⟨a, b, hashed, child⟩ := ih later
          exact ⟨a, b, List.mem_cons_of_mem _ hashed, child⟩

theorem rootStrings_of_pos (marker : Str) {level : List Digest} (nonempty : 0 < level.length) :
    rootStrings hash node marker level = treeStrings hash node level := by
  have filled : level.isEmpty = false := by simpa using List.ne_nil_of_length_pos nonempty
  rw [rootStrings, filled]
  rfl

theorem rootOr_eq_hash (marker : Str) {leaves : List Str} (nonempty : 0 < leaves.length) :
    ∃ string ∈ leaves ++ treeStrings hash node (leaves.map hash),
      rootOr hash node marker (leaves.map hash) = hash string := by
  obtain ⟨top, root, inTree⟩ := rootOr_cons hash node marker
    (show 0 < (leaves.map hash).length by simpa using nonempty)
  rcases inTree with leaf | interior
  · obtain ⟨string, member, rfl⟩ := List.mem_map.mp leaf
    exact ⟨string, List.mem_append_left _ member, root⟩
  · obtain ⟨string, member, rfl⟩ := List.mem_map.mp interior
    exact ⟨string, List.mem_append_right _ member, root⟩

theorem leaf_not_interior {strings leaves : List Str} {fuel : Nat}
    {level : List Digest} {digest : Digest} (free : ¬ Collides hash strings)
    (hashed : leaves ⊆ strings) (tree : climbStrings hash node fuel level ⊆ strings)
    (separated : ∀ string ∈ leaves, ∀ a b, string ≠ node a b) (leaf : digest ∈ leaves.map hash)
    (interior : digest ∈ (climbStrings hash node fuel level).map hash) : False := by
  obtain ⟨string, present, rfl⟩ := List.mem_map.mp leaf
  obtain ⟨other, member, same⟩ := List.mem_map.mp interior
  obtain ⟨a, b, shape, _⟩ := climbStrings_child member
  have equal := eq_of_not_collides free (tree member) (hashed present) same
  exact separated string present a b (equal ▸ shape)

variable {strings : List Str} (injective : ∀ a b c d, node a b = node c d → a = c ∧ b = d)
  (free : ¬ Collides hash strings)

include injective free

theorem children_of_shared {level : List Digest} {a b : Digest}
    (hashed : pairStrings node level ⊆ strings) (string : node a b ∈ strings)
    (shared : hash (node a b) ∈ pairUp (fun a b => hash (node a b)) level) :
    a ∈ level ∧ b ∈ level := by
  rw [pairUp_eq_map] at shared
  obtain ⟨other, member, same⟩ := List.mem_map.mp shared
  obtain ⟨c, hc, d, hd, rfl⟩ := pairStrings_child member
  obtain ⟨rfl, rfl⟩ := injective _ _ _ _ (eq_of_not_collides free (hashed member) string same)
  exact ⟨hc, hd⟩

theorem subset_of_pairUp_subset {level other : List Digest}
    (hashed : pairStrings node level ⊆ strings) (hashed' : pairStrings node other ⊆ strings)
    (above : pairUp (fun a b => hash (node a b)) level ⊆
      pairUp (fun a b => hash (node a b)) other) :
    level ⊆ other := by
  intro child member
  obtain ⟨a, b, string, position⟩ :
      ∃ a b, node a b ∈ pairStrings node level ∧ (child = a ∨ child = b) :=
    mem_pairStrings member
  have shared : hash (node a b) ∈ pairUp (fun a b => hash (node a b)) other := by
    apply above
    rw [pairUp_eq_map]
    exact List.mem_map_of_mem string
  have children := children_of_shared injective free hashed' (hashed string) shared
  rcases position with rfl | rfl
  · exact children.1
  · exact children.2

theorem child_above {fuel : Nat} {level other : List Digest} {digest : Digest}
    (wide : 1 < other.length) (hashed : pairStrings node level ⊆ strings)
    (tree : climbStrings hash node (fuel + 1) other ⊆ strings)
    (member : digest ∈ pairUp (fun a b => hash (node a b)) level)
    (above : digest ∈ (climbStrings hash node fuel (pairUp (fun a b => hash (node a b)) other)).map
      hash) :
    ∃ leaf ∈ level, leaf ∈ (climbStrings hash node (fuel + 1) other).map hash := by
  rw [pairUp_eq_map] at member
  obtain ⟨string, here, rfl⟩ := List.mem_map.mp member
  obtain ⟨string', there, same⟩ := List.mem_map.mp above
  have inTree : string' ∈ strings := by
    apply tree
    rw [climbStrings_succ wide]
    exact List.mem_append_right _ there
  cases eq_of_not_collides free inTree (hashed here) same
  obtain ⟨a, ha, b, hb, rfl⟩ := pairStrings_child here
  obtain ⟨c, d, shape, hc, hd⟩ := climbStrings_child there
  obtain ⟨rfl, rfl⟩ := injective _ _ _ _ shape
  exact ⟨a, ha, mem_climbStrings_succ wide hc⟩

/-- Two levels that climb to one root have the same nodes, unless a node of the one was hashed above
the other: then the trees have different heights. -/
theorem climb_subset {fuel fuel' : Nat} {level level' : List Digest} {top : Digest}
    (tree : climbStrings hash node fuel level ⊆ strings)
    (tree' : climbStrings hash node fuel' level' ⊆ strings)
    (climbed : climb (fun a b => hash (node a b)) fuel level = [top])
    (climbed' : climb (fun a b => hash (node a b)) fuel' level' = [top]) :
    level ⊆ level' ∨ (∃ leaf ∈ level, leaf ∈ (climbStrings hash node fuel' level').map hash) ∨
      ∃ leaf ∈ level', leaf ∈ (climbStrings hash node fuel level).map hash := by
  -- both trees are descended round by round from the root
  induction fuel generalizing level level' fuel' with
  | zero =>
      cases (show level = [top] from climbed)
      rcases climb_cases climbed' with rfl | ⟨rest', rfl, wide', climbed'⟩
      · exact .inl (List.Subset.refl _)
      · exact .inr (.inl ⟨top, List.mem_singleton_self top, root_mem_climbStrings wide' climbed'⟩)
  | succ fuel ih =>
      rcases climb_cases climbed with rfl | ⟨rest, same, wide, climbed⟩
      · rcases climb_cases climbed' with rfl | ⟨rest', rfl, wide', climbed'⟩
        · exact .inl (List.Subset.refl _)
        · exact .inr (.inl ⟨top, List.mem_singleton_self top, root_mem_climbStrings wide' climbed'⟩)
      cases same
      rcases climb_cases climbed' with rfl | ⟨rest', rfl, wide', climbed'⟩
      · exact .inr (.inr ⟨top, List.mem_singleton_self top, root_mem_climbStrings wide climbed⟩)
      have pairs := tree
      have pairs' := tree'
      rw [climbStrings_succ wide, List.append_subset] at pairs
      rw [climbStrings_succ wide', List.append_subset] at pairs'
      rcases ih pairs.2 pairs'.2 climbed climbed' with
        sub | ⟨digest, member, above⟩ | ⟨digest, member, above⟩
      · exact .inl (subset_of_pairUp_subset injective free pairs.1 pairs'.1 sub)
      · exact .inr (.inl (child_above injective free wide' pairs.1 tree' member above))
      · exact .inr (.inr (child_above injective free wide pairs'.1 tree member above))

theorem leaves_subset {marker : Str} {leaves leaves' : List Str}
    (separated : ∀ string ∈ leaves ++ leaves', ∀ a b, string ≠ node a b)
    (unmarked : ∀ string ∈ leaves ++ leaves', string ≠ marker)
    (unmarkedNode : ∀ a b, node a b ≠ marker)
    (hashed : leaves ++ rootStrings hash node marker (leaves.map hash) ⊆ strings)
    (hashed' : leaves' ++ rootStrings hash node marker (leaves'.map hash) ⊆ strings)
    (same : rootOr hash node marker (leaves.map hash) =
      rootOr hash node marker (leaves'.map hash)) :
    leaves ⊆ leaves' := by
  rw [List.append_subset] at hashed hashed'
  rcases Nat.eq_zero_or_pos leaves.length with none | some
  · rw [List.length_eq_zero_iff.mp none]
    exact List.nil_subset _
  have nonempty : 0 < (leaves.map hash).length := by simpa using some
  rw [rootStrings_of_pos marker nonempty] at hashed
  rcases Nat.eq_zero_or_pos leaves'.length with none' | some'
  · -- the empty tree: the marker would be hashed to the root of a tree with leaves
    obtain rfl := List.length_eq_zero_iff.mp none'
    obtain ⟨string, member, root⟩ := rootOr_eq_hash marker some
    have inStrings : string ∈ strings := List.append_subset.mpr hashed member
    have inMarker : marker ∈ strings := hashed'.2 (List.mem_singleton_self marker)
    have marked : string = marker :=
      eq_of_not_collides free inStrings inMarker (root.symm.trans same)
    rcases List.mem_append.mp member with leaf | interior
    · exact absurd marked (unmarked string (List.mem_append_left _ leaf))
    · obtain ⟨a, b, rfl⟩ := treeStrings_eq_node interior
      exact absurd marked (unmarkedNode a b)
  have nonempty' : 0 < (leaves'.map hash).length := by simpa using some'
  rw [rootStrings_of_pos marker nonempty'] at hashed'
  obtain ⟨top, found, climbed⟩ := root?_isSome (fun a b => hash (node a b)) nonempty
  obtain ⟨top', found', climbed'⟩ := root?_isSome (fun a b => hash (node a b)) nonempty'
  obtain rfl : top = top' := by simpa [rootOr, found, found'] using same
  rcases climb_subset injective free hashed.2 hashed'.2 climbed climbed' with
    sub | ⟨digest, leaf, interior⟩ |
      ⟨digest, leaf, interior⟩
  · intro string member
    obtain ⟨other, present, equal⟩ := List.mem_map.mp (sub (List.mem_map_of_mem member))
    exact eq_of_not_collides free (hashed'.1 present) (hashed.1 member) equal ▸ present
  · exact (leaf_not_interior free hashed.1 hashed'.2 (fun string member => separated string
      (List.mem_append_left _ member)) leaf interior).elim
  · exact (leaf_not_interior free hashed'.1 hashed.2 (fun string member => separated string
      (List.mem_append_right _ member)) leaf interior).elim

end Binding

section Position

def rounds : Nat → Nat → Nat
  | 0, _ => 0
  | fuel + 1, width => if 1 < width then rounds fuel ((width + 1) / 2) + 1 else 0

/-- The node from which a path of the given length and index starts in a level of the given width. A
level of odd width is read as if its last node stood twice. -/
def position : Nat → Nat → Nat → Nat
  | 0, _, _ => 0
  | depth + 1, width, index =>
      min (2 * position depth ((width + 1) / 2) (index / 2) + index % 2) (width - 1)

theorem siblings_length [Inhabited Digest] (parent : Digest → Digest → Digest) (fuel index : Nat)
    (level : List Digest) :
    (siblings parent fuel index level).length = rounds fuel level.length := by
  induction fuel generalizing index level with
  | zero => rfl
  | succ fuel ih =>
      simp only [siblings, rounds]
      split
      · rw [List.length_cons, ih, pairUp_length]
      · rfl

theorem position_of_lt {fuel width index : Nat} (enough : width ≤ fuel + 1)
    (bound : index < width) : position (rounds fuel width) width index = index := by
  induction fuel generalizing width index with
  | zero =>
      simp only [rounds, position]
      omega
  | succ fuel ih =>
      simp only [rounds]
      split
      · have above : position (rounds fuel ((width + 1) / 2)) ((width + 1) / 2) (index / 2) =
            index / 2 :=
          ih (by omega) (by omega)
        rw [position, above]
        omega
      · simp only [position]
        omega

theorem pairUp_getElem?_eq_some {level : List Digest} {index : Nat} {digest : Digest}
    (present : (pairUp (fun a b => hash (node a b)) level)[index]? = some digest) :
    ∃ left, level[2 * index]? = some left ∧
      node left ((level[2 * index + 1]?).getD left) ∈ pairStrings node level ∧
      digest = hash (node left ((level[2 * index + 1]?).getD left)) := by
  induction level using pairUp.induct generalizing index with
  | case1 => simp [pairUp] at present
  | case2 last =>
      cases index with
      | zero =>
          exact ⟨last, by simp, by simp [pairStrings], by simpa [pairUp, eq_comm] using present⟩
      | succ index => simp [pairUp] at present
  | case3 first second rest ih =>
      cases index with
      | zero =>
          exact ⟨first, by simp, by simp [pairStrings], by simpa [pairUp, eq_comm] using present⟩
      | succ index =>
          have later : (pairUp (fun a b => hash (node a b)) rest)[index]? = some digest := by
            simpa [pairUp] using present
          obtain ⟨left, found, string, value⟩ := ih later
          refine ⟨left, by simpa [Nat.mul_add] using found, ?_, by simpa [Nat.mul_add] using value⟩
          simpa [Nat.mul_add, pairStrings] using .inr string

theorem replayStrings_child {index width : Nat} {current : Digest}
    {path : List Digest} {string : Str}
    (member : string ∈ replayStrings hash node index width current path) :
    ∃ a b child, string = node a b ∧ (child = a ∨ child = b) ∧
      (child = current ∨ child ∈ (replayStrings hash node index width current path).map hash) := by
  induction path generalizing index width current with
  | nil => simp [replayStrings] at member
  | cons sibling rest ih =>
      simp only [replayStrings, List.map_cons] at member ⊢
      rcases List.mem_cons.mp member with rfl | later
      · obtain ⟨a, b, shape, child⟩ := replayStepString_child node index width current sibling
        exact ⟨a, b, current, shape, child, .inl rfl⟩
      · obtain ⟨a, b, child, shape, side, earlier⟩ := ih later
        refine ⟨a, b, child, shape, side, .inr ?_⟩
        rcases earlier with rfl | earlier
        · exact List.mem_cons_self
        · exact List.mem_cons_of_mem _ earlier

/-- The step of a path whose string is that of a pair of the level starts at the pair's left or
right node, which at the end of an odd level are the same. -/
theorem position_step {level : List Digest} {index width above : Nat}
    {current sibling left : Digest} (injective : ∀ a b c d, node a b = node c d → a = c ∧ b = d)
    (found : level[2 * above]? = some left)
    (same : node left ((level[2 * above + 1]?).getD left) =
      replayStepString node index width current sibling) :
    level[min (2 * above + index % 2) (level.length - 1)]? = some current := by
  obtain ⟨bound, _⟩ := List.getElem?_eq_some_iff.mp found
  rcases Nat.mod_two_eq_zero_or_one index with even | odd
  · rw [replayStepString, if_pos even] at same
    obtain ⟨rfl, _⟩ := injective _ _ _ _ same
    rw [even, Nat.add_zero, min_eq_left (by omega)]
    exact found
  · rw [replayStepString, if_neg (by omega)] at same
    obtain ⟨_, rfl⟩ := injective _ _ _ _ same
    rw [odd]
    by_cases neighbour : 2 * above + 1 < level.length
    · rw [min_eq_left (by omega), List.getElem?_eq_getElem neighbour, Option.getD_some]
    · have missing : level[2 * above + 1]? = none := List.getElem?_eq_none (by omega)
      rw [min_eq_right (by omega), missing, Option.getD_none,
        show level.length - 1 = 2 * above by omega]
      exact found

theorem replay_position_root {fuel index width : Nat} {top current : Digest} {path : List Digest}
    (reached : replay (fun a b => hash (node a b)) index width current path = top) :
    (path.length = rounds fuel 1 ∧ [top][position path.length 1 index]? = some current) ∨
      ∃ string ∈ replayStrings hash node index width current path, hash string = top := by
  cases path with
  | nil =>
      have flat : rounds fuel 1 = 0 := by cases fuel <;> rfl
      exact .inl ⟨flat.symm, congrArg some reached.symm⟩
  | cons sibling rest =>
      rw [replay, replayStep_eq_hash] at reached
      obtain ⟨string, member, same⟩ := replay_eq_hash hash node (index / 2) ((width + 1) / 2)
        (replayStepString node index width current sibling) rest
      exact .inr ⟨string, member, same.symm.trans reached⟩

variable {strings : List Str} (injective : ∀ a b c d, node a b = node c d → a = c ∧ b = d)
  (free : ¬ Collides hash strings)

include injective free

/-- A path that reaches the root of a tree has the tree's height and starts at its position, unless
it starts above the leaves or one of its nodes hashes to a leaf. -/
theorem replay_position {fuel : Nat} {level : List Digest} {top current : Digest}
    {index width : Nat} {path : List Digest} (tree : climbStrings hash node fuel level ⊆ strings)
    (replayed : replayStrings hash node index width current path ⊆ strings)
    (climbed : climb (fun a b => hash (node a b)) fuel level = [top])
    (reached : replay (fun a b => hash (node a b)) index width current path = top) :
    (path.length = rounds fuel level.length ∧
        level[position path.length level.length index]? = some current) ∨
      current ∈ (climbStrings hash node fuel level).map hash ∨
      ∃ string ∈ replayStrings hash node index width current path, hash string ∈ level := by
  induction fuel generalizing level index width current path with
  | zero =>
      cases (show level = [top] from climbed)
      rcases replay_position_root reached with here | ⟨string, member, same⟩
      · exact .inl here
      · exact .inr (.inr ⟨string, member, List.mem_singleton.mpr same⟩)
  | succ fuel ih =>
      rcases climb_cases climbed with rfl | ⟨rest, same, wide, climbed⟩
      · rcases replay_position_root reached with here | ⟨string, member, same⟩
        · exact .inl here
        · exact .inr (.inr ⟨string, member, List.mem_singleton.mpr same⟩)
      cases same
      cases path with
      | nil =>
          cases (show current = top from reached)
          exact .inr (.inl (root_mem_climbStrings wide climbed))
      | cons sibling path =>
          have pairs := tree
          rw [climbStrings_succ wide, List.append_subset] at pairs
          rw [replay, replayStep_eq_hash] at reached
          rw [replayStrings, List.cons_subset] at replayed
          rcases ih pairs.2 replayed.2 climbed reached with
            ⟨height, found⟩ | interior | ⟨string, member, atPair⟩
          · -- the path continues from a pair of this level
            rw [pairUp_length] at height found
            obtain ⟨left, atLeft, string, value⟩ := pairUp_getElem?_eq_some found
            have equal := eq_of_not_collides free (pairs.1 string) replayed.1 value.symm
            refine .inl ⟨?_, position_step injective atLeft equal⟩
            rw [List.length_cons, height, rounds, if_pos wide]
          · -- the path continues from above the pairs of this level
            obtain ⟨string, member, value⟩ := List.mem_map.mp interior
            have equal := eq_of_not_collides free (pairs.2 member) replayed.1 value
            obtain ⟨a, b, shape, ha, hb⟩ := climbStrings_child member
            obtain ⟨c, d, shape', child⟩ := replayStepString_child node index width current sibling
            obtain ⟨rfl, rfl⟩ := injective _ _ _ _ (shape'.symm.trans (equal.symm.trans shape))
            rcases child with rfl | rfl
            · exact .inr (.inl (mem_climbStrings_succ wide ha))
            · exact .inr (.inl (mem_climbStrings_succ wide hb))
          · -- a later node of the path is a pair of this level: an earlier one is in the level
            obtain ⟨a, b, child, rfl, side, earlier⟩ := replayStrings_child member
            have children := children_of_shared injective free pairs.1 (replayed.2 member) atPair
            have inLevel : child ∈ level := by
              rcases side with rfl | rfl
              · exact children.1
              · exact children.2
            refine .inr (.inr ?_)
            rcases earlier with rfl | earlier
            · exact ⟨_, List.mem_cons_self, inLevel⟩
            · obtain ⟨string, member, rfl⟩ := List.mem_map.mp earlier
              exact ⟨string, List.mem_cons_of_mem _ member, inLevel⟩

/-- An accepted path: its length and where it starts. Leaf strings and the string the path starts
from are assumed different from node strings. -/
theorem path_position [DecidableEq Digest] {marker : Str} {leaves : List Str} {leaf : Str}
    {index count : Nat} {path : List Digest} (nonempty : 0 < leaves.length)
    (separated : ∀ string ∈ leaves, ∀ a b, string ≠ node a b)
    (leaf_ne_node : ∀ a b, leaf ≠ node a b)
    (hashed : inclusionStrings hash node marker leaves leaf index count path ⊆ strings)
    (accepted : verify (fun a b => hash (node a b)) (rootOr hash node marker (leaves.map hash))
      (hash leaf) index count path = true) :
    path.length = rounds leaves.length leaves.length ∧
      leaves[position path.length leaves.length index]? = some leaf := by
  have filled : 0 < (leaves.map hash).length := by simpa using nonempty
  rw [inclusionStrings, rootStrings_of_pos marker filled, List.append_subset, List.append_subset,
    List.cons_subset] at hashed
  obtain ⟨⟨inLeaves, tree⟩, start, replayed⟩ := hashed
  obtain ⟨top, found, climbed⟩ := root?_isSome (fun a b => hash (node a b)) filled
  have reached : replay (fun a b => hash (node a b)) index count (hash leaf) path = top := by
    simpa [rootOr, found] using replay_of_verify _ accepted
  rcases replay_position injective free tree replayed climbed reached with
    ⟨height, atPosition⟩ | interior |
      ⟨string, member, atLeaf⟩
  · rw [List.length_map] at height atPosition
    rw [List.getElem?_map, Option.map_eq_some_iff] at atPosition
    obtain ⟨string, present, same⟩ := atPosition
    have equal := eq_of_not_collides free (inLeaves (List.mem_of_getElem? present)) start same
    exact ⟨height, equal ▸ present⟩
  · obtain ⟨string, member, same⟩ := List.mem_map.mp interior
    obtain ⟨a, b, shape⟩ := treeStrings_eq_node member
    have equal := eq_of_not_collides free (tree member) start same
    exact absurd (equal ▸ shape) (leaf_ne_node a b)
  · obtain ⟨other, present, same⟩ := List.mem_map.mp atLeaf
    obtain ⟨a, b, rfl⟩ := replayStrings_eq_node hash node member
    have equal := eq_of_not_collides free (inLeaves present) (replayed member) same
    exact absurd equal (separated other present a b)

end Position

end Merkle
