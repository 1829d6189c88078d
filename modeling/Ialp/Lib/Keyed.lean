import Mathlib.Data.List.Nodup

/-!
Tables kept as lists of records with a key: a lookup finds the first record of a key, and an upsert
replaces it, or appends the record when there is none.
-/

namespace Keyed

variable {Key Record : Type*} [DecidableEq Key] (key : Record → Key)

def lookup (wanted : Key) (records : List Record) : Option Record :=
  records.find? fun record => key record = wanted

def upsert (record : Record) : List Record → List Record
  | [] => [record]
  | current :: rest =>
      if key current = key record then record :: rest else current :: upsert record rest

variable {key} {records : List Record} {record : Record} {wanted : Key}

theorem lookup_cons (current : Record) (rest : List Record) :
    lookup key wanted (current :: rest) = if key current = wanted then some current
      else lookup key wanted rest := by
  by_cases same : key current = wanted <;> simp [lookup, same]

theorem key_of_lookup (found : lookup key wanted records = some record) : key record = wanted := by
  have accepted := List.find?_some (p := fun record => decide (key record = wanted)) found
  exact of_decide_eq_true accepted

variable (key records record wanted) in
theorem lookup_upsert :
    lookup key wanted (upsert key record records) =
      if key record = wanted then some record else lookup key wanted records := by
  induction records with
  | nil => rw [upsert, lookup_cons]
  | cons current rest ih =>
      rw [upsert]
      split
      · rename_i same
        rw [lookup_cons, lookup_cons, same]
        split <;> rfl
      · rename_i other
        rw [lookup_cons, lookup_cons, ih]
        split
        · rename_i here
          rw [if_neg (here ▸ Ne.symm other)]
        · rfl

theorem mem_of_mem_upsert {other : Record} (member : other ∈ upsert key record records) :
    other = record ∨ other ∈ records := by
  induction records with
  | nil => exact .inl (List.mem_singleton.mp member)
  | cons current rest ih =>
      rw [upsert] at member
      split at member
      · rcases List.mem_cons.mp member with same | later
        · exact .inl same
        · exact .inr (List.mem_cons_of_mem _ later)
      · rcases List.mem_cons.mp member with same | later
        · exact .inr (same ▸ List.mem_cons_self)
        · exact (ih later).imp_right (List.mem_cons_of_mem _)

variable (key records record) in
theorem map_upsert :
    (upsert key record records).map key =
      if key record ∈ records.map key then records.map key
        else records.map key ++ [key record] := by
  induction records with
  | nil => simp [upsert]
  | cons current rest ih =>
      rw [upsert]
      split
      · rename_i same
        simp [same]
      · rename_i other
        simp only [List.map_cons, ih, List.mem_cons, Ne.symm other, false_or]
        split <;> simp

theorem nodup_upsert (distinct : (records.map key).Nodup) :
    ((upsert key record records).map key).Nodup := by
  rw [map_upsert]
  split
  · exact distinct
  · rename_i fresh
    exact List.nodup_append.mpr ⟨distinct, by simp, by
      intro present here other singleton
      rw [List.mem_singleton.mp singleton]
      rintro rfl
      exact fresh here⟩

theorem exists_lookup (listed : wanted ∈ records.map key) :
    ∃ record, lookup key wanted records = some record := by
  obtain ⟨record, member, same⟩ := List.mem_map.mp listed
  rw [lookup, ← Option.isSome_iff_exists, List.find?_isSome]
  exact ⟨record, member, decide_eq_true same⟩

theorem lookup_of_mem (distinct : (records.map key).Nodup) (member : record ∈ records) :
    lookup key (key record) records = some record := by
  have listed : key record ∈ records.map key := List.mem_map_of_mem member
  obtain ⟨found, lookedUp⟩ := exists_lookup listed
  have same := List.inj_on_of_nodup_map distinct (List.mem_of_find?_eq_some lookedUp) member
    (key_of_lookup lookedUp)
  exact same ▸ lookedUp

theorem lookup_map (change : Record → Record) (keeps : ∀ record, key (change record) = key record) :
    lookup key wanted (records.map change) = (lookup key wanted records).map change := by
  induction records with
  | nil => rfl
  | cons current rest ih =>
      rw [List.map_cons, lookup_cons, lookup_cons, keeps, ih]
      split <;> rfl

theorem lookup_eq_none (absent : wanted ∉ records.map key) : lookup key wanted records = none := by
  cases found : lookup key wanted records with
  | none => rfl
  | some record =>
      exact absurd (List.mem_map.mpr ⟨record, List.mem_of_find?_eq_some found, key_of_lookup found⟩)
        absent

section Views

variable {ViewKey View : Type*} [DecidableEq ViewKey] {viewKey : View → ViewKey}
  {view : Record → Option View} {rename : Key → ViewKey} (injective : Function.Injective rename)
  (keyed : ∀ record ∈ records, ∀ viewed, view record = some viewed →
    viewKey viewed = rename (key record))
include injective keyed

theorem lookup_filterMap (distinct : (records.map key).Nodup) :
    lookup viewKey (rename wanted) (records.filterMap view) =
      (lookup key wanted records).bind view := by
  induction records with
  | nil => rfl
  | cons current rest ih =>
      obtain ⟨apart, distinct⟩ := List.nodup_cons.mp distinct
      have later := ih (fun record member => keyed record (List.mem_cons_of_mem _ member)) distinct
      rw [List.filterMap_cons, lookup_cons]
      cases seen : view current with
      | none =>
          rw [later]
          split
          · rename_i same
            rw [lookup_eq_none (same ▸ apart), Option.bind_some, seen]
            rfl
          · rfl
      | some viewed =>
          rw [lookup_cons, keyed current List.mem_cons_self viewed seen, later]
          by_cases same : key current = wanted
          · rw [if_pos same, if_pos (congrArg rename same), Option.bind_some, seen]
          · rw [if_neg same, if_neg (injective.ne same)]

theorem filterMap_upsert {viewed : View} (seen : view record = some viewed)
    (label : viewKey viewed = rename (key record))
    (was : ∀ current ∈ records, key current = key record → view current ≠ none) :
    (upsert key record records).filterMap view =
      upsert viewKey viewed (records.filterMap view) := by
  induction records with
  | nil => rw [upsert, List.filterMap_cons_some seen, List.filterMap_nil, upsert]
  | cons current rest ih =>
      have later := ih (fun record member => keyed record (List.mem_cons_of_mem _ member))
        fun record member => was record (List.mem_cons_of_mem _ member)
      rw [upsert]
      by_cases same : key current = key record
      · obtain ⟨before, present⟩ :=
          Option.ne_none_iff_exists'.mp (was current List.mem_cons_self same)
        have replaced : viewKey before = viewKey viewed := by
          rw [keyed current List.mem_cons_self before present, same, label]
        rw [if_pos same, List.filterMap_cons_some seen, List.filterMap_cons_some present,
          upsert, if_pos replaced]
      · rw [if_neg same]
        cases present : view current with
        | none => rw [List.filterMap_cons_none present, List.filterMap_cons_none present, later]
        | some before =>
            have other : viewKey before ≠ viewKey viewed := by
              rw [keyed current List.mem_cons_self before present, label]
              exact injective.ne same
            rw [List.filterMap_cons_some present, List.filterMap_cons_some present, upsert,
              if_neg other, later]

end Views

end Keyed
