import Ialp.Lib.Merkle

/-!
Hash chains: a digest folded over a list of items. Two chains of equal length that end in the same
digest started from the same digest and folded the same items, or some of their strings collide.
-/

namespace HashChain

open Hashing

variable {Str Digest Item : Type} (hash : Str → Digest) (link : Digest → Item → Str)

def fold (start : Digest) (items : List Item) : Digest :=
  items.foldl (fun digest item => hash (link digest item)) start

def strings : Digest → List Item → List Str
  | _, [] => []
  | digest, item :: rest => link digest item :: strings (hash (link digest item)) rest

variable {hash link}

theorem fold_binds (injective : ∀ digest digest' item item', link digest item = link digest' item' →
      digest = digest' ∧ item = item')
    {start start' : Digest} {items items' : List Item} (lengths : items.length = items'.length)
    (same : fold hash link start items = fold hash link start' items') :
    (start = start' ∧ items = items') ∨
      Collides hash (strings hash link start items ++ strings hash link start' items') := by
  induction items generalizing start start' items' with
  | nil =>
      obtain rfl : items' = [] := List.length_eq_zero_iff.mp lengths.symm
      exact .inl ⟨same, rfl⟩
  | cons item rest ih =>
      cases items' with
      | nil => cases lengths
      | cons item' rest' =>
          have tails := Nat.succ.inj lengths
          rcases ih tails same with ⟨digests, rests⟩ | collides
          · have first : link start item ∈ strings hash link start (item :: rest) ++
                strings hash link start' (item' :: rest') := by simp [strings]
            have second : link start' item' ∈ strings hash link start (item :: rest) ++
                strings hash link start' (item' :: rest') := by simp [strings]
            rcases eq_or_collides first second digests with links | collides
            · obtain ⟨starts, items⟩ := injective _ _ _ _ links
              exact .inl ⟨starts, by rw [items, rests]⟩
            · exact .inr collides
          · refine .inr (collides.mono ?_)
            intro string member
            simp only [strings, List.cons_append, List.mem_cons, List.mem_append] at member ⊢
            tauto

end HashChain
