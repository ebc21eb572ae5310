import Mathlib.Algebra.BigOperators.Group.List.Basic
import Mathlib.Algebra.Order.BigOperators.Group.List
import Mathlib.Algebra.Order.Group.Int
import Mathlib.Algebra.Ring.Int.Defs

/-!
# Rows that stand for others

When every row of a list is backed by an entry of another one, and no entry backs two rows, the rows
count for no more than the entries do (`sum_le_of_backed`). A row stands for an entry when the two
have the same key; when the keys of the rows differ, no entry is counted twice
(`sum_le_of_matched`). Keys are often made of fields with a separator between them; the last field
can be read off when the separator does not occur in it (`append_cons_inj`).
-/

namespace DayfiBackend.Found.Matched

variable {α β κ : Type*}

/-- **Rows count for no more** than the entries they are backed by, when no entry backs two. -/
theorem sum_le_of_backed {R : α → β → Prop} {v : α → ℤ} {w : β → ℤ} {rows : List α}
    {entries : List β} (hone : rows.Pairwise fun a a' => ∀ b, R a b → ¬ R a' b)
    (hnonneg : ∀ b ∈ entries, 0 ≤ w b) (hback : ∀ a ∈ rows, ∃ b ∈ entries, R a b ∧ v a ≤ w b) :
    (rows.map v).sum ≤ (entries.map w).sum := by
  induction rows generalizing entries with
  | nil =>
      refine List.sum_nonneg fun x hx => ?_
      obtain ⟨b, hb, rfl⟩ := List.mem_map.mp hx
      exact hnonneg b hb
  | cons a rows ih =>
      obtain ⟨hfresh, hone⟩ := List.pairwise_cons.mp hone
      obtain ⟨b, hb, hab, hle⟩ := hback a List.mem_cons_self
      obtain ⟨before, after, rfl⟩ := List.append_of_mem hb
      -- the entry of the first row is not one of a later row
      have hrest : ∀ a' ∈ rows, ∃ b' ∈ before ++ after, R a' b' ∧ v a' ≤ w b' := by
        intro a' ha'
        obtain ⟨b', hb', hab', hle'⟩ := hback a' (List.mem_cons_of_mem a ha')
        refine ⟨b', ?_, hab', hle'⟩
        rcases List.mem_append.mp hb' with h | h
        · exact List.mem_append_left _ h
        · rcases List.mem_cons.mp h with rfl | h
          · exact absurd hab' (hfresh a' ha' _ hab)
          · exact List.mem_append_right _ h
      have hsum := ih hone (fun b' hb' => hnonneg b' (by
        rcases List.mem_append.mp hb' with h | h
        · exact List.mem_append_left _ h
        · exact List.mem_append_right _ (List.mem_cons_of_mem b h))) hrest
      rw [List.map_append, List.sum_append] at hsum
      rw [List.map_cons, List.sum_cons, List.map_append, List.map_cons, List.sum_append,
        List.sum_cons]
      omega

/-- Rows count for no more than the entries they stand for. -/
theorem sum_le_of_matched {f : α → κ} {g : β → κ} {v : α → ℤ} {w : β → ℤ} {rows : List α}
    {entries : List β} (hkeys : (rows.map f).Nodup) (hnonneg : ∀ b ∈ entries, 0 ≤ w b)
    (hmatch : ∀ a ∈ rows, ∃ b ∈ entries, g b = f a ∧ v a ≤ w b) :
    (rows.map v).sum ≤ (entries.map w).sum :=
  sum_le_of_backed (R := fun a b => g b = f a)
    ((List.pairwise_map.mp hkeys).imp fun hne _ h h' => hne (h.symm.trans h')) hnonneg hmatch

/-- The last field, in which the separator does not occur, and what is before it. -/
theorem append_cons_inj {sep : α} {a a' b b' : List α} (hb : sep ∉ b) (hb' : sep ∉ b')
    (h : a ++ sep :: b = a' ++ sep :: b') : a = a' ∧ b = b' := by
  rcases List.append_eq_append_iff.mp h with ⟨t, rfl, ht⟩ | ⟨t, rfl, ht⟩
  · cases t with
    | nil => simpa using ht
    | cons x t =>
        have hx := List.cons.inj ht
        rw [hx.2] at hb
        simp at hb
  · cases t with
    | nil => simpa [eq_comm] using ht
    | cons x t =>
        have hx := List.cons.inj ht
        rw [hx.2] at hb'
        simp at hb'

end DayfiBackend.Found.Matched
