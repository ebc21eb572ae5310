import Mathlib.Algebra.BigOperators.Group.List.Basic
import Mathlib.Algebra.Ring.Int.Defs
import Mathlib.Data.List.Nodup
import Mathlib.Tactic.Ring

/-!
# Rows of a table

The rows of a table are a list in which a key occurs once. A sum over the rows changes, when one
row or what one row counts for changes, by what that row counts for (`sum_map_of_eq_off`,
`sum_map_update`). The lengths of texts are here too.
-/

namespace DayfiBackend.Found.Rows

variable {α κ : Type} {key : α → κ} {l : List α} {a : α}

/-- The text fits a `VARCHAR(n)` column, which cuts off spaces at its end. -/
def fitsVarchar (n : ℕ) (s : String) : Bool := (s.toList.drop n).all (· = ' ')

/-- The length of a text in code units. -/
def codeUnits (s : String) : ℕ := (s.toList.map fun c => if c.toNat < 0x10000 then 1 else 2).sum

/-- One row counts for something else. -/
theorem sum_map_of_eq_off {R : Type} [CommRing R] (hl : (l.map key).Nodup) (ha : a ∈ l)
    {g h : α → R}
    (heq : ∀ b ∈ l, key b ≠ key a → h b = g b) :
    (l.map h).sum = (l.map g).sum - g a + h a := by
  induction l with
  | nil => cases ha
  | cons b l ih =>
      obtain ⟨hb, hl⟩ := List.nodup_cons.mp hl
      simp only [List.map_cons, List.sum_cons]
      rcases List.mem_cons.mp ha with rfl | ha
      · have hrest : l.map h = l.map g := List.map_congr_left fun c hc =>
          heq c (List.mem_cons_of_mem _ hc) fun he => hb (he ▸ List.mem_map_of_mem hc)
        rw [hrest]
        ring
      · have hne : key b ≠ key a := fun he => hb (he ▸ List.mem_map_of_mem ha)
        rw [ih hl ha fun c hc => heq c (List.mem_cons_of_mem _ hc),
          heq b List.mem_cons_self hne]
        ring

/-- One row is updated. -/
theorem sum_map_update {R : Type} [CommRing R] (hl : (l.map key).Nodup) (ha : a ∈ l) {f : α → α}
    (hf : ∀ b ∈ l, key b ≠ key a → f b = b) (g : α → R) :
    ((l.map f).map g).sum = (l.map g).sum - g a + g (f a) := by
  rw [List.map_map]
  exact sum_map_of_eq_off hl ha fun b hb hne => congrArg g (hf b hb hne)

end DayfiBackend.Found.Rows
