import DayfiBackend.Found.Keys
import Mathlib.Data.List.Lex
import Mathlib.Data.List.Sort
import Mathlib.Data.Fin.Basic
import Mathlib.Order.Fin.Basic
import Mathlib.Tactic.NormNum

/-!
# Texts of code units in quotation marks

A text is a list of 16-bit code units; half of a pair may stand alone in it. `quote` writes it as
JSON does, and `unquote` reads it back whatever follows (`unquote_quote`).
-/

namespace DayfiBackend.Found.CodeUnits

/-- One proof for all the code units that are written as numbers. -/
instance neZeroCodeUnits : NeZero 65536 := ⟨by decide⟩

/-- A code unit of 16 bits. -/
abbrev CodeUnit := Fin 65536

/-- A text. -/
abbrev Units := List CodeUnit

/-- The code unit of a plain character. -/
def sign (c : Char) : CodeUnit := Fin.ofNat 65536 c.toNat

/-- The code units of plain characters. -/
def ofChars (cs : List Char) : Units := cs.map sign

/-- The quotation mark. -/
def mark : CodeUnit := 34

/-- The backslash. -/
def backslash : CodeUnit := 92

/-- The first half of a pair. -/
def isHigh (u : CodeUnit) : Bool := 0xD800 ≤ u.val && u.val < 0xDC00

/-- The second half of a pair. -/
def isLow (u : CodeUnit) : Bool := 0xDC00 ≤ u.val && u.val < 0xE000

/-! ### Writing -/

/-- A hexadecimal digit. -/
def hexDigit (n : ℕ) : CodeUnit := Fin.ofNat 65536 (if n < 10 then 48 + n else 87 + n)

/-- Source: ECMAScript `UnicodeEscape`. -/
def unicodeEscape (u : CodeUnit) : Units :=
  [backslash, 117, hexDigit (u.val / 4096), hexDigit (u.val / 256 % 16),
    hexDigit (u.val / 16 % 16), hexDigit (u.val % 16)]

/-- The code units that have an escape of their own, with the letter of it. -/
def shortEscapes : List (CodeUnit × CodeUnit) :=
  [(8, 98), (9, 116), (10, 110), (12, 102), (13, 114), (34, 34), (92, 92)]

/-- A code unit that is no half of a pair. -/
def escape (u : CodeUnit) : Units :=
  match shortEscapes.lookup u with
  | some letter => [backslash, letter]
  | none => if u < 32 then unicodeEscape u else [u]

/-- The text between the quotation marks. -/
def escapes : Units → Units
  | [] => []
  | u :: us =>
      if isHigh u then
        match us with
        | [] => unicodeEscape u
        | v :: vs =>
            if isLow v then u :: v :: escapes vs else unicodeEscape u ++ escapes (v :: vs)
      else if isLow u then unicodeEscape u ++ escapes us
      else escape u ++ escapes us

/-- Source: ECMAScript `QuoteJSONString`. -/
def quote (us : Units) : Units := mark :: (escapes us ++ [mark])

/-! ### Reading -/

/-- The value of a hexadecimal digit. -/
def hexValue (u : CodeUnit) : ℕ := if u.val < 58 then u.val - 48 else u.val - 87

/-- The text up to the closing quotation mark, and what follows. -/
def unescapes : Units → Units × Units
  | [] => ([], [])
  | u :: us =>
      if u = mark then ([], us)
      else if u = backslash then
        match us with
        | [] => ([], [])
        | c :: cs =>
            if c = 117 then
              match cs with
              | h₁ :: h₂ :: h₃ :: h₄ :: more =>
                  let read := unescapes more
                  (Fin.ofNat 65536 (((hexValue h₁ * 16 + hexValue h₂) * 16 + hexValue h₃) * 16 +
                    hexValue h₄) :: read.1, read.2)
              | _ => ([], [])
            else
              let read := unescapes cs
              (((shortEscapes.find? (·.2 = c)).map (·.1)).getD c :: read.1, read.2)
      else
        let read := unescapes us
        (u :: read.1, read.2)

theorem unescapes_mark (r : Units) : unescapes (mark :: r) = ([], r) := by
  rw [unescapes.eq_def]
  simp

theorem unescapes_plain {u : CodeUnit} (hmark : u ≠ mark) (hback : u ≠ backslash) (r : Units) :
    unescapes (u :: r) = (u :: (unescapes r).1, (unescapes r).2) := by
  rw [unescapes.eq_def]
  simp [hmark, hback]

theorem hexValue_hexDigit : ∀ n < 16, hexValue (hexDigit n) = n := by decide

theorem unescapes_unicodeEscape (u : CodeUnit) (r : Units) :
    unescapes (unicodeEscape u ++ r) = (u :: (unescapes r).1, (unescapes r).2) := by
  have hu := u.isLt
  have hback : backslash ≠ mark := by decide
  have hvalue : ((u.val / 4096 * 16 + u.val / 256 % 16) * 16 + u.val / 16 % 16) * 16 + u.val % 16 =
      u.val := by omega
  simp only [unicodeEscape, List.cons_append, List.nil_append, unescapes, hback, if_false, if_true]
  rw [hexValue_hexDigit _ (by omega), hexValue_hexDigit _ (by omega),
    hexValue_hexDigit _ (by omega), hexValue_hexDigit _ (by omega), hvalue]
  congr 2
  exact Fin.ofNat_val_eq_self u

/-- An escape of its own reads back. -/
theorem unescapes_short {u letter : CodeUnit} (h : (u, letter) ∈ shortEscapes) (r : Units) :
    unescapes (backslash :: letter :: r) = (u :: (unescapes r).1, (unescapes r).2) := by
  have hletter : ∀ p ∈ shortEscapes, p.2 ≠ 117 ∧
      ((shortEscapes.find? (·.2 = p.2)).map (·.1)).getD p.2 = p.1 :=
    Keys.forall_mem_of_all (by decide)
  obtain ⟨hne, hfound⟩ := hletter _ h
  have hback : backslash ≠ mark := by decide
  rw [unescapes.eq_def]
  simp only [hback, hne, if_false, if_true]
  rw [hfound]

theorem unescapes_escape (u : CodeUnit) (r : Units) :
    unescapes (escape u ++ r) = (u :: (unescapes r).1, (unescapes r).2) := by
  unfold escape
  cases hlookup : shortEscapes.lookup u with
  | some letter =>
      obtain ⟨l₁, l₂, hsplit, -⟩ := List.lookup_eq_some_iff.mp hlookup
      exact unescapes_short (by rw [hsplit]; simp) r
  | none =>
      have hnot := List.lookup_eq_none_iff.mp hlookup
      have hmark : u ≠ mark := by simpa using hnot (mark, mark) (by decide)
      have hback : u ≠ backslash := by simpa using hnot (backslash, backslash) (by decide)
      dsimp only
      split_ifs
      · exact unescapes_unicodeEscape u r
      · exact unescapes_plain hmark hback r

/-- Half of a pair is not a sign that is escaped. -/
theorem unescapes_half {u : CodeUnit} (h : isHigh u = true ∨ isLow u = true) (r : Units) :
    unescapes (u :: r) = (u :: (unescapes r).1, (unescapes r).2) := by
  have hle : 0xD800 ≤ u.val := by
    rcases h with h | h
    · simp only [isHigh, Bool.and_eq_true, decide_eq_true_eq] at h
      exact h.1
    · simp only [isLow, Bool.and_eq_true, decide_eq_true_eq] at h
      omega
  refine unescapes_plain ?_ ?_ r
  · rintro rfl
    exact absurd hle (by decide)
  · rintro rfl
    exact absurd hle (by decide)

/-- **A text comes back from between its quotation marks.** -/
theorem unescapes_escapes (us r : Units) : unescapes (escapes us ++ mark :: r) = (us, r) := by
  fun_induction escapes us with
  | case1 => exact unescapes_mark r
  | case2 u hu => rw [unescapes_unicodeEscape, unescapes_mark]
  | case3 u hu v vs hv ih =>
      rw [List.cons_append, List.cons_append, unescapes_half (.inl hu), unescapes_half (.inr hv),
        ih]
  | case4 u hu v vs hv ih => rw [List.append_assoc, unescapes_unicodeEscape, ih]
  | case5 u us hu hv ih => rw [List.append_assoc, unescapes_unicodeEscape, ih]
  | case6 u us hu hv ih => rw [List.append_assoc, unescapes_escape, ih]

/-- Texts in quotation marks agree with what follows them only if they are the same. -/
theorem quote_append_inj {us vs r s : Units} (h : quote us ++ r = quote vs ++ s) :
    us = vs ∧ r = s := by
  have hread : ∀ ws t : Units, unescapes (quote ws ++ t).tail = (ws, t) := by
    intro ws t
    rw [quote, List.cons_append, List.tail_cons, List.append_assoc]
    exact unescapes_escapes ws t
  have hpair : (us, r) = (vs, s) := by rw [← hread us r, ← hread vs s, h]
  exact Prod.mk.inj hpair

end DayfiBackend.Found.CodeUnits
