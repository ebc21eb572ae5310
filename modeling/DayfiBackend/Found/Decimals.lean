import DayfiBackend.Found.Keys
import Mathlib.Algebra.Order.Field.Rat
import Mathlib.Data.Nat.Cast.Field
import Mathlib.Tactic.FieldSimp
import Mathlib.Tactic.Ring

/-!
# Decimal texts

A `Decimal` is an optionally signed decimal as it is written: its sign, its digits before the point
and its digits after it. `isDecimal` recognises the texts of decimals (`isDecimal_iff`), and
`beforePoint` and `afterPoint` read the digits back. `ofUnits n m` is the shortest way to write `m`
units of `10^-n`; its value is that number (`value_ofUnits`).
-/

namespace DayfiBackend.Found.Decimals

open DayfiBackend.Found.Keys

/-! ### Digits -/

/-- The number that digits denote. -/
def natural (cs : List Char) : ℕ := Nat.ofDigitChars 10 cs 0

/-- `String.prototype.padStart`, with zeros. -/
def padStart (n : ℕ) (cs : List Char) : List Char := List.replicate (n - cs.length) '0' ++ cs

/-- `replace(/0+$/, '')`. -/
def stripZeros (cs : List Char) : List Char := (cs.reverse.dropWhile (· = '0')).reverse

/-- Every character is a digit. -/
def Digits (cs : List Char) : Prop := ∀ c ∈ cs, c.isDigit = true

section digits

variable {cs : List Char} {n : ℕ}

@[simp] theorem natural_nil : natural [] = 0 := rfl

theorem natural_append (cs ds : List Char) :
    natural (cs ++ ds) = natural cs * 10 ^ ds.length + natural ds := by
  unfold natural
  rw [Nat.ofDigitChars_append, Nat.ofDigitChars_eq_ofDigitChars_zero]
  ring

@[simp] theorem natural_replicate_zero (n : ℕ) : natural (List.replicate n '0') = 0 := by
  simp [natural]

@[simp] theorem natural_toString (n : ℕ) : natural (toString n).toList = n :=
  ofDigitChars_toString n

@[simp] theorem natural_padStart : natural (padStart n cs) = natural cs := by
  simp [padStart, natural_append]

theorem length_padStart (h : cs.length ≤ n) : (padStart n cs).length = n := by
  simp [padStart]
  omega

theorem digits_nil : Digits [] := fun _ hc => (by cases hc)

theorem digits_toString (n : ℕ) : Digits (toString n).toList := fun _ hc =>
  isDigit_of_mem_toString hc

theorem length_toString_le {k : ℕ} (hn : 0 < n) (h : k < 10 ^ n) :
    (toString k).toList.length ≤ n := by
  rw [show (toString k).toList = Nat.toDigits 10 k from Nat.toList_repr]
  exact (Nat.length_toDigits_le_iff (by decide) hn).mpr h

theorem Digits.padStart (h : Digits cs) : Digits (padStart n cs) := by
  intro c hc
  rcases List.mem_append.mp hc with hc | hc
  · rw [List.eq_of_mem_replicate hc]
    rfl
  · exact h c hc

/-- The zeros that are stripped. -/
theorem stripZeros_append (cs : List Char) : ∃ k, stripZeros cs ++ List.replicate k '0' = cs := by
  have hzeros : ∀ c ∈ cs.reverse.takeWhile (· = '0'), c = '0' := by
    intro c hc
    simpa using List.mem_takeWhile_imp hc
  refine ⟨(cs.reverse.takeWhile (· = '0')).length, ?_⟩
  have hsplit := congrArg List.reverse
    (List.takeWhile_append_dropWhile (p := fun c : Char => decide (c = '0')) (l := cs.reverse))
  rw [List.reverse_append, List.reverse_reverse] at hsplit
  have hrep := List.eq_replicate_of_mem hzeros
  calc stripZeros cs ++ List.replicate (cs.reverse.takeWhile (· = '0')).length '0'
      = stripZeros cs ++ (cs.reverse.takeWhile (· = '0')).reverse := by
        conv_rhs => rw [hrep, List.reverse_replicate]
    _ = cs := hsplit

theorem Digits.stripZeros (h : Digits cs) : Digits (stripZeros cs) := by
  intro c hc
  apply h
  obtain ⟨k, hk⟩ := stripZeros_append cs
  rw [← hk]
  exact List.mem_append_left _ hc

/-- The digits of a fraction, filled up to `n` places again. -/
theorem take_stripZeros (h : cs.length = n) :
    (stripZeros cs ++ List.replicate n '0').take n = cs := by
  obtain ⟨k, hk⟩ := stripZeros_append cs
  have hlen : (stripZeros cs).length + k = n := by
    simpa [h] using congrArg List.length hk
  rw [List.take_append, List.take_of_length_le (by omega), List.take_replicate]
  rw [show min (n - (stripZeros cs).length) n = k by omega]
  exact hk

/-- A fraction filled up to `n` places. -/
theorem natural_take (h : cs.length ≤ n) :
    natural ((cs ++ List.replicate n '0').take n) = natural cs * 10 ^ (n - cs.length) := by
  rw [List.take_append, List.take_of_length_le h, List.take_replicate, natural_append,
    natural_replicate_zero, List.length_replicate, Nat.min_eq_left (Nat.sub_le _ _), Nat.add_zero]

end digits

/-! ### Decimals -/

/-- An optionally signed decimal, as it is written. -/
structure Decimal where
  negative : Bool
  whole : List Char
  frac : List Char
  whole_ne : whole ≠ []
  whole_digits : Digits whole
  frac_digits : Digits frac

namespace Decimal

variable (d : Decimal)

/-- The text after the sign. -/
def unsigned : List Char := d.whole ++ if d.frac = [] then [] else '.' :: d.frac

/-- The text. -/
def text : List Char := if d.negative then '-' :: d.unsigned else d.unsigned

/-- The number without its sign. -/
def magnitude : ℚ := natural d.whole + natural d.frac / 10 ^ d.frac.length

/-- The number that is denoted. -/
def value : ℚ := if d.negative then -d.magnitude else d.magnitude

end Decimal

/-- The text denotes the number. -/
def Denotes (s : String) (q : ℚ) : Prop := ∃ d : Decimal, d.text = s.toList ∧ d.value = q

/-- The pattern `/^-?\d+(\.\d+)?$/`. -/
def isDecimal (cs : List Char) : Bool :=
  let unsigned := if cs.head? = some '-' then cs.tail else cs
  let rest := unsigned.dropWhile Char.isDigit
  unsigned.takeWhile Char.isDigit ≠ [] &&
    (rest = [] || rest.head? = some '.' && rest.tail ≠ [] && rest.tail.all Char.isDigit)

/-- The first part of `split('.')`. -/
def beforePoint (cs : List Char) : List Char := cs.takeWhile (· ≠ '.')

/-- The second part of `split('.')`, or nothing. -/
def afterPoint (cs : List Char) : List Char :=
  ((cs.dropWhile (· ≠ '.')).drop 1).takeWhile (· ≠ '.')

section read

variable (d : Decimal)

theorem ne_of_isDigit {c e : Char} (hc : c.isDigit = true) (he : e.isDigit = false) : c ≠ e := by
  rintro rfl
  rw [hc] at he
  cases he

/-- A text without a sign does not begin with one. -/
theorem head_unsigned : d.unsigned.head? ≠ some '-' := by
  unfold Decimal.unsigned
  obtain ⟨c, cs, hcs⟩ := List.exists_cons_of_ne_nil d.whole_ne
  have hc := d.whole_digits c (by simp [hcs])
  simpa [hcs] using ne_of_isDigit hc (by decide)

@[simp] theorem head_text : (d.text.head? = some '-') ↔ d.negative = true := by
  unfold Decimal.text
  cases hneg : d.negative with
  | false => simpa using head_unsigned d
  | true => simp

/-- What follows the digits before the point. -/
theorem head_frac : ∀ c ∈ (if d.frac = [] then [] else '.' :: d.frac).head?, c = '.' := by
  intro c hc
  split_ifs at hc with h
  · cases hc
  · exact (Option.some.inj hc).symm

/-- The digits in front are read up to what is no digit. -/
theorem span_digits {α : Type*} {p : α → Bool} {whole rest : List α}
    (hwhole : ∀ c ∈ whole, p c = true) (hrest : ∀ c ∈ rest.head?, p c = false) :
    (whole ++ rest).takeWhile p = whole ∧ (whole ++ rest).dropWhile p = rest := by
  rw [List.takeWhile_append_of_pos hwhole, List.dropWhile_append_of_pos hwhole]
  cases rest with
  | nil => simp
  | cons c cs => simp [hrest c rfl]

/-- The sign is taken off. -/
theorem unsigned_text :
    (if d.text.head? = some '-' then d.text.tail else d.text) = d.unsigned := by
  simp only [head_text]
  unfold Decimal.text
  split_ifs <;> rfl

theorem isDecimal_text : isDecimal d.text = true := by
  obtain ⟨htake, hdrop⟩ := span_digits (p := Char.isDigit) d.whole_digits
    (fun c hc => by rw [head_frac d c hc]; rfl)
  unfold isDecimal
  dsimp only
  rw [unsigned_text]
  unfold Decimal.unsigned
  rw [htake, hdrop]
  have hfrac : d.frac.all Char.isDigit = true := List.all_eq_true.mpr d.frac_digits
  by_cases h : d.frac = []
  · simp [h, d.whole_ne]
  · simp [h, d.whole_ne, hfrac]

/-- The texts that the pattern accepts are those of decimals. -/
theorem isDecimal_iff (cs : List Char) : isDecimal cs = true ↔ ∃ d : Decimal, d.text = cs := by
  constructor
  · intro h
    set unsigned := if cs.head? = some '-' then cs.tail else cs with hu
    have hcs : cs = if cs.head? = some '-' then '-' :: unsigned else unsigned := by
      cases cs with
      | nil => simp [hu]
      | cons c cs =>
          by_cases hc : c = '-'
          · simp [hu, hc]
          · simp [hu, hc]
    have hsplit := List.takeWhile_append_dropWhile (p := Char.isDigit) (l := unsigned)
    have hwhole : Digits (unsigned.takeWhile Char.isDigit) := fun c hc => List.mem_takeWhile_imp hc
    unfold isDecimal at h
    dsimp only at h
    rw [← hu] at h
    simp only [Bool.and_eq_true, Bool.or_eq_true, decide_eq_true_eq] at h
    obtain ⟨hne, hrest⟩ := h
    rcases hrest with hnil | ⟨⟨hpoint, hfrac⟩, hdigits⟩
    · refine ⟨⟨decide (cs.head? = some '-'), _, [], hne, hwhole, by simp [Digits]⟩, ?_⟩
      rw [hnil, List.append_nil] at hsplit
      simp only [Decimal.text, Decimal.unsigned, hsplit, decide_eq_true_eq, if_pos, List.append_nil]
      exact hcs.symm
    · refine ⟨⟨decide (cs.head? = some '-'), _, (unsigned.dropWhile Char.isDigit).tail, hne,
        hwhole, List.all_eq_true.mp hdigits⟩, ?_⟩
      have htail : '.' :: (unsigned.dropWhile Char.isDigit).tail =
          unsigned.dropWhile Char.isDigit := by
        cases hrest : unsigned.dropWhile Char.isDigit with
        | nil => simp [hrest] at hpoint
        | cons c cs => simpa [hrest, eq_comm] using hpoint
      simp only [Decimal.text, Decimal.unsigned, if_neg hfrac, htail, hsplit, decide_eq_true_eq]
      exact hcs.symm
  · rintro ⟨d, rfl⟩
    exact isDecimal_text d

theorem span_point : d.unsigned.takeWhile (· ≠ '.') = d.whole ∧
    d.unsigned.dropWhile (· ≠ '.') = if d.frac = [] then [] else '.' :: d.frac :=
  span_digits (fun c hc => by simpa using ne_of_isDigit (d.whole_digits c hc) (by decide))
    fun c hc => by simp [head_frac d c hc]

@[simp] theorem beforePoint_unsigned : beforePoint d.unsigned = d.whole := (span_point d).1

@[simp] theorem afterPoint_unsigned : afterPoint d.unsigned = d.frac := by
  unfold afterPoint
  rw [(span_point d).2]
  split_ifs with h
  · simp [h]
  · have hfrac : ∀ c ∈ d.frac, decide (c ≠ '.') = true := fun c hc => by
      simpa using ne_of_isDigit (d.frac_digits c hc) (by decide)
    rw [List.drop_succ_cons, List.drop_zero]
    exact List.takeWhile_eq_self_iff.mpr hfrac

/-- A text denotes one number. -/
theorem Denotes.unique {s : String} {q r : ℚ} (hq : Denotes s q) (hr : Denotes s r) : q = r := by
  obtain ⟨d, hd, rfl⟩ := hq
  obtain ⟨e, he, rfl⟩ := hr
  have htext : d.text = e.text := hd.trans he.symm
  have hneg : d.negative = e.negative := by
    rw [Bool.eq_iff_iff, ← head_text, ← head_text, htext]
  have hunsigned : d.unsigned = e.unsigned := by
    rw [← unsigned_text, ← unsigned_text, htext]
  have hwhole : d.whole = e.whole := by
    rw [← beforePoint_unsigned, ← beforePoint_unsigned, hunsigned]
  have hfrac : d.frac = e.frac := by
    rw [← afterPoint_unsigned, ← afterPoint_unsigned, hunsigned]
  unfold Decimal.value Decimal.magnitude
  rw [hneg, hwhole, hfrac]

/-- No white space stands in a decimal. -/
theorem isSpace_of_mem_text {c : Char} (h : c ∈ d.text) : isSpace c = false := by
  have hunsigned : ∀ e ∈ d.unsigned, isSpace e = false := by
    intro e he
    unfold Decimal.unsigned at he
    rcases List.mem_append.mp he with he | he
    · exact isSpace_of_isDigit (d.whole_digits e he)
    · split_ifs at he with hfrac
      · cases he
      · rcases List.mem_cons.mp he with rfl | he
        · decide
        · exact isSpace_of_isDigit (d.frac_digits e he)
  unfold Decimal.text at h
  split_ifs at h
  · rcases List.mem_cons.mp h with rfl | h
    · decide
    · exact hunsigned c h
  · exact hunsigned c h

end read

/-! ### Units -/

/-- The units of `10^-n` in a decimal of at most `n` places. -/
theorem magnitude_mul {d : Decimal} {n : ℕ} (h : d.frac.length ≤ n) :
    d.magnitude * 10 ^ n =
      (natural d.whole * 10 ^ n + natural ((d.frac ++ List.replicate n '0').take n) : ℕ) := by
  rw [natural_take h]
  unfold Decimal.magnitude
  obtain ⟨k, rfl⟩ := Nat.exists_eq_add_of_le h
  rw [Nat.add_sub_cancel_left]
  push_cast
  rw [pow_add]
  field_simp

/-- The shortest way to write `m` units of `10^-n`. -/
def ofUnits (n : ℕ) (m : ℤ) : Decimal where
  negative := m < 0
  whole := (toString (m.natAbs / 10 ^ n)).toList
  frac := stripZeros (padStart n (toString (m.natAbs % 10 ^ n)).toList)
  whole_ne := toList_toString_ne_nil _
  whole_digits := digits_toString _
  frac_digits := (digits_toString _).padStart.stripZeros

section units

variable {n : ℕ} (hn : 0 < n) (m : ℤ)

include hn

theorem length_padStart_mod :
    (padStart n (toString (m.natAbs % 10 ^ n)).toList).length = n :=
  length_padStart (length_toString_le hn (Nat.mod_lt _ (Nat.pow_pos (by decide))))

theorem length_frac_ofUnits : (ofUnits n m).frac.length ≤ n := by
  obtain ⟨k, hk⟩ := stripZeros_append (padStart n (toString (m.natAbs % 10 ^ n)).toList)
  have hlen := congrArg List.length hk
  rw [length_padStart_mod hn m, List.length_append] at hlen
  exact (Nat.le_add_right _ _).trans hlen.le

theorem magnitude_ofUnits : (ofUnits n m).magnitude * 10 ^ n = m.natAbs := by
  rw [magnitude_mul (length_frac_ofUnits hn m)]
  show ((natural (toString (m.natAbs / 10 ^ n)).toList * 10 ^ n +
    natural ((stripZeros (padStart n (toString (m.natAbs % 10 ^ n)).toList) ++
      List.replicate n '0').take n) : ℕ) : ℚ) = m.natAbs
  rw [take_stripZeros (length_padStart_mod hn m), natural_padStart, natural_toString,
    natural_toString, Nat.div_add_mod']

/-- It denotes that number. -/
theorem value_ofUnits : (ofUnits n m).value * 10 ^ n = m := by
  have hmag := magnitude_ofUnits hn m
  unfold Decimal.value
  have hneg : (ofUnits n m).negative = decide (m < 0) := rfl
  rw [hneg]
  by_cases h : m < 0
  · rw [if_pos (by simpa using h), neg_mul, hmag, Nat.cast_natAbs, abs_of_neg h]
    push_cast
    ring
  · rw [if_neg (by simpa using h), hmag, Nat.cast_natAbs, abs_of_nonneg (not_lt.mp h)]

end units

end DayfiBackend.Found.Decimals
