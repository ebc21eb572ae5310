import DayfiBackend.Found.Binary64
import DayfiBackend.Found.Decimals
import Mathlib.Data.Prod.Lex

/-!
# How a number is printed

A finite binary64 number is printed as the shortest decimal that reads back as it, without an
exponent where that takes at most twenty-one digits in front of the point. The text determines the
number (`Number.text_inj`), and every sign in it is one of a few (`isNumeric_text`).
-/

namespace DayfiBackend.Found.NumberText

open DayfiBackend.Found.Binary64 DayfiBackend.Found.Decimals

/-! ### Numbers -/

/-- The spacing of the numbers around `x`; below the smallest normal number it no longer shrinks. -/
def spacing (x : ℚ) : ℚ := max (ulp x) (2 ^ (-1074 : ℤ))

/-- The binary64 number nearest to `x`, ties to even. -/
def toBinary64 (x : ℚ) : ℚ := roundHalfEven (x / spacing x) * spacing x

/-- A finite binary64 number. There is one zero only: `-0` equals `0`, and is printed like it. -/
structure Number where
  value : ℚ
  finite : |value| < 2 ^ 1024
  exact : toBinary64 |value| = |value|

theorem Number.ext {x y : Number} (h : x.value = y.value) : x = y := by
  cases x
  cases y
  cases h
  rfl

/-! ### The shortest decimal -/

/-- The last place of a decimal of `k` digits next to `x`. -/
def unit (x : ℚ) (k : ℕ) : ℚ := 10 ^ (Int.log 10 x + 1 - k)

/-- The significand of `k` digits that reads back as `x`, the closest one of two. -/
def significand (x : ℚ) (k : ℕ) : Option ℕ :=
  ([⌊x / unit x k⌋₊, ⌈x / unit x k⌉₊].filter fun s : ℕ => toBinary64 (s * unit x k) = x).argmin
    fun s => toLex (|s * unit x k - x|, s % 2)

/-- The significand of the fewest digits, and the exponent of its last place. -/
def shortest (x : ℚ) (h : ∃ k, (significand x (k + 1)).isSome) : ℕ × ℤ :=
  ((significand x (Nat.find h + 1)).get (Nat.find_spec h), Int.log 10 x - Nat.find h)

section shortest

variable {x : ℚ}

theorem spacing_pos (x : ℚ) : 0 < spacing x := lt_max_of_lt_left (ulp_pos x)

theorem unit_pos (x : ℚ) (k : ℕ) : 0 < unit x k := zpow_pos (by norm_num) _

@[simp] theorem toBinary64_zero : toBinary64 0 = 0 := by
  have h := roundHalfEven_intCast 0
  rw [Int.cast_zero] at h
  simp [toBinary64, h]

/-- A binary64 number is a whole multiple of a power of two. -/
theorem exists_eq_mul_zpow (hx : toBinary64 x = x) : ∃ m j : ℤ, x = m * 2 ^ j := by
  have hspacing : ∃ j : ℤ, spacing x = 2 ^ j := by
    rcases max_choice (ulp x) (2 ^ (-1074 : ℤ)) with h | h
    · exact ⟨_, h⟩
    · exact ⟨_, h⟩
  obtain ⟨j, hj⟩ := hspacing
  exact ⟨roundHalfEven (x / spacing x), j, by rw [← hj]; exact hx.symm⟩

/-- Enough decimal places hold a multiple of a power of two exactly. -/
theorem exists_whole (hpos : 0 < x) (hx : toBinary64 x = x) :
    ∃ k n : ℕ, x / unit x (k + 1) = n := by
  obtain ⟨m, j, hm⟩ := exists_eq_mul_zpow hx
  let e := Int.log 10 x
  let k := (e + |j|).toNat
  obtain ⟨i, hi⟩ := Int.eq_ofNat_of_zero_le (show 0 ≤ k - e - |j| by omega)
  obtain ⟨b, hb⟩ := Int.eq_ofNat_of_zero_le (show 0 ≤ j + |j| by have := neg_abs_le j; omega)
  obtain ⟨a, ha⟩ := Int.eq_ofNat_of_zero_le (abs_nonneg j)
  have hunit : unit x (k + 1) = 10 ^ (-(k - e) : ℤ) := by
    unfold unit
    congr 1
    push_cast
    ring
  have hten : (10 : ℚ) ^ ((k : ℤ) - e) = 5 ^ a * 2 ^ a * 10 ^ i := by
    rw [show (k : ℤ) - e = (a : ℤ) + i by omega, zpow_add₀ (by norm_num), zpow_natCast,
      zpow_natCast, show (10 : ℚ) = 5 * 2 by norm_num, mul_pow]
  have htwo : (2 : ℚ) ^ j * 2 ^ a = 2 ^ b := by
    rw [← zpow_natCast, ← zpow_add₀ (by norm_num), ← ha, hb, zpow_natCast]
  have hvalue : x / unit x (k + 1) = ((m * (5 ^ a * 2 ^ b * 10 ^ i) : ℤ) : ℚ) := by
    rw [hunit, zpow_neg, div_inv_eq_mul, hten]
    conv_lhs => rw [hm]
    push_cast
    rw [← htwo]
    ring
  have hnonneg : 0 ≤ m * (5 ^ a * 2 ^ b * 10 ^ i) := by
    have h := div_pos hpos (unit_pos x (k + 1))
    rw [hvalue] at h
    exact_mod_cast h.le
  obtain ⟨n, hn⟩ := Int.eq_ofNat_of_zero_le hnonneg
  exact ⟨k, n, by rw [hvalue, hn]; rfl⟩

/-- Some decimal reads back. -/
theorem exists_significand (hpos : 0 < x) (hx : toBinary64 x = x) :
    ∃ k, (significand x (k + 1)).isSome := by
  obtain ⟨k, n, hn⟩ := exists_whole hpos hx
  refine ⟨k, ?_⟩
  have hback : (n : ℚ) * unit x (k + 1) = x := by
    rw [← hn, div_mul_cancel₀ _ (unit_pos x (k + 1)).ne']
  have hmem : n ∈ [⌊x / unit x (k + 1)⌋₊, ⌈x / unit x (k + 1)⌉₊].filter
      fun s : ℕ => toBinary64 (s * unit x (k + 1)) = x := by
    simp [hn, hback, hx]
  rw [Option.isSome_iff_ne_none, significand, Ne, List.argmin_eq_none]
  exact List.ne_nil_of_mem hmem

/-- The shortest decimal reads back. -/
theorem toBinary64_shortest (h : ∃ k, (significand x (k + 1)).isSome) :
    toBinary64 ((shortest x h).1 * 10 ^ (shortest x h).2) = x := by
  have hmem := List.argmin_mem (Option.some_get (Nat.find_spec h)).symm
  have hread := (List.mem_filter.mp hmem).2
  have hunit : unit x (Nat.find h + 1) = 10 ^ (shortest x h).2 := by
    unfold unit shortest
    congr 1
    push_cast
    ring
  rw [← hunit]
  exact of_decide_eq_true hread

end shortest

/-! ### The layout -/

/-- An exponent, with its sign. -/
def exponentText : Option ℤ → List Char
  | none => []
  | some e => 'e' :: (if e < 0 then '-' else '+') :: (toString e.natAbs).toList

/-- A decimal with an exponent or without, as it is written. -/
structure Numeral where
  mantissa : Decimal
  exponent : Option ℤ

namespace Numeral

/-- The text. -/
def text (t : Numeral) : List Char := t.mantissa.unsigned ++ exponentText t.exponent

/-- The number that is denoted. -/
def value (t : Numeral) : ℚ := t.mantissa.magnitude * 10 ^ t.exponent.getD 0

end Numeral

theorem digits_append {cs ds : List Char} (hcs : Digits cs) (hds : Digits ds) :
    Digits (cs ++ ds) := by
  intro c hc
  rcases List.mem_append.mp hc with hc | hc
  · exact hcs c hc
  · exact hds c hc

theorem digits_zeros (k : ℕ) : Digits (List.replicate k '0') := by
  intro c hc
  rw [List.eq_of_mem_replicate hc]
  rfl

theorem take_ne {cs : List Char} {k : ℕ} (hcs : cs ≠ []) (hk : 0 < k) : cs.take k ≠ [] := by
  rw [Ne, List.take_eq_nil_iff]
  exact not_or.mpr ⟨by omega, hcs⟩

/-- A decimal without a sign. -/
def plain (whole frac : List Char) (hne : whole ≠ []) (hwhole : Digits whole)
    (hfrac : Digits frac) : Decimal where
  negative := false
  whole := whole
  frac := frac
  whole_ne := hne
  whole_digits := hwhole
  frac_digits := hfrac

/-- Digits that are split by a point. -/
def splitAt (ds : List Char) (hne : ds ≠ []) (hds : Digits ds) (k : ℕ) (hk : 0 < k) : Decimal :=
  plain (ds.take k) (ds.drop k) (take_ne hne hk) (fun c hc => hds c (List.mem_of_mem_take hc))
    fun c hc => hds c (List.mem_of_mem_drop hc)

/-- The numeral of the digits `ds` with the point behind `n` of them. -/
def layout (ds : List Char) (hne : ds ≠ []) (hds : Digits ds) (n : ℤ) : Numeral :=
  if ds.length ≤ n ∧ n ≤ 21 then
    ⟨plain (ds ++ List.replicate (n - ds.length).toNat '0') [] (by simp [hne])
      (digits_append hds (digits_zeros _)) fun _ hc => (by cases hc), none⟩
  else if h : 0 < n ∧ n ≤ 21 then
    ⟨splitAt ds hne hds n.toNat (by omega), none⟩
  else if -6 < n ∧ n ≤ 0 then
    ⟨plain ['0'] (List.replicate (-n).toNat '0' ++ ds) (by simp) (digits_zeros 1)
      (digits_append (digits_zeros _) hds), none⟩
  else ⟨splitAt ds hne hds 1 Nat.one_pos, some (n - 1)⟩

section layout

variable {ds : List Char} {hne : ds ≠ []} {hds : Digits ds}

theorem magnitude_splitAt {k : ℕ} {hk : 0 < k} (hle : k ≤ ds.length) :
    (splitAt ds hne hds k hk).magnitude = natural ds * 10 ^ ((k : ℤ) - ds.length) := by
  have hsplit : natural ds = natural (ds.take k) * 10 ^ (ds.length - k) + natural (ds.drop k) := by
    conv_lhs => rw [← List.take_append_drop k ds, natural_append, List.length_drop]
  have hpow : (10 : ℚ) ^ ((k : ℤ) - ds.length) = (10 ^ (ds.length - k))⁻¹ := by
    rw [← zpow_natCast, ← zpow_neg]
    congr 1
    omega
  show (natural (ds.take k) : ℚ) + natural (ds.drop k) / 10 ^ (ds.drop k).length = _
  rw [hsplit, hpow, List.length_drop]
  push_cast
  field_simp

/-- The numeral denotes the digits, shifted. -/
theorem value_layout (n : ℤ) :
    (layout ds hne hds n).value = natural ds * 10 ^ (n - ds.length) := by
  have hlen := List.length_pos_of_ne_nil hne
  unfold layout
  split_ifs with hwhole hsplit hsmall
  · obtain ⟨i, hi⟩ := Int.eq_ofNat_of_zero_le (show 0 ≤ n - ds.length by omega)
    show ((natural (ds ++ List.replicate (n - ds.length).toNat '0') : ℚ) +
      natural [] / 10 ^ 0) * 10 ^ (0 : ℤ) = _
    rw [natural_append, hi]
    simp
  · have hk : 0 < n.toNat := by omega
    show (splitAt ds hne hds n.toNat hk).magnitude * 10 ^ (0 : ℤ) = _
    rw [magnitude_splitAt (by omega), zpow_zero, mul_one, Int.toNat_of_nonneg (by omega)]
  · obtain ⟨i, hi⟩ := Int.eq_ofNat_of_zero_le (show 0 ≤ -n by omega)
    have hpow : (10 : ℚ) ^ (n - ds.length) = (10 ^ (i + ds.length))⁻¹ := by
      rw [← zpow_natCast, ← zpow_neg]
      congr 1
      omega
    show ((natural ['0'] : ℚ) + natural (List.replicate (-n).toNat '0' ++ ds) /
      10 ^ (List.replicate (-n).toNat '0' ++ ds).length) * 10 ^ (0 : ℤ) = _
    have hzero : natural ['0'] = 0 := by decide
    rw [hzero, natural_append, hpow, hi]
    simp
    field_simp
  · show (splitAt ds hne hds 1 Nat.one_pos).magnitude * 10 ^ (n - 1) = _
    rw [magnitude_splitAt hlen, mul_assoc, ← zpow_add₀ (by norm_num)]
    congr 2
    push_cast
    ring

end layout

/-! ### The text -/

theorem significand_pos {x : ℚ} (hpos : 0 < x) (hx : toBinary64 x = x) :
    0 < (shortest x (exists_significand hpos hx)).1 := by
  refine Nat.pos_of_ne_zero fun hzero => ?_
  have h := toBinary64_shortest (exists_significand hpos hx)
  rw [hzero, Nat.cast_zero, zero_mul, toBinary64_zero] at h
  exact hpos.ne h

theorem stripZeros_ne {s : ℕ} (hs : 0 < s) : stripZeros (toString s).toList ≠ [] := by
  intro h
  obtain ⟨k, hk⟩ := stripZeros_append (toString s).toList
  rw [h, List.nil_append] at hk
  have hvalue := natural_toString s
  rw [← hk, natural_replicate_zero] at hvalue
  omega

/-- The numeral of a number that is not negative. -/
def numeral (x : ℚ) (hx : toBinary64 x = x) : Numeral :=
  if h : 0 < x then
    let s := shortest x (exists_significand h hx)
    let ds := stripZeros (toString s.1).toList
    layout ds (stripZeros_ne (significand_pos h hx)) (digits_toString s.1).stripZeros
      ((toString s.1).toList.length + s.2)
  else ⟨plain ['0'] [] (by simp) (digits_zeros 1) fun _ hc => (by cases hc), none⟩

/-- The text of a number. -/
def Number.text (x : Number) : List Char :=
  (if x.value < 0 then ['-'] else []) ++ (numeral |x.value| x.exact).text

section text

variable {x y : ℚ}

/-- The numeral reads back as the number. -/
theorem toBinary64_numeral (hx : toBinary64 x = x) (hnonneg : 0 ≤ x) :
    toBinary64 (numeral x hx).value = x := by
  unfold numeral
  split_ifs with h
  · obtain ⟨k, hk⟩ := stripZeros_append (toString (shortest x (exists_significand h hx)).1).toList
    have hdigits := congrArg natural hk
    have hlen := congrArg List.length hk
    rw [natural_toString, natural_append, natural_replicate_zero, Nat.add_zero,
      List.length_replicate] at hdigits
    rw [List.length_append, List.length_replicate] at hlen
    dsimp only
    rw [value_layout, ← hlen]
    refine Eq.trans (congrArg toBinary64 ?_) (toBinary64_shortest (exists_significand h hx))
    conv_rhs => rw [← hdigits]
    push_cast
    rw [add_sub_right_comm, add_sub_cancel_left, zpow_add₀ (by norm_num), zpow_natCast]
    ring
  · have hzero : x = 0 := le_antisymm (not_lt.mp h) hnonneg
    subst hzero
    refine Eq.trans (congrArg toBinary64 ?_) toBinary64_zero
    have hdigit : natural ['0'] = 0 := by decide
    show ((natural ['0'] : ℚ) + natural [] / 10 ^ 0) * 10 ^ (0 : ℤ) = 0
    simp [hdigit]

/-- An exponent comes back from its text. -/
theorem exponentText_inj {d e : Option ℤ} (h : exponentText d = exponentText e) : d = e := by
  cases d with
  | none =>
      cases e with
      | none => rfl
      | some e => cases h
  | some d =>
      cases e with
      | none => cases h
      | some e =>
          obtain ⟨hsign, habs⟩ := List.cons.inj (List.cons.inj h).2
          have hnat := congrArg natural habs
          rw [natural_toString, natural_toString] at hnat
          congr 1
          split_ifs at hsign with hd he he
          · omega
          · exact absurd hsign (by decide)
          · exact absurd hsign (by decide)
          · omega

/-- What stands in a text without a sign. -/
theorem mem_unsigned {d : Decimal} {c : Char} (h : c ∈ d.unsigned) :
    c.isDigit = true ∨ c = '.' := by
  rcases List.mem_append.mp h with h | h
  · exact .inl (d.whole_digits c h)
  · split_ifs at h
    · cases h
    · rcases List.mem_cons.mp h with rfl | h
      · exact .inr rfl
      · exact .inl (d.frac_digits c h)

/-- The number comes back from the text of a numeral. -/
theorem Numeral.value_inj {s t : Numeral} (h : s.text = t.text) : s.value = t.value := by
  have hsplit : ∀ u : Numeral, u.text.takeWhile (· ≠ 'e') = u.mantissa.unsigned ∧
      u.text.dropWhile (· ≠ 'e') = exponentText u.exponent := by
    intro u
    refine span_digits (fun c hc => ?_) fun c hc => ?_
    · rcases mem_unsigned hc with hdigit | rfl
      · simpa using ne_of_isDigit hdigit (by decide)
      · decide
    · cases hexp : u.exponent with
      | none =>
          rw [hexp] at hc
          cases hc
      | some e =>
          rw [hexp] at hc
          obtain rfl : 'e' = c := Option.some.inj hc
          decide
  have hmantissa : s.mantissa.unsigned = t.mantissa.unsigned := by
    rw [← (hsplit s).1, ← (hsplit t).1, h]
  have hexponent : s.exponent = t.exponent :=
    exponentText_inj (by rw [← (hsplit s).2, ← (hsplit t).2, h])
  have hwhole : s.mantissa.whole = t.mantissa.whole := by
    rw [← beforePoint_unsigned, ← beforePoint_unsigned, hmantissa]
  have hfrac : s.mantissa.frac = t.mantissa.frac := by
    rw [← afterPoint_unsigned, ← afterPoint_unsigned, hmantissa]
  simp only [Numeral.value, Decimal.magnitude, hwhole, hfrac, hexponent]

/-- A numeral begins with a digit. -/
theorem Numeral.text_cons (t : Numeral) : ∃ c cs, t.text = c :: cs ∧ c.isDigit = true := by
  obtain ⟨c, cs, hcons⟩ := List.exists_cons_of_ne_nil t.mantissa.whole_ne
  exact ⟨c, _, by rw [Numeral.text, Decimal.unsigned, hcons]; rfl,
    t.mantissa.whole_digits c (by simp [hcons])⟩

/-- **A number comes back from its text.** -/
theorem Number.text_inj {x y : Number} (h : x.text = y.text) : x = y := by
  obtain ⟨c, cs, hc, hcdigit⟩ := (numeral |x.value| x.exact).text_cons
  obtain ⟨d, ds, hd, hddigit⟩ := (numeral |y.value| y.exact).text_cons
  have hminus : ∀ e : Char, e.isDigit = true → e ≠ '-' := fun e he => ne_of_isDigit he (by decide)
  have hnumeral : (numeral |x.value| x.exact).text = (numeral |y.value| y.exact).text ∧
      (x.value < 0 ↔ y.value < 0) := by
    unfold Number.text at h
    split_ifs at h with hx hy hy
    · exact ⟨(List.cons.inj h).2, by simp [hx, hy]⟩
    · rw [hd] at h
      exact absurd (List.cons.inj h).1.symm (hminus d hddigit)
    · rw [hc] at h
      exact absurd (List.cons.inj h).1 (hminus c hcdigit)
    · exact ⟨h, by simp [hx, hy]⟩
  have habs : |x.value| = |y.value| := by
    rw [← toBinary64_numeral x.exact (abs_nonneg _), ← toBinary64_numeral y.exact (abs_nonneg _),
      Numeral.value_inj hnumeral.1]
  refine Number.ext ?_
  rcases lt_or_ge x.value 0 with hx | hx
  · have hy := hnumeral.2.mp hx
    rw [abs_of_neg hx, abs_of_neg hy] at habs
    linarith
  · have hy : 0 ≤ y.value := not_lt.mp fun hy => not_lt.mpr hx (hnumeral.2.mpr hy)
    rwa [abs_of_nonneg hx, abs_of_nonneg hy] at habs

/-- The signs of a number. -/
def isNumeric (c : Char) : Bool := c.isDigit || c ∈ ['-', '.', 'e', '+']

/-- What stands in the text of a number. -/
theorem isNumeric_text {x : Number} {c : Char} (h : c ∈ x.text) : isNumeric c = true := by
  unfold isNumeric
  rcases List.mem_append.mp h with h | h
  · split_ifs at h
    · rw [List.mem_singleton.mp h]
      decide
    · cases h
  · rcases List.mem_append.mp h with h | h
    · rcases mem_unsigned h with hdigit | rfl
      · rw [hdigit]
        rfl
      · decide
    · cases hexp : (numeral |x.value| x.exact).exponent with
      | none =>
          rw [hexp] at h
          cases h
      | some e =>
          rw [hexp] at h
          rcases List.mem_cons.mp h with rfl | h
          · decide
          · rcases List.mem_cons.mp h with rfl | h
            · split_ifs <;> decide
            · rw [digits_toString _ c h]
              rfl

/-- The text of a number begins with one of its signs. -/
theorem Number.text_cons (x : Number) : ∃ c cs, x.text = c :: cs ∧ isNumeric c = true := by
  obtain ⟨c, cs, hcons, -⟩ := (numeral |x.value| x.exact).text_cons
  obtain ⟨d, ds, hd⟩ := List.exists_cons_of_ne_nil (l := x.text) (by simp [Number.text, hcons])
  exact ⟨d, ds, hd, isNumeric_text (by rw [hd]; exact List.mem_cons_self)⟩

end text

end DayfiBackend.Found.NumberText
