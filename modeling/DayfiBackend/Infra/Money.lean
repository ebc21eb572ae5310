import DayfiBackend.Found.Binary64

/-!
# Amounts: NUMERIC(28,7) columns and JavaScript numbers

A `NUMERIC(28,7)` column holds an integer number of minor units (`10^-7` USDC) below `10^28`.
The ledger reads it as text, computes with it as a JavaScript number and binds the number back as
text, so a balance passes through binary64 on every operation. The definitions follow that route:
`toNumber` is the read, `round7` the code's `Math.round(x * 1e7) / 1e7`, `toNumeric` the write.

Up to `exactLimit = 2^50` minor units (about 112.6 million USDC) the route is exact: reading,
adding, subtracting, comparing and writing give what integer arithmetic on minor units gives
(`toNumeric_add`, `round7_add`, `round7_sub`, `num_lt_num_iff`). Above it a small amount can vanish
in a large balance.
-/

namespace DayfiBackend.Infra

open DayfiBackend.Found.Binary64

/-- The decimal of `c` minor units. -/
def usdc (c : ℤ) : ℚ := c / 10 ^ 7

theorem usdc_inj {a b : ℤ} : usdc a = usdc b ↔ a = b := by
  unfold usdc
  rw [div_left_inj' (by norm_num), Int.cast_inj]

/-- The number nearest to a column of `c` minor units: `Number(text)`. -/
def num (c : ℤ) : ℚ := nearest (c / 10 ^ 7)

/-- `Math.round(x * 1e7) / 1e7`.
Source: `infraLedgerService.ts` `parseAmount`, `toNumber` and the `*After` expressions. -/
def round7 (x : ℚ) : ℚ := nearest ((round (nearest (x * 10 ^ 7)) : ℤ) / 10 ^ 7)

/-- A column read back as a number.
Source: `infraLedgerService.ts` `toNumber`. -/
def toNumber (c : ℤ) : ℚ := round7 (num c)

/-- A number bound to a `NUMERIC(28,7)` column: printed in decimal, then rounded half away from
zero at the seventh place. -/
def toNumeric (x : ℚ) : ℤ := roundHalfAway (toDecimal x * 10 ^ 7)

/-- The range of a `NUMERIC(28,7)` column. -/
def numericLimit : ℤ := 10 ^ 28

/-- Balances and amounts up to here are carried exactly, in minor units. -/
def exactLimit : ℤ := 2 ^ 50

theorem exactLimit_lt_numericLimit : exactLimit < numericLimit := by
  unfold exactLimit numericLimit
  norm_num

/-! ### Error bounds, in minor units -/

section exact

variable {a b c : ℤ}

theorem abs_cast_le (h : |c| ≤ exactLimit) : |(c : ℚ)| ≤ 2 ^ 50 := by
  have : |(c : ℚ)| ≤ (exactLimit : ℚ) := by exact_mod_cast h
  exact this.trans (by unfold exactLimit; norm_num)

/-- One rounding of a column: off by at most `|c| / 2^53` minor units. -/
theorem abs_num_mul_sub_le (c : ℤ) : |num c * 10 ^ 7 - c| ≤ |(c : ℚ)| / 2 ^ 53 := by
  have h := abs_sub_nearest_le ((c : ℚ) / 10 ^ 7)
  have h7 : (0 : ℚ) < 10 ^ 7 := by norm_num
  have hfac : num c * 10 ^ 7 - c = -(((c : ℚ) / 10 ^ 7 - num c) * 10 ^ 7) := by
    field_simp
    ring
  rw [hfac, abs_neg, abs_mul, abs_of_pos h7]
  calc |(c : ℚ) / 10 ^ 7 - num c| * 10 ^ 7
      ≤ |(c : ℚ) / 10 ^ 7| / 2 ^ 53 * 10 ^ 7 := by gcongr; exact h
    _ = |(c : ℚ)| / 2 ^ 53 := by
      rw [abs_div, abs_of_pos h7]
      field_simp

theorem abs_num_mul_sub_le_eighth (h : |c| ≤ exactLimit) : |num c * 10 ^ 7 - c| ≤ 1 / 8 := by
  refine (abs_num_mul_sub_le c).trans ?_
  have := abs_cast_le h
  rw [div_le_iff₀ (by norm_num)]
  linarith

/-- A number close to an in-range integer is itself in range, up to one unit. -/
theorem abs_mul_le_of_abs_sub_le {x : ℚ} (h : |c| ≤ exactLimit) (hx : |x * 10 ^ 7 - c| ≤ 1) :
    |x| * 10 ^ 7 ≤ 2 ^ 50 + 1 := by
  have h7 : (0 : ℚ) < 10 ^ 7 := by norm_num
  have hc := abs_cast_le h
  calc |x| * 10 ^ 7 = |(x * 10 ^ 7 - c) + c| := by
        rw [sub_add_cancel, abs_mul, abs_of_pos h7]
    _ ≤ |x * 10 ^ 7 - c| + |(c : ℚ)| := abs_add_le _ _
    _ ≤ 2 ^ 50 + 1 := by linarith

/-- `round7` of a number within `5/16` minor units of an integer recovers that integer. -/
theorem round7_eq_num {x : ℚ} (h : |c| ≤ exactLimit) (hx : |x * 10 ^ 7 - c| ≤ 5 / 16) :
    round7 x = num c := by
  have hxN : |x * 10 ^ 7| ≤ 2 ^ 50 + 1 := by
    rw [abs_mul, abs_of_pos (by norm_num : (0 : ℚ) < 10 ^ 7)]
    exact abs_mul_le_of_abs_sub_le h (hx.trans (by norm_num))
  have herr := abs_sub_nearest_le (x * 10 ^ 7)
  have hnear : |nearest (x * 10 ^ 7) - c| < 1 / 2 := by
    calc |nearest (x * 10 ^ 7) - c|
        = |(x * 10 ^ 7 - c) - (x * 10 ^ 7 - nearest (x * 10 ^ 7))| := by ring_nf
      _ ≤ |x * 10 ^ 7 - c| + |x * 10 ^ 7 - nearest (x * 10 ^ 7)| := abs_sub _ _
      _ ≤ 5 / 16 + (2 ^ 50 + 1) / 2 ^ 53 := by
        refine add_le_add hx (herr.trans ?_)
        gcongr
      _ < 1 / 2 := by norm_num
  unfold round7 num
  rw [round_eq_of_abs_sub_lt hnear]

/-- A binary64 number within `5/16` minor units of an integer is stored as that integer. -/
theorem toNumeric_eq {x : ℚ} (hrep : nearest x = x) (h : |c| ≤ exactLimit)
    (hx : |x * 10 ^ 7 - c| ≤ 5 / 16) : toNumeric x = c := by
  have h7 : (0 : ℚ) < 10 ^ 7 := by norm_num
  set d := toDecimal x with hd
  have hdx : |d - x| ≤ |d| / 2 ^ 53 := abs_sub_toDecimal_le hrep
  have hxN : |x| * 10 ^ 7 ≤ 2 ^ 50 + 1 :=
    abs_mul_le_of_abs_sub_le h (hx.trans (by norm_num))
  -- the printed decimal is no larger than twice the number
  have hdle : |d| ≤ |d - x| + |x| := by
    calc |d| = |(d - x) + x| := by ring_nf
      _ ≤ _ := abs_add_le _ _
  have hd2 : |d| * 10 ^ 7 ≤ 2 ^ 50 + 3 := by
    linarith [abs_nonneg d, abs_nonneg x]
  have hclose : |d * 10 ^ 7 - c| < 1 / 2 := by
    calc |d * 10 ^ 7 - c| = |(d - x) * 10 ^ 7 + (x * 10 ^ 7 - c)| := by ring_nf
      _ ≤ |(d - x) * 10 ^ 7| + |x * 10 ^ 7 - c| := abs_add_le _ _
      _ = |d - x| * 10 ^ 7 + |x * 10 ^ 7 - c| := by rw [abs_mul, abs_of_pos h7]
      _ ≤ (|d| / 2 ^ 53) * 10 ^ 7 + 5 / 16 := by gcongr
      _ = |d| * 10 ^ 7 / 2 ^ 53 + 5 / 16 := by ring
      _ ≤ (2 ^ 50 + 3) / 2 ^ 53 + 5 / 16 := by gcongr
      _ < 1 / 2 := by norm_num
  exact roundHalfAway_eq_of_abs_sub_lt hclose

/-! ### The ledger's arithmetic is exact up to the limit -/

@[simp] theorem nearest_num (c : ℤ) : nearest (num c) = num c := nearest_nearest _

theorem round7_num (h : |c| ≤ exactLimit) : round7 (num c) = num c :=
  round7_eq_num h ((abs_num_mul_sub_le_eighth h).trans (by norm_num))

/-- A column is read as the number nearest to it. -/
theorem toNumber_eq_num (h : |c| ≤ exactLimit) : toNumber c = num c := round7_num h

theorem toNumeric_num (h : |c| ≤ exactLimit) : toNumeric (num c) = c :=
  toNumeric_eq (nearest_num c) h ((abs_num_mul_sub_le_eighth h).trans (by norm_num))

/-- One more rounding, of a number already within an eighth of an integer. -/
theorem abs_nearest_mul_sub_le {x : ℚ} (h : |c| ≤ exactLimit)
    (hx : |x * 10 ^ 7 - c| ≤ 1 / 8 + 1 / 2 ^ 50) : |nearest x * 10 ^ 7 - c| ≤ 5 / 16 := by
  have h7 : (0 : ℚ) < 10 ^ 7 := by norm_num
  have hxN : |x| * 10 ^ 7 ≤ 2 ^ 50 + 1 := abs_mul_le_of_abs_sub_le h (hx.trans (by norm_num))
  calc |nearest x * 10 ^ 7 - c|
      = |(x * 10 ^ 7 - c) - (x - nearest x) * 10 ^ 7| := by ring_nf
    _ ≤ |x * 10 ^ 7 - c| + |(x - nearest x) * 10 ^ 7| := abs_sub _ _
    _ = |x * 10 ^ 7 - c| + |x - nearest x| * 10 ^ 7 := by rw [abs_mul, abs_of_pos h7]
    _ ≤ (1 / 8 + 1 / 2 ^ 50) + |x| / 2 ^ 53 * 10 ^ 7 := by gcongr; exact abs_sub_nearest_le x
    _ = (1 / 8 + 1 / 2 ^ 50) + |x| * 10 ^ 7 / 2 ^ 53 := by ring
    _ ≤ (1 / 8 + 1 / 2 ^ 50) + (2 ^ 50 + 1) / 2 ^ 53 := by gcongr
    _ ≤ 5 / 16 := by norm_num

/-- The rounded sum of two columns is close to the integer sum. -/
theorem abs_add_mul_sub_le (ha : 0 ≤ a) (hb : 0 ≤ b) (h : a + b ≤ exactLimit) :
    |nearest (num a + num b) * 10 ^ 7 - ((a + b : ℤ) : ℚ)| ≤ 5 / 16 := by
  have hab : ((a + b : ℤ) : ℚ) ≤ 2 ^ 50 :=
    (le_abs_self _).trans (abs_cast_le (by rw [abs_of_nonneg (by omega)]; exact h))
  have hsum : |(num a + num b) * 10 ^ 7 - ((a + b : ℤ) : ℚ)| ≤ 1 / 8 := by
    calc |(num a + num b) * 10 ^ 7 - ((a + b : ℤ) : ℚ)|
        = |(num a * 10 ^ 7 - a) + (num b * 10 ^ 7 - b)| := by push_cast; ring_nf
      _ ≤ |num a * 10 ^ 7 - a| + |num b * 10 ^ 7 - b| := abs_add_le _ _
      _ ≤ |(a : ℚ)| / 2 ^ 53 + |(b : ℚ)| / 2 ^ 53 :=
        add_le_add (abs_num_mul_sub_le a) (abs_num_mul_sub_le b)
      _ = ((a + b : ℤ) : ℚ) / 2 ^ 53 := by
        rw [abs_of_nonneg (by exact_mod_cast ha), abs_of_nonneg (by exact_mod_cast hb)]
        push_cast
        ring
      _ ≤ 2 ^ 50 / 2 ^ 53 := by gcongr
      _ = 1 / 8 := by norm_num
  exact abs_nearest_mul_sub_le (by rw [abs_of_nonneg (by omega)]; exact h)
    (hsum.trans (by norm_num))

/-- The error of a sum of two numbers, in minor units. -/
theorem abs_nearest_add_le {x y e f : ℚ} {c d : ℤ} (hc : 0 ≤ c) (hd : 0 ≤ d)
    (hx : |x * 10 ^ 7 - c| ≤ e) (hy : |y * 10 ^ 7 - d| ≤ f) :
    |nearest (x + y) * 10 ^ 7 - ((c + d : ℤ) : ℚ)| ≤ e + f + (c + d + e + f) / 2 ^ 53 := by
  have hc' : (0 : ℚ) ≤ c := by exact_mod_cast hc
  have hd' : (0 : ℚ) ≤ d := by exact_mod_cast hd
  have hsum : |(x + y) * 10 ^ 7 - ((c + d : ℤ) : ℚ)| ≤ e + f := by
    calc |(x + y) * 10 ^ 7 - ((c + d : ℤ) : ℚ)|
        = |(x * 10 ^ 7 - c) + (y * 10 ^ 7 - d)| := by
          push_cast
          ring_nf
      _ ≤ |x * 10 ^ 7 - c| + |y * 10 ^ 7 - d| := abs_add_le _ _
      _ ≤ e + f := add_le_add hx hy
  have hsize : |x + y| * 10 ^ 7 ≤ c + d + e + f := by
    calc |x + y| * 10 ^ 7 = |((x + y) * 10 ^ 7 - ((c + d : ℤ) : ℚ)) + (c + d)| := by
          rw [← abs_of_pos (by norm_num : (0 : ℚ) < 10 ^ 7), ← abs_mul,
            abs_of_pos (by norm_num : (0 : ℚ) < 10 ^ 7)]
          push_cast
          ring_nf
      _ ≤ |(x + y) * 10 ^ 7 - ((c + d : ℤ) : ℚ)| + |(c : ℚ) + d| := abs_add_le _ _
      _ ≤ (e + f) + (c + d) := by
          rw [abs_of_nonneg (add_nonneg hc' hd')]
          gcongr
      _ = c + d + e + f := by ring
  have hround : |(x + y) - nearest (x + y)| * 10 ^ 7 ≤ (c + d + e + f) / 2 ^ 53 := by
    calc |(x + y) - nearest (x + y)| * 10 ^ 7 ≤ |x + y| / 2 ^ 53 * 10 ^ 7 := by
          gcongr
          exact abs_sub_nearest_le _
      _ = |x + y| * 10 ^ 7 / 2 ^ 53 := by ring
      _ ≤ (c + d + e + f) / 2 ^ 53 := by gcongr
  calc |nearest (x + y) * 10 ^ 7 - ((c + d : ℤ) : ℚ)|
      = |((x + y) * 10 ^ 7 - ((c + d : ℤ) : ℚ)) - ((x + y) - nearest (x + y)) * 10 ^ 7| := by
        ring_nf
    _ ≤ |(x + y) * 10 ^ 7 - ((c + d : ℤ) : ℚ)| + |((x + y) - nearest (x + y)) * 10 ^ 7| :=
        abs_sub _ _
    _ = |(x + y) * 10 ^ 7 - ((c + d : ℤ) : ℚ)| + |(x + y) - nearest (x + y)| * 10 ^ 7 := by
        rw [abs_mul ((x + y) - nearest (x + y)), abs_of_pos (by norm_num : (0 : ℚ) < 10 ^ 7)]
    _ ≤ (e + f) + (c + d + e + f) / 2 ^ 53 := add_le_add hsum hround

/-- The rounded difference of two columns is close to the integer difference. -/
theorem abs_sub_mul_sub_le (hb : 0 ≤ b) (hab : b ≤ a) (h : a ≤ exactLimit) :
    |nearest (num a - num b) * 10 ^ 7 - ((a - b : ℤ) : ℚ)| ≤ 5 / 16 := by
  have h7 : (0 : ℚ) < 10 ^ 7 := by norm_num
  have ha' : (a : ℚ) ≤ 2 ^ 50 :=
    (le_abs_self _).trans (abs_cast_le (by rw [abs_of_nonneg (by omega)]; exact h))
  have hb' : (0 : ℚ) ≤ b := by exact_mod_cast hb
  have hab' : (b : ℚ) ≤ a := by exact_mod_cast hab
  have hsub : |(num a - num b) * 10 ^ 7 - ((a - b : ℤ) : ℚ)| ≤ ((a : ℚ) + b) / 2 ^ 53 := by
    calc |(num a - num b) * 10 ^ 7 - ((a - b : ℤ) : ℚ)|
        = |(num a * 10 ^ 7 - a) - (num b * 10 ^ 7 - b)| := by push_cast; ring_nf
      _ ≤ |num a * 10 ^ 7 - a| + |num b * 10 ^ 7 - b| := abs_sub _ _
      _ ≤ |(a : ℚ)| / 2 ^ 53 + |(b : ℚ)| / 2 ^ 53 :=
        add_le_add (abs_num_mul_sub_le a) (abs_num_mul_sub_le b)
      _ = (a + b) / 2 ^ 53 := by
        rw [abs_of_nonneg (hb'.trans hab'), abs_of_nonneg hb']
        ring
  -- the last rounding is relative to the difference, not to the operands
  have hd : |num a - num b| * 10 ^ 7 ≤ ((a : ℚ) - b) + (a + b) / 2 ^ 53 := by
    calc |num a - num b| * 10 ^ 7
        = |((num a - num b) * 10 ^ 7 - ((a - b : ℤ) : ℚ)) + ((a - b : ℤ) : ℚ)| := by
          rw [sub_add_cancel, abs_mul, abs_of_pos h7]
      _ ≤ |(num a - num b) * 10 ^ 7 - ((a - b : ℤ) : ℚ)| + |((a - b : ℤ) : ℚ)| := abs_add_le _ _
      _ ≤ ((a : ℚ) + b) / 2 ^ 53 + (a - b) := by
        refine add_le_add hsub ?_
        push_cast
        rw [abs_of_nonneg (by linarith)]
      _ = (a - b) + (a + b) / 2 ^ 53 := by ring
  calc |nearest (num a - num b) * 10 ^ 7 - ((a - b : ℤ) : ℚ)|
      = |((num a - num b) * 10 ^ 7 - ((a - b : ℤ) : ℚ))
          - ((num a - num b) - nearest (num a - num b)) * 10 ^ 7| := by ring_nf
    _ ≤ |(num a - num b) * 10 ^ 7 - ((a - b : ℤ) : ℚ)|
          + |((num a - num b) - nearest (num a - num b)) * 10 ^ 7| := abs_sub _ _
    _ = |(num a - num b) * 10 ^ 7 - ((a - b : ℤ) : ℚ)|
          + |(num a - num b) - nearest (num a - num b)| * 10 ^ 7 := by
      rw [abs_mul (num a - num b - nearest (num a - num b)), abs_of_pos h7]
    _ ≤ ((a : ℚ) + b) / 2 ^ 53 + |num a - num b| / 2 ^ 53 * 10 ^ 7 := by
      gcongr
      exact abs_sub_nearest_le _
    _ = (a + b) / 2 ^ 53 + |num a - num b| * 10 ^ 7 / 2 ^ 53 := by ring
    _ ≤ (a + b) / 2 ^ 53 + ((a - b) + (a + b) / 2 ^ 53) / 2 ^ 53 := by gcongr
    _ ≤ 5 / 16 := by
      norm_num at ha' ⊢
      linarith

/-- A stored sum of two columns, unrounded by the code. -/
theorem toNumeric_add (ha : 0 ≤ a) (hb : 0 ≤ b) (h : a + b ≤ exactLimit) :
    toNumeric (nearest (num a + num b)) = a + b :=
  toNumeric_eq (nearest_nearest _) (by rw [abs_of_nonneg (by omega)]; exact h)
    (abs_add_mul_sub_le ha hb h)

theorem round7_add (ha : 0 ≤ a) (hb : 0 ≤ b) (h : a + b ≤ exactLimit) :
    round7 (nearest (num a + num b)) = num (a + b) :=
  round7_eq_num (by rw [abs_of_nonneg (by omega)]; exact h) (abs_add_mul_sub_le ha hb h)

theorem round7_sub (hb : 0 ≤ b) (hab : b ≤ a) (h : a ≤ exactLimit) :
    round7 (nearest (num a - num b)) = num (a - b) :=
  round7_eq_num (by rw [abs_of_nonneg (by omega)]; omega) (abs_sub_mul_sub_le hb hab h)

/-- Comparing two columns as numbers compares them as integers. -/
theorem num_lt_num_iff (ha : |a| ≤ exactLimit) (hb : |b| ≤ exactLimit) :
    num a < num b ↔ a < b := by
  have key : ∀ {c d : ℤ}, |c| ≤ exactLimit → |d| ≤ exactLimit → c < d → num c < num d := by
    intro c d hc hd hcd
    have ec := abs_le.mp (abs_num_mul_sub_le_eighth hc)
    have ed := abs_le.mp (abs_num_mul_sub_le_eighth hd)
    have hcd' : (c : ℚ) + 1 ≤ d := by exact_mod_cast hcd
    linarith [ec.2, ed.1]
  constructor
  · intro h
    rcases lt_trichotomy a b with hlt | heq | hgt
    · exact hlt
    · rw [heq] at h
      exact absurd h (lt_irrefl _)
    · exact absurd h (not_lt.mpr (key hb ha hgt).le)
  · exact key ha hb

/-- An amount beyond the limit compares above every column below it. -/
theorem num_lt_num_of_limit (hb : 0 ≤ b) (hb' : b < exactLimit) (ha : exactLimit < a) :
    num b < num a := by
  have h7 : (0 : ℚ) < 10 ^ 7 := by norm_num
  have hlim : (exactLimit : ℚ) = 2 ^ 50 := by unfold exactLimit; norm_num
  have hbig : (exactLimit : ℚ) + 1 ≤ a := by exact_mod_cast ha
  have hb1 : (b : ℚ) + 1 ≤ exactLimit := by exact_mod_cast hb'
  have hnumb : num b * 10 ^ 7 ≤ b + 1 / 8 := by
    have h := abs_num_mul_sub_le_eighth (c := b) (by rw [abs_of_nonneg hb]; exact hb'.le)
    linarith [(abs_le.mp h).2]
  have hnuma : (a : ℚ) - a / 2 ^ 53 ≤ num a * 10 ^ 7 := by
    have h := (abs_le.mp (abs_num_mul_sub_le a)).1
    rw [abs_of_nonneg (by linarith)] at h
    linarith
  have hlt : num b * 10 ^ 7 < num a * 10 ^ 7 := by
    norm_num at hnuma hlim ⊢
    linarith
  exact lt_of_mul_lt_mul_right hlt h7.le

end exact

end DayfiBackend.Infra
