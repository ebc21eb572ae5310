import Mathlib.Data.Int.Log
import Mathlib.Data.Rat.Floor
import Mathlib.Data.List.MinMax
import Mathlib.Algebra.Order.Round
import Mathlib.Algebra.Order.Floor.Semifield
import Mathlib.Tactic.Linarith
import Mathlib.Tactic.Positivity
import Mathlib.Tactic.FieldSimp
import Mathlib.Tactic.Ring
import Mathlib.Tactic.NormNum

/-!
# binary64 numbers as rationals

The finite binary64 numbers are rationals, and every arithmetic operation on them is the exact
rational operation followed by `nearest`, rounding to 53 significant bits with ties to even.

* The exponent is unbounded: the values rounded here stay far from the overflow threshold and
  from the subnormals, so only the precision matters.
* The one fact proofs use is the relative error bound `abs_sub_nearest_le`
  (`|x - nearest x| ≤ |x| / 2^53`), together with `nearest_nearest`.
* `toDecimal` is the shortest decimal that reads back as the same number, the text a number is
  printed as; `nearest_toDecimal` is the read-back property and `abs_sub_toDecimal_le` its
  error bound.
-/

namespace DayfiBackend.Found.Binary64

/-! ### Rounding to an integer -/

/-- The nearest integer, ties to even. -/
def roundHalfEven (x : ℚ) : ℤ :=
  if Int.fract x = 1 / 2 then (if Even ⌊x⌋ then ⌊x⌋ else ⌊x⌋ + 1) else round x

/-- The nearest integer, ties away from zero. -/
def roundHalfAway (x : ℚ) : ℤ :=
  if 0 ≤ x then ⌊x + 1 / 2⌋ else ⌈x - 1 / 2⌉

/-- An integer rounds to itself. -/
@[simp] theorem roundHalfEven_intCast (n : ℤ) : roundHalfEven (n : ℚ) = n := by
  unfold roundHalfEven
  rw [if_neg (by simp), round_intCast]

/-- Ties to even errs by at most one half. -/
theorem abs_sub_roundHalfEven (x : ℚ) : |x - roundHalfEven x| ≤ 1 / 2 := by
  unfold roundHalfEven
  split_ifs with hf he
  · rw [Int.self_sub_floor, hf]
    norm_num
  · have hx : x - ((⌊x⌋ + 1 : ℤ) : ℚ) = Int.fract x - 1 := by
      rw [← Int.self_sub_floor]; push_cast; ring
    rw [hx, hf]
    norm_num
  · exact abs_sub_round x

/-- A value within less than one half of an integer rounds to it. -/
theorem round_eq_of_abs_sub_lt {x : ℚ} {n : ℤ} (h : |x - n| < 1 / 2) : round x = n := by
  rw [abs_lt] at h
  rw [round_eq, Int.floor_eq_iff]
  constructor <;> linarith [h.1, h.2]

/-- A value within less than one half of an integer rounds to it. -/
theorem roundHalfAway_eq_of_abs_sub_lt {x : ℚ} {n : ℤ} (h : |x - n| < 1 / 2) :
    roundHalfAway x = n := by
  rw [abs_lt] at h
  unfold roundHalfAway
  split_ifs with hx
  · rw [Int.floor_eq_iff]
    constructor <;> linarith [h.1, h.2]
  · rw [Int.ceil_eq_iff]
    constructor <;> linarith [h.1, h.2]

/-! ### Rounding to 53 bits -/

/-- The spacing of the 53-bit numbers in the binade of `x`. -/
def ulp (x : ℚ) : ℚ := 2 ^ (Int.log 2 |x| - 52)

/-- The nearest number with 53 significant bits, ties to even. -/
def nearest (x : ℚ) : ℚ := if x = 0 then 0 else roundHalfEven (x / ulp x) * ulp x

theorem ulp_pos (x : ℚ) : 0 < ulp x := zpow_pos (by norm_num) _

/-- The spacing is at most `2^-52` of the value. -/
theorem ulp_le {x : ℚ} (hx : x ≠ 0) : ulp x ≤ |x| / 2 ^ 52 := by
  have h : ((2 : ℕ) : ℚ) ^ Int.log 2 |x| ≤ |x| :=
    Int.zpow_log_le_self (by norm_num) (abs_pos.mpr hx)
  have h2 : (2 : ℚ) ^ Int.log 2 |x| ≤ |x| := by exact_mod_cast h
  unfold ulp
  rw [zpow_sub₀ (by norm_num)]
  gcongr
  norm_num

@[simp] theorem nearest_zero : nearest 0 = 0 := by simp [nearest]

/-- One rounding errs by at most half the spacing. -/
theorem abs_sub_nearest_le_ulp (x : ℚ) : |x - nearest x| ≤ 1 / 2 * ulp x := by
  have hpos := ulp_pos x
  by_cases hx : x = 0
  · simpa [hx] using (ulp_pos 0).le
  have hfac : x - nearest x = (x / ulp x - roundHalfEven (x / ulp x)) * ulp x := by
    unfold nearest
    rw [if_neg hx, sub_mul, div_mul_cancel₀ _ hpos.ne']
  rw [hfac, abs_mul, abs_of_pos hpos]
  gcongr
  exact abs_sub_roundHalfEven _

/-- The relative error of one rounding. -/
theorem abs_sub_nearest_le (x : ℚ) : |x - nearest x| ≤ |x| / 2 ^ 53 := by
  by_cases hx : x = 0
  · simp [hx]
  calc |x - nearest x|
      ≤ 1 / 2 * ulp x := abs_sub_nearest_le_ulp x
    _ ≤ 1 / 2 * (|x| / 2 ^ 52) := by gcongr; exact ulp_le hx
    _ = |x| / 2 ^ 53 := by ring

/-- The absolute error of one rounding, of a value below a power of two. -/
theorem abs_sub_nearest_le_of_lt {x : ℚ} {e : ℤ} (h : |x| < 2 ^ e) :
    |x - nearest x| ≤ 2 ^ (e - 54) := by
  by_cases hx : x = 0
  · simpa [hx] using (zpow_pos (by norm_num : (0 : ℚ) < 2) (e - 54)).le
  have hlow : (2 : ℚ) ^ Int.log 2 |x| ≤ |x| := by
    have := Int.zpow_log_le_self (b := 2) (r := |x|) (by norm_num) (abs_pos.mpr hx)
    exact_mod_cast this
  have hlog : Int.log 2 |x| < e :=
    (zpow_lt_zpow_iff_right₀ (by norm_num : (1 : ℚ) < 2)).mp (hlow.trans_lt h)
  calc |x - nearest x|
      ≤ 1 / 2 * ulp x := abs_sub_nearest_le_ulp x
    _ ≤ 1 / 2 * 2 ^ (e - 53) := by
        have hle : Int.log 2 |x| - 52 ≤ e - 53 := by omega
        unfold ulp
        gcongr
        norm_num
    _ = 2 ^ (e - 54) := by
        rw [show e - 53 = 1 + (e - 54) by ring, zpow_add₀ (by norm_num)]
        ring

/-- Rounding keeps the sign. -/
theorem nearest_nonpos {x : ℚ} (hx : x ≤ 0) : nearest x ≤ 0 := by
  have h := (abs_le.mp (abs_sub_nearest_le x)).1
  rw [abs_of_nonpos hx] at h
  linarith [div_le_self (neg_nonneg.mpr hx) (by norm_num : (1 : ℚ) ≤ 2 ^ 53)]

theorem nearest_nonneg {x : ℚ} (hx : 0 ≤ x) : 0 ≤ nearest x := by
  have h := (abs_le.mp (abs_sub_nearest_le x)).2
  rw [abs_of_nonneg hx] at h
  linarith [div_le_self hx (by norm_num : (1 : ℚ) ≤ 2 ^ 53)]

/-- A value that is an integer number of its own spacings is a fixed point. -/
theorem nearest_eq_of_int_mul_ulp {x : ℚ} {n : ℤ} (h : x = n * ulp x) : nearest x = x := by
  by_cases hx : x = 0
  · simp [hx]
  unfold nearest
  rw [if_neg hx]
  have hdiv : x / ulp x = n := by
    rw [div_eq_iff (ulp_pos x).ne']
    exact h
  rw [hdiv, roundHalfEven_intCast, ← h]

/-- Every number of at most 53 bits is a fixed point of rounding. -/
theorem nearest_int_mul_zpow (m e : ℤ) (hm : |m| ≤ 2 ^ 53) :
    nearest (m * 2 ^ e) = m * 2 ^ e := by
  by_cases hx : (m * 2 ^ e : ℚ) = 0
  · rw [hx, nearest_zero]
  have h2 : (0 : ℚ) < 2 ^ e := zpow_pos (by norm_num) e
  have hm0 : m ≠ 0 := by
    rintro rfl
    simp at hx
  set x : ℚ := m * 2 ^ e with hxdef
  have habs : |x| = |(m : ℚ)| * 2 ^ e := by rw [hxdef, abs_mul, abs_of_pos h2]
  -- the log of the value is at most `e + 53`, and equals it only at the power of two
  have hup : |x| ≤ (2 : ℚ) ^ (e + 53) := by
    rw [habs, zpow_add₀ (by norm_num), mul_comm]
    gcongr
    exact_mod_cast hm
  have hlow : (2 : ℚ) ^ Int.log 2 |x| ≤ |x| := by
    have := Int.zpow_log_le_self (b := 2) (r := |x|) (by norm_num) (abs_pos.mpr hx)
    exact_mod_cast this
  have hle : Int.log 2 |x| ≤ e + 53 := by
    have := hlow.trans hup
    exact (zpow_le_zpow_iff_right₀ (by norm_num : (1 : ℚ) < 2)).mp this
  rcases hle.lt_or_eq with hlt | heq
  · -- the spacing divides `2 ^ e`
    apply nearest_eq_of_int_mul_ulp (n := m * 2 ^ (e + 52 - Int.log 2 |x|).toNat)
    have hk : ((e + 52 - Int.log 2 |x|).toNat : ℤ) = e + 52 - Int.log 2 |x| :=
      Int.toNat_of_nonneg (by omega)
    have hpow : (2 : ℚ) ^ (e + 52 - Int.log 2 |x|).toNat * ulp x = 2 ^ e := by
      unfold ulp
      rw [← zpow_natCast, hk, ← zpow_add₀ (by norm_num)]
      congr 1
      ring
    push_cast
    rw [mul_assoc, hpow]
  · -- the value is `± 2 ^ (e + 53)`
    have hxeq : |x| = (2 : ℚ) ^ (e + 53) := le_antisymm hup (heq ▸ hlow)
    have hulp : ulp x = 2 ^ (e + 1) := by
      unfold ulp
      rw [heq]
      congr 1
      ring
    have hval : (2 : ℚ) ^ (e + 53) = ((2 ^ 52 : ℤ) : ℚ) * 2 ^ (e + 1) := by
      rw [show e + 53 = 52 + (e + 1) by ring, zpow_add₀ (by norm_num)]
      norm_num
    rcases abs_choice x with hc | hc
    · apply nearest_eq_of_int_mul_ulp (n := 2 ^ 52)
      rw [hulp, ← hval, ← hxeq, hc]
    · apply nearest_eq_of_int_mul_ulp (n := -2 ^ 52)
      have hneg : x = -(2 : ℚ) ^ (e + 53) := by rw [← hxeq, hc, neg_neg]
      rw [hulp, hneg, hval]
      push_cast
      ring

/-- The rounded significand has at most 53 bits. -/
theorem abs_roundHalfEven_le (x : ℚ) : |roundHalfEven (x / ulp x)| ≤ 2 ^ 53 := by
  have hpos := ulp_pos x
  have hlt : |x| < (2 : ℚ) ^ (Int.log 2 |x| + 1) := by
    have := Int.lt_zpow_succ_log_self (b := 2) (by norm_num) |x|
    exact_mod_cast this
  have hq : |x / ulp x| < 2 ^ 53 := by
    rw [abs_div, abs_of_pos hpos, div_lt_iff₀ hpos]
    calc |x| < (2 : ℚ) ^ (Int.log 2 |x| + 1) := hlt
      _ = 2 ^ 53 * ulp x := by
        unfold ulp
        rw [← zpow_natCast, ← zpow_add₀ (by norm_num)]
        congr 1
        push_cast
        ring
  have hr := abs_sub_roundHalfEven (x / ulp x)
  have hcast : |(roundHalfEven (x / ulp x) : ℚ)| < 2 ^ 53 + 1 := by
    calc |(roundHalfEven (x / ulp x) : ℚ)|
        = |x / ulp x - (x / ulp x - roundHalfEven (x / ulp x))| := by ring_nf
      _ ≤ |x / ulp x| + |x / ulp x - roundHalfEven (x / ulp x)| := abs_sub _ _
      _ < 2 ^ 53 + 1 := by linarith
  have hint : |roundHalfEven (x / ulp x)| < 2 ^ 53 + 1 := by exact_mod_cast hcast
  omega

/-- Rounding is idempotent. -/
@[simp] theorem nearest_nearest (x : ℚ) : nearest (nearest x) = nearest x := by
  by_cases hx : x = 0
  · simp [hx]
  have h := nearest_int_mul_zpow (roundHalfEven (x / ulp x)) (Int.log 2 |x| - 52)
    (abs_roundHalfEven_le x)
  have hdef : nearest x = roundHalfEven (x / ulp x) * 2 ^ (Int.log 2 |x| - 52) := by
    unfold nearest ulp
    rw [if_neg hx]
  rw [hdef, h]

/-- An integer below `2^53` is a 53-bit number. -/
theorem nearest_intCast {n : ℤ} (hn : |n| ≤ 2 ^ 53) : nearest (n : ℚ) = n := by
  have := nearest_int_mul_zpow n 0 hn
  simpa using this

/-! ### The printed decimal -/

/-- The decimals of `k` significant digits next to `x`, below and above. -/
def decimalsAt (x : ℚ) (k : ℕ) : List ℚ :=
  let unit : ℚ := 10 ^ (Int.log 10 |x| + 1 - k)
  [⌊x / unit⌋ * unit, (⌊x / unit⌋ + 1) * unit]

/-- The shortest decimal that reads back as `x`, the closest one among those of that length:
the decimal a number is printed as. -/
def toDecimal (x : ℚ) : ℚ :=
  ((List.range 17).findSome? fun k =>
    ((decimalsAt x (k + 1)).filter fun d => nearest d = x).argmin fun d => |d - x|).getD x

/-- The printed decimal of a 53-bit number reads back as that number. -/
theorem nearest_toDecimal {x : ℚ} (hx : nearest x = x) : nearest (toDecimal x) = x := by
  unfold toDecimal
  cases hfind : ((List.range 17).findSome? fun k =>
      ((decimalsAt x (k + 1)).filter fun d => nearest d = x).argmin fun d => |d - x|) with
  | none => simpa using hx
  | some d =>
    obtain ⟨k, -, hk⟩ := List.exists_of_findSome?_eq_some hfind
    have hmem := List.argmin_mem (f := fun d => |d - x|) hk
    simpa using (List.mem_filter.mp hmem).2

/-- The printed decimal is within half a spacing of the number. -/
theorem abs_sub_toDecimal_le {x : ℚ} (hx : nearest x = x) :
    |toDecimal x - x| ≤ |toDecimal x| / 2 ^ 53 := by
  have h := abs_sub_nearest_le (toDecimal x)
  rwa [nearest_toDecimal hx] at h

end DayfiBackend.Found.Binary64
