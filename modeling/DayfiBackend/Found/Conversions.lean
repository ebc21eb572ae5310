import Mathlib.Algebra.Order.Field.Rat
import Mathlib.Tactic.Ring

/-!
# Conversions without a gain

A table of rates between kinds of money makes a graph, and a chain of rates is a path in it. When
no closed path has a product above one, the best products of chains of some conversions
(`best`) compose (`best_mul_best_le`), so that every kind of money has a worth in another one which
no conversion raises (`gain_mul_worth_le`) and which is one for the kind it is counted in
(`worth_self`).
-/

namespace DayfiBackend.Found

variable {κ : Type} [DecidableEq κ]

/-- A chain of rates, and its product. -/
inductive RatePath (rate : κ → κ → Option ℚ) : κ → κ → ℚ → Prop
  | nil (x : κ) : RatePath rate x x 1
  | cons {x y z : κ} {r q : ℚ} (hr : rate x y = some r) (hpath : RatePath rate y z q) :
      RatePath rate x z (r * q)

/-- No closed chain of rates has a product above one. -/
def NoArbitrage (rate : κ → κ → Option ℚ) : Prop := ∀ x q, RatePath rate x x q → q ≤ 1

/-- A conversion, and what a unit becomes in it at most. -/
structure Conversion (κ : Type) where
  source : κ
  target : κ
  gain : ℚ

/-- What a unit becomes is the product of a chain of rates, or nothing. -/
def Conversion.Backed (rate : κ → κ → Option ℚ) (v : Conversion κ) : Prop :=
  v.gain = 0 ∨ RatePath rate v.source v.target v.gain

/-- The best product of a chain of conversions. -/
def best : List (Conversion κ) → κ → κ → ℚ
  | [], x, y => if x = y then 1 else 0
  | v :: vs, x, y => max (best vs x y) (best vs x v.source * v.gain * best vs v.target y)

/-- What a unit is worth in a kind of money. -/
def worth (c : κ) (vs : List (Conversion κ)) (x : κ) : ℚ := best vs x c

section best

variable {rate : κ → κ → Option ℚ} {c x y z : κ} {v : Conversion κ} {vs : List (Conversion κ)}
  {q r : ℚ}

omit [DecidableEq κ] in
theorem RatePath.append (hxy : RatePath rate x y q) (hyz : RatePath rate y z r) :
    RatePath rate x z (q * r) := by
  induction hxy with
  | nil x =>
      rw [one_mul]
      exact hyz
  | cons hr _ ih =>
      rw [mul_assoc]
      exact .cons hr (ih hyz)

omit [DecidableEq κ] in
theorem RatePath.nonneg (hpos : ∀ {x y r}, rate x y = some r → 0 ≤ r)
    (h : RatePath rate x y q) : 0 ≤ q := by
  induction h with
  | nil x => exact zero_le_one
  | cons hr _ ih => exact mul_nonneg (hpos hr) ih

omit [DecidableEq κ] in
theorem Conversion.Backed.gain_nonneg (hpos : ∀ {x y r}, rate x y = some r → 0 ≤ r)
    (hv : v.Backed rate) : 0 ≤ v.gain := by
  rcases hv with hgain | hpath
  · exact hgain.ge
  · exact hpath.nonneg hpos

theorem best_nonneg (vs : List (Conversion κ)) (x y : κ) : 0 ≤ best vs x y := by
  induction vs with
  | nil =>
      unfold best
      split_ifs
      · exact zero_le_one
      · exact le_rfl
  | cons v vs ih => exact le_max_of_le_left ih

theorem one_le_best (vs : List (Conversion κ)) (x : κ) : 1 ≤ best vs x x := by
  induction vs with
  | nil => exact (if_pos rfl).ge
  | cons v vs ih => exact le_max_of_le_left ih

/-- A best product is that of a chain of rates, or nothing. -/
theorem best_path (h : ∀ v ∈ vs, v.Backed rate) (x y : κ) :
    best vs x y = 0 ∨ RatePath rate x y (best vs x y) := by
  induction vs generalizing x y with
  | nil =>
      unfold best
      split_ifs with hx
      · subst hx
        exact .inr (.nil x)
      · exact .inl rfl
  | cons v vs ih =>
      have hvs : ∀ v ∈ vs, v.Backed rate := fun v hv => h v (List.mem_cons_of_mem _ hv)
      unfold best
      rcases max_choice (best vs x y) (best vs x v.source * v.gain * best vs v.target y) with
        hmax | hmax
      · rw [hmax]
        exact ih hvs x y
      · rw [hmax]
        rcases ih hvs x v.source with hzero | hbefore
        · exact .inl (by rw [hzero, zero_mul, zero_mul])
        · rcases h v List.mem_cons_self with hgain | hpath
          · exact .inl (by rw [hgain, mul_zero, zero_mul])
          · rcases ih hvs v.target y with hzero | hafter
            · exact .inl (by rw [hzero, mul_zero])
            · exact .inr ((hbefore.append hpath).append hafter)

/-- A chain of conversions from a conversion's target back to its source gains nothing with it. -/
theorem best_mul_gain_le (hrate : NoArbitrage rate) (hv : v.Backed rate)
    (h : ∀ v ∈ vs, v.Backed rate) : best vs v.target v.source * v.gain ≤ 1 := by
  rcases best_path h v.target v.source with hzero | hback
  · rw [hzero, zero_mul]
    exact zero_le_one
  · rcases hv with hgain | hpath
    · rw [hgain, mul_zero]
      exact zero_le_one
    · exact hrate _ _ (hback.append hpath)

/-- Two chains after each other are one chain. The induction adds one conversion: a chain that
takes it twice gains nothing by what lies between. -/
theorem best_mul_best_le (hrate : NoArbitrage rate) (hpos : ∀ {x y r}, rate x y = some r → 0 ≤ r)
    (h : ∀ v ∈ vs, v.Backed rate) (x y z : κ) : best vs x y * best vs y z ≤ best vs x z := by
  induction vs generalizing x y z with
  | nil =>
      unfold best
      split_ifs with hxy hyz hxz hxz
      all_goals simp_all
  | cons v vs ih =>
      have hvs : ∀ v ∈ vs, v.Backed rate := fun v hv => h v (List.mem_cons_of_mem _ hv)
      have hgain := (h v List.mem_cons_self).gain_nonneg hpos
      have hcycle := best_mul_gain_le hrate (h v List.mem_cons_self) hvs
      have hbest : best (v :: vs) x z =
          max (best vs x z) (best vs x v.source * v.gain * best vs v.target z) := rfl
      have hbefore := mul_nonneg (best_nonneg vs x v.source) hgain
      -- a chain takes the conversion before `y`, after it, in both places or in neither
      rcases max_choice (best vs x y) (best vs x v.source * v.gain * best vs v.target y) with
        hxy | hxy
      · rcases max_choice (best vs y z) (best vs y v.source * v.gain * best vs v.target z) with
          hyz | hyz
        · calc best (v :: vs) x y * best (v :: vs) y z
              = best vs x y * best vs y z := by rw [best, best, hxy, hyz]
            _ ≤ best vs x z := ih hvs x y z
            _ ≤ best (v :: vs) x z := le_max_left _ _
        · calc best (v :: vs) x y * best (v :: vs) y z
              = best vs x y * best vs y v.source * (v.gain * best vs v.target z) := by
                rw [best, best, hxy, hyz]
                ring
            _ ≤ best vs x v.source * (v.gain * best vs v.target z) :=
                mul_le_mul_of_nonneg_right (ih hvs x y v.source)
                  (mul_nonneg hgain (best_nonneg vs _ _))
            _ = best vs x v.source * v.gain * best vs v.target z := by ring
            _ ≤ best (v :: vs) x z := le_max_right _ _
      · rcases max_choice (best vs y z) (best vs y v.source * v.gain * best vs v.target z) with
          hyz | hyz
        · calc best (v :: vs) x y * best (v :: vs) y z
              = best vs x v.source * v.gain * (best vs v.target y * best vs y z) := by
                rw [best, best, hxy, hyz]
                ring
            _ ≤ best vs x v.source * v.gain * best vs v.target z :=
                mul_le_mul_of_nonneg_left (ih hvs v.target y z) hbefore
            _ ≤ best (v :: vs) x z := le_max_right _ _
        · have hbetween : best vs v.target y * best vs y v.source * v.gain ≤ 1 :=
            (mul_le_mul_of_nonneg_right (ih hvs v.target y v.source) hgain).trans hcycle
          calc best (v :: vs) x y * best (v :: vs) y z
              = best vs x v.source * v.gain * best vs v.target z *
                  (best vs v.target y * best vs y v.source * v.gain) := by
                rw [best, best, hxy, hyz]
                ring
            _ ≤ best vs x v.source * v.gain * best vs v.target z * 1 :=
                mul_le_mul_of_nonneg_left hbetween (mul_nonneg hbefore (best_nonneg vs _ _))
            _ = best vs x v.source * v.gain * best vs v.target z := mul_one _
            _ ≤ best (v :: vs) x z := le_max_right _ _

/-- A conversion is a chain of one. -/
theorem gain_le_best (hv : v ∈ vs) (hgain : 0 ≤ v.gain) : v.gain ≤ best vs v.source v.target := by
  induction vs with
  | nil => cases hv
  | cons w vs ih =>
      rcases List.mem_cons.mp hv with rfl | hv
      · have hbefore := one_le_best vs v.source
        have hafter := one_le_best vs v.target
        refine le_max_of_le_right ?_
        calc v.gain ≤ best vs v.source v.source * v.gain := le_mul_of_one_le_left hgain hbefore
          _ ≤ best vs v.source v.source * v.gain * best vs v.target v.target :=
              le_mul_of_one_le_right (mul_nonneg (best_nonneg vs _ _) hgain) hafter
      · exact le_max_of_le_left (ih hv)

theorem worth_nonneg (c : κ) (vs : List (Conversion κ)) (x : κ) : 0 ≤ worth c vs x :=
  best_nonneg vs x c

/-- What a unit becomes in a conversion is worth no more than it. -/
theorem gain_mul_worth_le (hrate : NoArbitrage rate) (hpos : ∀ {x y r}, rate x y = some r → 0 ≤ r)
    (h : ∀ v ∈ vs, v.Backed rate) (hv : v ∈ vs) :
    v.gain * worth c vs v.target ≤ worth c vs v.source :=
  (mul_le_mul_of_nonneg_right (gain_le_best hv ((h v hv).gain_nonneg hpos))
    (worth_nonneg c vs _)).trans (best_mul_best_le hrate hpos h _ _ _)

omit [DecidableEq κ] in
/-- Prices that no rate raises leave no closed chain above one. -/
theorem noArbitrage_of_prices (price : κ → ℚ) (hpos : ∀ x, 0 < price x)
    (hrate : ∀ {x y r}, rate x y = some r → 0 ≤ r ∧ r * price y ≤ price x) : NoArbitrage rate := by
  have hpath : ∀ {x y q}, RatePath rate x y q → q * price y ≤ price x := by
    intro x y q h
    induction h with
    | nil x => exact (one_mul _).le
    | cons hr _ ih =>
        obtain ⟨hnonneg, hle⟩ := hrate hr
        rw [mul_assoc]
        exact (mul_le_mul_of_nonneg_left ih hnonneg).trans hle
  intro x q h
  exact le_of_mul_le_mul_right ((hpath h).trans (one_mul _).ge) (hpos x)

/-- A unit is worth a unit. -/
theorem worth_self (hrate : NoArbitrage rate) (h : ∀ v ∈ vs, v.Backed rate) : worth c vs c = 1 := by
  have hge := one_le_best vs c
  rcases best_path h c c with hzero | hpath
  · rw [hzero] at hge
    exact absurd hge (not_le.mpr one_pos)
  · exact le_antisymm (hrate c _ hpath) hge

end best

end DayfiBackend.Found
