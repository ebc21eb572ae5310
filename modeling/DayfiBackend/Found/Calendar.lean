import Mathlib.Data.Int.ConditionallyCompleteOrder
import Mathlib.Order.Lattice
import Mathlib.Order.Basic
import Mathlib.Logic.Function.Iterate
import Mathlib.Tactic.Ring
import Mathlib.Tactic.IntervalCases

/-!
# The Gregorian calendar

Dates are a month, counted from the first month of the year 0, and a day of it. A month later is as
many days later as the month has, so that a day the next month lacks runs over into the month after
it (`Date.addMonth_of_lt`); `onDay` takes the last day of such a month instead. Dates are numbered
day by day (`Date.number_next`), which gives the days of the week.
-/

namespace DayfiBackend.Found.Calendar

/-- The year has a 29th of February. -/
def IsLeap (year : ℤ) : Prop := (year % 4 = 0 ∧ year % 100 ≠ 0) ∨ year % 400 = 0

instance (year : ℤ) : Decidable (IsLeap year) := inferInstanceAs (Decidable (_ ∨ _))

/-- The days of a month. -/
def daysIn (month : ℤ) : ℕ :=
  if month % 12 = 1 then (if IsLeap (month / 12) then 29 else 28)
  else if month % 12 = 3 ∨ month % 12 = 5 ∨ month % 12 = 8 ∨ month % 12 = 10 then 30
  else 31

theorem daysIn_ge (month : ℤ) : 28 ≤ daysIn month := by
  unfold daysIn
  split_ifs <;> omega

theorem daysIn_le (month : ℤ) : daysIn month ≤ 31 := by
  unfold daysIn
  split_ifs <;> omega

/-- From any month on, some January of 31 days comes before a February of 28. -/
theorem exists_short (month : ℤ) :
    ∃ k : ℕ, daysIn (month + k) = 31 ∧ daysIn (month + k + 1) = 28 := by
  obtain ⟨year, hyear, hleap⟩ : ∃ year : ℤ, month / 12 < year ∧ ¬ IsLeap year := by
    by_cases h : IsLeap (month / 12 + 1)
    · refine ⟨month / 12 + 2, by omega, ?_⟩
      unfold IsLeap at h ⊢
      omega
    · exact ⟨month / 12 + 1, by omega, h⟩
  refine ⟨(12 * year - month).toNat, ?_, ?_⟩
  · have hmonth : month + (12 * year - month).toNat = 12 * year := by omega
    unfold daysIn
    rw [hmonth, if_neg (by omega), if_neg (by omega)]
  · have hmonth : month + (12 * year - month).toNat + 1 = 12 * year + 1 := by omega
    have hdiv : (12 * year + 1) / 12 = year := by omega
    unfold daysIn
    rw [hmonth, if_pos (by omega), hdiv, if_neg hleap]

/-- A date. -/
@[ext] structure Date where
  month : ℤ
  day : ℕ
  pos : 0 < day
  le : day ≤ daysIn month
  deriving DecidableEq

namespace Date

variable {a b : Date} {m : ℤ} {n : ℕ}

/-- A number that grows with the date. -/
def rank (a : Date) : ℤ := 32 * a.month + a.day

theorem rank_injective : Function.Injective rank := by
  intro a b h
  have ha := (a.le.trans (daysIn_le _))
  have hb := (b.le.trans (daysIn_le _))
  unfold rank at h
  ext <;> omega

instance : LinearOrder Date := LinearOrder.lift' rank rank_injective

theorem lt_iff : a < b ↔ a.rank < b.rank := Iff.rfl

theorem le_iff : a ≤ b ↔ a.rank ≤ b.rank := Iff.rfl

/-- The first of a month. -/
def first (m : ℤ) : Date := ⟨m, 1, by omega, by have := daysIn_ge m; omega⟩

/-- The next day. -/
def next (a : Date) : Date :=
  if h : a.day < daysIn a.month then ⟨a.month, a.day + 1, by omega, h⟩ else first (a.month + 1)

/-- Days later. -/
def addDays (n : ℕ) (a : Date) : Date := next^[n] a

/-- A month later; what the next month lacks runs over. -/
def addMonth (a : Date) : Date := a.addDays (daysIn a.month)

/-- A day of a month, or its last one. -/
def onDay (m : ℤ) (day : ℕ) (h : 0 < day) : Date :=
  ⟨m, min day (daysIn m), by have := daysIn_ge m; omega, min_le_right _ _⟩

theorem lt_next (a : Date) : a < a.next := by
  have := a.le.trans (daysIn_le _)
  rw [lt_iff]
  unfold next rank
  split_ifs
  · simp
  · simp only [first]
    omega

theorem next_injective : Function.Injective next := by
  intro a b h
  have ha := a.pos
  have hb := b.pos
  have hale := a.le
  have hble := b.le
  unfold next at h
  split_ifs at h with h₁ h₂ h₂
  · have hmonth := congrArg month h
    have hday := congrArg day h
    ext
    · exact hmonth
    · simpa using hday
  · have := congrArg day h
    simp only [first] at this
    omega
  · have := congrArg day h
    simp only [first] at this
    omega
  · have hmonth := congrArg month h
    simp only [first, add_left_inj] at hmonth
    ext
    · exact hmonth
    · rw [hmonth] at h₁ hale
      omega

@[simp] theorem addDays_zero : a.addDays 0 = a := rfl

theorem addDays_add (k n : ℕ) : a.addDays (k + n) = (a.addDays k).addDays n := by
  unfold addDays
  rw [add_comm, Function.iterate_add_apply]

theorem addDays_injective : Function.Injective (addDays n) := next_injective.iterate n

theorem lt_addDays (h : 0 < n) : a < a.addDays n := by
  induction n with
  | zero => omega
  | succ n ih =>
      rw [addDays_add]
      rcases Nat.eq_zero_or_pos n with rfl | hn
      · exact lt_next a
      · exact (ih hn).trans (lt_next _)

theorem addDays_le {k : ℕ} (h : k ≤ n) : a.addDays k ≤ a.addDays n := by
  obtain ⟨m, rfl⟩ := Nat.exists_eq_add_of_le h
  rw [addDays_add]
  rcases Nat.eq_zero_or_pos m with rfl | hm
  · exact le_rfl
  · exact (lt_addDays hm).le

/-- Days within a month. -/
theorem addDays_of_le (h : a.day + n ≤ daysIn a.month) :
    a.addDays n = ⟨a.month, a.day + n, by have := a.pos; omega, h⟩ := by
  induction n with
  | zero => rfl
  | succ n ih =>
      rw [addDays_add, ih (by omega)]
      change next _ = _
      unfold next
      rw [dif_pos (by simp; omega)]
      rfl

/-- The days until the first of the next month. -/
theorem addDays_first : a.addDays (daysIn a.month - a.day + 1) = first (a.month + 1) := by
  have hle := a.le
  rw [addDays_add, addDays_of_le (n := daysIn a.month - a.day) (by omega)]
  change next _ = _
  unfold next
  rw [dif_neg (by simp only; omega)]

theorem addMonth_eq : a.addMonth = (first (a.month + 1)).addDays (a.day - 1) := by
  have hpos := a.pos
  have hle := a.le
  have hsplit : daysIn a.month = daysIn a.month - a.day + 1 + (a.day - 1) := by omega
  unfold addMonth
  rw [hsplit, addDays_add, addDays_first]

/-- The next month has the day. -/
theorem addMonth_of_le (h : a.day ≤ daysIn (a.month + 1)) :
    a.addMonth = ⟨a.month + 1, a.day, a.pos, h⟩ := by
  have hpos := a.pos
  rw [addMonth_eq, addDays_of_le (by simp only [first]; omega)]
  ext
  · rfl
  · simp only [first]
    omega

/-- The next month lacks the day. -/
theorem addMonth_of_lt (h : daysIn (a.month + 1) < a.day) : a.addMonth.month = a.month + 2 := by
  have hge := daysIn_ge (a.month + 1)
  have hge' := daysIn_ge (a.month + 2)
  have hle := a.le.trans (daysIn_le _)
  have hsplit : a.day - 1 = daysIn (a.month + 1) - 1 + 1 + (a.day - 1 - daysIn (a.month + 1)) := by
    omega
  have hfirst : (first (a.month + 1)).addDays (daysIn (a.month + 1) - 1 + 1) =
      first (a.month + 1 + 1) := addDays_first (a := first (a.month + 1))
  have hrest : (first (a.month + 1 + 1)).addDays (a.day - 1 - daysIn (a.month + 1)) = _ :=
    addDays_of_le (by
      have hmonth : a.month + 1 + 1 = a.month + 2 := by ring
      simp only [first, hmonth]
      omega)
  rw [addMonth_eq, hsplit, addDays_add, hfirst, hrest]
  simp only [first]
  ring

theorem addMonth_month_ge : a.month + 1 ≤ a.addMonth.month := by
  rcases le_or_gt a.day (daysIn (a.month + 1)) with h | h
  · rw [addMonth_of_le h]
  · rw [addMonth_of_lt h]
    omega

end Date

/-! ### Days of the week -/

/-- The days of a year before its months. -/
def yearDays : List ℤ := [0, 31, 59, 90, 120, 151, 181, 212, 243, 273, 304, 334]

/-- The days from the first day of the year 0 to the first day of a month. -/
def daysBefore (month : ℤ) : ℤ :=
  let year := month / 12
  365 * year + (year + 3) / 4 - (year + 99) / 100 + (year + 399) / 400 +
    yearDays.getD (month % 12).toNat 0 + (if 2 ≤ month % 12 ∧ IsLeap year then 1 else 0)

theorem daysBefore_succ (month : ℤ) : daysBefore (month + 1) = daysBefore month + daysIn month := by
  obtain ⟨year, k, hk, rfl⟩ : ∃ year : ℤ, ∃ k : ℕ, k < 12 ∧ month = 12 * year + k :=
    ⟨month / 12, (month % 12).toNat, by omega, by omega⟩
  have hyear : (12 * year + (k : ℤ)) / 12 = year := by omega
  have hmonth : (12 * year + (k : ℤ)) % 12 = k := by omega
  by_cases hlast : k = 11
  · have hnext : (12 * year + (k : ℤ) + 1) / 12 = year + 1 := by omega
    have hfirst : (12 * year + (k : ℤ) + 1) % 12 = 0 := by omega
    have hlastDays : yearDays.getD (k : ℤ).toNat 0 = 334 := by
      rw [hlast]
      rfl
    have hfirstDays : yearDays.getD (0 : ℤ).toNat 0 = 0 := rfl
    simp only [daysBefore, daysIn, hyear, hmonth, hnext, hfirst, hlastDays, hfirstDays, IsLeap]
    split_ifs <;> omega
  · have hnext : (12 * year + (k : ℤ) + 1) / 12 = year := by omega
    have hsucc : (12 * year + (k : ℤ) + 1) % 12 = (k + 1 : ℕ) := by omega
    simp only [daysBefore, daysIn, hyear, hmonth, hnext, hsucc, yearDays]
    interval_cases k <;> simp <;> split_ifs <;> omega

namespace Date

variable {a : Date} {n : ℕ}

/-- The days from the first day of the year 0. -/
def number (a : Date) : ℤ := daysBefore a.month + a.day - 1

theorem number_next (a : Date) : a.next.number = a.number + 1 := by
  have hle := a.le
  unfold next
  split_ifs with h
  · simp only [number]
    omega
  · simp only [number, first, daysBefore_succ]
    omega

theorem number_addDays (a : Date) (n : ℕ) : (a.addDays n).number = a.number + n := by
  induction n with
  | zero => simp
  | succ n ih =>
      rw [addDays_add]
      change (next _).number = _
      rw [number_next, ih]
      omega

/-- The day of the week, from Sunday on. -/
def weekday (a : Date) : ℕ := ((a.number + 6) % 7).toNat

theorem weekday_addDays (a : Date) (n : ℕ) : (a.addDays n).weekday = (a.weekday + n) % 7 := by
  unfold weekday
  rw [number_addDays]
  omega

/-- Every day of the week comes within a week. -/
theorem exists_weekday (a : Date) {w : ℕ} (hw : w < 7) : ∃ i < 7, (a.addDays i).weekday = w := by
  have hlt : a.weekday < 7 := by
    unfold weekday
    omega
  refine ⟨(w + 7 - a.weekday) % 7, by omega, ?_⟩
  rw [weekday_addDays]
  omega

/-- The date of a day of a month that may be before or after its days. Source: ECMAScript
`MakeDay`. -/
def ofDay (month : ℤ) (day : ℕ) : Date :=
  if day = 0 then onDay (month - 1) 31 (by omega) else (first month).addDays (day - 1)

theorem ofDay_of_le (month : ℤ) {day : ℕ} (hpos : 0 < day) (hle : day ≤ daysIn month) :
    ofDay month day = ⟨month, day, hpos, hle⟩ := by
  unfold ofDay
  rw [if_neg (by omega), addDays_of_le (by simp only [first]; omega)]
  ext
  · rfl
  · simp only [first]
    omega

theorem daysBefore_strictMono : StrictMono daysBefore :=
  strictMono_int_of_lt_succ fun month => by
    have hge := daysIn_ge month
    rw [daysBefore_succ]
    omega

/-- A day is in the month where the date has its number. -/
theorem le_of_ofDay_day {month : ℤ} {day : ℕ} (h : (ofDay month day).day = day) :
    0 < day ∧ day ≤ daysIn month := by
  have hpos : 0 < day := h ▸ (ofDay month day).pos
  have hnumber : (ofDay month day).number = daysBefore month + day - 1 := by
    unfold ofDay
    rw [if_neg (by omega), number_addDays]
    simp only [number, first]
    omega
  have hmonth : (ofDay month day).month = month := by
    apply daysBefore_strictMono.injective
    simp only [number, h] at hnumber
    omega
  have hle := (ofDay month day).le
  rw [h, hmonth] at hle
  exact ⟨hpos, hle⟩

theorem number_strictMono : StrictMono number := by
  intro a b h
  have hale := a.le
  have hbpos := b.pos
  have hadays := hale.trans (daysIn_le _)
  have hbdays := b.le.trans (daysIn_le _)
  rw [lt_iff] at h
  unfold rank at h
  unfold number
  rcases eq_or_lt_of_le (show a.month ≤ b.month by omega) with hmonth | hmonth
  · rw [hmonth] at h ⊢
    omega
  · have hnext : daysBefore (a.month + 1) ≤ daysBefore b.month :=
      daysBefore_strictMono.monotone (by omega)
    rw [daysBefore_succ] at hnext
    omega

/-- The day before. -/
def prev (a : Date) : Date :=
  if h : 1 < a.day then ⟨a.month, a.day - 1, by omega, by have := a.le; omega⟩
  else onDay (a.month - 1) 31 (by omega)

theorem number_prev (a : Date) : a.prev.number = a.number - 1 := by
  have hpos := a.pos
  unfold prev
  split_ifs with h
  · simp only [number]
    omega
  · have hmonth := daysBefore_succ (a.month - 1)
    have hle := daysIn_le (a.month - 1)
    rw [sub_add_cancel] at hmonth
    simp only [number, onDay, min_eq_right hle]
    omega

/-- The date of a day, counted from the first of January 1970. -/
def ofEpoch : ℤ → Date
  | .ofNat k => (first (1970 * 12)).addDays k
  | .negSucc k => prev^[k + 1] (first (1970 * 12))

theorem number_ofEpoch (n : ℤ) : (ofEpoch n).number = 719528 + n := by
  have hfirst : (first (1970 * 12)).number = 719528 := by decide
  cases n with
  | ofNat k =>
      rw [ofEpoch, number_addDays, hfirst]
      rfl
  | negSucc k =>
      have hprev : ∀ k : ℕ, (prev^[k] (first (1970 * 12))).number = 719528 - k := by
        intro k
        induction k with
        | zero => simpa using hfirst
        | succ k ih =>
            rw [Function.iterate_succ_apply', number_prev, ih]
            omega
      rw [ofEpoch, hprev]
      omega

end Date

end DayfiBackend.Found.Calendar
