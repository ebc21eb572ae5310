import DayfiBackend.Flow.Flows
import DayfiBackend.Found.Calendar

/-!
# Recurring due times

A budget that is due is moved on from the time it was due at, a schedule from the time it was paid
at; a month later is `setMonth`, which runs over into the month after a shorter one.
`KeepsCalendar` says what the due times should be, and `calendar_iff` when they are: for a budget,
whatever day it is run on, as long as no month up to its end lacks the day; for a schedule, when
also every payment is made on the day it is due. A budget due on the 31st of January is next due in
March (`february_is_skipped`).
-/

namespace DayfiBackend.Flow

open DayfiBackend.Found.Calendar

/-! ### Budgets -/

/-- Source: `budgetService.ts` `BudgetType`. -/
inductive BudgetType where
  | recurringSend
  | categorySpend
  | billReminder
  | investAllocation
  deriving DecidableEq, Repr

/-- Source: `budgetService.ts` `BudgetStatus`. -/
inductive BudgetStatus where
  | active
  | paused
  | completed
  | cancelled
  deriving DecidableEq, Repr

/-- Source: `budgetService.ts` `BudgetRow`, as far as the reminders read and write it. `endsAt` is
the member of the metadata, when it is the text of a date. -/
structure BudgetRow where
  type : BudgetType
  frequency : BudgetFrequency
  status : BudgetStatus := .active
  spentAmount : ℚ := 0
  nextRunAt : Option ℕ := none
  endsAt : Option ℕ := none
  deriving DecidableEq, Repr

namespace BudgetRow

/-- The budget is over. -/
def complete (row : BudgetRow) : BudgetRow := { row with status := .completed, nextRunAt := none }

/-- The budget is moved on to its next due time. -/
def moveTo (row : BudgetRow) (next : ℕ) : BudgetRow :=
  { row with
    nextRunAt := some next
    spentAmount := if row.type = .categorySpend then 0 else row.spentAmount }

end BudgetRow

/-- Source: `budgetReminderService.ts` `advanceBudgetAfterReminder`. -/
def advanceBudgetAfterReminder (C : Calendar) (now : ℕ) (row : BudgetRow) : BudgetRow :=
  match row.frequency with
  | .once => row.complete
  | frequency =>
      match computeNextRunAt C frequency (row.nextRunAt.getD now) with
      | none => row.complete
      | some next =>
          if ∃ ends ∈ row.endsAt, ends < next then row.complete else row.moveTo next

/-- A budget that a run finds due is moved on. Source: `budgetReminderService.ts`
`runDueBudgetReminders`. -/
def runDueBudgetReminder (C : Calendar) (now : ℕ) (row : BudgetRow) : BudgetRow :=
  if row.status = .active ∧ ∃ next ∈ row.nextRunAt, next ≤ now then
    advanceBudgetAfterReminder C now row
  else row

/-- A budget after some runs, at the given times. -/
def BudgetRow.after (C : Calendar) (times : ℕ → ℕ) (row : BudgetRow) : ℕ → BudgetRow
  | 0 => row
  | k + 1 => runDueBudgetReminder C (times k) (row.after C times k)

/-- A schedule after some payments, at the given times. -/
def Schedule.after (C : Calendar) (times : ℕ → ℕ) (s : Schedule) : ℕ → Schedule
  | 0 => s
  | k + 1 =>
      if (s.after C times k).nextRunAt.isSome then (s.after C times k).succeeded C (times k)
      else s.after C times k

/-! ### The calendar -/

/-- The calendar of the server's time zone: the date of a time, and what the methods of `Date` make
of it. -/
structure LocalCalendar extends Calendar where
  date : ℕ → Date
  date_mono : ∀ s t, s ≤ t → date s ≤ date t
  date_addDays : ∀ n t, date (addDays n t) = (date t).addDays n
  date_addMonth : ∀ t, date (addMonth t) = (date t).addMonth

/-- The dates of a recurrence: every week, every two weeks, or every month on the day of the first
one, or on the last day of a month without it. -/
def occurrence (frequency : BudgetFrequency) (start : Date) (k : ℕ) : Date :=
  match frequency with
  | .once => start
  | .weekly => start.addDays (7 * k)
  | .biweekly => start.addDays (14 * k)
  | .monthly => Date.onDay (start.month + k) start.day start.pos

/-- The due times keep the calendar: they are on its dates, none is missing before the end, and
each is later than the one before. -/
structure KeepsCalendar (date : ℕ → Date) (frequency : BudgetFrequency) (start : Date)
    (ends : Option Date) (due : ℕ → Option ℕ) : Prop where
  dates : ∀ k t, due k = some t → date t = occurrence frequency start k ∧
    (0 < k → ∀ e ∈ ends, occurrence frequency start k ≤ e)
  once : frequency = .once → ∀ k, 0 < k → due k = none
  complete : ∀ k, frequency ≠ .once → (∀ e ∈ ends, occurrence frequency start k < e) →
    (due k).isSome = true
  increasing : ∀ k t u, due k = some t → due (k + 1) = some u → t < u

/-- Every month before the end has the day. -/
def DayExists (frequency : BudgetFrequency) (start : Date) (ends : Option Date) : Prop :=
  frequency = .monthly → ∀ k : ℕ, 0 < k → (∀ e ∈ ends, occurrence frequency start k < e) →
    start.day ≤ daysIn (start.month + k)

/-! ### One step -/

section step

variable {C : LocalCalendar} {frequency : BudgetFrequency} {start d : Date} {k t u now : ℕ}

/-- The date of the next due time, from that of another. -/
def nextDate (frequency : BudgetFrequency) (d : Date) : Date :=
  match frequency with
  | .once => d
  | .weekly => d.addDays 7
  | .biweekly => d.addDays 14
  | .monthly => d.addMonth

theorem computeNextRunAt_date (h : computeNextRunAt C.toCalendar frequency t = some u) :
    C.date u = nextDate frequency (C.date t) := by
  cases frequency with
  | once => cases h
  | weekly => exact Option.some.inj h ▸ C.date_addDays 7 t
  | biweekly => exact Option.some.inj h ▸ C.date_addDays 14 t
  | monthly => exact Option.some.inj h ▸ C.date_addMonth t

theorem computeNextRunAt_lt (h : computeNextRunAt C.toCalendar frequency t = some u) : t < u := by
  cases frequency with
  | once => cases h
  | weekly => exact Option.some.inj h ▸ C.lt_addDays 7 t (by omega)
  | biweekly => exact Option.some.inj h ▸ C.lt_addDays 14 t (by omega)
  | monthly => exact Option.some.inj h ▸ C.lt_addMonth t

theorem exists_computeNextRunAt (C : LocalCalendar) (hf : frequency ≠ .once) (t : ℕ) :
    ∃ u, computeNextRunAt C.toCalendar frequency t = some u := by
  cases frequency with
  | once => exact absurd rfl hf
  | weekly => exact ⟨_, rfl⟩
  | biweekly => exact ⟨_, rfl⟩
  | monthly => exact ⟨_, rfl⟩

theorem occurrence_zero : occurrence frequency start 0 = start := by
  cases frequency with
  | monthly =>
      have := start.le
      ext
      · simp [occurrence, Date.onDay]
      · simpa [occurrence, Date.onDay] using this
  | _ => rfl

/-- A month with the day. -/
theorem occurrence_monthly (h : start.day ≤ daysIn (start.month + k)) :
    occurrence .monthly start k = ⟨start.month + k, start.day, start.pos, h⟩ := by
  ext
  · rfl
  · simpa [occurrence, Date.onDay] using h

theorem occurrence_lt (hf : frequency ≠ .once) :
    occurrence frequency start k < occurrence frequency start (k + 1) := by
  cases frequency with
  | once => exact absurd rfl hf
  | weekly =>
      change _ < start.addDays (7 * k + 7)
      rw [Date.addDays_add]
      exact Date.lt_addDays (by omega)
  | biweekly =>
      change _ < start.addDays (14 * k + 14)
      rw [Date.addDays_add]
      exact Date.lt_addDays (by omega)
  | monthly =>
      have hpos := start.pos
      have hle := start.le.trans (daysIn_le _)
      have hge := daysIn_ge (start.month + (k + 1 : ℕ))
      rw [Date.lt_iff]
      simp only [occurrence, Date.onDay, Date.rank]
      push_cast at hge ⊢
      omega

theorem occurrence_le (hf : frequency ≠ .once) {j : ℕ} (h : j ≤ k) :
    occurrence frequency start j ≤ occurrence frequency start k := by
  induction h with
  | refl => exact le_rfl
  | step _ ih => exact ih.trans (occurrence_lt hf).le

/-- From an occurrence on the day, the next one, when its month has the day. -/
theorem nextDate_occurrence (hf : frequency ≠ .once)
    (hday : frequency = .monthly → start.day ≤ daysIn (start.month + k))
    (hnext : frequency = .monthly → start.day ≤ daysIn (start.month + (k + 1 : ℕ))) :
    nextDate frequency (occurrence frequency start k) = occurrence frequency start (k + 1) := by
  cases frequency with
  | once => exact absurd rfl hf
  | weekly => exact (Date.addDays_add (7 * k) 7).symm
  | biweekly => exact (Date.addDays_add (14 * k) 14).symm
  | monthly =>
      have hnext' : start.day ≤ daysIn (start.month + k + 1) := by
        have := hnext rfl
        push_cast at this
        rwa [← add_assoc] at this
      rw [occurrence_monthly (hday rfl), occurrence_monthly (hnext rfl)]
      change Date.addMonth _ = _
      rw [Date.addMonth_of_le hnext']
      ext
      · push_cast
        ring
      · rfl

/-- From an occurrence on the day, past the next one, when its month lacks the day. -/
theorem occurrence_lt_nextDate (hday : start.day ≤ daysIn (start.month + k))
    (hnext : daysIn (start.month + (k + 1 : ℕ)) < start.day) :
    occurrence .monthly start (k + 1) < nextDate .monthly (occurrence .monthly start k) := by
  have hle := start.le.trans (daysIn_le _)
  have hpos := (nextDate .monthly (occurrence .monthly start k)).pos
  have hmonth : (nextDate .monthly (occurrence .monthly start k)).month = start.month + k + 2 := by
    rw [occurrence_monthly hday]
    refine Date.addMonth_of_lt ?_
    push_cast at hnext
    rwa [← add_assoc] at hnext
  rw [Date.lt_iff]
  simp only [occurrence, Date.onDay, Date.rank] at hmonth ⊢
  push_cast
  omega

end step

/-! ### Budgets, reminder after reminder -/

section budgets

variable {C : LocalCalendar} {row r : BudgetRow} {times : ℕ → ℕ} {t k : ℕ}

/-- A budget is due on its occurrence, or over. -/
inductive BudgetRow.Reached (C : LocalCalendar) (row : BudgetRow) (start : Date) (k : ℕ)
    (r : BudgetRow) : Prop
  | due (t : ℕ) (hstatus : r.status = .active) (hfrequency : r.frequency = row.frequency)
      (hends : r.endsAt = row.endsAt) (hnext : r.nextRunAt = some t)
      (hdate : C.date t = occurrence row.frequency start k)
      (hday : row.frequency = .monthly → start.day ≤ daysIn (start.month + k))
      (hlast : 0 < k → ∀ e ∈ row.endsAt.map C.date, occurrence row.frequency start k ≤ e)
  | ended (hnext : r.nextRunAt = none) (hk : 0 < k)
      (hover : row.frequency = .once ∨
        ∃ e ∈ row.endsAt.map C.date, e ≤ occurrence row.frequency start k)

/-- A run leaves a budget that is not due any more. -/
theorem runDueBudgetReminder_none (hnext : r.nextRunAt = none) (now : ℕ) :
    runDueBudgetReminder C.toCalendar now r = r := by
  unfold runDueBudgetReminder
  rw [if_neg (by simp [hnext])]

/-- A run of a budget that is due. -/
theorem runDueBudgetReminder_due (hstatus : r.status = .active) (hnext : r.nextRunAt = some t)
    {now : ℕ} (hnow : t ≤ now) :
    runDueBudgetReminder C.toCalendar now r =
      match computeNextRunAt C.toCalendar r.frequency t with
      | none => r.complete
      | some next => if ∃ ends ∈ r.endsAt, ends < next then r.complete else r.moveTo next := by
  unfold runDueBudgetReminder
  rw [if_pos ⟨hstatus, t, hnext, hnow⟩]
  unfold advanceBudgetAfterReminder
  rw [hnext]
  cases r.frequency <;> rfl

/-- A run moves a budget on to the next occurrence, or ends it. -/
theorem BudgetRow.Reached.succ {start : Date} (h : row.Reached C start k r)
    (hdays : DayExists row.frequency start (row.endsAt.map C.date)) {now : ℕ}
    (hnow : ∀ t ∈ r.nextRunAt, t ≤ now) :
    row.Reached C start (k + 1) (runDueBudgetReminder C.toCalendar now r) := by
  cases h with
  | ended hnext hk hover =>
      rw [runDueBudgetReminder_none hnext]
      refine .ended hnext (by omega) (hover.imp_right ?_)
      rintro ⟨e, he, hle⟩
      by_cases hf : row.frequency = .once
      · rw [hf] at hle ⊢
        exact ⟨e, he, hle⟩
      · exact ⟨e, he, hle.trans (occurrence_lt hf).le⟩
  | due t hstatus hfrequency hends hnext hdate hday hlast =>
      rw [runDueBudgetReminder_due hstatus hnext (hnow t hnext), hfrequency, hends]
      by_cases hf : row.frequency = .once
      · rw [hf]
        exact .ended rfl (by omega) (.inl hf)
      · obtain ⟨next, hcompute⟩ := exists_computeNextRunAt C hf t
        have hdateNext := computeNextRunAt_date hcompute
        rw [hdate] at hdateNext
        rw [hcompute]
        dsimp only
        by_cases hmonth : row.frequency = .monthly → start.day ≤ daysIn (start.month + (k + 1 : ℕ))
        · -- the next month has the day: the next due time is on its occurrence
          rw [nextDate_occurrence hf hday hmonth] at hdateNext
          split_ifs with hover
          · obtain ⟨e, he, hlt⟩ := hover
            refine .ended rfl (by omega) (.inr ⟨C.date e, by rw [he]; rfl, ?_⟩)
            exact hdateNext ▸ C.date_mono e next hlt.le
          · refine .due next hstatus hfrequency hends rfl hdateNext hmonth fun _ e he => ?_
            obtain ⟨ends, hends', rfl⟩ := Option.map_eq_some_iff.mp he
            have hle : next ≤ ends := not_lt.mp fun hlt => hover ⟨ends, hends', hlt⟩
            exact hdateNext ▸ C.date_mono next ends hle
        · -- it lacks the day: it is not before the end, and the next due time is past it
          obtain ⟨hmonthly, hshort⟩ := Classical.not_imp.mp hmonth
          rw [hmonthly] at hdateNext hdays
          have hpast := occurrence_lt_nextDate (hday hmonthly) (not_le.mp hshort)
          rw [← hdateNext] at hpast
          have hend : ∃ e ∈ row.endsAt.map C.date, e ≤ occurrence .monthly start (k + 1) := by
            by_contra hnone
            refine hshort (hdays rfl (k + 1) (by omega) fun e he => ?_)
            exact not_le.mp fun hle => hnone ⟨e, he, hle⟩
          obtain ⟨e, he, hle⟩ := hend
          obtain ⟨ends, hends', rfl⟩ := Option.map_eq_some_iff.mp he
          have hlt : ends < next := by
            by_contra hge
            exact absurd (C.date_mono next ends (not_lt.mp hge)) (not_le.mpr (hle.trans_lt hpast))
          rw [if_pos ⟨ends, hends', hlt⟩]
          exact .ended rfl (by omega) (.inr ⟨C.date ends, he, by rw [hmonthly]; exact hle⟩)

/-- Run after run. -/
theorem BudgetRow.reached (hstatus : row.status = .active) (hnext : row.nextRunAt = some t)
    (hdays : DayExists row.frequency (C.date t) (row.endsAt.map C.date))
    (hlate : ∀ k, ∀ t ∈ (row.after C.toCalendar times k).nextRunAt, t ≤ times k) (k : ℕ) :
    row.Reached C (C.date t) k (row.after C.toCalendar times k) := by
  induction k with
  | zero =>
      refine .due t hstatus rfl rfl hnext occurrence_zero.symm (fun _ => ?_) fun hk => by omega
      simpa using (C.date t).le
  | succ k ih => exact ih.succ hdays (hlate k)

/-- A run that finds a budget due moves it to a later time. -/
theorem BudgetRow.after_succ (hstatus : row.status = .active)
    (hlate : ∀ k, ∀ t ∈ (row.after C.toCalendar times k).nextRunAt, t ≤ times k) :
    ∀ k t u, (row.after C.toCalendar times k).nextRunAt = some t →
      (row.after C.toCalendar times (k + 1)).nextRunAt = some u →
      computeNextRunAt C.toCalendar row.frequency t = some u := by
  have hkept : ∀ k, (row.after C.toCalendar times k).frequency = row.frequency ∧
      ((row.after C.toCalendar times k).nextRunAt = none ∨
        (row.after C.toCalendar times k).status = .active) := by
    intro k
    induction k with
    | zero => exact ⟨rfl, .inr hstatus⟩
    | succ k ih =>
        unfold BudgetRow.after
        cases hdue : (row.after C.toCalendar times k).nextRunAt with
        | none =>
            rw [runDueBudgetReminder_none hdue]
            exact ih
        | some t =>
            have hactive : (row.after C.toCalendar times k).status = .active :=
              ih.2.resolve_left (by simp [hdue])
            rw [runDueBudgetReminder_due hactive hdue (hlate k t hdue)]
            split
            · exact ⟨ih.1, .inl rfl⟩
            · split_ifs
              · exact ⟨ih.1, .inl rfl⟩
              · exact ⟨ih.1, .inr hactive⟩
  intro k t u ht hu
  obtain ⟨hfrequency, hnone | hactive⟩ := hkept k
  · rw [hnone] at ht
    cases ht
  · have hrun := runDueBudgetReminder_due (C := C) hactive ht (hlate k t ht)
    change (runDueBudgetReminder _ _ _).nextRunAt = _ at hu
    rw [hrun, hfrequency] at hu
    split at hu
    · cases hu
    · rename_i next hnext
      split_ifs at hu
      · cases hu
      · obtain rfl : next = u := Option.some.inj hu
        exact hnext

/-- The due times of a budget keep the calendar exactly when every month before its end has the
day. -/
theorem budget_iff (hstatus : row.status = .active) (hnext : row.nextRunAt = some t)
    (hlate : ∀ k, ∀ t ∈ (row.after C.toCalendar times k).nextRunAt, t ≤ times k) :
    KeepsCalendar C.date row.frequency (C.date t) (row.endsAt.map C.date)
        (fun k => (row.after C.toCalendar times k).nextRunAt) ↔
      DayExists row.frequency (C.date t) (row.endsAt.map C.date) := by
  have hstep := BudgetRow.after_succ hstatus hlate
  constructor
  · intro h hmonthly k hk hopen
    have hf : row.frequency ≠ .once := by
      rw [hmonthly]
      simp
    induction k with
    | zero => omega
    | succ k ih =>
        have hopen' : ∀ e ∈ row.endsAt.map C.date, occurrence row.frequency (C.date t) k < e :=
          fun e he => (occurrence_lt hf).trans (hopen e he)
        have hday : (C.date t).day ≤ daysIn ((C.date t).month + k) := by
          rcases Nat.eq_zero_or_pos k with rfl | hpos
          · simpa using (C.date t).le
          · exact ih hpos hopen'
        obtain ⟨u, hu⟩ := Option.isSome_iff_exists.mp (h.complete k hf hopen')
        obtain ⟨v, hv⟩ := Option.isSome_iff_exists.mp (h.complete (k + 1) hf hopen)
        have hdate := computeNextRunAt_date (hstep k u v hu hv)
        rw [(h.dates k u hu).1, (h.dates (k + 1) v hv).1, hmonthly] at hdate
        by_contra hshort
        exact absurd hdate (occurrence_lt_nextDate hday (not_le.mp hshort)).ne
  · intro hdays
    have hreached := BudgetRow.reached hstatus hnext hdays hlate
    refine ⟨fun k u hu => ?_, fun hf k hk => ?_, fun k hf hopen => ?_, fun k u v hu hv => ?_⟩
    · cases hreached k with
      | due t' _ _ _ hnext' hdate _ hlast =>
          obtain rfl : t' = u := Option.some.inj (hnext'.symm.trans hu)
          exact ⟨hdate, hlast⟩
      | ended hnext' _ _ =>
          have hu' := hnext'.symm.trans hu
          cases hu'
    · cases k with
      | zero => omega
      | succ k =>
          by_contra hne
          obtain ⟨v, hv⟩ := Option.ne_none_iff_exists'.mp hne
          cases hu : (row.after C.toCalendar times k).nextRunAt with
          | none =>
              have hsame : row.after C.toCalendar times (k + 1) =
                  row.after C.toCalendar times k := runDueBudgetReminder_none hu _
              rw [hsame, hu] at hv
              cases hv
          | some u =>
              have hcompute := hstep k u v hu hv
              rw [hf] at hcompute
              cases hcompute
    · cases hreached k with
      | due t' _ _ _ hnext' _ _ _ =>
          rw [hnext']
          rfl
      | ended _ _ hover =>
          rcases hover with honce | ⟨e, he, hle⟩
          · exact absurd honce hf
          · exact absurd (hopen e he) (not_lt.mpr hle)
    · exact computeNextRunAt_lt (hstep k u v hu hv)

end budgets

/-! ### Schedules, payment after payment -/

section schedules

variable {C : LocalCalendar} {s : Schedule} {times : ℕ → ℕ} {start d : Date} {t k : ℕ}

theorem Schedule.after_frequency (k : ℕ) :
    (s.after C.toCalendar times k).frequency = s.frequency := by
  induction k with
  | zero => rfl
  | succ k ih =>
      unfold Schedule.after
      split_ifs
      · exact ih
      · exact ih

/-- A payment of a schedule that is due moves it on from the time of the payment. -/
theorem Schedule.after_succ {u : ℕ} (h : (s.after C.toCalendar times k).nextRunAt = some u) :
    (s.after C.toCalendar times (k + 1)).nextRunAt =
      computeNextRunAt C.toCalendar (s.frequency.getD .monthly) (times k) := by
  rw [Schedule.after, if_pos (by simp [h]), Schedule.succeeded]
  dsimp only
  rw [Schedule.nextRunAfterExecution, Schedule.after_frequency]

/-- A day that, a month later, is on an occurrence: it is in the month of the one before. -/
theorem of_addMonth (h : d.addMonth = occurrence .monthly start (k + 1))
    (hle : occurrence .monthly start k ≤ d) :
    d.month = start.month + k ∧ d.day = min start.day (daysIn (start.month + k + 1)) ∧
      min start.day (daysIn (start.month + k)) ≤ d.day := by
  have hd := d.le.trans (daysIn_le _)
  have hstart := start.le.trans (daysIn_le _)
  have hrank := Date.le_iff.mp hle
  simp only [occurrence, Date.onDay, Date.rank] at hrank
  have hmonth : d.addMonth.month = start.month + k + 1 := by
    rw [h]
    simp only [occurrence, Date.onDay]
    push_cast
    ring
  rcases le_or_gt d.day (daysIn (d.month + 1)) with hfits | hlacks
  · have heq : d.month = start.month + k := by
      rw [Date.addMonth_of_le hfits] at hmonth
      simpa using hmonth
    have hday : d.addMonth.day = d.day := by
      rw [Date.addMonth_of_le hfits]
    rw [h] at hday
    simp only [occurrence, Date.onDay] at hday
    push_cast at hday
    rw [← add_assoc] at hday
    exact ⟨heq, hday.symm, by omega⟩
  · rw [Date.addMonth_of_lt hlacks] at hmonth
    omega

/-- The day exists in every month when a shorter month never follows. -/
theorem dayExists_of_le
    (h : ∀ k : ℕ, min start.day (daysIn (start.month + k)) ≤
      min start.day (daysIn (start.month + k + 1))) : ∀ m, start.day ≤ daysIn m := by
  obtain ⟨k, hlong, hshort⟩ := exists_short start.month
  have hk := h k
  have hle := start.le.trans (daysIn_le _)
  rw [hlong, hshort] at hk
  intro m
  have := daysIn_ge m
  omega

/-- The due times of a schedule keep the calendar exactly when every month has the day and every
payment is made on the day it is due. -/
theorem schedule_iff (hnext : s.nextRunAt = some t)
    (hlate : ∀ k, ∀ t ∈ (s.after C.toCalendar times k).nextRunAt, t ≤ times k) :
    KeepsCalendar C.date (s.frequency.getD .monthly) (C.date t) none
        (fun k => (s.after C.toCalendar times k).nextRunAt) ↔
      DayExists (s.frequency.getD .monthly) (C.date t) none ∧
        (s.frequency.getD .monthly ≠ .once →
          ∀ k, ∀ u ∈ (s.after C.toCalendar times k).nextRunAt, C.date (times k) = C.date u) := by
  set f := s.frequency.getD .monthly with hf
  have hstep : ∀ k u, (s.after C.toCalendar times k).nextRunAt = some u →
      (s.after C.toCalendar times (k + 1)).nextRunAt =
        computeNextRunAt C.toCalendar f (times k) := fun k u h => Schedule.after_succ h
  constructor
  · intro h
    have hsteps : f ≠ .once → ∀ k u, (s.after C.toCalendar times k).nextRunAt = some u →
        nextDate f (C.date (times k)) = occurrence f (C.date t) (k + 1) ∧
          occurrence f (C.date t) k ≤ C.date (times k) := by
      intro hne k u hu
      obtain ⟨v, hv⟩ := exists_computeNextRunAt C hne (times k)
      have hdue : (s.after C.toCalendar times (k + 1)).nextRunAt = some v := by
        rw [hstep k u hu, hv]
      refine ⟨(computeNextRunAt_date hv).symm.trans (h.dates (k + 1) v hdue).1, ?_⟩
      rw [← (h.dates k u hu).1]
      exact C.date_mono u (times k) (hlate k u hu)
    have hdue : f ≠ .once → ∀ k, ∃ u, (s.after C.toCalendar times k).nextRunAt = some u :=
      fun hne k => Option.isSome_iff_exists.mp (h.complete k hne fun e he => by cases he)
    have hdays : f = .monthly → ∀ m, (C.date t).day ≤ daysIn m := by
      intro hmonthly
      refine dayExists_of_le fun k => ?_
      obtain ⟨u, hu⟩ := hdue (by simp [hmonthly]) k
      obtain ⟨hnextDate, hle⟩ := hsteps (by simp [hmonthly]) k u hu
      rw [hmonthly] at hnextDate hle
      obtain ⟨-, hday, hge⟩ := of_addMonth hnextDate hle
      exact hday ▸ hge
    refine ⟨fun hmonthly k _ _ => hdays hmonthly _, fun hne k u hu => ?_⟩
    obtain ⟨hnextDate, hle⟩ := hsteps hne k u hu
    rw [(h.dates k u hu).1]
    cases hfrequency : f with
    | once => exact absurd hfrequency hne
    | weekly =>
        rw [hfrequency] at hnextDate
        exact Date.addDays_injective (hnextDate.trans (Date.addDays_add (7 * k) 7))
    | biweekly =>
        rw [hfrequency] at hnextDate
        exact Date.addDays_injective (hnextDate.trans (Date.addDays_add (14 * k) 14))
    | monthly =>
        rw [hfrequency] at hnextDate hle
        obtain ⟨hmonth, hday, -⟩ := of_addMonth hnextDate hle
        rw [occurrence_monthly (hdays hfrequency _)]
        ext
        · exact hmonth
        · rw [hday]
          exact min_eq_left (hdays hfrequency _)
  · rintro ⟨hdays, hontime⟩
    have hday : f = .monthly → ∀ k : ℕ, (C.date t).day ≤ daysIn ((C.date t).month + k) := by
      intro hmonthly k
      rcases Nat.eq_zero_or_pos k with rfl | hk
      · simpa using (C.date t).le
      · exact hdays hmonthly k hk fun e he => by cases he
    have hreached : f ≠ .once → ∀ k, ∃ u, (s.after C.toCalendar times k).nextRunAt = some u ∧
        C.date u = occurrence f (C.date t) k := by
      intro hne k
      induction k with
      | zero => exact ⟨t, hnext, occurrence_zero.symm⟩
      | succ k ih =>
          obtain ⟨u, hu, hdate⟩ := ih
          obtain ⟨v, hv⟩ := exists_computeNextRunAt C hne (times k)
          refine ⟨v, (hstep k u hu).trans hv, ?_⟩
          rw [computeNextRunAt_date hv, hontime hne k u hu, hdate]
          exact nextDate_occurrence hne (fun hm => hday hm k) fun hm => hday hm (k + 1)
    have honce : f = .once → ∀ k, 0 < k → (s.after C.toCalendar times k).nextRunAt = none := by
      intro hone k hk
      induction k with
      | zero => omega
      | succ k ih =>
          cases hu : (s.after C.toCalendar times k).nextRunAt with
          | none =>
              rw [Schedule.after, if_neg (by simp [hu])]
              exact hu
          | some u =>
              rw [hstep k u hu, hone]
              rfl
    have hzero : ∀ u, (s.after C.toCalendar times 0).nextRunAt = some u → u = t :=
      fun u hu => Option.some.inj (hu.symm.trans hnext)
    refine ⟨fun k u hu => ⟨?_, fun _ e he => by cases he⟩, honce, fun k hne _ => ?_,
      fun k u v hu hv => ?_⟩
    · by_cases hone : f = .once
      · rcases Nat.eq_zero_or_pos k with rfl | hk
        · rw [hzero u hu]
          exact occurrence_zero.symm
        · have hnone := honce hone k hk
          exact absurd hu (by simp [hnone])
      · obtain ⟨v, hv, hdate⟩ := hreached hone k
        obtain rfl : v = u := Option.some.inj (hv.symm.trans hu)
        exact hdate
    · obtain ⟨u, hu, -⟩ := hreached hne k
      rw [hu]
      rfl
    · have hcompute := (hstep k u hu).symm.trans hv
      exact (hlate k u hu).trans_lt (computeNextRunAt_lt hcompute)

end schedules

/-- **The due times of a budget, run at or after each of them, keep the calendar exactly when every
month before its end has the day; those of a schedule, paid at or after each of them, exactly when
every month has the day and every payment is made on the day it is due.** -/
theorem calendar_iff (C : LocalCalendar) (times : ℕ → ℕ) :
    (∀ (row : BudgetRow) (t : ℕ), row.status = .active → row.nextRunAt = some t →
      (∀ k, ∀ t ∈ (row.after C.toCalendar times k).nextRunAt, t ≤ times k) →
        (KeepsCalendar C.date row.frequency (C.date t) (row.endsAt.map C.date)
            (fun k => (row.after C.toCalendar times k).nextRunAt) ↔
          DayExists row.frequency (C.date t) (row.endsAt.map C.date))) ∧
      ∀ (s : Schedule) (t : ℕ), s.nextRunAt = some t →
        (∀ k, ∀ t ∈ (s.after C.toCalendar times k).nextRunAt, t ≤ times k) →
          (KeepsCalendar C.date (s.frequency.getD .monthly) (C.date t) none
              (fun k => (s.after C.toCalendar times k).nextRunAt) ↔
            DayExists (s.frequency.getD .monthly) (C.date t) none ∧
              (s.frequency.getD .monthly ≠ .once → ∀ k,
                ∀ u ∈ (s.after C.toCalendar times k).nextRunAt, C.date (times k) = C.date u)) :=
  ⟨fun _ _ hstatus hnext hlate => budget_iff hstatus hnext hlate,
    fun _ _ hnext hlate => schedule_iff hnext hlate⟩

/-! ### In UTC -/

/-- A day, in milliseconds. -/
def dayMs : ℕ := 86400000

/-- The date of a time, in UTC. -/
def utcDate (t : ℕ) : Date := (Date.first (1970 * 12)).addDays (t / dayMs)

theorem utcDate_add (n t : ℕ) : utcDate (t + n * dayMs) = (utcDate t).addDays n := by
  unfold utcDate dayMs
  rw [Nat.add_mul_div_right _ _ (by omega), Date.addDays_add]

/-- The calendar of a server in UTC; it reads no labels. -/
def utcCalendar : LocalCalendar where
  addDays n t := t + n * dayMs
  addMonth t := t + daysIn (utcDate t).month * dayMs
  parseDueLabelToNextRunAt _ _ := none
  lt_addDays n t h := by
    unfold dayMs
    omega
  lt_addMonth t := by
    have := daysIn_ge (utcDate t).month
    unfold dayMs
    omega
  date := utcDate
  date_mono s t h := Date.addDays_le (Nat.div_le_div_right h)
  date_addDays n t := utcDate_add n t
  date_addMonth t := utcDate_add _ t

/-- A budget that is due every week, from a time on. -/
def weeklyBudget (t : ℕ) : BudgetRow where
  type := .billReminder
  frequency := .weekly
  nextRunAt := some t

theorem weeklyBudget_after (k : ℕ) :
    (weeklyBudget 0).after utcCalendar.toCalendar (fun k => 7 * k * dayMs) k =
      weeklyBudget (7 * k * dayMs) := by
  induction k with
  | zero => rfl
  | succ k ih =>
      have hnext : computeNextRunAt utcCalendar.toCalendar (weeklyBudget (7 * k * dayMs)).frequency
          (7 * k * dayMs) = some (7 * (k + 1) * dayMs) :=
        congrArg some (by ring : 7 * k * dayMs + 7 * dayMs = 7 * (k + 1) * dayMs)
      unfold BudgetRow.after
      rw [ih, runDueBudgetReminder_due rfl rfl le_rfl, hnext]
      rfl

/-- A budget due every week, run on time. -/
theorem weeklyBudget_keepsCalendar :
    KeepsCalendar utcCalendar.date .weekly (utcCalendar.date 0) none fun k =>
      ((weeklyBudget 0).after utcCalendar.toCalendar (fun k => 7 * k * dayMs) k).nextRunAt := by
  refine ((calendar_iff utcCalendar fun k => 7 * k * dayMs).1 (weeklyBudget 0) 0 rfl rfl
    fun k t ht => ?_).mpr fun h => ?_
  · rw [weeklyBudget_after] at ht
    exact (Option.some.inj ht).ge
  · cases h

/-- A budget that is due every month, first on the 31st of January 1970. -/
def monthlyBudget : BudgetRow where
  type := .billReminder
  frequency := .monthly
  nextRunAt := some (30 * dayMs)

/-- When it is due, after some runs 59 days apart. -/
def monthlyDue (k : ℕ) : Option ℕ :=
  (monthlyBudget.after utcCalendar.toCalendar (fun k => 59 * (k + 1) * dayMs) k).nextRunAt

/-- It is next due on the 3rd of March, and the calendar is not kept. -/
theorem february_is_skipped :
    (monthlyDue 1).map (fun t => ((utcDate t).month - 1970 * 12, (utcDate t).day)) = some (2, 3) ∧
      ¬ KeepsCalendar utcDate .monthly (utcDate (30 * dayMs)) none monthlyDue := by
  have hmarch : (monthlyDue 1).map (fun t => ((utcDate t).month - 1970 * 12, (utcDate t).day)) =
      some (2, 3) := by decide +kernel
  refine ⟨hmarch, fun h => ?_⟩
  obtain ⟨t, ht, hdate⟩ := Option.map_eq_some_iff.mp hmarch
  have hfebruary : (occurrence .monthly (utcDate (30 * dayMs)) 1).month - 1970 * 12 = 1 := by
    decide +kernel
  rw [← (h.dates 1 t ht).1] at hfebruary
  have hmarch' : (utcDate t).month - 1970 * 12 = 2 := (Prod.mk.inj hdate).1
  omega

end DayfiBackend.Flow
