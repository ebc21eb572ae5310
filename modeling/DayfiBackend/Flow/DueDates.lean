import DayfiBackend.Found.Calendar
import DayfiBackend.Four.SendPhrases

/-!
# The day that a label names

A payment is due on a day that a label such as "tomorrow", "every Friday" or "Jun 14" names, or at a
date that is given. `parseDueLabelToNextRunAt` looks for the names in an order of its own and takes
the next such day, at nine; a day that the month does not have runs over into the next one
(`label_tells_iff`).

What `Date` makes of other texts is a parameter, as is the time zone (`Dates`).
-/

namespace DayfiBackend.Flow.DueDates

open DayfiBackend.Found.Calendar DayfiBackend.Found.Regex
open DayfiBackend.Found.Keys
open DayfiBackend.Found.Regex.Re (opt plus anyOf all)
open DayfiBackend.Infra.BulkCsv (Text trimText)
open DayfiBackend.Four.SendPhrases (captured)
open DayfiBackend.Found.Decimals (natural)

/-! ### Dates and labels -/

/-- What `Date` makes of texts and times, in milliseconds, in a time zone. -/
structure Dates where
  /-- `new Date(text)`, if that is a date. -/
  read : Text → Option ℤ
  /-- The date of a time. -/
  date : ℤ → Date
  /-- Nine o'clock on a date. -/
  atNine : Date → ℤ
  /-- The start of a date. -/
  midnight : Date → ℤ
  date_atNine : ∀ d, date (atNine d) = d
  midnight_le_iff : ∀ d t, midnight d ≤ t ↔ d ≤ date t

/-- A day, in milliseconds. -/
def msPerDay : ℤ := 86400000

/-- A server in UTC. -/
def utcDates (read : Text → Option ℤ) : Dates where
  read := read
  date t := Date.ofEpoch (t / msPerDay)
  atNine d := (d.number - 719528) * msPerDay + 32400000
  midnight d := (d.number - 719528) * msPerDay
  date_atNine d := by
    apply Date.number_strictMono.injective
    rw [Date.number_ofEpoch]
    unfold msPerDay
    omega
  midnight_le_iff d t := by
    rw [← Date.number_strictMono.le_iff_le, Date.number_ofEpoch]
    unfold msPerDay
    omega

/-- Source: `dayflowDueDate.ts` `WEEKDAYS`. -/
def weekdays : List (String × ℕ) :=
  [("sunday", 0), ("monday", 1), ("tuesday", 2), ("wednesday", 3), ("thursday", 4), ("friday", 5),
    ("saturday", 6)]

/-- A text has a part. -/
def has (text : Text) (part : String) : Bool := decide (part.toList <:+: text)

/-- The names of the months. -/
def monthName : Re := anyOf [
  .seq (.text "jan") (opt (.text "uary")),
  .seq (.text "feb") (opt (.text "ruary")),
  .seq (.text "mar") (opt (.text "ch")),
  .seq (.text "apr") (opt (.text "il")),
  .text "may",
  .seq (.text "jun") (opt (.text "e")),
  .seq (.text "jul") (opt (.text "y")),
  .seq (.text "aug") (opt (.text "ust")),
  .seq (.text "sep") (opt (.seq (.text "t") (opt (.text "ember")))),
  .seq (.text "oct") (opt (.text "ober")),
  .seq (.text "nov") (opt (.text "ember")),
  .seq (.text "dec") (opt (.text "ember"))]

/-- A month and a day. -/
def monthAndDay : Re :=
  all [boundary, .group 1 monthName, plus space, .group 2 (digit.between 1 2), boundary]

/-- The month, from January on, and the day of a label in lower case. -/
def monthDay (lower : Text) : Option (ℕ × ℕ) :=
  (exec monthAndDay lower).bind fun m =>
    (["jan", "feb", "mar", "apr", "may", "jun", "jul", "aug", "sep", "oct", "nov", "dec"].findIdx?
      fun month => month.toList = (captured m 1).take 3).map fun month =>
        (month, natural (captured m 2))

section label

variable (D : Dates) (dueLabel : Text) (created : ℤ)

/-- The time of a label with a hyphen that is the text of a date. -/
def dated : Option ℤ := if '-' ∈ dueLabel then D.read (trimText dueLabel) else none

/-- The first of two weeks' days, from today on, that is a day of the week. -/
def nextWeekday (today : Date) (weekday : ℕ) : Option Date :=
  (List.range 14).findSome? fun i =>
    if (today.addDays i).weekday = weekday then some (today.addDays i) else none

/-- The year that a month and a day are taken in: this year, or the next, if they are over. -/
def yearOf (month day : ℕ) : ℤ :=
  let today := D.date created
  let year := today.month / 12
  if D.atNine (Date.ofDay (12 * year + month) day) < D.midnight today then year + 1 else year

/-- The date of a month and a day. -/
def dayOf (month day : ℕ) : Date := Date.ofDay (12 * yearOf D created month day + month) day

/-- Source: `dayflowDueDate.ts` `parseDueLabelToNextRunAt`, of a label that is empty if absent. -/
def parseDueLabelToNextRunAt : Option ℤ :=
  if trimText dueLabel = [] then none
  else
    let lower := trimText (lowerCase dueLabel)
    let today := D.date created
    match dated D dueLabel with
    | some iso => some iso
    | none =>
        if has lower "today" then some (D.atNine today)
        else if has lower "tomorrow" then some (D.atNine today.next)
        else
          match weekdays.findSome? fun named =>
              if has lower named.1 then nextWeekday today named.2 else none with
          | some day => some (D.atNine day)
          | none =>
              (monthDay lower).map fun (month, day) => D.atNine (dayOf D created month day)

/-- A day is one that a label names: the day of its date, today, tomorrow, one of its days of the
week, or its day of its month. -/
def DayNamed (day : Date) : Prop :=
  let lower := trimText (lowerCase dueLabel)
  let today := D.date created
  (∃ t, dated D dueLabel = some t ∧ day = D.date t) ∨
    (has lower "today" = true ∧ day = today) ∨
    (has lower "tomorrow" = true ∧ day = today.next) ∨
    (∃ named ∈ weekdays, has lower named.1 = true ∧ day.weekday = named.2) ∨
    ∃ month n, monthDay lower = some (month, n) ∧ day.month % 12 = month ∧ day.day = n

/-- A label tells a day: it is the text of a date that is not over, or else has today, tomorrow, a
day of the week, or a month and a day that the month has in the year they are taken in. -/
def LabelTells : Prop :=
  let lower := trimText (lowerCase dueLabel)
  trimText dueLabel ≠ [] ∧
    match dated D dueLabel with
    | some t => D.midnight (D.date created) ≤ t
    | none =>
        has lower "today" = true ∨ has lower "tomorrow" = true ∨
          (∃ named ∈ weekdays, has lower named.1 = true) ∨
          ∃ month day, monthDay lower = some (month, day) ∧ 0 < day ∧
            day ≤ daysIn (12 * yearOf D created month day + month)

end label

section tells

variable {D : Dates} {dueLabel : Text} {created : ℤ} {today : Date} {month day : ℕ}

/-- Every day of the week is among the next two weeks' days. -/
theorem exists_nextWeekday (today : Date) {weekday : ℕ} (h : weekday < 7) :
    ∃ d, nextWeekday today weekday = some d ∧ d.weekday = weekday ∧ today ≤ d := by
  obtain ⟨i, hi, hday⟩ := today.exists_weekday h
  have hsome : (nextWeekday today weekday).isSome := by
    rw [nextWeekday, List.isSome_findSome?, List.any_eq_true]
    exact ⟨i, List.mem_range.mpr (by omega), by simp [hday]⟩
  obtain ⟨d, hd⟩ := Option.isSome_iff_exists.mp hsome
  obtain ⟨j, -, hj⟩ := List.exists_of_findSome?_eq_some hd
  split_ifs at hj with hweekday
  cases hj
  exact ⟨_, hd, hweekday, Date.addDays_le (Nat.zero_le j)⟩

/-- The named days of the week are taken as they come. -/
theorem weekday_found {lower : Text} {named : String × ℕ} (hmem : named ∈ weekdays)
    (h : has lower named.1 = true) :
    ∃ d, (weekdays.findSome? fun named =>
        if has lower named.1 then nextWeekday today named.2 else none) = some d := by
  apply Option.isSome_iff_exists.mp
  rw [List.isSome_findSome?, List.any_eq_true]
  obtain ⟨d, hd, -⟩ := exists_nextWeekday today
    (forall_mem_of_all (p := fun named => named.2 < 7) (by decide) named hmem)
  exact ⟨named, hmem, by simp [h, hd]⟩

/-- What the days of the week come to. -/
theorem weekday_named {lower : Text} {d : Date}
    (h : (weekdays.findSome? fun named =>
      if has lower named.1 then nextWeekday today named.2 else none) = some d) :
    (∃ named ∈ weekdays, has lower named.1 = true ∧ d.weekday = named.2) ∧ today ≤ d := by
  obtain ⟨named, hmem, hnamed⟩ := List.exists_of_findSome?_eq_some h
  split_ifs at hnamed with hhas
  obtain ⟨d', hd', hweekday, hle⟩ := exists_nextWeekday today
    (forall_mem_of_all (p := fun named => named.2 < 7) (by decide) named hmem)
  rw [hd'] at hnamed
  cases hnamed
  exact ⟨⟨named, hmem, hhas, hweekday⟩, hle⟩

theorem month_lt {lower : Text} (h : monthDay lower = some (month, day)) : month < 12 := by
  simp only [monthDay, Option.bind_eq_some_iff, Option.map_eq_some_iff, Prod.mk.injEq] at h
  obtain ⟨m, -, index, hindex, rfl, -⟩ := h
  exact (List.findIdx?_eq_some_iff_findIdx_eq.mp hindex).1

/-- Nine o'clock on a date is not before the start of another just where the date is not. -/
theorem midnight_le_atNine {a b : Date} : D.midnight a ≤ D.atNine b ↔ a ≤ b := by
  rw [D.midnight_le_iff, D.date_atNine]

/-- A month and a day are told where the month has the day in the year they are taken in. -/
theorem monthDay_told_iff (hmonth : month < 12) :
    (((dayOf D created month day).month % 12 = month ∧ (dayOf D created month day).day = day) ∧
        D.date created ≤ dayOf D created month day) ↔
      0 < day ∧ day ≤ daysIn (12 * yearOf D created month day + month) := by
  constructor
  · intro h
    exact Date.le_of_ofDay_day h.1.2
  · rintro ⟨hpos, hle⟩
    have hd : dayOf D created month day = _ := Date.ofDay_of_le _ hpos hle
    refine ⟨⟨?_, ?_⟩, ?_⟩
    · rw [hd]
      simp only
      omega
    · rw [hd]
    · by_cases hover : D.atNine (Date.ofDay (12 * ((D.date created).month / 12) + month) day) <
          D.midnight (D.date created)
      · -- in the next year
        have hyear : yearOf D created month day = (D.date created).month / 12 + 1 := by
          simp [yearOf, hover]
        have hday := (D.date created).le.trans (daysIn_le _)
        rw [hd, Date.le_iff, Date.rank, Date.rank]
        simp only
        omega
      · have hyear : yearOf D created month day = (D.date created).month / 12 := by
          simp [yearOf, hover]
        rw [dayOf, hyear]
        exact midnight_le_atNine.mp (not_lt.mp hover)

/-- A label tells a day exactly where it is read as a time on a day that it names, and not before
the start of the day on which it is read. -/
theorem label_tells_iff (D : Dates) (dueLabel : Text) (created : ℤ) :
    (∃ t, parseDueLabelToNextRunAt D dueLabel created = some t ∧
      DayNamed D dueLabel created (D.date t) ∧ D.midnight (D.date created) ≤ t) ↔
      LabelTells D dueLabel created := by
  unfold parseDueLabelToNextRunAt LabelTells
  by_cases hblank : trimText dueLabel = []
  · simp [hblank]
  simp only [hblank, if_false, ne_eq, not_false_eq_true, true_and]
  cases hdated : dated D dueLabel with
  | some iso =>
      simp only [Option.some.injEq, exists_eq_left']
      exact ⟨fun h => h.2, fun h => ⟨.inl ⟨iso, hdated, rfl⟩, h⟩⟩
  | none =>
      simp only
      split_ifs with htoday htomorrow
      · simp only [Option.some.injEq, exists_eq_left', htoday, true_or, iff_true,
          midnight_le_atNine, le_refl, and_true]
        exact .inr (.inl ⟨htoday, D.date_atNine _⟩)
      · simp only [Option.some.injEq, exists_eq_left', htomorrow, true_or, or_true, iff_true,
          midnight_le_atNine]
        exact ⟨.inr (.inr (.inl ⟨htomorrow, D.date_atNine _⟩)), (Date.lt_next _).le⟩
      · split
        · rename_i d hd
          obtain ⟨⟨named, hmem, hhas, hweekday⟩, hle⟩ := weekday_named hd
          simp only [Option.some.injEq, exists_eq_left', midnight_le_atNine]
          refine iff_of_true ⟨.inr (.inr (.inr (.inl ?_))), hle⟩
            (.inr (.inr (.inl ⟨named, hmem, hhas⟩)))
          exact ⟨named, hmem, hhas, by rwa [D.date_atNine]⟩
        · rename_i hnone
          have hno : ¬ ∃ named ∈ weekdays,
              has (trimText (lowerCase dueLabel)) named.1 = true := by
            rintro ⟨named, hmem, hhas⟩
            obtain ⟨d, hd⟩ : ∃ d, (weekdays.findSome? fun named =>
                if has (trimText (lowerCase dueLabel)) named.1 then
                  nextWeekday (D.date created) named.2 else none) = some d :=
              weekday_found hmem hhas
            rw [hd] at hnone
            cases hnone
          constructor
          · rintro ⟨t, ht, hnamed, hle⟩
            obtain ⟨⟨month, day⟩, hmonthDay, rfl⟩ := Option.map_eq_some_iff.mp ht
            refine .inr (.inr (.inr ⟨month, day, hmonthDay, ?_⟩))
            rw [← monthDay_told_iff (month_lt hmonthDay)]
            refine ⟨?_, midnight_le_atNine.mp hle⟩
            rcases hnamed with ⟨t, ht, -⟩ | ⟨h, -⟩ | ⟨h, -⟩ | ⟨named, hmem, hhas, -⟩ |
              ⟨month', day', hmonthDay', hday⟩
            · rw [hdated] at ht
              cases ht
            · exact absurd h htoday
            · exact absurd h htomorrow
            · exact absurd ⟨named, hmem, hhas⟩ hno
            · rw [hmonthDay] at hmonthDay'
              cases hmonthDay'
              rwa [D.date_atNine] at hday
          · rintro (h | h | h | ⟨month, day, hmonthDay, hday⟩)
            · exact absurd h htoday
            · exact absurd h htomorrow
            · exact absurd h hno
            · rw [← monthDay_told_iff (month_lt hmonthDay)] at hday
              refine ⟨_, by rw [hmonthDay]; rfl, ?_, midnight_le_atNine.mpr hday.2⟩
              refine .inr (.inr (.inr (.inr ⟨month, day, hmonthDay, ?_⟩)))
              rw [D.date_atNine]
              exact hday.1

end tells

end DayfiBackend.Flow.DueDates
