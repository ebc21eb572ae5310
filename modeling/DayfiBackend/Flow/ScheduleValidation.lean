import DayfiBackend.Flow.DueDates
import DayfiBackend.Flow.Flows

/-!
# Accepted schedules

A flow is created with schedules, each with a label for the day it is due or a date. The schedules
are registered with a date that is found for the label, then validated, then stored. What is
accepted is asked of the label alone: any label will do for a schedule that is not once, whereas the
date is found only once, weekly, every two weeks, today or tomorrow (`accepted_without_date`).
`accepted_gets_run_date_iff` says which schedules get a date that keeps the label.
-/

namespace DayfiBackend.Flow.ScheduleValidation

open DayfiBackend.Flow.DueDates
open DayfiBackend.Found.Calendar DayfiBackend.Found.Keys
open DayfiBackend.Found.Regex (test digit space isWord)
open DayfiBackend.Found.Regex.Re (opt plus rep atLeast anyOf all)
open DayfiBackend.Infra.BulkCsv (Text trimText)

/-! ### Schedules -/

/-- When a schedule runs next: a text as it was given, or a time. -/
inductive RunDate where
  | text (given : Text)
  | time (instant : ℤ)
  deriving DecidableEq

/-- The time that is stored, if it is one. -/
def RunDate.read (D : Dates) : RunDate → Option ℤ
  | .text given => if given = [] then none else D.read given
  | .time t => some t

/-- Source: `dayflowFlowService.ts` `DayflowFlowSchedule`, as it is given. -/
structure ScheduleInput where
  title : Text
  amount : ℚ
  sourceAmount : Option ℚ := none
  frequency : Option BudgetFrequency := none
  dueLabel : Option Text := none
  recipientHint : Option Text := none
  recipientId : Option Text := none
  paymentType : Option PaymentType := none
  autoPay : Bool := true
  nextRunAt : Option RunDate := none
  toCurrency : Option Text := none
  bill : Option BillDetails := none
  deriving DecidableEq

/-! ### Run dates -/

section dates

variable (D : Dates)

/-- Source: `dayflowDueDate.ts` `resolveNextRunAtIso`. -/
def resolveNextRunAtIso (dueLabel : Option Text) (nextRunAt : Option Text)
    (frequency : Option BudgetFrequency) (created : ℤ) : Option ℤ :=
  let explicit := trimText (nextRunAt.getD [])
  match (if explicit = [] then none else D.read explicit) with
  | some t => some t
  | none =>
      let freq := frequency.getD .monthly
      let due := dueLabel.getD []
      let lower := lowerCase due
      if freq = .once || has lower "tomorrow" || has lower "today" then
        parseDueLabelToNextRunAt D due created
      else if freq = .weekly || freq = .biweekly then parseDueLabelToNextRunAt D due created
      else none

/-- A schedule as it is registered. Source: `dayflowFlowService.ts` `createAndActivateFlow`. -/
def registered (created : ℤ) (s : ScheduleInput) : ScheduleInput :=
  { s with
    nextRunAt :=
      match s.nextRunAt with
      | some given => some given
      | none => (resolveNextRunAtIso D s.dueLabel none s.frequency created).map .time }

/-- How often, by a label. -/
inductive LabelFrequency where
  | weekly
  | biweekly
  | daily
  | once
  | monthly
  deriving DecidableEq

/-- Source: `dayflowFlowValidation.ts` `frequencyFromLabel`. -/
def frequencyFromLabel (label : Option Text) : LabelFrequency :=
  let lower := lowerCase (label.getD [])
  if has lower "every week" || has lower "each week" || has lower "weekly" ||
    has lower "per week" then .weekly
  else if has lower "two week" || has lower "biweekly" then .biweekly
  else if has lower "every day" || has lower "daily" then .daily
  else if has lower "once" then .once
  else .monthly

/-- Source: `dayflowDueDate.ts` `hasResolvableSchedule`. -/
def hasResolvableSchedule (dueLabel : Option Text) (nextRunAt : Option RunDate)
    (frequency : LabelFrequency) (now : ℤ) : Bool :=
  if (nextRunAt.bind (RunDate.read D)).isSome then true
  else
    let due := trimText (dueLabel.getD [])
    if frequency ≠ .once then decide (due ≠ []) || (parseDueLabelToNextRunAt D due now).isSome
    else (parseDueLabelToNextRunAt D due now).isSome

end dates

/-! ### Validation -/

/-- A text without white space and some other characters. -/
def without (dropped : List Char) (text : Text) : Text :=
  text.filter fun c => !isSpace c && c ∉ dropped

/-- A digit from seven to nine. -/
def highDigit : Found.Regex.Re := .one fun c => '7' ≤ c && c ≤ '9'

/-- Source: `dayflowFlowValidation.ts` `isValidRecipientOrBillHint`. -/
def isValidRecipientOrBillHint (hint : Option Text) (paymentType : PaymentType) : Bool :=
  let t := trimText (hint.getD [])
  if t = [] then false
  else if paymentType = .savings then true
  else if paymentType = .bill then
    test (digit.atLeast 6) (without ['-'] t) || '@' ∈ t
  else if test (.seq (.one (· = '@')) (.group 1 (atLeast (.one isWord) 2))) t then true
  else
    let compact := without ['-', '(', ')'] t
    if test (all [.one (· = '0'), highDigit, digit.rep 9]) compact then true
    else if test (all [opt (.one (· = '+')), .text "234", highDigit, digit.rep 9]) compact then true
    else if test (digit.rep 10) compact &&
      test (anyOf (["bank", "gtb", "access", "uba", "zenith", "fcmb", "stanbic", "wema", "fidelity",
        "opay", "palmpay", "kuda", "moniepoint", "sterling", "union"].map .text)) t then true
    else decide (8 ≤ t.length)

/-- Source: `dayflowFlowValidation.ts` `paymentTypeForTitle`. -/
def paymentTypeForTitle (title : Text) : PaymentType :=
  let lower := lowerCase title
  if ["electric", "data", "airtime", "dstv", "gotv", "bill"].any (has lower ·) then .bill
  else if ["saving", "emergency"].any (has lower ·) then .savings
  else .send

/-- Source: `dayflowFlowValidation.ts` `deliversNonUsd`. -/
def deliversNonUsd (toCurrency recipientHint : Option Text) : Bool :=
  -- the one other letter that is a letter of USD in upper case
  let currency := (trimText (toCurrency.getD [])).map fun c =>
    if c = Char.ofNat 0x17F then 'S' else c.toUpper
  decide (currency ≠ [] ∧ currency ≠ "USD".toList) ||
    test (anyOf (["opay", "palmpay", "naira", "ngn", "mtn", "glo", "airtel", "9mobile", "gtb",
      "access", "uba", "zenith", "bank", "nigeria"].map .text)) (lowerCase (recipientHint.getD []))

section validation

variable (D : Dates) (now : ℤ)

/-- What is wrong with a schedule that pays by itself. -/
def scheduleIssue (s : ScheduleInput) : Option String :=
  let paymentType := s.paymentType.getD (paymentTypeForTitle s.title)
  if !isValidRecipientOrBillHint s.recipientHint paymentType then
    some "valid recipient or bill details required"
  else if ¬ 0 < s.amount then some "USD amount must be greater than zero"
  else if deliversNonUsd s.toCurrency s.recipientHint ∧ ¬ 0 < s.sourceAmount.getD 0 then
    some "include delivery-currency amount (e.g. NGN) and USD"
  else if !hasResolvableSchedule D s.dueLabel s.nextRunAt (frequencyFromLabel s.dueLabel) now then
    some "schedule date/time required"
  else if paymentType = .bill ∧ s.bill = none ∧
    !isValidRecipientOrBillHint s.recipientHint .bill then some "bill account details required"
  else if paymentType = .send ∧ trimText (s.recipientId.getD []) = [] ∧
    trimText (s.recipientHint.getD []) = [] then some "recipient required for send autopay"
  else none

/-- Source: `dayflowFlowValidation.ts` `validateSchedulesForCreate`. -/
def validateSchedulesForCreate (schedules : List ScheduleInput) : Except Text Unit :=
  match schedules.findSome? fun s =>
      if s.autoPay then (scheduleIssue D now s).map fun issue =>
        let title := trimText s.title
        (if title = [] then "Payment".toList else title) ++ ": ".toList ++ issue.toList
      else none with
  | some message => .error message
  | none => .ok ()

/-- The schedules of a flow that is created, or what is wrong with them. Source:
`dayflowFlowService.ts` `createAndActivateFlow`. -/
def createAndActivateFlow (schedules : List ScheduleInput) : Except Text (List ScheduleInput) := do
  let schedules := schedules.map (registered D now)
  validateSchedulesForCreate D now schedules
  return schedules

/-- What is created is registered, and nothing is wrong with what pays by itself. -/
theorem createAndActivateFlow_ok {D : Dates} {now : ℤ} {schedules stored : List ScheduleInput}
    (h : createAndActivateFlow D now schedules = .ok stored) :
    stored = schedules.map (registered D now) ∧
      ∀ s ∈ stored, s.autoPay = true → scheduleIssue D now s = none := by
  simp only [createAndActivateFlow, validateSchedulesForCreate] at h
  split at h
  · cases h
  · rename_i hissues
    cases h
    refine ⟨rfl, fun s hs hauto => ?_⟩
    have hissue := List.findSome?_eq_none_iff.mp hissues s hs
    rw [if_pos hauto] at hissue
    exact Option.map_eq_none_iff.mp hissue

end validation

/-! ### The date of an accepted schedule -/

section runs

variable (D : Dates) (created : ℤ)

/-- A schedule is stored with a date; one that is found for the label is on a day that the label
names, and not before the day of the creation. -/
def GetsRunDate (s stored : ScheduleInput) : Prop :=
  ∃ t, stored.nextRunAt.bind (RunDate.read D) = some t ∧
    (s.nextRunAt = none → DayNamed D (s.dueLabel.getD []) created (D.date t) ∧
      D.midnight (D.date created) ≤ t)

/-- A schedule has a date: one that is given and is read as such, or else a label that tells a day,
where the schedule is once, weekly or every two weeks, or due today or tomorrow. -/
def HasDate (s : ScheduleInput) : Prop :=
  match s.nextRunAt with
  | some given => (given.read D).isSome
  | none =>
      let lower := lowerCase (s.dueLabel.getD [])
      (s.frequency ∈ [some .once, some .weekly, some .biweekly] ∨ has lower "tomorrow" = true ∨
          has lower "today" = true) ∧
        LabelTells D (s.dueLabel.getD []) created

/-- What is found for a label. -/
theorem resolve_none (dueLabel : Option Text) (frequency : Option BudgetFrequency) :
    resolveNextRunAtIso D dueLabel none frequency created =
      if frequency ∈ [some .once, some .weekly, some .biweekly] ∨
          has (lowerCase (dueLabel.getD [])) "tomorrow" = true ∨
          has (lowerCase (dueLabel.getD [])) "today" = true then
        parseDueLabelToNextRunAt D (dueLabel.getD []) created
      else none := by
  have hexplicit : trimText ((none : Option Text).getD []) = [] := rfl
  simp only [resolveNextRunAtIso, hexplicit, if_true]
  by_cases hnamed : has (lowerCase (dueLabel.getD [])) "tomorrow" = true ∨
      has (lowerCase (dueLabel.getD [])) "today" = true
  · simp [hnamed, or_assoc]
  · match frequency with
    | none => simp_all
    | some .once => simp_all
    | some .weekly => simp_all
    | some .biweekly => simp_all
    | some .monthly => simp_all

/-- A schedule gets a date that keeps its label exactly where it has one. -/
theorem getsRunDate_iff (s : ScheduleInput) :
    GetsRunDate D created s (registered D created s) ↔ HasDate D created s := by
  unfold GetsRunDate HasDate registered
  cases hgiven : s.nextRunAt with
  | some given =>
      simp only [Option.bind_some, reduceCtorEq, false_implies, and_true]
      rw [Option.isSome_iff_exists]
  | none =>
      have hread : ∀ found : Option ℤ, (found.map RunDate.time).bind (RunDate.read D) = found := by
        intro found
        cases found with
        | none => rfl
        | some t => rfl
      simp only [hread, resolve_none, true_implies]
      split_ifs with hlabel
      · rw [and_iff_right hlabel]
        exact label_tells_iff D (s.dueLabel.getD []) created
      · exact iff_of_false (fun ⟨t, ht, _⟩ => (by cases ht)) fun h => hlabel h.1

end runs

/-- The rent, every month on payday. -/
def payday : ScheduleInput where
  title := "Rent".toList
  amount := 100
  dueLabel := some "payday".toList
  recipientHint := some "@landlord".toList

/-- A schedule without a date is accepted. -/
theorem accepted_without_date :
    createAndActivateFlow (utcDates fun _ => none) 1778846400000 [payday] = .ok [payday] ∧
      ¬ GetsRunDate (utcDates fun _ => none) 1778846400000 payday payday := by
  refine ⟨by decide +kernel, ?_⟩
  rintro ⟨t, ht, -⟩
  cases ht

/-- In every flow that is created, all schedules that pay by themselves are stored with a date that
keeps their label exactly where all of them have one. -/
theorem accepted_gets_run_date_iff (D : Dates) (created : ℤ) (schedules stored : List ScheduleInput)
    (h : createAndActivateFlow D created schedules = .ok stored) :
    List.Forall₂ (fun s r => s.autoPay = true → GetsRunDate D created s r) schedules stored ↔
      ∀ s ∈ schedules, s.autoPay = true → HasDate D created s := by
  rw [(createAndActivateFlow_ok h).1, List.forall₂_map_right_iff, List.forall₂_same]
  exact forall₃_congr fun s _ _ => getsRunDate_iff D created s

/-- The rent, every Friday. -/
def fridays : ScheduleInput where
  title := "Rent".toList
  amount := 100
  frequency := some .weekly
  dueLabel := some "every friday".toList
  recipientHint := some "@landlord".toList

/-- It is due on the next Friday. -/
theorem accepted_gets_run_date_fridays :
    List.Forall₂ (fun s r => s.autoPay = true →
        GetsRunDate (utcDates fun _ => none) 43200000 s r)
      [fridays] [registered (utcDates fun _ => none) 43200000 fridays] := by
  refine (accepted_gets_run_date_iff _ _ _ _ (by decide +kernel)).mpr fun s hs _ => ?_
  rw [List.mem_singleton] at hs
  subst hs
  exact ⟨.inl (by decide), by decide +kernel, .inr (.inr (.inl ⟨("friday", 5), by decide,
    by decide +kernel⟩))⟩

end DayfiBackend.Flow.ScheduleValidation
