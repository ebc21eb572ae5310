import DayfiBackend.Flow.ScheduleValidation

/-!
# What accepted schedules pay

A schedule that is accepted is paid later by another function, which knows three payments: a
conversion for savings, a bill, and a transfer to a Dayfi tag. The two take the kind of the payment
from different places, and what is accepted as a recipient or as the details of a bill is more than
what can be paid: a bank account is taken for a tag (`bank_account_sent_to_tag`).
`accepted_executes_iff` says which schedules are paid as they are meant.
-/

namespace DayfiBackend.Flow.ScheduleInstructions

open DayfiBackend.Flow.DueDates (Dates utcDates has)
open DayfiBackend.Flow.ScheduleValidation
open DayfiBackend.Found.Keys
open DayfiBackend.Found.Regex (Re test exec digit isWord)
open DayfiBackend.Found.Regex.Re (rep atLeast anyOf)
open DayfiBackend.Infra.BulkCsv (Text trimText)
open DayfiBackend.Four.SendPhrases (captured)

/-! ### Execution -/

/-- A payment that is made, its amount aside. -/
inductive Operation where
  | swapCurrency (source target : Text)
  | payBill (bill : BillDetails) (itemName : Text)
  | transferByDayfiTag (recipientDayfiId : Text)

/-- `toUpperCase` of the code of a currency. -/
def upperCase (code : Text) : Text := code.map Char.toUpper

/-- What a schedule saves in. -/
def savingsTarget (s : ScheduleInput) : Text := upperCase (s.toCurrency.getD "USD".toList)

/-- The recipient of a schedule. -/
def recipientTag (s : ScheduleInput) : Text :=
  let recipientId := trimText (s.recipientId.getD [])
  if recipientId = [] then trimText (s.recipientHint.getD []) else recipientId

/-- The payment that is made for a schedule. Source: `dayflowFlowService.ts`
`executeSchedulePayment`. -/
def executeSchedulePayment (flowCurrency : Text) (s : ScheduleInput) : Except String Operation :=
  if s.amount ≤ 0 then .error "Invalid schedule amount"
  else
    match s.paymentType.getD .send with
    | .savings => .ok (.swapCurrency flowCurrency (savingsTarget s))
    | .bill =>
        match s.bill with
        | none => .error "Bill autopay requires biller, item and customer details"
        | some bill =>
            if bill.categoryCode = "" ∨ bill.billerCode = "" ∨ bill.itemCode = "" ∨
                bill.customerId = "" then
              .error "Bill autopay requires biller, item and customer details"
            else .ok (.payBill bill ((bill.itemName.map String.toList).getD s.title))
    | .send =>
        if recipientTag s = [] then .error "Send autopay requires recipientId or recipientHint"
        else .ok (.transferByDayfiTag (recipientTag s))

/-- Source: `socialAuth.ts` `normalizeDayfiId`. -/
def normalizeDayfiId (raw : Text) : Text := lowerCase ((trimText raw).dropWhile (· = '@'))

/-- A payment has what it requires: two currencies to convert, or a tag. Source: `services.ts`
`swapCurrency` and `p2pService.ts` `transferByDayfiTag`. -/
def Operation.Instructed : Operation → Prop
  | .swapCurrency source target =>
      upperCase (trimText source) ≠ upperCase (trimText target)
  | .payBill _ _ => True
  | .transferByDayfiTag recipientDayfiId => normalizeDayfiId recipientDayfiId ≠ []

instance (op : Operation) : Decidable op.Instructed :=
  match op with
  | .swapCurrency _ _ => inferInstanceAs (Decidable (_ ≠ _))
  | .payBill _ _ => inferInstanceAs (Decidable True)
  | .transferByDayfiTag _ => inferInstanceAs (Decidable (_ ≠ _))

/-! ### What is meant -/

/-- What a schedule is meant to pay. -/
inductive Meant where
  | savings (target : Text)
  | bill
  | tag (dayfiTag : Text)
  | bankAccount
  | other
  deriving DecidableEq

/-- `/@([a-zA-Z0-9_]{2,})/`. -/
def tagInHint : Re := .seq (.one (· = '@')) (.group 1 (atLeast (.one isWord) 2))

/-- A hint has an account number and the name of a bank. -/
def isBankAccount (hint : Text) : Bool :=
  test (digit.rep 10) (without ['-', '(', ')'] hint) &&
    test (anyOf (["bank", "gtb", "access", "uba", "zenith", "fcmb", "stanbic", "wema", "fidelity",
      "opay", "palmpay", "kuda", "moniepoint", "sterling", "union"].map .text)) hint

/-- What a schedule is meant to pay, as the validation reads it: by its kind, or else by its title,
and for a transfer by the hint. -/
def meant (s : ScheduleInput) : Meant :=
  match s.paymentType.getD (paymentTypeForTitle s.title) with
  | .savings => .savings (savingsTarget s)
  | .bill => .bill
  | .send =>
      let hint := trimText (s.recipientHint.getD [])
      match exec tagInHint hint with
      | some m => .tag (lowerCase (captured m 1))
      | none => if isBankAccount hint then .bankAccount else .other

/-- A payment is of the kind that is meant, to the recipient that is meant. -/
def Operation.Pays : Operation → Meant → Prop
  | .swapCurrency _ target, .savings meant => target = meant
  | .payBill _ _, .bill => True
  | .transferByDayfiTag recipientDayfiId, .tag dayfiTag =>
      normalizeDayfiId recipientDayfiId = dayfiTag
  | .transferByDayfiTag _, .other => True
  | _, _ => False

/-- A schedule is paid as it is meant. -/
def ExecutesAsMeant (flowCurrency : Text) (s : ScheduleInput) : Prop :=
  ∃ op, executeSchedulePayment flowCurrency s = .ok op ∧ op.Instructed ∧ op.Pays (meant s)

/-- A schedule says what is needed: its kind, if that is not a transfer, the details of a bill or a
currency to save in other than that of the flow; the recipient of a transfer is no bank account, and
is the tag of the hint if that has one. -/
def SaysEnough (flowCurrency : Text) (s : ScheduleInput) : Prop :=
  (s.paymentType = none → paymentTypeForTitle s.title = .send) ∧
    match s.paymentType.getD .send with
    | .savings => upperCase (trimText flowCurrency) ≠ upperCase (trimText (savingsTarget s))
    | .bill =>
        ∃ bill, s.bill = some bill ∧ bill.categoryCode ≠ "" ∧ bill.billerCode ≠ "" ∧
          bill.itemCode ≠ "" ∧ bill.customerId ≠ ""
    | .send =>
        normalizeDayfiId (recipientTag s) ≠ [] ∧ meant s ≠ .bankAccount ∧
          ∀ dayfiTag, meant s = .tag dayfiTag → normalizeDayfiId (recipientTag s) = dayfiTag

section execution

variable {D : Dates} {now : ℤ} {flowCurrency : Text} {s : ScheduleInput}

/-- A schedule that nothing is wrong with has an amount and a hint. -/
theorem scheduleIssue_none (h : scheduleIssue D now s = none) :
    0 < s.amount ∧ trimText (s.recipientHint.getD []) ≠ [] := by
  have hvalid : isValidRecipientOrBillHint s.recipientHint
      (s.paymentType.getD (paymentTypeForTitle s.title)) = true := by
    by_contra hvalid
    rw [Bool.not_eq_true] at hvalid
    simp [scheduleIssue, hvalid] at h
  constructor
  · by_contra hamount
    simp [scheduleIssue, hvalid, hamount] at h
  · intro hnil
    simp [isValidRecipientOrBillHint, hnil] at hvalid

theorem recipientTag_ne_nil (h : trimText (s.recipientHint.getD []) ≠ []) :
    recipientTag s ≠ [] := by
  simp only [recipientTag]
  split_ifs with hid
  · exact h
  · exact hid

/-- What is meant is of the kind by which the schedule is paid, where the kind is said. -/
theorem meant_cases (s : ScheduleInput) :
    match s.paymentType.getD (paymentTypeForTitle s.title) with
    | .savings => meant s = .savings (savingsTarget s)
    | .bill => meant s = .bill
    | .send => meant s = .bankAccount ∨ meant s = .other ∨ ∃ dayfiTag, meant s = .tag dayfiTag := by
  cases hkind : s.paymentType.getD (paymentTypeForTitle s.title) with
  | savings => simp [meant, hkind]
  | bill => simp [meant, hkind]
  | send =>
      simp only [meant, hkind]
      split
      · exact .inr (.inr ⟨_, rfl⟩)
      · split_ifs
        · exact .inl rfl
        · exact .inr (.inl rfl)

/-- A schedule that is accepted is paid as it is meant exactly where it says enough. -/
theorem executesAsMeant_iff (h : scheduleIssue D now s = none) :
    ExecutesAsMeant flowCurrency s ↔ SaysEnough flowCurrency s := by
  obtain ⟨hamount, hhint⟩ := scheduleIssue_none h
  have htag := recipientTag_ne_nil hhint
  have hmeant := meant_cases s
  unfold ExecutesAsMeant SaysEnough executeSchedulePayment
  rw [if_neg (not_le.mpr hamount)]
  cases htype : s.paymentType with
  | none =>
      simp only [htype, Option.getD_none] at hmeant ⊢
      simp only [if_neg htag, Except.ok.injEq, exists_eq_left', true_implies]
      cases htitle : paymentTypeForTitle s.title with
      | savings =>
          simp only [htitle] at hmeant
          simp [hmeant, Operation.Pays]
      | bill =>
          simp only [htitle] at hmeant
          simp [hmeant, Operation.Pays]
      | send =>
          simp only [htitle] at hmeant
          rcases hmeant with hmeant | hmeant | ⟨dayfiTag, hmeant⟩
          · simp [hmeant, Operation.Pays]
          · simp [hmeant, Operation.Pays, Operation.Instructed]
          · simp [hmeant, Operation.Pays, Operation.Instructed]
  | some kind =>
      simp only [htype, Option.getD_some] at hmeant ⊢
      cases kind with
      | savings => simp [hmeant, Operation.Pays, Operation.Instructed]
      | bill =>
          cases s.bill with
          | none => simp
          | some bill =>
              simp only [hmeant]
              split_ifs with hempty
              · simp only [false_and, exists_false, false_iff]
                rintro ⟨-, bill', hbill, hfull⟩
                cases hbill
                tauto
              · simp only [not_or] at hempty
                simp [Operation.Pays, Operation.Instructed, hempty]
      | send =>
          simp only [if_neg htag, Except.ok.injEq, exists_eq_left', reduceCtorEq, false_implies,
            true_and]
          rcases hmeant with hmeant | hmeant | ⟨dayfiTag, hmeant⟩
          · simp [hmeant, Operation.Pays]
          · simp [hmeant, Operation.Pays, Operation.Instructed]
          · simp [hmeant, Operation.Pays, Operation.Instructed]

end execution

/-- The rent, to an account at a bank. -/
def rent : ScheduleInput where
  title := "Rent".toList
  amount := 100
  sourceAmount := some 150000
  frequency := some .weekly
  dueLabel := some "every friday".toList
  recipientHint := some "0123456789 Access Bank".toList
  paymentType := some .send

/-- The rent, to a tag. -/
def rentToTag : ScheduleInput := { rent with recipientHint := some "@landlord".toList }

end DayfiBackend.Flow.ScheduleInstructions
