import DayfiBackend.Consumer.Balance
import DayfiBackend.Found.History
import Mathlib.Data.List.Sort

/-!
# Flows and their schedules

A flow is a row of `dayflow_flows` with a list of schedules, each with the time it is next due. A
run reads the flows of a user that are due, pays each due schedule, one after the other, and writes
the list back, with what was spent; an edit of a schedule and a cancellation read the row and write
it in statements of their own. The flows of old held their money from the start (`holdMovementId`):
before such a payment the amount is released to the wallet, and a cancellation returns the rest.

What a payment does beyond being called is taken from the outside: whether it moves money, and what
it throws. So are the balances of wallets and the exchange rates. The methods of `Date` that depend
on the time zone of the server are a parameter (`Calendar`).
-/

namespace DayfiBackend.Flow

open DayfiBackend.Found DayfiBackend.Found.Keys
open DayfiBackend.Consumer (decimal cents)

/-! ### Times -/

/-- Source: `budgetService.ts` `BudgetFrequency`. -/
inductive BudgetFrequency where
  | once
  | weekly
  | biweekly
  | monthly
  deriving DecidableEq, Repr

/-- What the methods of `Date` come to in the time zone of the server, on times in milliseconds. -/
structure Calendar where
  /-- `d.setDate(d.getDate() + n)`. -/
  addDays : ℕ → ℕ → ℕ
  /-- `d.setMonth(d.getMonth() + 1)`. -/
  addMonth : ℕ → ℕ
  /-- Source: `dayflowDueDate.ts` `parseDueLabelToNextRunAt`, of a label and the time it is read. -/
  parseDueLabelToNextRunAt : String → ℕ → Option ℕ
  lt_addDays : ∀ n t, 0 < n → t < addDays n t
  lt_addMonth : ∀ t, t < addMonth t

section times

variable (C : Calendar)

/-- Source: `budgetService.ts` `computeNextRunAt`. -/
def computeNextRunAt (frequency : BudgetFrequency) (now : ℕ) : Option ℕ :=
  match frequency with
  | .once => none
  | .weekly => some (C.addDays 7 now)
  | .biweekly => some (C.addDays 14 now)
  | .monthly => some (C.addMonth now)

/-- Source: `dayflowDueDate.ts` `resolveNextRunAtIso`. -/
def resolveNextRunAtIso (dueLabel : Option String) (nextRunAt : Option ℕ)
    (frequency : BudgetFrequency) (now : ℕ) : Option ℕ :=
  match nextRunAt with
  | some explicit => some explicit
  | none =>
      let due := dueLabel.getD ""
      let lower := due.toLower
      if frequency = .once || includes lower "tomorrow" || includes lower "today" then
        C.parseDueLabelToNextRunAt due now
      else if frequency = .weekly || frequency = .biweekly then C.parseDueLabelToNextRunAt due now
      else none

end times

/-! ### Schedules -/

/-- What a schedule pays. -/
inductive PaymentType where
  | send
  | bill
  | savings
  deriving DecidableEq, Repr

/-- The bill of a schedule. -/
structure BillDetails where
  categoryCode : String
  billerCode : String
  itemCode : String
  customerId : String
  billerName : Option String := none
  itemName : Option String := none
  deriving DecidableEq, Repr

/-- How a schedule is executed. -/
structure ScheduleExecution where
  toCurrency : Option String := none
  bill : Option BillDetails := none
  deriving DecidableEq, Repr

/-- How a schedule was last run. -/
inductive RunStatus where
  | success
  | failed
  deriving DecidableEq, Repr

/-- Source: `dayflowFlowService.ts` `DayflowFlowSchedule`. A `nextRunAt` that is not a date counts
as absent (`parseScheduleNextRunAt`). -/
structure Schedule where
  id : Option String := none
  title : String
  amount : ℚ
  sourceAmount : Option ℚ := none
  frequency : Option BudgetFrequency := none
  dueLabel : Option String := none
  recipientHint : Option String := none
  recipientId : Option String := none
  paymentType : Option PaymentType := none
  autoPay : Bool := true
  budgetId : Option String := none
  nextRunAt : Option ℕ := none
  execution : Option ScheduleExecution := none
  lastRunAt : Option ℕ := none
  lastStatus : Option RunStatus := none
  lastError : Option String := none
  runCount : Option ℕ := none
  deriving DecidableEq, Repr

namespace Schedule

/-- Source: `dayflowFlowService.ts` `scheduleKey`. -/
def key (s : Schedule) : String := s.id.getD s.title

/-- How often the schedule was run. -/
def runs (s : Schedule) : ℕ := s.runCount.getD 0

variable (C : Calendar) (now : ℕ)

/-- Source: `dayflowFlowService.ts` `computeScheduleNextRunAfterExecution`. -/
def nextRunAfterExecution (s : Schedule) : Option ℕ :=
  computeNextRunAt C (s.frequency.getD .monthly) now

/-- The schedule, once a run of it has failed. -/
def failed (s : Schedule) (error : String) : Schedule :=
  { s with
    lastStatus := some .failed
    lastError := some error
    lastRunAt := some now
    runCount := some (s.runs + 1) }

/-- The schedule, once it is paid. -/
def succeeded (s : Schedule) : Schedule :=
  { s with
    nextRunAt := s.nextRunAfterExecution C now
    autoPay := (s.nextRunAfterExecution C now).isSome && s.autoPay
    lastStatus := some .success
    lastError := none
    lastRunAt := some now
    runCount := some (s.runs + 1) }

/-- When the schedule is next due. -/
def nextRun (s : Schedule) : Option ℕ :=
  let freq := s.frequency.getD .monthly
  (s.nextRunAt.or (resolveNextRunAtIso C s.dueLabel s.nextRunAt freq now)).or
    (computeNextRunAt C freq now)

end Schedule

/-- Source: `dayflowFlowService.ts` `earliestNextRun`. -/
def earliestNextRun (C : Calendar) (now : ℕ) (schedules : List Schedule) : Option ℕ :=
  schedules.foldl (fun earliest s =>
    if !s.autoPay then earliest
    else
      match s.nextRun C now, earliest with
      | none, earliest => earliest
      | some parsed, none => some parsed
      | some parsed, some e => if parsed < e then some parsed else some e) none

/-- Source: `dayflowFlowService.ts` `UpdateFlowScheduleInput`. -/
structure SchedulePatch where
  title : Option String := none
  amount : Option ℚ := none
  sourceAmount : Option ℚ := none
  recipientHint : Option (Option String) := none
  recipientId : Option (Option String) := none
  paymentType : Option PaymentType := none
  execution : Option ScheduleExecution := none
  deriving DecidableEq, Repr

/-- The execution of a schedule, patched. -/
def mergeExecution (current : Option ScheduleExecution) (patch : ScheduleExecution) :
    ScheduleExecution where
  toCurrency := patch.toCurrency.or (current.bind (·.toCurrency))
  bill :=
    match patch.bill, current.bind (·.bill) with
    | some new, some old => some {
        new with
        billerName := new.billerName.or old.billerName
        itemName := new.itemName.or old.itemName }
    | some new, none => some new
    | none, old => old

/-- Source: `dayflowFlowService.ts` `mergeSchedulePatch`. -/
def mergeSchedulePatch (current : Schedule) (patch : SchedulePatch) : Schedule :=
  { current with
    title := patch.title.getD current.title
    amount := patch.amount.getD current.amount
    sourceAmount := patch.sourceAmount.or current.sourceAmount
    recipientHint := patch.recipientHint.getD current.recipientHint
    recipientId := patch.recipientId.getD current.recipientId
    paymentType := patch.paymentType.or current.paymentType
    execution := (patch.execution.map (mergeExecution current.execution)).or current.execution }

/-! ### Tables -/

/-- The status of a flow. -/
inductive FlowStatus where
  | active
  | cancelled
  deriving DecidableEq, Repr

/-- Source: table `dayflow_flows`; its amounts are `NUMERIC(18,2)`, in cents. -/
structure FlowRow where
  id : String
  userId : String
  title : String
  status : FlowStatus
  heldAmount : ℤ
  spentAmount : ℤ
  currency : String
  schedules : List Schedule
  /-- `metadata.payOnDue === true`. -/
  metaPayOnDue : Bool
  holdMovementId : Option String
  releaseMovementId : Option ℕ
  nextRunAt : Option ℕ
  cancelledAt : Option ℕ
  deriving DecidableEq, Repr

/-- Source: `dayflowFlowService.ts` `isPayOnDueFlow`. -/
def isPayOnDueFlow (row : FlowRow) : Bool := row.metaPayOnDue || (orNull row.holdMovementId).isNone

/-- The idempotency keys of the credits: `dayflow-exec-release:` with the flow and the schedule, and
`dayflow-release:` with a reference. -/
inductive MovementKey where
  | executionRelease (flowId schedule : String)
  | release (reference : ℕ)
  deriving DecidableEq, Repr

/-- Source: table `ledger_movements`, the credits of flows; with the flow they return money of. -/
structure Movement where
  id : ℕ
  userId : String
  walletId : String
  amount : ℤ
  currency : String
  usdEquivalent : ℤ
  key : MovementKey
  flowId : String
  deriving DecidableEq, Repr

/-- What a payment of a schedule is. -/
inductive Payment where
  | swap (userId fromCurrency toCurrency : String) (amount : ℚ)
  | bill (userId : String) (details : BillDetails) (amount : ℚ)
  | transfer (senderUserId senderWalletId recipientDayfiId : String) (amount : ℚ)
      (currency : String)
  deriving DecidableEq, Repr

/-- A payment, with the schedule it is of (its place in the flow), the time it was due at and how
often the schedule had been run. -/
structure SchedulePayment where
  flowId : String
  index : ℕ
  dueAt : ℕ
  runs : ℕ
  payment : Payment
  deriving DecidableEq, Repr

/-- A wallet of a user. -/
structure Wallet where
  walletId : String
  balance : ℚ
  deriving DecidableEq, Repr

/-- The tables, the payments that have moved money, and the time. -/
structure Tables where
  flows : List FlowRow
  ids : (flows.map (·.id)).Nodup
  movements : List Movement := []
  paid : List SchedulePayment := []
  time : ℕ := 0

/-- What the service throws. -/
inductive FlowError where
  | tableMissing
  | flowNotFound
  | flowCancelled
  | scheduleNotFound
  | ngnWalletNotFound
  | invalidAmount
  | billDetails
  | noRecipient
  | payment (message : String)
  | rate (message : String)
  | noRow
  | uniqueViolation
  | checkViolation
  | database (message : String)
  deriving DecidableEq, Repr

/-- The text of an error. -/
def FlowError.message : FlowError → String
  | tableMissing => "DAYFLOW_FLOWS_TABLE_MISSING"
  | flowNotFound => "Flow not found"
  | flowCancelled => "Flow is cancelled"
  | scheduleNotFound => "Schedule not found"
  | ngnWalletNotFound => "NGN wallet not found"
  | invalidAmount => "Invalid schedule amount"
  | billDetails => "Bill autopay requires biller, item and customer details"
  | noRecipient => "Send autopay requires recipientId or recipientHint"
  | payment message | rate message | database message => message
  | noRow => "No data returned from the query."
  | uniqueViolation => "duplicate key value violates unique constraint"
  | checkViolation => "new row for relation \"ledger_movements\" violates check constraint"

abbrev Ans (α : Type) := Except FlowError α

/-- The outside at a step: the time that has passed, the reference that is drawn, the wallet that is
there, what an amount converts to, and whether a payment moves money and what it throws. -/
structure Outside where
  elapsed : ℕ := 0
  reference : ℕ := 0
  tableReady : Bool := true
  wallet : Option Wallet := some ⟨"w1", 1000000⟩
  converted : Except String ℚ := .ok 0
  moves : Bool := true
  answer : Except String Unit := .ok ()

/-- The parameters of `creditWalletBalance`, as far as they are used. -/
structure CreditParams where
  userId : String
  walletId : String
  amount : ℚ
  currency : String
  usdEquivalent : ℚ
  key : MovementKey
  flowId : String
  deriving DecidableEq, Repr

namespace Tables

/-- Some time passes. -/
def tick (T : Tables) (elapsed : ℕ) : Tables := { T with time := T.time + elapsed }

/-- Rows are written. -/
def write (T : Tables) (p : FlowRow → Bool) (f : FlowRow → FlowRow)
    (hf : ∀ r, (f r).id = r.id) : Tables :=
  { T with
    flows := T.flows.map fun r => if p r then f r else r
    ids := by
      have hid : (fun r : FlowRow => r.id) ∘ (fun r => if p r then f r else r) = fun r => r.id := by
        funext r
        simp only [Function.comp_apply]
        split_ifs
        · exact hf r
        · rfl
      rw [List.map_map, hid]
      exact T.ids }

/-- The row of a flow. -/
def flow (T : Tables) (id : String) : Option FlowRow := T.flows.find? (·.id = id)

/-- The row of a user's flow. -/
def flowForUser (T : Tables) (userId id : String) : Option FlowRow :=
  T.flows.find? fun r => r.userId = userId && r.id = id

/-- A flow is due. -/
def isDue (T : Tables) (r : FlowRow) : Bool :=
  r.status = .active && r.nextRunAt.any (· ≤ T.time)

/-- The flows of a user that are due, the earliest first. -/
def dueFlows (T : Tables) (userId : String) : List FlowRow :=
  (T.flows.filter fun r => r.userId = userId && T.isDue r).insertionSort
    fun a b => a.nextRunAt.getD 0 ≤ b.nextRunAt.getD 0

/-- The users with flows that are due. -/
def dueUsers (T : Tables) : List String := ((T.flows.filter T.isDue).map (·.userId)).dedup

/-- The movement of a key. -/
def movementByKey (T : Tables) (key : MovementKey) : Option Movement :=
  T.movements.find? (·.key = key)

/-- What a credit inserts. -/
def movement (T : Tables) (p : CreditParams) : Movement where
  id := T.movements.length
  userId := p.userId
  walletId := p.walletId
  amount := cents p.amount
  currency := p.currency.toUpper
  usdEquivalent := cents p.usdEquivalent
  key := p.key
  flowId := p.flowId

/-- A credit is recorded. -/
def credit (T : Tables) (p : CreditParams) : Tables :=
  { T with movements := T.movement p :: T.movements }

/-- A run writes a flow. -/
def saveRun (T : Tables) (id : String) (schedules : List Schedule) (spent : ℚ)
    (nextRunAt : Option ℕ) : Tables :=
  T.write (·.id = id) (fun r => { r with
    schedules := schedules
    spentAmount := cents (decimal r.spentAmount + spent)
    nextRunAt := nextRunAt }) fun _ => rfl

/-- A flow is cancelled. -/
def setCancelled (T : Tables) (userId id : String) (release : Option ℕ) : Tables :=
  T.write (fun r => r.id = id && r.userId = userId) (fun r => { r with
    status := .cancelled
    cancelledAt := some T.time
    releaseMovementId := release.or r.releaseMovementId }) fun _ => rfl

/-- The schedules of a flow are written. -/
def saveSchedules (T : Tables) (userId id : String) (schedules : List Schedule)
    (nextRunAt : Option ℕ) : Tables :=
  T.write (fun r => r.id = id && r.userId = userId) (fun r => { r with
    schedules := schedules
    nextRunAt := nextRunAt }) fun _ => rfl

end Tables

/-- The statements. -/
inductive FlowSql : Type → Type
  | flowsTableReady : FlowSql (Ans Bool)
  /-- `new Date()`. -/
  | clock : FlowSql (Ans ℕ)
  /-- Source: `balanceService.ts` `newReference`. -/
  | newReference : FlowSql (Ans ℕ)
  /-- `loadUsdWallet` or `loadNgnWallet`. -/
  | wallet (userId currency : String) : FlowSql (Ans (Option Wallet))
  | dueFlows (userId : String) : FlowSql (Ans (List FlowRow))
  | dueUsers : FlowSql (Ans (List String))
  | flowForUser (userId id : String) : FlowSql (Ans (Option FlowRow))
  | convertAmountToUsd (amount : ℚ) (fromCurrency : String) : FlowSql (Ans ℚ)
  | convertAmountBetween (amount : ℚ) (fromCurrency toCurrency : String) : FlowSql (Ans ℚ)
  | movementByKey (key : MovementKey) : FlowSql (Ans (Option Movement))
  /-- The transaction of `creditWalletBalance`. -/
  | credit (p : CreditParams) : FlowSql (Ans ℕ)
  /-- `swapCurrency`, `payBill` or `transferByDayfiTag`. -/
  | pay (p : SchedulePayment) : FlowSql (Ans Unit)
  /-- The update of `runDueSchedulesForUser`. -/
  | saveRun (id : String) (schedules : List Schedule) (spent : ℚ) (nextRunAt : Option ℕ) :
      FlowSql (Ans Unit)
  | cancelLinkedBudgets (id : String) : FlowSql (Ans Unit)
  /-- The update of `cancelFlow`. -/
  | setCancelled (userId id : String) (release : Option ℕ) : FlowSql (Ans FlowRow)
  /-- The update of `updateFlowSchedule`. -/
  | saveSchedules (userId id : String) (schedules : List Schedule) (nextRunAt : Option ℕ) :
      FlowSql (Ans FlowRow)

/-- One statement, once the time has passed. -/
def FlowSql.act {β : Type} (st : FlowSql β) (o : Outside) (T : Tables) : β × Tables :=
  match st with
  | .flowsTableReady => (.ok o.tableReady, T)
  | .clock => (.ok T.time, T)
  | .newReference => (.ok o.reference, T)
  | .wallet .. => (.ok o.wallet, T)
  | .dueFlows userId => (.ok (T.dueFlows userId), T)
  | .dueUsers => (.ok T.dueUsers, T)
  | .flowForUser userId id => (.ok (T.flowForUser userId id), T)
  | .convertAmountToUsd .. | .convertAmountBetween .. => (o.converted.mapError .rate, T)
  | .movementByKey key => (.ok (T.movementByKey key), T)
  | .credit p =>
      if (T.movementByKey p.key).isSome then (.error .uniqueViolation, T)
      else if cents p.amount ≤ 0 then (.error .checkViolation, T)
      else (.ok T.movements.length, T.credit p)
  | .pay p =>
      (o.answer.mapError .payment, if o.moves then { T with paid := p :: T.paid } else T)
  | .saveRun id schedules spent nextRunAt => (.ok (), T.saveRun id schedules spent nextRunAt)
  | .cancelLinkedBudgets _ => (.ok (), T)
  | .setCancelled userId id release =>
      match (T.setCancelled userId id release).flowForUser userId id with
      | some r => (.ok r, T.setCancelled userId id release)
      | none => (.error .noRow, T)
  | .saveSchedules userId id schedules nextRunAt =>
      match (T.saveSchedules userId id schedules nextRunAt).flowForUser userId id with
      | some r => (.ok r, T.saveSchedules userId id schedules nextRunAt)
      | none => (.error .noRow, T)

/-- One statement, when it gets there. -/
def FlowSql.run {β : Type} (st : FlowSql β) (o : Outside) (T : Tables) : β × Tables :=
  st.act o (T.tick o.elapsed)

/-- The answer of a statement that fails. -/
def FlowSql.fail {β : Type} (st : FlowSql β) (e : FlowError) : β :=
  match st with
  | .flowsTableReady | .clock | .newReference | .wallet .. | .dueFlows _ | .dueUsers => .error e
  | .flowForUser .. | .convertAmountToUsd .. | .convertAmountBetween .. | .movementByKey _ =>
      .error e
  | .credit _ | .pay _ | .saveRun .. | .cancelLinkedBudgets _ | .setCancelled .. => .error e
  | .saveSchedules .. => .error e

/-- The statements over the tables, when they may all fail. -/
def statements : Backend FlowSql Outside FlowError Tables where
  run _ st o T := st.run o T
  fail st e := st.fail e

/-- Looking at the clock and drawing a reference do not fail. -/
def FlowSql.may {β : Type} (st : FlowSql β) (o : Except FlowError Outside) : Bool :=
  match st, o with
  | .clock, .error _ | .newReference, .error _ => false
  | _, _ => true

/-- The statements over the tables. -/
def flows : Machine FlowSql (Except FlowError Outside) Tables :=
  statements.machine.guarded FlowSql.may

/-- A call of the service. -/
abbrev FlowCall := ExceptT FlowError (Prog FlowSql)

/-- One statement; its failure is thrown. -/
def sql {β : Type} (st : FlowSql (Ans β)) : FlowCall β := Backend.call st

/-! ### Payments -/

/-- `new Date()`. -/
def clock : FlowCall ℕ := sql .clock

/-- Source: `walletModel.ts` `PRIMARY_CURRENCY`. -/
def primaryCurrency : String := "USD"

/-- Source: `dayflowFlowService.ts` `loadUsdWallet`. -/
def loadUsdWallet (userId : String) : FlowCall (Option Wallet) :=
  sql (.wallet userId primaryCurrency)

/-- Source: `dayflowFlowService.ts` `loadNgnWallet`. -/
def loadNgnWallet (userId : String) : FlowCall (Option Wallet) := sql (.wallet userId "NGN")

/-- What a credit returns. -/
structure CreditResult where
  movementId : ℕ
  duplicate : Bool
  deriving DecidableEq, Repr

/-- Source: `balanceService.ts` `creditWalletBalance`. -/
def creditWalletBalance (p : CreditParams) : FlowCall CreditResult := do
  match ← sql (.movementByKey p.key) with
  | some existing => pure ⟨existing.id, true⟩
  | none => do
      let movementId ← sql (.credit p)
      pure ⟨movementId, false⟩

/-- The currency of a flow. -/
def FlowRow.flowCurrency (r : FlowRow) : String := r.currency.toUpper

/-- What the schedules of a flow are run with. -/
structure RunContext where
  userId : String
  flow : FlowRow
  wallet : Option Wallet
  deriving DecidableEq, Repr

/-- What a payment is made with. -/
structure PayContext where
  userId : String
  walletId : String
  flow : FlowRow
  deriving DecidableEq, Repr

/-- The money held for a payment is released. Source: `dayflowFlowService.ts`
`executeSchedulePayment`. -/
def release (ctx : PayContext) (s : Schedule) : FlowCall Unit := do
  let _ ← sql .newReference
  let usdAmount ← sql (.convertAmountToUsd s.amount ctx.flow.flowCurrency)
  let _ ← creditWalletBalance {
    userId := ctx.userId
    walletId := ctx.walletId
    amount := s.amount
    currency := ctx.flow.flowCurrency
    usdEquivalent := usdAmount
    key := .executionRelease ctx.flow.id s.key
    flowId := ctx.flow.id }
  pure ()

/-- `String(value).trim()`, if there is something left. -/
def trimmed (value : Option String) : Option String := orNull (value.map trim)

/-- Source: `dayflowFlowService.ts` `executeSchedulePayment`, once the money is there. -/
def paySchedule (ctx : PayContext) (index dueAt : ℕ) (s : Schedule) : FlowCall Unit :=
  let flowCurrency := ctx.flow.flowCurrency
  let pay (payment : Payment) : FlowCall Unit :=
    sql (.pay ⟨ctx.flow.id, index, dueAt, s.runs, payment⟩)
  match s.paymentType.getD .send with
  | .savings =>
      let toCurrency := ((s.execution.bind (·.toCurrency)).getD "USD").toUpper
      pay (.swap ctx.userId flowCurrency toCurrency s.amount)
  | .bill =>
      match s.execution.bind (·.bill) with
      | none => throw .billDetails
      | some bill =>
          if bill.categoryCode = "" || bill.billerCode = "" || bill.itemCode = "" ||
              bill.customerId = "" then
            throw .billDetails
          else do
            let details : BillDetails := { bill with itemName := bill.itemName.or (some s.title) }
            if flowCurrency = primaryCurrency then do
              let billAmount ← sql (.convertAmountBetween s.amount primaryCurrency "NGN")
              pay (.bill ctx.userId details billAmount)
            else pay (.bill ctx.userId details s.amount)
  | .send =>
      match (trimmed s.recipientId).or (trimmed s.recipientHint) with
      | none => throw .noRecipient
      | some recipientTag =>
          pay (.transfer ctx.userId ctx.walletId recipientTag s.amount flowCurrency)

/-- Source: `dayflowFlowService.ts` `executeSchedulePayment`. -/
def executeSchedulePayment (ctx : PayContext) (index dueAt : ℕ) (s : Schedule) : FlowCall Unit :=
  if s.amount ≤ 0 then throw .invalidAmount
  else if isPayOnDueFlow ctx.flow then paySchedule ctx index dueAt s
  else do
    release ctx s
    paySchedule ctx index dueAt s

/-! ### Runs -/

/-- What is reported of a schedule that was run. -/
structure RunResult where
  flowId : String
  scheduleId : Option String
  title : String
  status : RunStatus
  amount : Option ℚ := none
  error : Option String := none
  deriving DecidableEq, Repr

/-- How far a run has come. -/
structure Progress where
  changed : Bool := false
  flowSpentDelta : ℚ := 0
  succeeded : ℕ := 0
  failed : ℕ := 0
  results : List RunResult := []
  deriving DecidableEq, Repr

/-- A schedule has failed. -/
def Progress.fail (p : Progress) (flowId : String) (s : Schedule) (error : String) : Progress :=
  { p with
    changed := true
    failed := p.failed + 1
    results := p.results ++ [⟨flowId, s.id, s.title, .failed, none, some error⟩] }

/-- A schedule is paid. -/
def Progress.succeed (p : Progress) (flowId : String) (s : Schedule) : Progress :=
  { p with
    changed := true
    flowSpentDelta := p.flowSpentDelta + s.amount
    succeeded := p.succeeded + 1
    results := p.results ++ [⟨flowId, s.id, s.title, .success, some s.amount, none⟩] }

/-- Why a schedule that is due is not paid. Source: `dayflowFlowService.ts`
`runDueSchedulesForUser`. -/
def refusal (ctx : RunContext) (p : Progress) (s : Schedule) : Option String :=
  let walletBalance := (ctx.wallet.map (·.balance)).getD 0
  let remainingInFlow :=
    max 0 (decimal ctx.flow.heldAmount - decimal ctx.flow.spentAmount - p.flowSpentDelta)
  if s.amount ≤ 0 then some "Invalid schedule amount"
  else if isPayOnDueFlow ctx.flow then
    if walletBalance < s.amount then
      some ("Insufficient " ++ ctx.flow.flowCurrency ++ " wallet balance for autopay")
    else none
  else if remainingInFlow < s.amount then some "Insufficient DayFlow held balance for schedule"
  else none

section runs

variable (C : Calendar)

/-- A schedule that is due is run. Source: `dayflowFlowService.ts` `runDueSchedulesForUser`. -/
def runDue (ctx : RunContext) (index dueAt : ℕ) (s : Schedule) (p : Progress) :
    FlowCall (Schedule × Progress) :=
  match refusal ctx p s with
  | some error => do
      let now ← clock
      pure (s.failed now error, p.fail ctx.flow.id s error)
  | none =>
      match ctx.wallet with
      | none => do
          let now ← clock
          pure (s.failed now (ctx.flow.flowCurrency ++ " wallet not found"),
            { p with changed := true, failed := p.failed + 1 })
      | some wallet =>
          tryCatch (do
            executeSchedulePayment ⟨ctx.userId, wallet.walletId, ctx.flow⟩ index dueAt s
            let now ← clock
            pure (s.succeeded C now, p.succeed ctx.flow.id s))
            fun e => do
              let now ← clock
              pure (s.failed now e.message, p.fail ctx.flow.id s e.message)

/-- A schedule is run, if it is due. Source: `dayflowFlowService.ts` `runDueSchedulesForUser`. -/
def runSchedule (ctx : RunContext) (index : ℕ) (s : Schedule) (p : Progress) :
    FlowCall (Schedule × Progress) :=
  if !s.autoPay then pure (s, p)
  else
    match s.nextRunAt with
    | none => pure (s, p)
    | some dueAt => do
        let now ← clock
        if now < dueAt then pure (s, p) else runDue C ctx index dueAt s p

/-- The schedules of a flow are run, from a place on. -/
def runSchedules (ctx : RunContext) : ℕ → List Schedule → Progress →
    FlowCall (List Schedule × Progress)
  | _, [], p => pure ([], p)
  | index, s :: rest, p => do
      let first ← runSchedule C ctx index s p
      let others ← runSchedules ctx (index + 1) rest first.2
      pure (first.1 :: others.1, others.2)

/-- What a run of a user comes to. -/
structure RunOutcome where
  succeeded : ℕ := 0
  failed : ℕ := 0
  results : List RunResult := []
  deriving DecidableEq, Repr

/-- What was processed. -/
def RunOutcome.processed (r : RunOutcome) : ℕ := r.succeeded + r.failed

/-- The wallet that a flow is paid from. Source: `dayflowFlowService.ts`
`runDueSchedulesForUser`. -/
def flowWallet (userId : String) (usdWallet : Wallet) (flow : FlowRow) : FlowCall (Option Wallet) :=
  if flow.flowCurrency = primaryCurrency then pure (some usdWallet) else loadNgnWallet userId

/-- A run so far, with a flow more. -/
def RunOutcome.add (r : RunOutcome) (p : Progress) : RunOutcome :=
  ⟨r.succeeded + p.succeeded, r.failed + p.failed, r.results ++ p.results⟩

/-- A flow that was run is written back. Source: `dayflowFlowService.ts`
`runDueSchedulesForUser`. -/
def saveFlow (flow : FlowRow) (schedules : List Schedule) (p : Progress) : FlowCall Unit :=
  if !p.changed then pure ()
  else do
    let now ← clock
    sql (.saveRun flow.id schedules p.flowSpentDelta (earliestNextRun C now schedules))

/-- A flow is run. Source: `dayflowFlowService.ts` `runDueSchedulesForUser`. -/
def runFlow (userId : String) (usdWallet : Wallet) (flow : FlowRow) (r : RunOutcome) :
    FlowCall RunOutcome := do
  let wallet ← flowWallet userId usdWallet flow
  let done ← runSchedules C ⟨userId, flow, wallet⟩ 0 flow.schedules {}
  saveFlow C flow done.1 done.2
  pure (r.add done.2)

/-- The flows that are due are run, one after the other. -/
def runFlows (userId : String) (usdWallet : Wallet) : List FlowRow → RunOutcome →
    FlowCall RunOutcome
  | [], r => pure r
  | flow :: rest, r => do
      let r' ← runFlow C userId usdWallet flow r
      runFlows userId usdWallet rest r'

/-- Source: `dayflowFlowService.ts` `runDueSchedulesForUser`. -/
def runDueSchedulesForUser (userId : String) : FlowCall RunOutcome := do
  let ready ← sql .flowsTableReady
  if !ready then pure {}
  else do
    match ← loadUsdWallet userId with
    | none => pure {}
    | some usdWallet => do
        let dueFlows ← sql (.dueFlows userId)
        runFlows C userId usdWallet dueFlows {}

/-- What a run of all users comes to. -/
structure AllOutcome where
  users : ℕ := 0
  processed : ℕ := 0
  succeeded : ℕ := 0
  failed : ℕ := 0
  deriving DecidableEq, Repr

/-- The users are run, one after the other. -/
def runUsers : List String → AllOutcome → FlowCall AllOutcome
  | [], r => pure r
  | userId :: rest, r => do
      let outcome ← runDueSchedulesForUser C userId
      runUsers rest { r with
        processed := r.processed + outcome.processed
        succeeded := r.succeeded + outcome.succeeded
        failed := r.failed + outcome.failed }

/-- Source: `dayflowFlowService.ts` `runDueSchedulesForAllUsers`. -/
def runDueSchedulesForAllUsers : FlowCall AllOutcome := do
  let ready ← sql .flowsTableReady
  if !ready then pure {}
  else do
    let rows ← sql .dueUsers
    runUsers C rows { users := rows.length }

/-! ### Edits and cancellations -/

/-- Source: `dayflowFlowService.ts` `updateFlowSchedule`. -/
def updateFlowSchedule (userId flowId scheduleId : String) (patch : SchedulePatch) :
    FlowCall FlowRow := do
  let ready ← sql .flowsTableReady
  if !ready then throw .tableMissing
  else do
    match ← sql (.flowForUser userId flowId) with
    | none => throw .flowNotFound
    | some row =>
        if row.status = .cancelled then throw .flowCancelled
        else
          match row.schedules.findIdx? (·.key = scheduleId) with
          | none => throw .scheduleNotFound
          | some idx => do
              let schedules := row.schedules.modify idx (mergeSchedulePatch · patch)
              let now ← clock
              sql (.saveSchedules userId flowId schedules (earliestNextRun C now schedules))

/-- What is left of the money held is returned. Source: `dayflowFlowService.ts` `cancelFlow`. -/
def refundHold (userId flowId : String) (refund : ℚ) : FlowCall (Option ℕ) := do
  match ← loadNgnWallet userId with
  | none => throw .ngnWalletNotFound
  | some wallet => do
      let releaseRef ← sql .newReference
      let usdAmount ← sql (.convertAmountToUsd refund "NGN")
      let credit ← creditWalletBalance {
        userId := userId
        walletId := wallet.walletId
        amount := refund
        currency := "NGN"
        usdEquivalent := usdAmount
        key := .release releaseRef
        flowId := flowId }
      pure (some credit.movementId)

/-- What is left of the money held for a flow. -/
def FlowRow.refund (r : FlowRow) : ℚ :=
  if isPayOnDueFlow r then 0 else max 0 (decimal r.heldAmount - decimal r.spentAmount)

/-- What is left is returned, if there is something.
Source: `dayflowFlowService.ts` `cancelFlow`. -/
def returnHold (userId flowId : String) (row : FlowRow) : FlowCall (Option ℕ) :=
  if 0 < row.refund then refundHold userId flowId row.refund else pure none

/-- Source: `dayflowFlowService.ts` `cancelFlow`; with what it has returned. -/
def cancelFlow (userId flowId : String) : FlowCall (FlowRow × Option ℚ) := do
  let ready ← sql .flowsTableReady
  if !ready then throw .tableMissing
  else do
    match ← sql (.flowForUser userId flowId) with
    | none => throw .flowNotFound
    | some row =>
        if row.status = .cancelled then pure (row, none)
        else do
          let releaseMovementId ← returnHold userId flowId row
          sql (.cancelLinkedBudgets flowId)
          let updated ← sql (.setCancelled userId flowId releaseMovementId)
          pure (updated, some row.refund)

/-- A request. -/
inductive Request where
  | runDueSchedulesForUser (userId : String)
  | runDueSchedulesForAllUsers
  | updateFlowSchedule (userId flowId scheduleId : String) (patch : SchedulePatch)
  | cancelFlow (userId flowId : String)
  deriving DecidableEq, Repr

/-- What a request runs. -/
def Request.call : Request → FlowCall Unit
  | runDueSchedulesForUser userId => do
      let _ ← Flow.runDueSchedulesForUser C userId
  | runDueSchedulesForAllUsers => do
      let _ ← Flow.runDueSchedulesForAllUsers C
  | updateFlowSchedule userId flowId scheduleId patch => do
      let _ ← Flow.updateFlowSchedule C userId flowId scheduleId patch
  | cancelFlow userId flowId => do
      let _ ← Flow.cancelFlow userId flowId

/-- What a request comes to. -/
abbrev Outcome := Except FlowError Unit

/-- The requests, before any has begun. -/
def begun (T : Tables) (requests : List Request) : Pool FlowSql Outcome Tables :=
  ⟨T, requests.map fun r => (r.call C).run⟩

end runs

/-! ### A flow -/

/-- The time in UTC, from the first of January on. -/
def utc : Calendar where
  addDays n t := t + n * (24 * 60 * 60 * 1000)
  addMonth t := t + 31 * (24 * 60 * 60 * 1000)
  parseDueLabelToNextRunAt _ _ := none
  lt_addDays n t h := by omega
  lt_addMonth t := by omega

/-- A payment that is due every week. -/
def weekly (title : String) (amount : ℚ) : Schedule where
  title := title
  amount := amount
  frequency := some .weekly
  recipientId := some "tunde"
  nextRunAt := some 5

/-- A flow with two payments that are due. -/
def home : FlowRow where
  id := "f1"
  userId := "u1"
  title := "Home"
  status := .active
  heldAmount := 30000
  spentAmount := 0
  currency := "USD"
  schedules := [weekly "Rent" 100, weekly "Power" 50]
  metaPayOnDue := true
  holdMovementId := none
  releaseMovementId := none
  nextRunAt := some 5
  cancelledAt := none

/-- The tables with one flow. -/
def tablesOf (r : FlowRow) : Tables where
  flows := [r]
  ids := List.nodup_singleton _
  time := 10

/-- The turns of a request. -/
def turns (i n : ℕ) : List (ℕ × Except FlowError Outside) := List.replicate n (i, .ok {})

end DayfiBackend.Flow
