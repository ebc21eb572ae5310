import DayfiBackend.Consumer.LedgerCalls
import DayfiBackend.Found.Rows

/-!
# DayEarn pots

A pot takes dollars out of its user's wallet and earns interest by the day. A deposit debits the
wallet and then raises the pot, a withdrawal lowers the pot and then credits the wallet, each in
two transactions under keys made of the client's key; `syncPotInterest` credits the days that have
passed, in one transaction.

A pot's principal is in whole cents and its interest in hundredths of a cent, which are the units
of this module; numbers in between are exact, and are rounded where the code or a column rounds
them. Time is a number of milliseconds, and every statement of the service may find that some has
passed. What the answers show of a pot beyond its row is left out, and so is what the record in
the wallet's history holds.
-/

namespace DayfiBackend.Consumer.DayEarn

open DayfiBackend.Found DayfiBackend.Found.Binary64 DayfiBackend.Found.Keys
  DayfiBackend.Found.Rows

/-! ### Rounding -/

/-- The value of a `NUMERIC(15,4)` column. -/
def fourPlaces (c : ℤ) : ℚ := c / 10 ^ 4

/-- A value stored in a `NUMERIC(15,4)` column. -/
def units (x : ℚ) : ℤ := roundHalfAway (x * 10 ^ 4)

/-- The range of a `NUMERIC(15,4)` column. -/
def unitsLimit : ℤ := 10 ^ 15

/-- Source: `dayearnService.ts` `roundMoney`. -/
def roundMoney (x : ℚ) : ℚ := (round (x * 100) : ℤ) / 100

/-- Source: `dayearnService.ts` `roundInterest`. -/
def roundInterest (x : ℚ) : ℚ := (round (x * 10 ^ 4) : ℤ) / 10 ^ 4

/-- Source: `dayearnService.ts` `getDayEarnApyPercent`, of USD. -/
def dayEarnApyPercent : ℚ := 7

/-- Source: `dayearnService.ts` `computeDailyInterest`. -/
def computeDailyInterest (balance apyPercent : ℚ) : ℚ :=
  if balance ≤ 0 then 0 else roundInterest (balance * (apyPercent / 100) / 365)

/-- A day, in milliseconds. -/
def dayMs : ℕ := 86400000

/-- Source: `dayearnService.ts` `nextUtcMidnightAfter`. -/
def nextUtcMidnightAfter (time : ℕ) : ℕ := (time / dayMs + 1) * dayMs

/-! ### Tables -/

/-- Source: table `dayearn_pots`. The principal is in cents, the interest in hundredths of one. -/
structure Pot where
  id : ℕ
  userId : String
  name : String
  currency : String := primaryCurrency
  principal : ℤ
  interestEarned : ℤ := 0
  apyPercent : ℚ
  accrualStartsAt : ℕ
  lastInterestAt : Option ℕ := none
  closed : Bool := false
  deriving DecidableEq, Repr

/-- The keys of `dayearn_movements`, by what they are made of. -/
inductive MovementKey where
  | deposit (key : String)
  | withdraw (key : String)
  /-- The interest of a pot of a day. -/
  | interest (potId day : ℕ)
  deriving DecidableEq, Repr

/-- The text of a key; the day is written by its number. -/
def MovementKey.text : MovementKey → String
  | deposit key => key ++ "-deposit"
  | withdraw key => key ++ "-withdraw"
  | interest potId day => "dayearn-interest-" ++ toString potId ++ "-" ++ toString day

/-- The key of the debit of a deposit. -/
def debitKey (key : String) : String := key ++ "-debit"

/-- The key of the credit of a withdrawal. -/
def creditKey (key : String) : String := key ++ "-credit"

/-- Source: table `dayearn_movements`; its key says its type. -/
structure PotMovement where
  potId : ℕ
  userId : String
  amount : ℤ
  key : MovementKey
  deriving DecidableEq, Repr

/-- A note of a payout: what was paid, and what the pot held. -/
structure PaidOut where
  amount : ℤ
  held : ℤ
  deriving DecidableEq, Repr

/-- The tables beside the ledger, the time, and the notes. -/
structure Tables where
  pots : List Pot := []
  movements : List PotMovement := []
  time : ℕ := 0
  payouts : List PaidOut := []

/-- All tables. -/
abbrev Store := Accounts × Tables

/-- What the services throw. -/
inductive DayEarnError where
  | ledger (e : Err)
  | database
  | checkViolation
  | uniqueViolation
  | outOfRange
  | notAvailable
  | unsupportedCurrency
  | nameRequired
  | invalidAmount
  | potNotFound
  | nothingToWithdraw
  | exceedsBalance
  deriving DecidableEq, Repr

/-- The outside at a step: whether the tables are there, and the time that has passed. -/
structure Outside where
  ledger : Consumer.Outside := {}
  ready : Bool := true
  elapsed : ℕ := 0
  deriving DecidableEq, Repr

abbrev Ans (α : Type) := Except DayEarnError α

/-- What the transaction of a new pot inserts. -/
structure NewPot where
  userId : String
  name : String
  amount : ℚ
  apyPercent : ℚ
  accrualStartsAt : ℕ
  key : String
  deriving DecidableEq, Repr

/-- What the transaction of a deposit adds. -/
structure Addition where
  userId : String
  potId : ℕ
  amount : ℚ
  key : String
  deriving DecidableEq, Repr

/-- What the transaction of a withdrawal takes from a pot, as it was read. -/
structure Withdrawal where
  userId : String
  row : Pot
  amount : ℚ
  key : String
  deriving DecidableEq, Repr

/-- The statements of the service. -/
inductive DayEarnSql : Type → Type
  | dayEarnTablesReady : DayEarnSql (Ans Bool)
  | now : DayEarnSql (Ans ℕ)
  | newReference (label : String) : DayEarnSql (Ans String)
  | getPotRow (userId : String) (potId : ℕ) : DayEarnSql (Ans (Option Pot))
  | syncTx (userId : String) (potId : ℕ) : DayEarnSql (Ans (Option Pot))
  | createTx (n : NewPot) : DayEarnSql (Ans Pot)
  | depositTx (a : Addition) : DayEarnSql (Ans Pot)
  | withdrawTx (w : Withdrawal) : DayEarnSql (Ans Unit)
  | recordWalletActivity : DayEarnSql (Ans Unit)

/-- What a pot holds. Source: `dayearnService.ts` `potBalance`. -/
def Pot.balance (p : Pot) : ℚ := decimal p.principal + fourPlaces p.interestEarned

/-- What a pot holds, in units. -/
def Pot.held (p : Pot) : ℤ := 100 * p.principal + p.interestEarned

/-- Where the interest of a pot is credited up to. -/
def Pot.cursor (p : Pot) : ℕ := p.lastInterestAt.getD p.accrualStartsAt

/-- The days of interest, from a cursor on: when each is credited, and how much.
Source: `dayearnService.ts` `syncPotInterest`, its loop. -/
def accrue (apyPercent : ℚ) : ℕ → ℕ → ℚ → List (ℕ × ℚ)
  | 0, _, _ => []
  | n + 1, cursor, balance =>
      let daily := computeDailyInterest balance apyPercent
      if 0 < daily then
        (cursor + dayMs, daily) :: accrue apyPercent n (cursor + dayMs) (balance + daily)
      else accrue apyPercent n (cursor + dayMs) balance

namespace Pot

/-- The days of interest of a pot that have passed. -/
def credits (p : Pot) (now : ℕ) : List (ℕ × ℚ) :=
  accrue p.apyPercent ((now - p.cursor) / dayMs) p.cursor p.balance

/-- The movement of a day of interest. -/
def interestMovement (p : Pot) (credit : ℕ × ℚ) : PotMovement where
  potId := p.id
  userId := p.userId
  amount := units credit.2
  key := .interest p.id (credit.1 / dayMs)

/-- The pot with the interest of the days that have passed. -/
def synced (p : Pot) (now : ℕ) : Pot :=
  { p with
    interestEarned :=
      units (fourPlaces p.interestEarned + ((p.credits now).map (·.2)).sum)
    lastInterestAt := some (p.cursor + (now - p.cursor) / dayMs * dayMs) }

end Pot

namespace Withdrawal

variable (w : Withdrawal)

/-- The part that is taken from the interest. -/
def fromInterest : ℚ := min w.amount (fourPlaces w.row.interestEarned)

/-- The interest that stays. -/
def interestEarned : ℚ := fourPlaces w.row.interestEarned - w.fromInterest

/-- The principal that stays. -/
def principal : ℚ := decimal w.row.principal - (w.amount - w.fromInterest)

/-- Nothing stays. -/
def closePot : Bool := decide (w.principal ≤ 0) && decide (w.interestEarned ≤ 0)

/-- The pot once the withdrawal is taken. -/
def after (p : Pot) : Pot :=
  if p.id = w.row.id then
    { p with
      principal := cents (max 0 w.principal)
      interestEarned := units (max 0 w.interestEarned)
      closed := w.closePot }
  else p

end Withdrawal

namespace Tables

/-- Some time passes. -/
def tick (T : Tables) (elapsed : ℕ) : Tables := { T with time := T.time + elapsed }

/-- A user's pot that is not closed. -/
def pot? (T : Tables) (userId : String) (potId : ℕ) : Option Pot :=
  T.pots.find? fun p => p.id = potId && p.userId = userId && !p.closed

/-- A movement fits its columns. -/
def admits (T : Tables) (m : PotMovement) : Option DayEarnError :=
  if m.amount ≤ 0 then some .checkViolation
  else if unitsLimit ≤ m.amount ∨ !fitsVarchar 128 m.key.text then some .outOfRange
  else if T.movements.any (·.key = m.key) then some .uniqueViolation
  else none

/-- The transaction of `syncPotInterest`. Source: `dayearnService.ts` `syncPotInterest`. -/
def syncTx (T : Tables) (userId : String) (potId : ℕ) : Ans (Option Pot) × Tables :=
  match T.pot? userId potId with
  | none => (.ok none, T)
  | some row =>
      if row.lastInterestAt.isNone ∧ T.time < row.accrualStartsAt + dayMs then (.ok (some row), T)
      else if row.credits T.time = [] then (.ok (some row), T)
      else
        let movements := (row.credits T.time).map row.interestMovement
        if movements.any fun m => unitsLimit ≤ m.amount then (.error .outOfRange, T)
        else if ¬ ((movements ++ T.movements).map (·.key)).Nodup then (.error .uniqueViolation, T)
        else if unitsLimit ≤ |(row.synced T.time).interestEarned| then (.error .outOfRange, T)
        else
          (.ok (some (row.synced T.time)),
            { T with
              pots := T.pots.map fun p => if p.id = row.id then row.synced T.time else p
              movements := movements ++ T.movements })

/-- The pot of a creation. -/
def newPot (T : Tables) (n : NewPot) : Pot where
  id := T.pots.length
  userId := n.userId
  name := n.name
  principal := cents n.amount
  apyPercent := n.apyPercent
  accrualStartsAt := n.accrualStartsAt

/-- The transaction of a creation. Source: `dayearnService.ts` `createDayEarnPot`. -/
def createTx (T : Tables) (n : NewPot) : Ans Pot × Tables :=
  let movement : PotMovement := ⟨T.pots.length, n.userId, units n.amount, .deposit n.key⟩
  if centsLimit ≤ |cents n.amount| then (.error .outOfRange, T)
  else if cents n.amount < 0 then (.error .checkViolation, T)
  else
    match T.admits movement with
    | some e => (.error e, T)
    | none =>
        (.ok (T.newPot n),
          { T with pots := T.newPot n :: T.pots, movements := movement :: T.movements })

/-- The transaction of a deposit. Source: `dayearnService.ts` `depositToDayEarnPot`. -/
def depositTx (T : Tables) (a : Addition) : Ans Pot × Tables :=
  let movement : PotMovement := ⟨a.potId, a.userId, units a.amount, .deposit a.key⟩
  match T.pot? a.userId a.potId with
  | none => (.error .potNotFound, T)
  | some row =>
      let raised := { row with principal := cents (decimal row.principal + a.amount) }
      if centsLimit ≤ |raised.principal| then (.error .outOfRange, T)
      else if raised.principal < 0 then (.error .checkViolation, T)
      else
        match T.admits movement with
        | some e => (.error e, T)
        | none =>
            (.ok raised,
              { T with
                pots := T.pots.map fun p => if p.id = row.id then raised else p
                movements := movement :: T.movements })

/-- The transaction of a withdrawal. Source: `dayearnService.ts` `withdrawFromDayEarnPot`. -/
def withdrawTx (T : Tables) (w : Withdrawal) : Ans Unit × Tables :=
  let movement : PotMovement := ⟨w.row.id, w.userId, units w.amount, .withdraw w.key⟩
  match T.admits movement with
  | some e => (.error e, T)
  | none =>
      (.ok (),
        { T with
          pots := T.pots.map w.after
          movements := movement :: T.movements
          payouts :=
            (T.pots.filter (·.id = w.row.id)).map (⟨units w.amount, ·.held⟩) ++ T.payouts })

end Tables

/-- One statement, once the time has passed. -/
def DayEarnSql.act {β : Type} (st : DayEarnSql β) (o : Outside) (s : Store) : β × Store :=
  match st with
  | .dayEarnTablesReady => (.ok o.ready, s)
  | .now => (.ok s.2.time, s)
  | .newReference label => (.ok (label ++ "-" ++ o.ledger.token), s)
  | .getPotRow userId potId => (.ok (s.2.pot? userId potId), s)
  | .syncTx userId potId => ((s.2.syncTx userId potId).1, s.1, (s.2.syncTx userId potId).2)
  | .createTx n => ((s.2.createTx n).1, s.1, (s.2.createTx n).2)
  | .depositTx a => ((s.2.depositTx a).1, s.1, (s.2.depositTx a).2)
  | .withdrawTx w => ((s.2.withdrawTx w).1, s.1, (s.2.withdrawTx w).2)
  | .recordWalletActivity => (.ok (), s)

/-- One statement, when it gets there. -/
def DayEarnSql.run {β : Type} (st : DayEarnSql β) (o : Outside) (s : Store) : β × Store :=
  st.act o (s.1, s.2.tick o.elapsed)

/-- The answer of a statement that fails. -/
def DayEarnSql.fail {β : Type} (st : DayEarnSql β) (e : DayEarnError) : β :=
  match st with
  | .dayEarnTablesReady | .now | .newReference _ | .getPotRow .. | .syncTx .. => .error e
  | .createTx _ | .depositTx _ | .withdrawTx _ | .recordWalletActivity => .error e

/-- The statements of the service over all tables. -/
def dayearn : Backend DayEarnSql Outside DayEarnError Store where
  run _ st o s := st.run o s
  fail st e := st.fail e

/-- The service beside the ledger. -/
def server : Backend (Beside Query DayEarnSql) Outside DayEarnError Store :=
  accounts.beside dayearn Outside.ledger .database

/-- A call of the service. -/
abbrev DayEarnCall := ExceptT DayEarnError (Prog (Beside Query DayEarnSql))

/-- A call of the ledger. -/
def ledger {β : Type} (p : Call β) : DayEarnCall β := inside DayEarnError.ledger p

/-- One statement of the service; its failure is thrown. -/
def sql {β : Type} (st : DayEarnSql (Ans β)) : DayEarnCall β := ownCall st

/-! ### Operations -/

/-- Source: `dayearnService.ts` `syncPotInterest`. -/
def syncPotInterest (userId : String) (potId : ℕ) : DayEarnCall (Option Pot) := do
  if ← sql .dayEarnTablesReady then sql (.syncTx userId potId) else pure none

/-- `params.idempotencyKey ?? buildIdempotencyKey(label, reference)`. -/
def keyOr (key : Option String) (label reference : String) : String :=
  key.getD (buildIdempotencyKey label reference)

/-- The debit of a deposit. -/
def depositDebit (userId : String) (walletId : ℕ) (amount : ℚ) (key reference : String) :
    BalanceParams where
  userId := userId
  walletId := walletId
  amount := amount
  currency := primaryCurrency
  source := .dayearn
  idempotencyKey := debitKey key
  externalReference := some reference

/-- Source: `dayearnService.ts` `createDayEarnPot`. -/
structure CreateParams where
  userId : String
  walletId : ℕ
  name : String
  amount : ℚ
  currency : String := primaryCurrency
  idempotencyKey : Option String := none
  deriving DecidableEq, Repr

/-- From the reference on. Source: `dayearnService.ts` `createDayEarnPot`. -/
def createUnder (p : CreateParams) (reference : String) : DayEarnCall Pot := do
  let key := keyOr p.idempotencyKey "dayearn-create" reference
  let now ← sql .now
  let _ ← ledger (debitWalletBalance (depositDebit p.userId p.walletId p.amount key reference))
  let pot ← sql (.createTx
    { userId := p.userId
      name := trim p.name
      amount := p.amount
      apyPercent := dayEarnApyPercent
      accrualStartsAt := nextUtcMidnightAfter now
      key := key })
  tryCatch (sql .recordWalletActivity) fun _ => pure ()
  pure pot

/-- Source: `dayearnService.ts` `createDayEarnPot`. -/
def createDayEarnPot (p : CreateParams) : DayEarnCall Pot := do
  if ← sql .dayEarnTablesReady then
    if p.currency.toUpper ≠ primaryCurrency then throw .unsupportedCurrency
    else if trim p.name = "" ∨ 120 < codeUnits (trim p.name) then throw .nameRequired
    else if p.amount ≤ 0 then throw .invalidAmount
    else do
      let reference ← sql (.newReference "dayearn-create")
      createUnder p reference
  else throw .notAvailable

/-- Source: `dayearnService.ts` `depositToDayEarnPot`. -/
structure DepositParams where
  userId : String
  walletId : ℕ
  potId : ℕ
  amount : ℚ
  idempotencyKey : Option String := none
  deriving DecidableEq, Repr

/-- From the pot on. Source: `dayearnService.ts` `depositToDayEarnPot`. -/
def depositInto (p : DepositParams) : DayEarnCall Pot := do
  let reference ← sql (.newReference "dayearn-deposit")
  let key := keyOr p.idempotencyKey "dayearn-deposit" reference
  let _ ← ledger (debitWalletBalance (depositDebit p.userId p.walletId p.amount key reference))
  let pot ← sql (.depositTx ⟨p.userId, p.potId, p.amount, key⟩)
  tryCatch (sql .recordWalletActivity) fun _ => pure ()
  pure pot

/-- Source: `dayearnService.ts` `depositToDayEarnPot`. -/
def depositToDayEarnPot (p : DepositParams) : DayEarnCall Pot := do
  if ← sql .dayEarnTablesReady then
    if p.amount ≤ 0 then throw .invalidAmount
    else do
      let _ ← syncPotInterest p.userId p.potId
      match ← sql (.getPotRow p.userId p.potId) with
      | none => throw .potNotFound
      | some _ => depositInto p
  else throw .notAvailable

/-- Source: `dayearnService.ts` `withdrawFromDayEarnPot`. -/
structure WithdrawParams where
  userId : String
  walletId : ℕ
  potId : ℕ
  amount : Option ℚ := none
  withdrawAll : Bool := false
  idempotencyKey : Option String := none
  deriving DecidableEq, Repr

structure WithdrawResult where
  withdrawn : ℚ
  closed : Bool
  pot : Option Pot
  deriving DecidableEq, Repr

/-- The amount a withdrawal asks for. -/
def WithdrawParams.asked (p : WithdrawParams) (row : Pot) : Option ℚ :=
  if p.withdrawAll then some row.balance else p.amount

/-- The credit of a withdrawal. -/
def withdrawalCredit (p : WithdrawParams) (amount usdEquivalent : ℚ) (key reference : String) :
    BalanceParams where
  userId := p.userId
  walletId := p.walletId
  amount := amount
  currency := primaryCurrency
  usdEquivalent := usdEquivalent
  source := .dayearn
  idempotencyKey := creditKey key
  externalReference := some reference

/-- From the transaction on. Source: `dayearnService.ts` `withdrawFromDayEarnPot`. -/
def payOut (p : WithdrawParams) (w : Withdrawal) (reference : String) :
    DayEarnCall WithdrawResult := do
  sql (.withdrawTx w)
  let usd ← ledger (convertAmountToUsd w.amount primaryCurrency)
  let _ ← ledger (creditWalletBalance (withdrawalCredit p w.amount usd w.key reference))
  tryCatch (sql .recordWalletActivity) fun _ => pure ()
  if w.closePot then pure ⟨w.amount, true, none⟩
  else do
    let pot ← sql (.getPotRow p.userId p.potId)
    pure ⟨w.amount, false, pot⟩

/-- From the pot on. Source: `dayearnService.ts` `withdrawFromDayEarnPot`. -/
def withdrawFrom (p : WithdrawParams) (row : Pot) : DayEarnCall WithdrawResult :=
  if row.balance ≤ 0 then throw .nothingToWithdraw
  else
    match p.asked row with
    | none => throw .invalidAmount
    | some asked =>
        if asked ≤ 0 then throw .invalidAmount
        else if row.balance + 1 / 10 ^ 4 < asked then throw .exceedsBalance
        else do
          let reference ← sql (.newReference "dayearn-withdraw")
          payOut p
            { userId := p.userId
              row := row
              amount := roundMoney (min asked row.balance)
              key := keyOr p.idempotencyKey "dayearn-withdraw" reference } reference

/-- Source: `dayearnService.ts` `withdrawFromDayEarnPot`. -/
def withdrawFromDayEarnPot (p : WithdrawParams) : DayEarnCall WithdrawResult := do
  if ← sql .dayEarnTablesReady then
    let _ ← syncPotInterest p.userId p.potId
    match ← sql (.getPotRow p.userId p.potId) with
    | none => throw .potNotFound
    | some row => withdrawFrom p row
  else throw .notAvailable

/-- A request. -/
inductive Request where
  | createDayEarnPot (p : CreateParams)
  | depositToDayEarnPot (p : DepositParams)
  | withdrawFromDayEarnPot (p : WithdrawParams)
  | syncPotInterest (userId : String) (potId : ℕ)
  deriving DecidableEq, Repr

/-- What a request runs. -/
def Request.call : Request → DayEarnCall Unit
  | createDayEarnPot p => do
      let _ ← DayEarn.createDayEarnPot p
  | depositToDayEarnPot p => do
      let _ ← DayEarn.depositToDayEarnPot p
  | withdrawFromDayEarnPot p => do
      let _ ← DayEarn.withdrawFromDayEarnPot p
  | syncPotInterest userId potId => do
      let _ ← DayEarn.syncPotInterest userId potId

/-- What a request comes to. -/
abbrev Outcome := Except DayEarnError Unit

/-- The requests, before any has begun: there is no pot. -/
def begun (A : Accounts) (requests : List Request) :
    Pool (Beside Query DayEarnSql) Outcome Store :=
  ⟨(A, {}), requests.map fun r => r.call.run⟩

end DayfiBackend.Consumer.DayEarn
