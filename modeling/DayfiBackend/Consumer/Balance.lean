import DayfiBackend.Found.Backend
import DayfiBackend.Found.Binary64
import DayfiBackend.Found.Keys

/-!
# The consumer ledger

Consumer wallets and their ledger: `NUMERIC(15,2)` columns, held here as whole cents, and amounts
that are exact decimals with any number of places. A balance change is one transaction, an update
of a wallet followed by the insert of a movement (`Accounts.creditTx`, `Accounts.debitTx`); the
search for an earlier movement under the same key and the reads of exchange rates are statements
of their own. The four operations `creditUsdBalance`, `debitUsdBalance`, `creditWalletBalance` and
`debitWalletBalance` are programs over these statements. The activity records they write after
the transaction, with every failure swallowed, touch neither table and are left out.
-/

namespace DayfiBackend.Consumer

open DayfiBackend.Found DayfiBackend.Found.Binary64 DayfiBackend.Found.Keys

/-! ### Columns -/

/-- The value of a `NUMERIC(15,2)` column of `c` cents. -/
def decimal (c : ℤ) : ℚ := c / 100

/-- A value stored in a `NUMERIC(15,2)` column, in cents. -/
def cents (x : ℚ) : ℤ := roundHalfAway (x * 100)

/-- The range of a `NUMERIC(15,2)` column, in cents. -/
def centsLimit : ℤ := 10 ^ 15

/-- `Number(x.toFixed(2))`. -/
def toFixed2 (x : ℚ) : ℚ := decimal (cents x)

/-- The amount lies half way between two cents. -/
def HalfCent (x : ℚ) : Prop := Int.fract (x * 100) = 1 / 2

instance (x : ℚ) : Decidable (HalfCent x) := inferInstanceAs (Decidable (_ = _))

/-- Source: `walletModel.ts` `PRIMARY_CURRENCY`. -/
def primaryCurrency : String := "USD"

/-! ### Tables -/

/-- Source: `balanceService.ts` `LedgerSource`. -/
inductive LedgerSource where
  | grey | stellar | evm | yellowcard | flutterwave | p2p | swap | bankOut | investment | dayearn
  | dayflow | manual | card | billPay
  deriving DecidableEq, Repr

inductive Direction where
  | credit
  | debit
  deriving DecidableEq, Repr

/-- Source: table `wallets`. -/
structure WalletRow where
  walletId : ℕ
  userId : String
  currency : String
  dayfiId : Option String := none
  balance : ℤ := 0
  deriving DecidableEq, Repr

/-- Source: table `ledger_movements`; `convertedAmount` is the field of `metadata`. -/
structure MovementRow where
  id : ℕ
  userId : String
  walletId : ℕ
  direction : Direction
  amount : ℤ
  currency : String
  usdEquivalent : ℤ
  source : LedgerSource
  idempotencyKey : String
  externalReference : Option String
  convertedAmount : Option ℚ
  deriving DecidableEq, Repr

/-- The tables. -/
structure Accounts where
  wallets : List WalletRow := []
  movements : List MovementRow := []
  nextId : ℕ := 1
  deriving DecidableEq, Repr

/-- What the services throw. -/
inductive Err where
  | database
  | noRow
  | checkViolation
  | uniqueViolation
  | outOfRange
  | invalidAmount
  | noRate
  | walletNotFound
  | insufficientBalance
  | invalidTag
  | tagNotFound
  | ownTag
  | sameCurrency
  deriving DecidableEq, Repr

/-- Source: `balanceService.ts`, the parameters of the four operations. `currency` is the
`fromCurrency` of `creditUsdBalance`, and is not read by `debitUsdBalance`. -/
structure BalanceParams where
  userId : String
  walletId : ℕ
  amount : ℚ
  currency : String := primaryCurrency
  usdEquivalent : ℚ := 0
  source : LedgerSource
  idempotencyKey : String
  externalReference : Option String := none
  convertedAmount : Option ℚ := none
  deriving DecidableEq, Repr

/-- What the outside is at a step: the exchange rate a lookup finds, and the clock and random
digits of a new reference. -/
structure Outside where
  rate : Option ℚ := none
  token : String := ""
  deriving DecidableEq, Repr

/-! ### Transactions -/

/-- The movement a transaction inserts. -/
def BalanceParams.movement (p : BalanceParams) (direction : Direction) (currency : String)
    (usdEquivalent : ℚ) (id : ℕ) : MovementRow where
  id := id
  userId := p.userId
  walletId := p.walletId
  direction := direction
  amount := cents p.amount
  currency := currency
  usdEquivalent := cents usdEquivalent
  source := p.source
  idempotencyKey := p.idempotencyKey
  externalReference := p.externalReference
  convertedAmount := p.convertedAmount

/-- `String(fromCurrency).trim().toUpperCase()`. -/
def currencyCode (currency : String) : String := (trim currency).toUpper

/-- The conversion of `convertAmountToUsd` once it has its rate.
Source: `fxService.ts` `convertAmountToUsd`. -/
def usdAmount (rate : Option ℚ) (amount : ℚ) (currency : String) : Except Err ℚ :=
  if amount < 0 then .error .invalidAmount
  else if currency = primaryCurrency then .ok amount
  else if amount = 0 then .ok 0
  else
    match rate with
    | none => .error .noRate
    | some rate => .ok (toFixed2 (amount * rate))

namespace Accounts

/-- `findMovementByKey`. Source: `balanceService.ts`. -/
def movement? (s : Accounts) (key : String) : Option MovementRow :=
  s.movements.find? (·.idempotencyKey = key)

/-- `UPDATE wallets SET balance = …` of one wallet. -/
def setBalance (s : Accounts) (walletId : ℕ) (balance : ℤ) : Accounts :=
  { s with wallets := s.wallets.map fun w =>
      if w.walletId = walletId then { w with balance := balance } else w }

/-- The update of a wallet's balance and the insert of its movement, in one transaction: the
column ranges, the `CHECK` of the amount and the unique key can each undo it. -/
def record (s : Accounts) (balance : ℤ) (m : MovementRow) : Except Err ℕ × Accounts :=
  if centsLimit ≤ |balance| then (.error .outOfRange, s)
  else if centsLimit ≤ |m.amount| ∨ centsLimit ≤ |m.usdEquivalent| then (.error .outOfRange, s)
  else if m.amount ≤ 0 then (.error .checkViolation, s)
  else if (s.movement? m.idempotencyKey).isSome then (.error .uniqueViolation, s)
  else
    (.ok m.id, { s.setBalance m.walletId balance with
      movements := m :: s.movements
      nextId := s.nextId + 1 })

/-- The transaction of a credit.
Source: `balanceService.ts` `creditUsdBalance`, `creditWalletBalance`. -/
def creditTx (s : Accounts) (p : BalanceParams) (currency : String) : Except Err ℕ × Accounts :=
  match s.wallets.find? fun w => w.walletId = p.walletId && w.currency = currency with
  | none => (.error .noRow, s)
  | some w => s.record (cents (decimal w.balance + p.amount))
      (p.movement .credit currency p.usdEquivalent s.nextId)

/-- The wallet a debit locks. -/
def debited? (s : Accounts) (p : BalanceParams) (currency : String) : Option WalletRow :=
  s.wallets.find? fun w =>
    w.walletId = p.walletId && w.userId = p.userId && w.currency = currency

/-- The transaction of a debit.
Source: `balanceService.ts` `debitUsdBalance`, `debitWalletBalance` (which converts the amount
inside the transaction; an amount in USD is its own equivalent). -/
def debitTx (s : Accounts) (p : BalanceParams) (currency : String) (rate : Option ℚ) :
    Except Err ℕ × Accounts :=
  match s.debited? p currency with
  | none => (.error .walletNotFound, s)
  | some w =>
      if decimal w.balance < p.amount then (.error .insufficientBalance, s)
      else
        match usdAmount rate p.amount (currencyCode currency) with
        | .error e => (.error e, s)
        | .ok usd => s.record (cents (decimal w.balance - p.amount))
            (p.movement .debit currency usd s.nextId)

/-- An insert of a wallet, with a balance of zero. -/
def createWallet (s : Accounts) (userId currency : String) : Except Err WalletRow × Accounts :=
  if s.wallets.any (·.walletId = s.nextId) then (.error .uniqueViolation, s)
  else
    let w : WalletRow := { walletId := s.nextId, userId := userId, currency := currency }
    (.ok w, { s with wallets := w :: s.wallets, nextId := s.nextId + 1 })

end Accounts

/-! ### Statements -/

/-- The answer of a statement. -/
abbrev Ans (α : Type) := Except Err α

/-- The statements of the services. -/
inductive Query : Type → Type
  | findMovementByKey (key : String) : Query (Ans (Option MovementRow))
  /-- The row of `exchange_rates` from one currency to another. -/
  | fetchRate (base target : String) : Query (Ans (Option ℚ))
  | creditTx (p : BalanceParams) (currency : String) : Query (Ans ℕ)
  | debitTx (p : BalanceParams) (currency : String) : Query (Ans ℕ)
  | balanceOf (walletId : ℕ) : Query (Ans ℚ)
  | tagOwner (tag : String) : Query (Ans (Option String))
  | userWallet (userId currency : String) : Query (Ans (Option WalletRow))
  | createWallet (userId currency : String) : Query (Ans WalletRow)
  | newReference (label : String) : Query (Ans String)
  /-- A read or a write of other tables. -/
  | aside : Query (Ans Unit)

/-- `LOWER(TRIM(BOTH '@' FROM COALESCE(dayfi_id, '')))`. -/
def tagOf (dayfiId : Option String) : String :=
  let text := ((dayfiId.getD "").toList.dropWhile (· = '@')).reverse.dropWhile (· = '@')
  (String.ofList text.reverse).toLower

/-- One statement, when it gets there. -/
def Query.run {β : Type} (st : Query β) (o : Outside) (s : Accounts) : β × Accounts :=
  match st with
  | .findMovementByKey key => (.ok (s.movement? key), s)
  | .fetchRate _ _ => (.ok o.rate, s)
  | .creditTx p currency => s.creditTx p currency
  | .debitTx p currency => s.debitTx p currency o.rate
  | .balanceOf walletId =>
      match s.wallets.find? (·.walletId = walletId) with
      | none => (.error .noRow, s)
      | some w => (.ok (decimal w.balance), s)
  | .tagOwner tag => (.ok ((s.wallets.find? (tagOf ·.dayfiId = tag)).map (·.userId)), s)
  | .userWallet userId currency =>
      (.ok (s.wallets.find? fun w => w.userId = userId && w.currency = currency), s)
  | .createWallet userId currency => s.createWallet userId currency
  | .newReference label => (.ok (label ++ "-" ++ o.token), s)
  | .aside => (.ok (), s)

/-- The answer of a statement that fails. -/
def Query.fail {β : Type} (st : Query β) (e : Err) : β :=
  match st with
  | .findMovementByKey .. | .fetchRate .. | .creditTx .. | .debitTx .. | .balanceOf .. => .error e
  | .tagOwner .. | .userWallet .. | .createWallet .. | .newReference .. | .aside => .error e

/-- The consumer services' database. -/
def accounts : Backend Query Outside Err Accounts where
  run _ st o s := st.run o s
  fail st e := st.fail e

/-- A call of a service. -/
abbrev Call := ExceptT Err (Prog Query)

/-- One statement; its failure is thrown. -/
def sql {β : Type} (st : Query (Ans β)) : Call β := Backend.call st

/-! ### Operations -/

/-- Source: `fxService.ts` `convertAmountToUsd`. -/
def convertAmountToUsd (amount : ℚ) (fromCurrency : String) : Call ℚ :=
  let from' := currencyCode fromCurrency
  if amount < 0 then throw .invalidAmount
  else if from' = primaryCurrency then pure amount
  else if amount = 0 then pure 0
  else do
    let rate ← sql (.fetchRate from' primaryCurrency)
    match usdAmount rate amount from' with
    | .error e => throw e
    | .ok usd => pure usd

structure CreditResult where
  usdAmount : ℚ
  movementId : ℕ
  duplicate : Bool
  deriving DecidableEq, Repr

structure DebitResult where
  newBalance : ℚ
  movementId : ℕ
  deriving DecidableEq, Repr

/-- Source: `balanceService.ts` `creditUsdBalance`. -/
def creditUsdBalance (p : BalanceParams) : Call CreditResult := do
  match ← sql (.findMovementByKey p.idempotencyKey) with
  | some m => pure ⟨decimal m.usdEquivalent, m.id, true⟩
  | none =>
      let usd ← convertAmountToUsd p.amount p.currency
      let id ← sql (.creditTx { p with amount := usd, usdEquivalent := usd } primaryCurrency)
      pure ⟨usd, id, false⟩

/-- Source: `balanceService.ts` `debitUsdBalance`. -/
def debitUsdBalance (p : BalanceParams) : Call DebitResult := do
  match ← sql (.findMovementByKey p.idempotencyKey) with
  | some m =>
      let balance ← sql (.balanceOf p.walletId)
      pure ⟨balance, m.id⟩
  | none =>
      if p.amount ≤ 0 then throw .invalidAmount
      else do
        let id ← sql (.debitTx p primaryCurrency)
        let balance ← sql (.balanceOf p.walletId)
        pure ⟨balance, id⟩

/-- Source: `balanceService.ts` `creditWalletBalance`. -/
def creditWalletBalance (p : BalanceParams) : Call CreditResult := do
  match ← sql (.findMovementByKey p.idempotencyKey) with
  | some m => pure ⟨decimal m.usdEquivalent, m.id, true⟩
  | none =>
      let id ← sql (.creditTx p p.currency.toUpper)
      pure ⟨p.usdEquivalent, id, false⟩

/-- Source: `balanceService.ts` `debitWalletBalance`. -/
def debitWalletBalance (p : BalanceParams) : Call DebitResult := do
  match ← sql (.findMovementByKey p.idempotencyKey) with
  | some m =>
      let balance ← sql (.balanceOf p.walletId)
      pure ⟨balance, m.id⟩
  | none =>
      if p.amount ≤ 0 then throw .invalidAmount
      else do
        let id ← sql (.debitTx p p.currency.toUpper)
        let balance ← sql (.balanceOf p.walletId)
        pure ⟨balance, id⟩

end DayfiBackend.Consumer
