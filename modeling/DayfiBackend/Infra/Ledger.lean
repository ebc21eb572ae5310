import DayfiBackend.Found.Keys
import DayfiBackend.Found.Tx
import DayfiBackend.Infra.Money

/-!
# The organisation ledger: wallets, movements and the posting operations

`infra_wallet_accounts` holds three balances per (organisation, environment, asset), and
`infra_ledger_movements` one row per money event. Seven operations act on one wallet and share a
skeleton (`postBody`: look the key up, ensure the wallet, check it is active, lock the row, guard
a bucket, update the row, insert the movement); what distinguishes them is a `PostRule`. Two
operations move money between two wallets, `transferAvailableBalance` and
`applyDayfiTransactionFee`. A database transaction is a `LedgerTx`: it either commits its new
ledger or fails and leaves the old one.

* A wallet is identified by its unique (organisation, environment, asset); its uuid is left out.
* Movement ids are drawn from a counter, the way the uuid default never repeats one.
* `Movement.posting` is not a column: it names the operation that posted the row, for statements.
* The `metadata` column is not modelled: nothing reads it back.
-/

namespace DayfiBackend.Infra

open DayfiBackend.Found.Binary64 DayfiBackend.Found.Keys DayfiBackend.Found.Tx

/-! ### Tables -/

inductive Environment where
  | test
  | live
  deriving DecidableEq, Repr

/-- Source: `infraLedgerService.ts` `normalizeEnv`. -/
def normalizeEnv (env : String) : Environment := if env = "live" then .live else .test

/-- Source: `infraLedgerService.ts` `normalizeAsset`. -/
def normalizeAsset (asset : Option String) : String :=
  orDefault (some (trim (orDefault asset "USDC")).toUpper) "USDC"

inductive WalletStatus where
  | active
  | frozen
  | closed
  deriving DecidableEq, Repr

inductive Direction where
  | credit
  | debit
  deriving DecidableEq, Repr

/-- The unique key of `infra_wallet_accounts`. -/
structure WalletKey where
  orgId : String
  environment : Environment
  asset : String
  deriving DecidableEq, Repr

/-- One value per bucket of a wallet. -/
structure Buckets (α : Type) where
  available : α
  pending : α
  locked : α
  deriving DecidableEq, Repr

/-- The sum of the three buckets. -/
def Buckets.total (b : Buckets ℤ) : ℤ := b.available + b.pending + b.locked

/-- No bucket is negative. -/
structure Buckets.Nonneg (b : Buckets ℤ) : Prop where
  available : 0 ≤ b.available
  pending : 0 ≤ b.pending
  locked : 0 ≤ b.locked

/-- A row of `infra_wallet_accounts`; balances in minor units. -/
structure WalletAccount where
  status : WalletStatus
  balance : Buckets ℤ
  deriving DecidableEq, Repr

/-- The row the INSERT of `ensureWalletAccount` creates. -/
def WalletAccount.fresh : WalletAccount := ⟨.active, ⟨0, 0, 0⟩⟩

/-- The operation that posted a movement. -/
inductive Posting where
  | credit
  | creditPending
  | releasePending
  | debit
  | lock
  | release
  | finalize
  | transferOut
  | transferIn
  | feeDebit
  | feeRevenue
  deriving DecidableEq, Repr

/-- The text columns of a movement. -/
structure MovementText where
  movementType : String
  reference : Option String
  referenceType : Option String
  referenceId : Option String
  idempotencyKey : String
  deriving DecidableEq, Repr

/-- A row of `infra_ledger_movements`; amounts in minor units. -/
structure Movement extends MovementText where
  id : ℕ
  wallet : WalletKey
  direction : Direction
  amount : ℤ
  after : Buckets ℤ
  posting : Posting
  deriving DecidableEq, Repr

/-- Two rows the unique indexes do not allow together: the same idempotency key, or the same
(organisation, environment, reference type, reference id, movement type).
Source: `infra-wallet-ledger-up.sql` `UNIQUE (idempotency_key)`, `infra-ledger-phase2-up.sql`
`uq_infra_ledger_ref_movement`. -/
def Movement.clashes (m n : Movement) : Bool :=
  m.idempotencyKey = n.idempotencyKey ||
    (m.referenceType.isSome && m.referenceId.isSome &&
      m.wallet.orgId = n.wallet.orgId && m.wallet.environment = n.wallet.environment &&
      m.referenceType = n.referenceType && m.referenceId = n.referenceId &&
      m.movementType = n.movementType)

/-- The two tables; movements newest first. -/
structure Ledger where
  wallets : WalletKey → Option WalletAccount
  movements : List Movement
  nextMovementId : ℕ

/-! ### Errors -/

/-- The ledger's own errors. The amounts of the `insufficient` ones are those of the message. -/
inductive LedgerError where
  | invalidAmount
  | idempotencyRequired
  | walletInactive
  | senderInactive
  | recipientInactive
  | revenueInactive
  | selfTransfer
  | transferInconsistent
  | insufficientPending (bal amount : ℚ)
  | insufficientBalance (bal amount : ℚ)
  | insufficientFee (bal amount : ℚ)
  | insufficientLocked (bal amount : ℚ)
  deriving DecidableEq, Repr

/-- The `code` of an `InfraLedgerError`. -/
def LedgerError.code : LedgerError → String
  | invalidAmount => "INVALID_AMOUNT"
  | idempotencyRequired => "IDEMPOTENCY_REQUIRED"
  | walletInactive => "WALLET_INACTIVE"
  | senderInactive => "WALLET_INACTIVE"
  | recipientInactive => "RECIPIENT_INACTIVE"
  | revenueInactive => "WALLET_INACTIVE"
  | selfTransfer => "SELF_TRANSFER"
  | transferInconsistent => "TRANSFER_INCONSISTENT"
  | insufficientPending _ _ => "INSUFFICIENT_PENDING"
  | insufficientBalance _ _ => "INSUFFICIENT_BALANCE"
  | insufficientFee _ _ => "INSUFFICIENT_BALANCE"
  | insufficientLocked _ _ => "INSUFFICIENT_LOCKED"

/-- How a ledger transaction fails: by an error of the ledger, or by one the database raises
(a unique index, a CHECK, a column's range or length, a missing row, a lost session). -/
inductive LedgerFailure where
  | error (e : LedgerError)
  | uniqueViolation
  | checkViolation
  | numericOverflow
  | valueTooLong
  | noData
  | connectionLost
  deriving DecidableEq, Repr

/-- A database transaction over the ledger: it commits the new ledger or fails. -/
abbrev LedgerTx := StateT Ledger (Except LedgerFailure)

/-! ### Statements -/

/-- Source: `infraLedgerService.ts` `parseAmount`. `none` is a value that is not a finite
number. -/
def parseAmount (raw : Option ℚ) : Except LedgerFailure ℚ :=
  match raw with
  | none => .error (.error .invalidAmount)
  | some v => if nearest v ≤ 0 then .error (.error .invalidAmount) else .ok (round7 (nearest v))

/-- Source: `infraLedgerService.ts` `findMovementByIdempotency`. -/
def findMovementByIdempotency (l : Ledger) (idempotencyKey : String) : Option Movement :=
  l.movements.find? (·.idempotencyKey = idempotencyKey)

/-- Source: `infraLedgerService.ts` `ensureWalletAccount`. -/
def ensureWalletAccount (k : WalletKey) : LedgerTx WalletAccount := do
  match (← get).wallets k with
  | some existing => return existing
  | none =>
      throwIf (16 < k.asset.length) .valueTooLong
      modify fun l => { l with wallets := Function.update l.wallets k (some .fresh) }
      return .fresh

/-- The three balances as numbers. -/
def WalletAccount.read (row : WalletAccount) : Buckets ℚ :=
  ⟨toNumber row.balance.available, toNumber row.balance.pending, toNumber row.balance.locked⟩

/-- Numbers bound to the three columns. -/
def Buckets.toNumeric (b : Buckets ℚ) : Buckets ℤ :=
  ⟨Infra.toNumeric b.available, Infra.toNumeric b.pending, Infra.toNumeric b.locked⟩

/-- Whether a value fits a `NUMERIC(28,7)` column. -/
def fits (c : ℤ) : Bool := -numericLimit < c && c < numericLimit

/-- The range of the columns and the `CHECK (… >= 0)` constraints of a wallet row. -/
def checkRow (b : Buckets ℤ) : Except LedgerFailure Unit :=
  if !(fits b.available && fits b.pending && fits b.locked) then .error .numericOverflow
  else if b.available < 0 || b.pending < 0 || b.locked < 0 then .error .checkViolation
  else .ok ()

/-- UPDATE of the balance columns of a wallet row. -/
def updateWallet (k : WalletKey) (row : WalletAccount) (balance : Buckets ℤ) : LedgerTx Unit := do
  liftM (checkRow balance)
  modify fun l => { l with wallets := Function.update l.wallets k (some { row with balance }) }

/-- Whether a text is longer than its column. -/
def tooLong (limit : ℕ) (s : Option String) : Bool := s.any (limit < ·.length)

/-- The columns of a movement row: lengths, ranges and `CHECK (amount > 0)`. -/
def checkMovement (m : Movement) : Except LedgerFailure Unit :=
  if tooLong 64 m.movementType || tooLong 255 m.reference || tooLong 64 m.referenceType ||
      tooLong 255 m.referenceId || tooLong 255 m.idempotencyKey then .error .valueTooLong
  else if !(fits m.amount && fits m.after.available && fits m.after.pending &&
      fits m.after.locked) then .error .numericOverflow
  else if m.amount ≤ 0 then .error .checkViolation
  else .ok ()

/-- Source: `infraLedgerService.ts` `insertMovement`. -/
def insertMovement (wallet : WalletKey) (direction : Direction) (amount : ℚ)
    (text : MovementText) (after : Buckets ℚ) (posting : Posting) : LedgerTx Movement := do
  let l ← get
  let m : Movement :=
    { text with
      id := l.nextMovementId
      wallet, direction, posting
      amount := toNumeric amount
      after := after.toNumeric }
  liftM (checkMovement m)
  throwIf (l.movements.any (m.clashes ·)) .uniqueViolation
  set { l with movements := m :: l.movements, nextMovementId := l.nextMovementId + 1 }
  return m

/-! ### The seven operations on one wallet -/

/-- What an operation does to one bucket. -/
inductive BucketMove where
  /-- The column is not written; the movement records the value read. -/
  | keep
  | add
  /-- Added without rounding to seven places. -/
  | addUnrounded
  /-- Subtracted, after checking that the bucket holds the amount. -/
  | take
  deriving DecidableEq, Repr

/-- The value of the bucket after the operation, as a number. -/
def BucketMove.after (m : BucketMove) (bal amount : ℚ) : ℚ :=
  match m with
  | keep => bal
  | add => round7 (nearest (bal + amount))
  | addUnrounded => nearest (bal + amount)
  | take => round7 (nearest (bal - amount))

/-- The value of the column after the UPDATE. -/
def BucketMove.column (m : BucketMove) (old : ℤ) (bal amount : ℚ) : ℤ :=
  match m with
  | keep => old
  | m => toNumeric (m.after bal amount)

/-- What distinguishes one operation from another. -/
structure PostRule where
  posting : Posting
  direction : Direction
  defaultType : String
  moves : Buckets BucketMove
  insufficient : ℚ → ℚ → LedgerError

/-- The check that the bucket taken from holds the amount. -/
def PostRule.guard (rule : PostRule) (bal : Buckets ℚ) (amount : ℚ) : Option LedgerError :=
  if rule.moves.available = .take ∧ bal.available < amount then
    some (rule.insufficient bal.available amount)
  else if rule.moves.pending = .take ∧ bal.pending < amount then
    some (rule.insufficient bal.pending amount)
  else if rule.moves.locked = .take ∧ bal.locked < amount then
    some (rule.insufficient bal.locked amount)
  else none

/-- The balances the movement records. -/
def PostRule.after (rule : PostRule) (bal : Buckets ℚ) (amount : ℚ) : Buckets ℚ where
  available := rule.moves.available.after bal.available amount
  pending := rule.moves.pending.after bal.pending amount
  locked := rule.moves.locked.after bal.locked amount

/-- The balances after the UPDATE. -/
def PostRule.columns (rule : PostRule) (row : WalletAccount) (amount : ℚ) : Buckets ℤ where
  available := rule.moves.available.column row.balance.available row.read.available amount
  pending := rule.moves.pending.column row.balance.pending row.read.pending amount
  locked := rule.moves.locked.column row.balance.locked row.read.locked amount

/-- Source: `infraLedgerService.ts` `LedgerWriteParams`. The amount is the number the argument
denotes, before it becomes a JavaScript number. -/
structure LedgerWriteParams where
  orgId : String
  environment : String
  amount : Option ℚ
  asset : Option String := none
  idempotencyKey : String
  movementType : Option String := none
  reference : Option String := none
  referenceType : Option String := none
  referenceId : Option String := none
  deriving DecidableEq, Repr

/-- The wallet the parameters name. -/
def LedgerWriteParams.wallet (p : LedgerWriteParams) : WalletKey :=
  ⟨p.orgId, normalizeEnv p.environment, normalizeAsset p.asset⟩

/-- The key a call looks up and posts under. -/
def LedgerWriteParams.key (p : LedgerWriteParams) : String := trim p.idempotencyKey

/-- The text columns of the movement a call posts. -/
def LedgerWriteParams.text (p : LedgerWriteParams) (defaultType : String) : MovementText where
  movementType := orDefault p.movementType defaultType
  reference := orNull p.reference <|> orNull p.referenceId
  referenceType := orNull p.referenceType
  referenceId := orNull p.referenceId
  idempotencyKey := p.key

/-- What an operation returns. -/
structure Posted where
  movement : Movement
  duplicate : Bool
  deriving DecidableEq, Repr

/-- The transaction of an operation on one wallet. -/
def postBody (rule : PostRule) (p : LedgerWriteParams) (amount : ℚ) : LedgerTx Posted := do
  match findMovementByIdempotency (← get) p.key with
  | some existing => return ⟨existing, true⟩
  | none =>
      let row ← ensureWalletAccount p.wallet
      throwIf (row.status ≠ .active) (.error .walletInactive)
      match rule.guard row.read amount with
      | some e => throw (.error e)
      | none =>
          updateWallet p.wallet row (rule.columns row amount)
          let m ← insertMovement p.wallet rule.direction amount (p.text rule.defaultType)
            (rule.after row.read amount) rule.posting
          return ⟨m, false⟩

/-- An operation on one wallet, in a transaction of its own: a unique violation is answered by
the movement that has the key. -/
def postLedger (rule : PostRule) (p : LedgerWriteParams) (l : Ledger) :
    Except LedgerFailure Posted × Ledger :=
  match parseAmount p.amount with
  | .error e => (.error e, l)
  | .ok amount =>
      if p.key = "" then (.error (.error .idempotencyRequired), l)
      else
        match commit (postBody rule p amount) l with
        | (.error .uniqueViolation, l') =>
            match findMovementByIdempotency l' p.key with
            | some existing => (.ok ⟨existing, true⟩, l')
            | none => (.error .uniqueViolation, l')
        | r => r

/-- Available rises. Source: `infraLedgerService.ts` `creditOrgWallet`. -/
def creditRule : PostRule where
  posting := .credit
  direction := .credit
  defaultType := "adjustment"
  moves := ⟨.addUnrounded, .keep, .keep⟩
  insufficient := .insufficientBalance

/-- Pending rises. Source: `infraLedgerService.ts` `creditOrgWalletPending`. -/
def creditPendingRule : PostRule where
  posting := .creditPending
  direction := .credit
  defaultType := "collection_pending"
  moves := ⟨.keep, .add, .keep⟩
  insufficient := .insufficientPending

/-- Pending to available. Source: `infraLedgerService.ts` `releasePendingToAvailable`. -/
def releasePendingRule : PostRule where
  posting := .releasePending
  direction := .credit
  defaultType := "collection_credit"
  moves := ⟨.add, .take, .keep⟩
  insufficient := .insufficientPending

/-- Available falls. Source: `infraLedgerService.ts` `debitOrgWallet`. -/
def debitRule : PostRule where
  posting := .debit
  direction := .debit
  defaultType := "adjustment"
  moves := ⟨.take, .keep, .keep⟩
  insufficient := .insufficientBalance

/-- Available to locked. Source: `infraLedgerService.ts` `lockOrgFunds`. -/
def lockRule : PostRule where
  posting := .lock
  direction := .debit
  defaultType := "funds_lock"
  moves := ⟨.take, .keep, .add⟩
  insufficient := .insufficientBalance

/-- Locked to available. Source: `infraLedgerService.ts` `releaseOrgFunds`. -/
def releaseRule : PostRule where
  posting := .release
  direction := .credit
  defaultType := "funds_release"
  moves := ⟨.add, .keep, .take⟩
  insufficient := .insufficientLocked

/-- Locked falls. Source: `infraLedgerService.ts` `finalizeLockedDebit`. -/
def finalizeRule : PostRule where
  posting := .finalize
  direction := .debit
  defaultType := "payout_settle"
  moves := ⟨.keep, .keep, .take⟩
  insufficient := .insufficientLocked

/-- The seven single-wallet operations. -/
inductive LedgerOp where
  | creditOrgWallet
  | creditOrgWalletPending
  | releasePendingToAvailable
  | debitOrgWallet
  | lockOrgFunds
  | releaseOrgFunds
  | finalizeLockedDebit
  deriving DecidableEq, Repr

def LedgerOp.rule : LedgerOp → PostRule
  | creditOrgWallet => creditRule
  | creditOrgWalletPending => creditPendingRule
  | releasePendingToAvailable => releasePendingRule
  | debitOrgWallet => debitRule
  | lockOrgFunds => lockRule
  | releaseOrgFunds => releaseRule
  | finalizeLockedDebit => finalizeRule

/-! ### Two wallets -/

/-- Money moving from the available balance of `src` to that of `dst`, with the movements that
record it. -/
structure AvailableMove where
  src : WalletKey
  dst : WalletKey
  amount : ℚ
  outText : MovementText
  inText : MovementText
  outPosting : Posting
  inPosting : Posting
  deriving DecidableEq, Repr

/-- The sender's balances after a move, as numbers. -/
def AvailableMove.srcAfter (mv : AvailableMove) (row : WalletAccount) : Buckets ℚ :=
  { row.read with available := round7 (nearest (row.read.available - mv.amount)) }

/-- The recipient's balances after a move, as numbers. -/
def AvailableMove.dstAfter (mv : AvailableMove) (row : WalletAccount) : Buckets ℚ :=
  { row.read with available := round7 (nearest (row.read.available + mv.amount)) }

/-- Both UPDATEs and both inserts of a move; the rows are as read before either UPDATE. -/
def moveAvailable (mv : AvailableMove) (srcRow dstRow : WalletAccount) :
    LedgerTx (Movement × Movement) := do
  updateWallet mv.src srcRow
    { srcRow.balance with available := toNumeric (mv.srcAfter srcRow).available }
  updateWallet mv.dst dstRow
    { dstRow.balance with available := toNumeric (mv.dstAfter dstRow).available }
  let debit ← insertMovement mv.src .debit mv.amount mv.outText (mv.srcAfter srcRow) mv.outPosting
  let credit ← insertMovement mv.dst .credit mv.amount mv.inText (mv.dstAfter dstRow) mv.inPosting
  return (debit, credit)

/-- Both legs of a transfer or a fee. -/
structure PostedPair where
  debit : Movement
  credit : Movement
  duplicate : Bool
  deriving DecidableEq, Repr

/-- Arguments of `transferAvailableBalance`. -/
structure TransferParams where
  senderOrgId : String
  recipientOrgId : String
  environment : String
  amount : Option ℚ
  asset : Option String := none
  transferGroupId : String
  debitIdempotencyKey : String
  creditIdempotencyKey : String
  senderReferenceId : String
  recipientReferenceId : String
  deriving DecidableEq, Repr

namespace TransferParams

def sender (p : TransferParams) : WalletKey :=
  ⟨p.senderOrgId, normalizeEnv p.environment, normalizeAsset p.asset⟩

def recipient (p : TransferParams) : WalletKey :=
  ⟨p.recipientOrgId, normalizeEnv p.environment, normalizeAsset p.asset⟩

def debitText (p : TransferParams) : MovementText where
  movementType := "internal_transfer_debit"
  reference := p.transferGroupId
  referenceType := "internal_transfer"
  referenceId := p.senderReferenceId
  idempotencyKey := trim p.debitIdempotencyKey

def creditText (p : TransferParams) : MovementText where
  movementType := "internal_transfer_credit"
  reference := p.transferGroupId
  referenceType := "internal_transfer"
  referenceId := p.recipientReferenceId
  idempotencyKey := trim p.creditIdempotencyKey

def move (p : TransferParams) (amount : ℚ) : AvailableMove :=
  ⟨p.sender, p.recipient, amount, p.debitText, p.creditText, .transferOut, .transferIn⟩

end TransferParams

/-- The body of `transferAvailableBalance`, in the caller's transaction. The second status check
reads the rows again under the lock, and both rows carry one environment, so neither check is
repeated here.
Source: `infraLedgerService.ts` `transferAvailableBalance`. -/
def transferBody (p : TransferParams) : LedgerTx PostedPair := do
  let amount ← liftM (parseAmount p.amount)
  let debitKey := trim p.debitIdempotencyKey
  let creditKey := trim p.creditIdempotencyKey
  throwIf (debitKey = "" ∨ creditKey = "") (.error .idempotencyRequired)
  throwIf (p.senderOrgId = p.recipientOrgId) (.error .selfTransfer)
  let l ← get
  match findMovementByIdempotency l debitKey, findMovementByIdempotency l creditKey with
  | some debit, some credit => return ⟨debit, credit, true⟩
  | some _, none => throw (.error .transferInconsistent)
  | none, some _ => throw (.error .transferInconsistent)
  | none, none =>
      let senderRow ← ensureWalletAccount p.sender
      let recipientRow ← ensureWalletAccount p.recipient
      throwIf (senderRow.status ≠ .active) (.error .senderInactive)
      throwIf (recipientRow.status ≠ .active) (.error .recipientInactive)
      throwIf (senderRow.read.available < amount)
        (.error (.insufficientBalance senderRow.read.available amount))
      let (debit, credit) ← moveAvailable (p.move amount) senderRow recipientRow
      return ⟨debit, credit, false⟩

/-- `transferAvailableBalance` in a transaction of its own. The promise of `db.tx` is returned
without being awaited, so a unique violation is not caught. -/
def transferAvailableBalance (p : TransferParams) (l : Ledger) :
    Except LedgerFailure PostedPair × Ledger :=
  commit (transferBody p) l

/-- Arguments of `applyDayfiTransactionFee`. -/
structure FeeParams where
  payerOrgId : String
  revenueOrgId : String
  environment : String
  amount : Option ℚ
  transferGroupId : String
  payerReferenceId : String
  revenueReferenceId : String
  debitIdempotencyKey : String
  creditIdempotencyKey : String
  deriving DecidableEq, Repr

namespace FeeParams

def payer (p : FeeParams) : WalletKey :=
  ⟨p.payerOrgId, normalizeEnv p.environment, normalizeAsset "USDC"⟩

def revenue (p : FeeParams) : WalletKey :=
  ⟨p.revenueOrgId, normalizeEnv p.environment, normalizeAsset "USDC"⟩

def debitText (p : FeeParams) : MovementText where
  movementType := "fee_debit"
  reference := "fee:" ++ p.transferGroupId
  referenceType := "transaction_fee"
  referenceId := p.payerReferenceId
  idempotencyKey := trim p.debitIdempotencyKey

def creditText (p : FeeParams) : MovementText where
  movementType := "fee_revenue"
  reference := "fee:" ++ p.transferGroupId
  referenceType := "transaction_fee"
  referenceId := p.revenueReferenceId
  idempotencyKey := trim p.creditIdempotencyKey

def move (p : FeeParams) (amount : ℚ) : AvailableMove :=
  ⟨p.payer, p.revenue, amount, p.debitText, p.creditText, .feeDebit, .feeRevenue⟩

end FeeParams

/-- Source: `infraLedgerService.ts` `applyDayfiTransactionFee`. It runs in the caller's
transaction; one existing key out of two is left to the unique index. -/
def applyDayfiTransactionFee (p : FeeParams) : LedgerTx (Option PostedPair) := do
  let amount ← liftM (parseAmount p.amount)
  if amount ≤ 0 then return none
  let debitKey := trim p.debitIdempotencyKey
  let creditKey := trim p.creditIdempotencyKey
  throwIf (debitKey = "" ∨ creditKey = "") (.error .idempotencyRequired)
  let l ← get
  match findMovementByIdempotency l debitKey, findMovementByIdempotency l creditKey with
  | some debit, some credit => return some ⟨debit, credit, true⟩
  | _, _ =>
      let payerRow ← ensureWalletAccount p.payer
      let revenueRow ← ensureWalletAccount p.revenue
      throwIf (payerRow.status ≠ .active) (.error .senderInactive)
      throwIf (revenueRow.status ≠ .active) (.error .revenueInactive)
      throwIf (payerRow.read.available < amount)
        (.error (.insufficientFee payerRow.read.available amount))
      let (debit, credit) ← moveAvailable (p.move amount) payerRow revenueRow
      return some ⟨debit, credit, false⟩

end DayfiBackend.Infra
