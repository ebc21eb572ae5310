import DayfiBackend.Found.Session
import DayfiBackend.Infra.Posting

/-!
# Transfers between organisations

`createInternalTransfer` in the `INTERNAL_LEDGER` mode: it checks the request, quotes the fee, looks
the idempotency key up, and then writes in one database transaction the transfer, its two
`infra_transactions` rows, both legs of the principal, the fee record and both legs of the fee. The
statements before that transaction and after it commit one by one.

* Amounts are in minor units; `formatUsdc` prints one and every reader parses it back to the same.
* The payment on chain is a parameter: the mode `STELLAR_ONCHAIN` is another service.
* `metadata` is not modelled but for the quote, which `presentTransfer` reads back.
-/

namespace DayfiBackend.Infra.InternalTransfer

open DayfiBackend.Found.Binary64 DayfiBackend.Found.Keys DayfiBackend.Found.Tx

/-! ### Tables -/

/-- A row of `infra_organizations`. -/
structure Organization where
  id : String
  slug : String
  deriving DecidableEq, Repr

/-- A row of `infra_members`, as a recipient is looked up in it. -/
structure Member where
  dayfiTag : Option String
  orgId : Option String
  deriving DecidableEq, Repr

/-- Source: `infraFeeService.ts` `TransferSettlementMode`. -/
inductive SettlementMode where
  | internalLedger
  | stellarOnchain
  deriving DecidableEq, Repr

/-- Source: `infraFeeService.ts` `DayfiFeeQuote`; the amounts that follow from these are left
out. -/
structure FeeQuote where
  transferAmount : ℤ
  feeAmount : ℤ
  feePolicyAmount : ℤ
  deriving DecidableEq, Repr

/-- A row of `infra_internal_transfers`. -/
structure TransferRow where
  id : String
  senderOrgId : String
  recipientOrgId : String
  environment : Environment
  amount : ℤ
  senderTransactionId : Option String
  recipientTransactionId : Option String
  senderMovementId : Option ℕ
  recipientMovementId : Option ℕ
  idempotencyKey : Option String
  requestFingerprint : Option String
  settlementMode : SettlementMode
  feeId : Option String
  fee : Option FeeQuote
  deriving DecidableEq, Repr

/-- A row of `infra_transactions`, as a transfer writes it. -/
structure TransactionRow where
  id : String
  orgId : String
  environment : Environment
  amount : ℤ
  fee : ℤ
  externalId : String
  clientIdempotencyKey : Option String
  requestFingerprint : String
  deriving DecidableEq, Repr

/-- A row of `infra_transaction_fees`. -/
structure FeeRow where
  id : String
  orgId : String
  environment : Environment
  transferGroupId : String
  transactionId : String
  feeAmount : ℤ
  transferAmount : ℤ
  customerDebitAmount : ℤ
  feeRevenueOrgId : String
  idempotencyKey : String
  customerFeeMovementId : Option ℕ
  revenueMovementId : Option ℕ
  deriving DecidableEq, Repr

/-- The tables; rows newest first. -/
structure Books where
  orgs : List Organization
  members : List Member
  transfers : List TransferRow
  transactions : List TransactionRow
  fees : List FeeRow
  ledger : Ledger

/-- Whether the organisation exists. -/
def Books.hasOrg (b : Books) (id : String) : Bool := b.orgs.any (·.id = id)

/-! ### Errors -/

/-- The errors a call raises itself. -/
inductive TransferError where
  | invalidAmount
  | unsupportedAsset
  | crossEnvironment
  | recipientRequired
  | unknownRecipient
  | selfTransfer
  | idempotencyRequired
  | idempotencyConflict
  deriving DecidableEq, Repr

/-- The `code` of an `InfraTransferError`. -/
def TransferError.code : TransferError → String
  | invalidAmount => "INVALID_AMOUNT"
  | unsupportedAsset => "UNSUPPORTED_ASSET"
  | crossEnvironment => "CROSS_ENVIRONMENT"
  | recipientRequired => "RECIPIENT_REQUIRED"
  | unknownRecipient => "UNKNOWN_RECIPIENT"
  | selfTransfer => "SELF_TRANSFER"
  | idempotencyRequired => "IDEMPOTENCY_REQUIRED"
  | idempotencyConflict => "IDEMPOTENCY_CONFLICT"

/-- How a call fails. -/
inductive TransferFailure where
  | transfer (e : TransferError)
  /-- `InfraMoneyError` `INVALID_AMOUNT`. -/
  | money
  | ledger (e : LedgerFailure)
  /-- `InfraLedgerError` `WALLET_CLOSED`. -/
  | walletClosed
  | uniqueViolation
  | foreignKeyViolation
  | checkViolation
  | numericOverflow
  | valueTooLong
  | invalidUuid
  /-- A statement that fails for a reason outside the program. -/
  | fault
  deriving DecidableEq, Repr

/-- Source: `infraInternalTransferService.ts` `isUniqueViolation`. -/
def TransferFailure.isUniqueViolation (e : TransferFailure) : Bool :=
  e = .uniqueViolation || e = .ledger .uniqueViolation

/-- A transaction over the tables. -/
abbrev BooksTx := StateT Books (Except TransferFailure)

/-- A call: transactions one after another. -/
abbrev CallM := Session Books TransferFailure

/-! ### The world outside -/

/-- The texts a `uuid` column accepts and how it writes them back. -/
structure UuidType where
  read : String → Option String
  canonical : ∀ s u, read s = some u → read u = some u

/-- The statements of a call. -/
inductive Step where
  | recipient
  | feeOrg
  | insertFeeOrg
  | feeWallet
  | balance
  | existing
  | insertTransfer
  | insertSenderTransaction
  | insertRecipientTransaction
  | transferBalance
  | existingFee
  | insertFee
  | applyFee
  | updateFee
  | updateTransfer
  | commit
  /-- The transaction is committed and its answer is lost. -/
  | acknowledge
  | balanceAfter
  | storedFee
  deriving DecidableEq, Repr

/-- What the request fingerprint is taken of. -/
structure FingerprintParts where
  amount : ℤ
  environment : Environment
  recipientOrgId : String
  settlementMode : SettlementMode
  deriving DecidableEq, Repr

/-- What a call meets outside the program: the database's `uuid` type, SHA-256, the ids it draws
and the statements that fail. -/
structure Outside where
  uuid : UuidType
  fingerprint : FingerprintParts → String
  transferGroupId : String
  senderTransactionId : String
  recipientTransactionId : String
  feeId : String
  feeOrgId : String
  fails : Step → Bool

/-- The environment variables a call reads. -/
structure FeeSettings where
  transferSettlementMode : Option String
  internalTransferFee : Option String
  transactionFeeUsdc : Option String
  infraFeeOrgId : Option String
  deriving DecidableEq, Repr

/-- Refuse the request when `c` holds. -/
def refuseIf (c : Prop) [Decidable c] (e : TransferError) : Except TransferFailure Unit :=
  if c then .error (.transfer e) else .ok ()

/-- A statement, unless it fails. -/
def Outside.statement {α : Type} (o : Outside) (step : Step) (tx : BooksTx α) : BooksTx α := do
  throwIf (o.fails step = true) .fault
  tx

/-! ### Amounts -/

/-- An amount argument: a text or a JavaScript number, which may not be finite. -/
inductive AmountInput where
  | text (s : String)
  | number (v : Option ℚ)
  deriving DecidableEq, Repr

/-- The number a text of decimal digits denotes. -/
def digitsValue (cs : List Char) : ℤ := cs.foldl (fun n c => 10 * n + (c.toNat - '0'.toNat : ℤ)) 0

/-- The minor units of unsigned decimal text: digits, and up to seven after a point. -/
def unsignedMinor (cs : List Char) : Option ℤ :=
  let whole := cs.takeWhile Char.isDigit
  if whole = [] then none
  else
    match cs.dropWhile Char.isDigit with
    | [] => some (digitsValue whole * 10 ^ 7)
    | '.' :: frac =>
        if frac = [] ∨ ¬ frac.all Char.isDigit ∨ 7 < frac.length then none
        else some (digitsValue whole * 10 ^ 7 + digitsValue (frac.rightpad 7 '0'))
    | _ => none

/-- Source: `infraMoneyAmount.ts` `parseDecimalToMinor` on a text. -/
def textMinor (s : String) : Option ℤ :=
  match (trim s).toList with
  | '-' :: cs => (unsignedMinor cs).map (-·)
  | cs => unsignedMinor cs

/-- `toFixed(7)` in minor units; from `10^21` on the text is in exponent notation. -/
def numberMinor (v : ℚ) : Option ℤ :=
  if 10 ^ 21 ≤ |v| then none
  else if v < 0 then some (-⌊-v * 10 ^ 7 + 1 / 2⌋)
  else some ⌊v * 10 ^ 7 + 1 / 2⌋

/-- Source: `infraMoneyAmount.ts` `parseUsdcToMinor`. -/
def parseUsdcToMinor (raw : AmountInput) : Except TransferFailure ℤ :=
  let minor :=
    match raw with
    | .text s => textMinor s
    | .number none => none
    | .number (some v) => numberMinor v
  match minor with
  | none => .error .money
  | some n => .ok n

/-! ### The fee -/

/-- `-` written as `_`. -/
def underscores (s : String) : String := s.map fun c => if c = '-' then '_' else c

/-- Source: `infraFeeService.ts` `getTransferSettlementMode`. -/
def getTransferSettlementMode (cfg : FeeSettings) (override : Option String) : SettlementMode :=
  let raw := underscores
    (trim (orDefault override (orDefault cfg.transferSettlementMode ""))).toUpper
  if raw = "STELLAR_ONCHAIN" ∨ raw = "ONCHAIN" then .stellarOnchain else .internalLedger

/-- Source: `infraFeeService.ts` `isInternalTransferFeeEnabled`. -/
def isInternalTransferFeeEnabled (cfg : FeeSettings) : Bool :=
  (trim (orDefault cfg.internalTransferFee "")).toLower ∈ ["on", "true", "1"]

/-- Source: `infraFeeService.ts` `getConfiguredFeeUsdcMinor`. -/
def getConfiguredFeeUsdcMinor (cfg : FeeSettings) : ℤ :=
  match textMinor (orDefault cfg.transactionFeeUsdc "0.01") with
  | some n => max n 0
  | none => 10 ^ 5

/-- Source: `infraFeeService.ts` `quoteDayfiTransactionFee`. -/
def quoteDayfiTransactionFee (cfg : FeeSettings) (transferMinor : ℤ) (chargeFee : Bool) :
    FeeQuote where
  transferAmount := transferMinor
  feeAmount := if chargeFee then getConfiguredFeeUsdcMinor cfg else 0
  feePolicyAmount := getConfiguredFeeUsdcMinor cfg

/-- A fee is charged. -/
def FeeQuote.feeCharged (q : FeeQuote) : Bool := 0 < q.feeAmount

/-- What the customer pays. -/
def FeeQuote.customerDebitAmount (q : FeeQuote) : ℤ := q.transferAmount + q.feeAmount

/-- Source: `infraFeeService.ts` `FEE_ORG_SLUG`. -/
def feeOrgSlug : String := "dayfi-platform-fee-revenue"

/-! ### Wallets -/

/-- The USDC wallet of an organisation. -/
def usdcWallet (orgId : String) (env : Environment) : WalletKey :=
  ⟨orgId, env, normalizeAsset (some "USDC")⟩

/-- A transaction of the ledger within one over all tables. -/
def onLedger {α : Type} (tx : LedgerTx α) : BooksTx α := fun b =>
  match tx.run b.ledger with
  | .ok (a, l) => .ok (a, { b with ledger := l })
  | .error e => .error (.ledger e)

/-- A text read as a `uuid`. -/
def readUuid (o : Outside) (s : String) : BooksTx String :=
  match o.uuid.read s with
  | some id => return id
  | none => throw .invalidUuid

/-- Source: `infraLedgerService.ts` `ensureWalletAccount`, outside a transfer: the insert checks
that the organisation exists. -/
def ensureWallet (o : Outside) (orgId : String) (env : Environment) : BooksTx WalletAccount := do
  let id ← readUuid o orgId
  let b ← get
  throwIf (b.ledger.wallets (usdcWallet id env) = none ∧ b.hasOrg id = false) .foreignKeyViolation
  onLedger (ensureWalletAccount (usdcWallet id env))

/-- Source: `infraLedgerService.ts` `getOrgBalance`. -/
def getOrgBalance (o : Outside) (step : Step) (orgId : String) (env : Environment) :
    CallM (Buckets ℚ) := do
  let wallet ← Session.inTx (o.statement step (ensureWallet o orgId env))
  Session.failIf (wallet.status = .closed) .walletClosed
  return wallet.read

/-- The INSERT of the fee organisation; no other row has its slug. -/
def insertFeeOrg (o : Outside) : BooksTx String := do
  let b ← get
  throwIf (b.hasOrg o.feeOrgId = true) .uniqueViolation
  set { b with orgs := ⟨o.feeOrgId, feeOrgSlug⟩ :: b.orgs }
  return o.feeOrgId

section feeOrg

variable {m : Type → Type} [Monad m] (exec : {α : Type} → BooksTx α → m α) (o : Outside)

/-- The fee organisation found, or a new one. -/
def feeOrgOr (existing : Option Organization) : m String :=
  match existing with
  | some org => pure org.id
  | none => exec (o.statement .insertFeeOrg (insertFeeOrg o))

/-- Source: `infraFeeService.ts` `ensureFeeRevenueOrg`, its statements run by `exec`. -/
def ensureFeeRevenueOrg (cfg : FeeSettings) : m String :=
  let fromEnv := trim (orDefault cfg.infraFeeOrgId "")
  if fromEnv ≠ "" then pure fromEnv
  else do
    let existing ← exec (o.statement .feeOrg
      (return (← get).orgs.find? (·.slug = feeOrgSlug)))
    let id ← feeOrgOr exec o existing
    let _ ← exec (o.statement .feeWallet (ensureWallet o id .test))
    return id

end feeOrg

/-- Source: `infraFeeService.ts` `assertCustomerCanPay`. -/
def assertCustomerCanPay (available : ℚ) (q : FeeQuote) : Except TransferFailure Unit :=
  match parseUsdcToMinor (.number (some available)) with
  | .error e => .error e
  | .ok minor =>
      if minor < q.customerDebitAmount then
        .error (.ledger (.error (.insufficientBalance (usdc minor) (usdc q.customerDebitAmount))))
      else .ok ()

/-! ### The request -/

/-- Source: `infraInternalTransferService.ts` `createInternalTransfer`, its argument. -/
structure TransferInput where
  senderOrgId : String
  environment : String
  amount : AmountInput
  recipientOrgId : Option String
  recipientEnvironment : Option String
  dayfiTag : Option String
  idempotencyKey : Option String
  asset : Option String
  settlementMode : Option String
  deriving DecidableEq, Repr

def isHexDigit (c : Char) : Bool := c.isDigit || c.toLower ∈ "abcdef".toList

/-- The pattern an explicit recipient must match. -/
def looksLikeUuid (s : String) : Bool :=
  s.toList.length = 36 && s.toList.zipIdx.all fun (c, n) =>
    if n ∈ [8, 13, 18, 23] then c = '-'
    else if n = 14 then c ∈ "12345".toList
    else if n = 19 then c.toLower ∈ "89ab".toList
    else isHexDigit c

/-- Source: `infraInternalTransferService.ts` `orgExists`. -/
def orgExists (o : Outside) (b : Books) (orgId : String) : Except TransferFailure Bool :=
  match o.uuid.read orgId with
  | none => .error .invalidUuid
  | some id => .ok (b.hasOrg id)

/-- The recipient, if it exists. -/
def existingRecipient (o : Outside) (b : Books) (orgId : String) : Except TransferFailure String :=
  match orgExists o b orgId with
  | .error e => .error e
  | .ok true => .ok orgId
  | .ok false => .error (.transfer .unknownRecipient)

/-- A tag as it is looked up: no `@` in front, in lower case. -/
def bareTag (tag : String) : String :=
  (String.ofList ((trim tag).toList.dropWhile (· = '@'))).toLower

/-- Source: `infraInternalTransferService.ts` `resolveRecipientOrgId`. -/
def resolveRecipientOrgId (o : Outside) (i : TransferInput) (b : Books) :
    Except TransferFailure String :=
  let explicit := trim (i.recipientOrgId.getD "")
  let tag := bareTag (i.dayfiTag.getD "")
  if o.fails .recipient then .error .fault
  else if explicit ≠ "" then
    if looksLikeUuid explicit then existingRecipient o b explicit
    else .error (.transfer .unknownRecipient)
  else if tag = "" then .error (.transfer .recipientRequired)
  else
    match b.members.find? (fun m => m.dayfiTag.map String.toLower = some tag.toLower) with
    | none => .error (.transfer .unknownRecipient)
    | some member =>
        match orNull member.orgId with
        | none => .error (.transfer .unknownRecipient)
        | some orgId => existingRecipient o b orgId

/-- The fee of a request. -/
def TransferInput.quote (i : TransferInput) (cfg : FeeSettings) (minor : ℤ) : FeeQuote :=
  quoteDayfiTransactionFee cfg minor
    (getTransferSettlementMode cfg i.settlementMode = .internalLedger &&
      isInternalTransferFeeEnabled cfg)

/-- The idempotency key of a request. -/
def TransferInput.idem (i : TransferInput) : Option String :=
  orNull (some (trim (i.idempotencyKey.getD "")))

/-! ### The transaction -/

/-- A checked request. -/
structure Prepared where
  senderOrgId : String
  recipientOrgId : String
  environment : Environment
  quote : FeeQuote
  idem : Option String
  fingerprint : String
  deriving DecidableEq, Repr

/-- Two transfers the unique indexes do not allow together. -/
def TransferRow.clashes (r s : TransferRow) : Bool :=
  r.id = s.id || (r.idempotencyKey.isSome && r.senderOrgId = s.senderOrgId &&
    r.environment = s.environment && r.idempotencyKey = s.idempotencyKey)

/-- The columns of a transfer: lengths, ranges and checks. -/
def checkTransfer (r : TransferRow) : Except TransferFailure Unit :=
  if tooLong 255 r.idempotencyKey || tooLong 64 r.requestFingerprint then .error .valueTooLong
  else if !fits r.amount then .error .numericOverflow
  else if r.amount ≤ 0 ∨ r.senderOrgId = r.recipientOrgId then .error .checkViolation
  else .ok ()

/-- INSERT of a transfer. -/
def insertTransfer (o : Outside) (p : Prepared) : BooksTx TransferRow := do
  let sender ← readUuid o p.senderOrgId
  let recipient ← readUuid o p.recipientOrgId
  let row : TransferRow :=
    { id := o.transferGroupId
      senderOrgId := sender
      recipientOrgId := recipient
      environment := p.environment
      amount := p.quote.transferAmount
      senderTransactionId := none
      recipientTransactionId := none
      senderMovementId := none
      recipientMovementId := none
      idempotencyKey := p.idem
      requestFingerprint := p.fingerprint
      settlementMode := .internalLedger
      feeId := none
      fee := some p.quote }
  liftM (checkTransfer row)
  let b ← get
  throwIf (b.transfers.any (row.clashes ·)) .uniqueViolation
  throwIf (b.hasOrg sender = false ∨ b.hasOrg recipient = false) .foreignKeyViolation
  set { b with transfers := row :: b.transfers }
  return row

/-- Two rows of `infra_transactions` the unique indexes do not allow together. -/
def TransactionRow.clashes (r s : TransactionRow) : Bool :=
  r.id = s.id || (r.clientIdempotencyKey.isSome && r.orgId = s.orgId &&
    r.environment = s.environment && r.clientIdempotencyKey = s.clientIdempotencyKey)

/-- INSERT of a row of `infra_transactions`; its organisation is one of the transfer's. -/
def insertTransaction (row : TransactionRow) : BooksTx Unit := do
  let b ← get
  throwIf (tooLong 128 (some row.externalId) || tooLong 255 row.clientIdempotencyKey ||
    tooLong 64 (some row.requestFingerprint)) .valueTooLong
  throwIf (!(fits row.amount && fits row.fee)) .numericOverflow
  throwIf (b.transactions.any (row.clashes ·)) .uniqueViolation
  set { b with transactions := row :: b.transactions }

/-- INSERT of a fee record. -/
def insertFee (row : FeeRow) : BooksTx Unit := do
  let b ← get
  throwIf (tooLong 255 (some row.idempotencyKey)) .valueTooLong
  throwIf (!(fits row.feeAmount && fits row.transferAmount && fits row.customerDebitAmount))
    .numericOverflow
  throwIf (b.fees.any fun r => r.id = row.id || r.idempotencyKey = row.idempotencyKey)
    .uniqueViolation
  throwIf (b.hasOrg row.feeRevenueOrgId = false) .foreignKeyViolation
  set { b with fees := row :: b.fees }

/-- UPDATE of the movements of a fee record. -/
def updateFee (id : String) (posted : PostedPair) : BooksTx Unit :=
  modify fun b => { b with fees := b.fees.map fun r =>
    if r.id = id then
      { r with
        customerFeeMovementId := some posted.debit.id
        revenueMovementId := some posted.credit.id }
    else r }

/-- A key of the call, by its idempotency key or else by its transfer. -/
def Prepared.key (p : Prepared) (o : Outside) : String := p.idem.getD o.transferGroupId

def Prepared.debitKey (p : Prepared) (o : Outside) : String :=
  "internal_transfer:" ++ p.key o ++ ":debit"

def Prepared.creditKey (p : Prepared) (o : Outside) : String :=
  "internal_transfer:" ++ p.key o ++ ":credit"

def Prepared.feeKey (p : Prepared) (o : Outside) : String := "transfer:" ++ p.key o ++ ":fee"

/-- The text of an environment. -/
def envText : Environment → String
  | .test => "test"
  | .live => "live"

/-- The legs of the fee. -/
def feeParams (o : Outside) (p : Prepared) (payer revenue : String) : FeeParams where
  payerOrgId := payer
  revenueOrgId := revenue
  environment := envText p.environment
  amount := some (usdc p.quote.feeAmount)
  transferGroupId := o.transferGroupId
  payerReferenceId := o.senderTransactionId
  revenueReferenceId := o.feeId
  debitIdempotencyKey := p.feeKey o ++ ":debit"
  creditIdempotencyKey := p.feeKey o ++ ":revenue"

/-- A fee record and its two legs; the transfer it belongs to has been inserted. -/
def chargeFee (o : Outside) (p : Prepared) (payer revenueOrgId : String) : BooksTx String := do
  let revenue ← readUuid o revenueOrgId
  o.statement .insertFee (insertFee
    { id := o.feeId
      orgId := payer
      environment := p.environment
      transferGroupId := o.transferGroupId
      transactionId := o.senderTransactionId
      feeAmount := p.quote.feeAmount
      transferAmount := p.quote.transferAmount
      customerDebitAmount := p.quote.customerDebitAmount
      feeRevenueOrgId := revenue
      idempotencyKey := p.feeKey o
      customerFeeMovementId := none
      revenueMovementId := none })
  let posted ← o.statement .applyFee
    (onLedger (applyDayfiTransactionFee (feeParams o p payer revenue)))
  match posted with
  | none => return o.feeId
  | some pair => do
      o.statement .updateFee (updateFee o.feeId pair)
      return o.feeId

/-- The fee organisation is looked up on a connection of its own; the call has ensured it before
the transaction, so it writes nothing here.
Source: `infraFeeService.ts` `recordTransferFee`. -/
def recordTransferFee (o : Outside) (cfg : FeeSettings) (p : Prepared) (payer : String) :
    BooksTx (Option String) :=
  if p.quote.feeCharged = false then return none
  else do
    let existing ← o.statement .existingFee
      (return (← get).fees.find? (·.idempotencyKey = p.feeKey o))
    match existing with
    | some fee => return some fee.id
    | none => do
        let revenueOrgId ← ensureFeeRevenueOrg id o cfg
        return some (← chargeFee o p payer revenueOrgId)

/-- The legs of the principal. -/
def transferParams (o : Outside) (p : Prepared) (sender recipient : String) : TransferParams where
  senderOrgId := sender
  recipientOrgId := recipient
  environment := envText p.environment
  amount := some (usdc p.quote.transferAmount)
  asset := some "USDC"
  transferGroupId := o.transferGroupId
  debitIdempotencyKey := p.debitKey o
  creditIdempotencyKey := p.creditKey o
  senderReferenceId := o.senderTransactionId
  recipientReferenceId := o.recipientTransactionId

/-- UPDATE of a transfer with what was posted for it. -/
def updateTransfer (o : Outside) (row : TransferRow) (posted : PostedPair) (feeId : Option String) :
    BooksTx TransferRow := do
  let done : TransferRow :=
    { row with
      senderTransactionId := some o.senderTransactionId
      recipientTransactionId := some o.recipientTransactionId
      senderMovementId := some posted.debit.id
      recipientMovementId := some posted.credit.id
      feeId := feeId }
  modify fun b => { b with transfers := b.transfers.map fun r => if r.id = row.id then done else r }
  return done

/-- The transaction of a transfer. -/
def transferTx (o : Outside) (cfg : FeeSettings) (p : Prepared) : BooksTx TransferRow := do
  let row ← o.statement .insertTransfer (insertTransfer o p)
  o.statement .insertSenderTransaction (insertTransaction
    ⟨o.senderTransactionId, row.senderOrgId, p.environment, p.quote.transferAmount,
      p.quote.feeAmount, "internal-transfer:" ++ row.id ++ ":out", p.idem.map (· ++ ":out"),
      p.fingerprint⟩)
  o.statement .insertRecipientTransaction (insertTransaction
    ⟨o.recipientTransactionId, row.recipientOrgId, p.environment, p.quote.transferAmount,
      0, "internal-transfer:" ++ row.id ++ ":in", p.idem.map (· ++ ":in"), p.fingerprint⟩)
  let posted ← o.statement .transferBalance
    (onLedger (transferBody (transferParams o p row.senderOrgId row.recipientOrgId)))
  let feeId ← recordTransferFee o cfg p row.senderOrgId
  let done ← o.statement .updateTransfer (updateTransfer o row posted feeId)
  o.statement .commit (return done)

/-! ### The call -/

/-- What a call returns. -/
structure Presented where
  row : TransferRow
  duplicate : Bool
  senderBalance : Buckets ℚ
  recipientBalance : Buckets ℚ
  fee : Option FeeQuote
  deriving DecidableEq, Repr

/-- The quote a fee record answers for. -/
def FeeRow.quote (r : FeeRow) : FeeQuote := ⟨r.transferAmount, r.feeAmount, r.feeAmount⟩

/-- The balances of both sides and the fee, from its record or else as quoted.
Source: `infraInternalTransferService.ts` `presentTransfer`. -/
def presentTransfer (o : Outside) (row : TransferRow) (duplicate : Bool) : CallM Presented := do
  let senderBalance ← getOrgBalance o .balanceAfter row.senderOrgId row.environment
  let recipientBalance ← getOrgBalance o .balanceAfter row.recipientOrgId row.environment
  let stored ← Session.inTx (o.statement .storedFee
    (return (← get).fees.find? (·.transferGroupId = row.id)))
  return ⟨row, duplicate, senderBalance, recipientBalance, stored.map FeeRow.quote <|> row.fee⟩

/-- Source: `infraInternalTransferService.ts` `loadTransferByIdempotency`. -/
def loadTransferByIdempotency (o : Outside) (p : Prepared) (idem : String) :
    CallM (Option TransferRow) :=
  Session.inTx (o.statement .existing do
    let sender ← readUuid o p.senderOrgId
    return (← get).transfers.find? fun r => r.senderOrgId = sender ∧
      r.environment = p.environment ∧ r.idempotencyKey = some idem)

/-- The transfer made under the key already, if its request was the same. -/
def replayed (o : Outside) (p : Prepared) (existing : TransferRow) : CallM Presented := do
  Session.failIf (∃ f, orNull existing.requestFingerprint = some f ∧ f ≠ p.fingerprint)
    (.transfer .idempotencyConflict)
  presentTransfer o existing true

/-- The transfer made under the key already, or else what `fresh` does. -/
def replayedOr (o : Outside) (p : Prepared) (fresh : CallM Presented) : CallM Presented :=
  match p.idem with
  | none => fresh
  | some idem => do
      match ← loadTransferByIdempotency o p idem with
      | some existing => replayed o p existing
      | none => fresh

/-- Errors the call raised itself, or its ledger, are passed on; a unique violation is answered by
the transfer that has the key. -/
def recover (o : Outside) (p : Prepared) (e : TransferFailure) : CallM Presented :=
  if e.isUniqueViolation then replayedOr o p (throw e) else throw e

/-- The transaction, and the answer made of what it committed. -/
def runTransfer (o : Outside) (cfg : FeeSettings) (p : Prepared) : CallM Presented :=
  tryCatch (do
    let row ← Session.inTx (transferTx o cfg p)
    Session.failIf (o.fails .acknowledge = true) .fault
    presentTransfer o row false) (recover o p)

/-- With a fee to pay, the sender's balance must hold it and the principal. -/
def checkFeePayable (o : Outside) (cfg : FeeSettings) (p : Prepared) : CallM Unit :=
  if p.quote.feeCharged = false then return ()
  else do
    let _ ← ensureFeeRevenueOrg Session.inTx o cfg
    let senderBal ← getOrgBalance o .balance p.senderOrgId p.environment
    Session.reading fun _ => assertCustomerCanPay senderBal.available p.quote

/-- The request, checked; nothing is written. -/
def prepare (o : Outside) (cfg : FeeSettings) (i : TransferInput) (b : Books) :
    Except TransferFailure Prepared := do
  let env := normalizeEnv i.environment
  let minor ← parseUsdcToMinor i.amount
  refuseIf (minor ≤ 0) .invalidAmount
  refuseIf (normalizeAsset i.asset ≠ "USDC") .unsupportedAsset
  refuseIf ((orNull i.recipientEnvironment).any (normalizeEnv · ≠ env) = true) .crossEnvironment
  let recipientOrgId ← resolveRecipientOrgId o i b
  refuseIf (recipientOrgId = i.senderOrgId) .selfTransfer
  return {
    senderOrgId := i.senderOrgId
    recipientOrgId := recipientOrgId
    environment := env
    quote := i.quote cfg minor
    idem := i.idem
    fingerprint := o.fingerprint
      ⟨minor, env, recipientOrgId, getTransferSettlementMode cfg i.settlementMode⟩ }

/-- The `INTERNAL_LEDGER` mode, on a checked request. -/
def transferOnLedger (o : Outside) (cfg : FeeSettings) (p : Prepared) : CallM Presented := do
  checkFeePayable o cfg p
  Session.failIf (p.environment = .live ∧ p.idem = none) (.transfer .idempotencyRequired)
  replayedOr o p (runTransfer o cfg p)

/-- `onchain` is the `STELLAR_ONCHAIN` mode.
Source: `infraInternalTransferService.ts` `createInternalTransfer`. -/
def createInternalTransfer (o : Outside) (cfg : FeeSettings) (onchain : Prepared → CallM Presented)
    (i : TransferInput) : CallM Presented := do
  let p ← Session.reading (prepare o cfg i)
  match getTransferSettlementMode cfg i.settlementMode with
  | .stellarOnchain => onchain p
  | .internalLedger => transferOnLedger o cfg p

end DayfiBackend.Infra.InternalTransfer
