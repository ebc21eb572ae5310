import DayfiBackend.Found.Values
import DayfiBackend.Infra.Exact
import DayfiBackend.Infra.Store

/-!
# Reconciliation of a transaction

`reconcileTransaction` joins what the provider, the ledger and the settlement say about one
transaction. `observeProvider`, `observeLedger` and `observeSettlement` each report one leg,
`classify` turns the legs into a verdict.

* Tables are in the order of `created_at`. Amounts of rows are minor units of their columns.
* The display form `legs` repeats the legs and the outcome, and is left out.
-/

namespace DayfiBackend.Infra.Reconciliation

open DayfiBackend.Found.Binary64 DayfiBackend.Found.Keys DayfiBackend.Found.Values

/-! ### Rows -/

/-- The directions a transaction can have. -/
inductive Direction where
  | payment
  | payout
  | settlement
  | fee
  | other
  | deposit
  | internalTransfer
  deriving DecidableEq, Repr

/-- A row of `infra_transactions`. -/
structure TxRow where
  id : String
  orgId : String
  environment : String
  amount : ℤ
  status : String
  method : Option String
  direction : Direction
  externalId : Option String
  metadata : Members

/-- A row of `infra_ledger_movements`. -/
structure LedgerRow where
  id : String
  orgId : String
  environment : String
  referenceId : String
  movementType : String
  amount : ℤ
  asset : String
  deriving DecidableEq, Repr

/-- A row of `infra_settlements`. -/
structure SettlementRow where
  id : String
  orgId : String
  payoutTransactionId : Option String
  collectionTransactionId : Option String
  rail : String
  amount : ℤ
  status : String
  externalReference : Option String
  deriving DecidableEq, Repr

/-- A row of `infra_stellar_deposits`. -/
structure DepositRow where
  id : String
  orgId : String
  transactionId : Option String
  amount : ℤ
  status : String
  stellarTxHash : String
  deriving DecidableEq, Repr

/-- The tables that are read, and the mode `getInfraStellarFundingMode` returns. -/
structure Books where
  movements : List LedgerRow
  settlements : List SettlementRow
  deposits : List DepositRow
  fundingMode : FundingMode
  deriving DecidableEq, Repr

/-- `ORDER BY created_at DESC LIMIT 1`. -/
def latest {α : Type} (p : α → Bool) (rows : List α) : Option α := rows.reverse.find? p

/-! ### Amounts -/

/-- A number that is computed with. -/
inductive Amount where
  | finite (q : ℚ)
  | infinite
  deriving DecidableEq, Repr

/-- `Math.round(n * 1e7) / 1e7`. -/
def roundAmount (n : ℚ) : Amount :=
  if overflow ≤ |nearest (n * 10 ^ 7)| then .infinite else .finite (round7 n)

/-- Source: `infraReconciliationService.ts` `num`. -/
def num (v : Value) : Option Amount :=
  match v with
  | .null => none
  | .text "" => none
  | v => v.toNumber.map roundAmount

/-- `num` of the text of a `NUMERIC` column. -/
def columnAmount (c : ℤ) : Amount := .finite (toNumber c)

/-- The tolerance. -/
def eps : ℚ := nearest (1 / 10 ^ 6)

/-- Source: `infraReconciliationService.ts` `amountsEqual`. -/
def amountsEqual (a b : Option Amount) : Bool :=
  match a, b with
  | some (.finite a), some (.finite b) => |nearest (a - b)| ≤ eps
  | _, _ => false

/-! ### Reading a transaction -/

/-- Source: `infraReconciliationService.ts` `isProviderConfirmed`. -/
def isProviderConfirmed (status : Option String) : Bool :=
  (status.getD "").toLower ∈ ["settled", "completed", "success", "confirmed", "paid"]

/-- Source: `infraReconciliationService.ts` `isProviderFailed`. -/
def isProviderFailed (status : Option String) : Bool :=
  (status.getD "").toLower ∈ ["failed", "cancelled", "canceled", "rejected", "expired"]

/-- `tx.metadata.name`. -/
def TxRow.meta (tx : TxRow) (name : String) : Value := member tx.metadata name

/-- Source: `infraReconciliationService.ts` `expectedUsdc`. -/
def expectedUsdc (tx : TxRow) : Option Amount :=
  (num ((((tx.meta "usdcAmount").orElse (tx.meta "ledgerAmount")).orElse
    (tx.meta "settlementUsdc")).orElse (tx.meta "usdc_amount"))).or (some (columnAmount tx.amount))

/-- Source: `infraReconciliationService.ts` `isStellarNativeDeposit`. -/
def isStellarNativeDeposit (tx : TxRow) : Bool :=
  tx.direction = .deposit || (tx.meta "type").printOr = "stellar_deposit"

/-- Source: `infraReconciliationService.ts` `isInternalTransfer`. -/
def isInternalTransfer (tx : TxRow) : Bool :=
  tx.direction = .internalTransfer || (tx.meta "type").printOr = "internal_transfer" ||
    tx.method = some "internal_transfer"

/-- Source: `infraReconciliationService.ts` `isOnchainInternalTransfer`. -/
def isOnchainInternalTransfer (tx : TxRow) : Bool :=
  isInternalTransfer tx &&
    ((tx.meta "settlementMode").printOr = "STELLAR_ONCHAIN" ||
      upperCase (tx.meta "settlementRail").printOr = "STELLAR")

/-! ### The provider -/

/-- Source: `infraReconciliationService.ts` `ProviderLeg`. -/
structure ProviderLeg where
  present : Bool
  name : Option String
  reference : Option String
  status : Option String
  amount : Option Amount
  ok : Bool
  deriving DecidableEq, Repr

/-- Source: `infraReconciliationService.ts` `observeProvider`. -/
def observeProvider (tx : TxRow) : ProviderLeg :=
  if isStellarNativeDeposit tx || isInternalTransfer tx then
    { present := false, name := none, reference := none, status := some "not_applicable",
      amount := expectedUsdc tx, ok := true }
  else
    let name := ((tx.meta "provider").string?.or (tx.meta "settlementSource").string?).or
      ((orNull tx.externalId).map fun _ => "provider")
    let reference := ((tx.meta "providerEventId").string?.or (orNull tx.externalId)).or
      (tx.meta "sequenceId").string?
    let status := orNull (some tx.status.toLower)
    let present := reference.isSome || (tx.meta "providerEventId").truthy ||
      (tx.meta "settlementSource").truthy || isProviderConfirmed status || isProviderFailed status
    { present, name, reference, status, amount := expectedUsdc tx,
      ok := present && isProviderConfirmed status && !isProviderFailed status }

/-! ### The ledger -/

/-- Source: `infraReconciliationService.ts` `LedgerLeg`. -/
structure LedgerLeg where
  present : Bool
  movementId : Option String
  status : Option String
  amount : Option Amount
  asset : Option String
  ok : Bool
  deriving DecidableEq, Repr

/-- The latest movement of a type that refers to the transaction. -/
def movementOf (tx : TxRow) (b : Books) (movementType : String) : Option LedgerRow :=
  latest (fun m => m.orgId = tx.orgId && m.environment = tx.environment &&
    m.referenceId = tx.id && m.movementType = movementType) b.movements

/-- A movement that is found. -/
def LedgerLeg.found (row : LedgerRow) (status : String) (ok : Bool) : LedgerLeg :=
  { present := true, movementId := some row.id, status := some status,
    amount := some (columnAmount row.amount), asset := some (orDefault (some row.asset) "USDC"),
    ok }

/-- A movement that is not found. -/
def LedgerLeg.missing : LedgerLeg :=
  { present := false, movementId := none, status := some "MISSING", amount := none, asset := none,
    ok := false }

/-- The credit of a deposit or a payment, else what is pending for it. -/
def creditOrPending (tx : TxRow) (b : Books) (credit pending pendingStatus : String) : LedgerLeg :=
  match movementOf tx b credit with
  | some row => .found row "AVAILABLE" true
  | none =>
      match movementOf tx b pending with
      | some row => .found row pendingStatus false
      | none => .missing

/-- Source: `infraReconciliationService.ts` `observeLedger`. -/
def observeLedger (tx : TxRow) (b : Books) : LedgerLeg :=
  if isInternalTransfer tx then
    let movementType :=
      if (tx.meta "role").printOr = "recipient" then "internal_transfer_credit"
      else "internal_transfer_debit"
    match movementOf tx b movementType with
    | some row =>
        .found row
          (if movementType = "internal_transfer_credit" then "CREDITED" else "DEBITED") true
    | none => .missing
  else if tx.direction = .deposit || isStellarNativeDeposit tx then
    creditOrPending tx b "deposit_credit" "deposit_pending" "PENDING_DEPOSIT"
  else if tx.direction = .payment then
    creditOrPending tx b "collection_credit" "collection_pending" "PENDING_FUNDING"
  else
    match movementOf tx b "payout_settle" with
    | none =>
        let locked := (tx.meta "fundsLocked").isTrue || (tx.meta "funds_locked").isTrue ||
          (tx.meta "ledgerLockId").truthy
        let finalized := (tx.meta "fundsFinalized").isTrue || (tx.meta "funds_finalized").isTrue
        if tx.direction = .payout ∧ locked ∧ !finalized then
          { LedgerLeg.missing with
            status := some "LOCKED", amount := expectedUsdc tx, asset := some "USDC" }
        else .missing
    | some row => .found row (if tx.direction = .payment then "CREDITED" else "DEBITED") true

/-! ### The settlement -/

/-- Source: `infraReconciliationService.ts` `SettlementLeg`. -/
structure SettlementLeg where
  required : Bool
  applicable : Bool
  present : Bool
  settlementId : Option String
  rail : Option String
  status : Option String
  amount : Option Amount
  externalReference : Option String
  ok : Bool
  deriving DecidableEq, Repr

/-- No settlement is asked for. -/
def SettlementLeg.notApplicable : SettlementLeg :=
  { required := false, applicable := false, present := false, settlementId := none, rail := none,
    status := some "NOT_APPLICABLE", amount := none, externalReference := none, ok := true }

/-- A settlement that is asked for and not found. -/
def SettlementLeg.missing : SettlementLeg :=
  { required := true, applicable := true, present := false, settlementId := none,
    rail := some "STELLAR", status := some "MISSING", amount := none, externalReference := none,
    ok := false }

/-- A payout that goes through the treasury to a provider. -/
def isOffRampPayout (tx : TxRow) : Bool :=
  (tx.meta "offRamp").isTrue && tx.direction = .payout

/-- The settlements of a payout. -/
def legsOf (tx : TxRow) (b : Books) : List SettlementRow :=
  b.settlements.filter fun s => s.payoutTransactionId = some tx.id && s.orgId = tx.orgId

/-- The leg of an off-ramp payout to the treasury. -/
def stellarLeg (tx : TxRow) (b : Books) : Option SettlementRow :=
  (legsOf tx b).find? fun l => upperCase l.rail = "STELLAR"

/-- The leg of an off-ramp payout from the provider. -/
def providerLeg (tx : TxRow) (b : Books) : Option SettlementRow :=
  (legsOf tx b).find? fun l => upperCase l.rail ∈ ["YELLOW_CARD", "PROVIDER"]

/-- `String(leg?.status || '').toLowerCase() === status`. -/
def hasStatus (leg : Option SettlementRow) (status : String) : Bool :=
  ((leg.map (·.status)).getD "").toLower = status

/-- The off-ramp case of `observeSettlement`. -/
def observeOffRamp (tx : TxRow) (b : Books) : SettlementLeg :=
  let stellar := stellarLeg tx b
  let provider := providerLeg tx b
  let stellarOk := hasStatus stellar "confirmed"
  let providerOk := hasStatus provider "confirmed"
  let providerFailed := hasStatus provider "failed"
  let status :=
    if stellarOk && providerOk then "CONFIRMED"
    else if providerFailed && stellarOk then "PROVIDER_ACTION_REQUIRED"
    else if stellarOk then "SETTLEMENT_PENDING"
    else match stellar with
      | some s => upperCase (orDefault (some s.status) "PENDING")
      | none => "MISSING"
  { required := true, applicable := true, present := stellar.isSome || provider.isSome,
    settlementId := (stellar.map (·.id)).or (provider.map (·.id)),
    rail := some "STELLAR+PROVIDER", status := some status,
    amount := stellar.map fun s => columnAmount s.amount,
    externalReference := (orNull (stellar.bind (·.externalReference))).or
      (orNull (provider.bind (·.externalReference))),
    ok := stellarOk && providerOk }

/-- The settlement that is looked up for a transaction. -/
def settlementOf (tx : TxRow) (b : Books) : Option SettlementRow :=
  (latest (fun s => s.payoutTransactionId = some tx.id && s.orgId = tx.orgId) b.settlements).or
    (if tx.direction = .payment || isOnchainInternalTransfer tx then
      latest (fun s => s.collectionTransactionId = some tx.id &&
        (s.orgId = tx.orgId || isOnchainInternalTransfer tx)) b.settlements
    else none)

/-- The credited deposit of a transaction. -/
def depositOf (tx : TxRow) (b : Books) : Option DepositRow :=
  latest (fun d => d.transactionId = some tx.id && d.orgId = tx.orgId) b.deposits

/-- A deposit that is looked up. -/
def observeDeposit (deposit : Option DepositRow) : SettlementLeg :=
  match deposit with
  | some d =>
      { required := true, applicable := true, present := true, settlementId := some d.id,
        rail := some "STELLAR",
        status := some (if d.status.toLower = "confirmed" then "CONFIRMED"
          else upperCase d.status.toLower),
        amount := some (columnAmount d.amount), externalReference := some d.stellarTxHash,
        ok := d.status.toLower = "confirmed" }
  | none => .missing

/-- The metadata mentions a payment on Stellar. -/
def hasStellarMeta (tx : TxRow) : Bool :=
  let walletFunding := ((tx.meta "walletFunding").or (.structured "" [])).members
  (tx.meta "stellarTransactionHash").truthy || (tx.meta "settlementId").truthy ||
    (member walletFunding "stellarTransactionHash").truthy ||
    (member walletFunding "settlementId").truthy ||
    upperCase (tx.meta "settlementRail").printOr = "STELLAR"

/-- The funding of a payment is expected. -/
def collectionFundingExpected (tx : TxRow) (b : Books) : Bool :=
  let walletFunding := ((tx.meta "walletFunding").or (.structured "" [])).members
  tx.direction = .payment &&
    (b.fundingMode ≠ .off || (settlementOf tx b).isSome || (member walletFunding "mode").truthy ||
      (member walletFunding "status").truthy)

/-- A payout to Stellar. -/
def isStellarPayout (tx : TxRow) : Bool :=
  let method := (tx.method.getD "").toLower
  let network := (((tx.meta "network").or (tx.meta "cryptoNetwork")).printOr).toLower
  tx.direction = .payout &&
    (method = "crypto" || network = "stellar" || includes network "stellar")

/-- A settlement is asked for. -/
def settlementRequired (tx : TxRow) (b : Books) : Bool :=
  (settlementOf tx b).isSome || hasStellarMeta tx || collectionFundingExpected tx b ||
    isStellarPayout tx

/-- Source: `infraReconciliationService.ts` `observeSettlement`. -/
def observeSettlement (tx : TxRow) (b : Books) : SettlementLeg :=
  if isInternalTransfer tx && !isOnchainInternalTransfer tx then .notApplicable
  else if isOffRampPayout tx then observeOffRamp tx b
  else
    let settlement := settlementOf tx b
    if settlement = none ∧ (tx.direction = .deposit || isStellarNativeDeposit tx) then
      observeDeposit (depositOf tx b)
    else if !settlementRequired tx b then .notApplicable
    else if collectionFundingExpected tx b ∧ tx.direction = .payment ∧ settlement = none then
      .missing
    else
      match settlement with
      | none => .missing
      | some s =>
          { required := true, applicable := true, present := true, settlementId := some s.id,
            rail := some s.rail, status := some (upperCase s.status.toLower),
            amount := some (columnAmount s.amount), externalReference := s.externalReference,
            ok := s.status.toLower = "confirmed" }

/-! ### The verdict -/

/-- Source: `infraReconciliationService.ts` `ReconItemStatus`. -/
inductive ReconItemStatus where
  | reconciled
  | mismatch
  | incomplete
  | skipped
  deriving DecidableEq, Repr

/-- Source: `infraReconciliationService.ts` `ReconResultCode`. -/
inductive ReconResultCode where
  | reconciled
  | amountMismatch
  | statusMismatch
  | assetMismatch
  | missingProvider
  | missingLedger
  | missingSettlement
  | providerFailed
  | settlementFailed
  | settlementPending
  | ledgerPending
  | incomplete
  deriving DecidableEq, Repr

/-- The text of a code. -/
def ReconResultCode.text : ReconResultCode → String
  | .reconciled => "RECONCILED"
  | .amountMismatch => "AMOUNT_MISMATCH"
  | .statusMismatch => "STATUS_MISMATCH"
  | .assetMismatch => "ASSET_MISMATCH"
  | .missingProvider => "MISSING_PROVIDER"
  | .missingLedger => "MISSING_LEDGER"
  | .missingSettlement => "MISSING_SETTLEMENT"
  | .providerFailed => "PROVIDER_FAILED"
  | .settlementFailed => "SETTLEMENT_FAILED"
  | .settlementPending => "SETTLEMENT_PENDING"
  | .ledgerPending => "LEDGER_PENDING"
  | .incomplete => "INCOMPLETE"

/-- What `classify` returns. -/
structure Outcome where
  status : ReconItemStatus
  resultCode : ReconResultCode
  mismatches : List ReconResultCode
  note : Option String
  deriving DecidableEq, Repr

/-- What the provider leg adds to the mismatches. -/
def providerMismatches (provider : ProviderLeg) (skipProvider : Bool) : List ReconResultCode :=
  if skipProvider then []
  else if isProviderFailed provider.status then [.providerFailed]
  else if !provider.present then [.missingProvider]
  else if !isProviderConfirmed provider.status then [.statusMismatch]
  else []

/-- What the ledger leg adds. -/
def ledgerMismatches (ledger : LedgerLeg) : List ReconResultCode :=
  if !ledger.present then
    if ledger.status = some "LOCKED" ∨ ledger.status = some "PENDING_DEPOSIT" then [.ledgerPending]
    else [.missingLedger]
  else if ledger.status = some "PENDING_DEPOSIT" ∨ ledger.status = some "PENDING_FUNDING" then
    [.ledgerPending]
  else []

/-- What the settlement leg adds. -/
def settlementMismatches (settlement : SettlementLeg) : List ReconResultCode :=
  if settlement.applicable ∧ settlement.required then
    if !settlement.present then [.missingSettlement]
    else
      let st := (settlement.status.getD "").toLower
      if st ∈ ["failed", "cancelled", "rejected"] then [.settlementFailed]
      else if st = "provider_action_required" then [.settlementFailed]
      else if st = "pending_treasury" then [.settlementPending]
      else if st ∈ ["pending", "submitted", "detected", "verified", "pending_ledger",
          "settlement_pending"] then [.settlementPending]
      else if !settlement.ok then [.statusMismatch]
      else []
  else []

/-- The amounts that are compared. -/
def presentAmounts (provider : ProviderLeg) (ledger : LedgerLeg) (settlement : SettlementLeg)
    (expectedAmount : Option Amount) : List Amount :=
  expectedAmount.toList ++ (if provider.present then provider.amount.toList else []) ++
    (if ledger.present then ledger.amount.toList else []) ++
    (if settlement.applicable ∧ settlement.present then settlement.amount.toList else [])

/-- What the amounts add. -/
def amountMismatches (amounts : List Amount) : List ReconResultCode :=
  match amounts with
  | base :: rest =>
      if rest ≠ [] ∧ amounts.any (fun a => !amountsEqual (some a) (some base)) then
        [.amountMismatch]
      else []
  | [] => []

/-- What the asset of the movement adds. -/
def assetMismatches (ledger : LedgerLeg) : List ReconResultCode :=
  if ledger.present ∧ (orNull ledger.asset).any (fun a => upperCase a ≠ "USDC") then
    [.assetMismatch]
  else []

/-- The codes, the most telling first. -/
def priority : List ReconResultCode :=
  [.amountMismatch, .assetMismatch, .providerFailed, .settlementFailed, .missingProvider,
    .missingLedger, .missingSettlement, .settlementPending, .ledgerPending, .statusMismatch,
    .incomplete]

/-- The codes of a transaction that is not complete yet. -/
def incompleteCodes : List ReconResultCode :=
  [.missingProvider, .missingLedger, .missingSettlement, .settlementPending, .ledgerPending,
    .incomplete]

/-- Source: `infraReconciliationService.ts` `classify`. -/
def classify (provider : ProviderLeg) (ledger : LedgerLeg) (settlement : SettlementLeg)
    (expectedAmount : Option Amount) (skipProvider : Bool) : Outcome :=
  let mismatches := providerMismatches provider skipProvider ++ ledgerMismatches ledger ++
    settlementMismatches settlement ++
    amountMismatches (presentAmounts provider ledger settlement expectedAmount) ++
    assetMismatches ledger
  let unique := mismatches.eraseDups
  if unique = [] then
    { status := .reconciled, resultCode := .reconciled, mismatches := [], note := none }
  else
    let resultCode := (priority.find? (· ∈ unique)).getD .incomplete
    { status := if resultCode ∈ incompleteCodes then .incomplete else .mismatch
      resultCode
      mismatches := unique
      note := some (String.intercalate ", " (unique.map (·.text))) }

/-- Source: `infraReconciliationService.ts` `ReconCheckResult`. -/
structure ReconCheckResult where
  transactionId : String
  direction : Direction
  status : ReconItemStatus
  resultCode : ReconResultCode
  asset : String
  expectedAmount : Option Amount
  provider : ProviderLeg
  ledger : LedgerLeg
  settlement : SettlementLeg
  mismatches : List ReconResultCode
  note : Option String
  deriving DecidableEq, Repr

/-- Source: `infraReconciliationService.ts` `reconcileTransaction`. -/
def reconcileTransaction (tx : TxRow) (b : Books) : ReconCheckResult :=
  let provider := observeProvider tx
  let ledger := observeLedger tx b
  let settlement := observeSettlement tx b
  let expectedAmount := expectedUsdc tx
  let outcome := classify provider ledger settlement expectedAmount
    (isStellarNativeDeposit tx || isInternalTransfer tx)
  let direction :=
    if tx.direction = .payout then .payout
    else if tx.direction = .deposit || isStellarNativeDeposit tx then .deposit
    else if isInternalTransfer tx then .internalTransfer
    else .payment
  { transactionId := tx.id, direction, status := outcome.status, resultCode := outcome.resultCode,
    asset := "USDC", expectedAmount, provider, ledger, settlement,
    mismatches := outcome.mismatches, note := outcome.note }

end DayfiBackend.Infra.Reconciliation
