import DayfiBackend.Infra.Store

/-!
# The money lifecycle: collections, payout locks, webhooks

Collect: a verified settlement event credits the organisation, in available or, when its Stellar
wallet has to be funded first, in pending. Send: a payout locks funds, and then either finalizes
the locked debit or releases the lock. Each call reads the transaction, posts on the ledger, and
patches the transaction; nothing holds the row in between.
-/

namespace DayfiBackend.Infra

open DayfiBackend.Found DayfiBackend.Found.Binary64 DayfiBackend.Found.Keys

/-! ### Reading a transaction -/

/-- Source: `infraLifecycleService.ts` `metaUsdc`. -/
def metaUsdc (row : TxRow) : Option ℚ :=
  (row.metadata.usdcAmount <|> row.metadata.ledgerAmount <|> row.metadata.settlementUsdc).filter
    (0 < ·)

/-- Source: `infraLifecycleService.ts` `resolveUsdcAmount`. -/
def resolveUsdcAmount (amount : ℚ) (currency : String) : Call ℚ :=
  let cur := (orDefault (some currency) "USDC").toUpper
  if cur = "USDC" ∨ cur = "USD" then return round7 amount
  else do
    let usdAmount ← sql (.convertAmountToUsd amount cur)
    return round7 (nearest usdAmount)

/-- The USDC amount of a transaction: the recorded one, or a quote. -/
def usdcAmountOf (row : TxRow) : Call ℚ :=
  match metaUsdc row with
  | some usdcAmount => return usdcAmount
  | none => resolveUsdcAmount (nearest row.amount) row.currency

/-- Load a transaction of one direction, or fail. -/
def loadDirected (direction : TxDirection) (transactionId : ℕ) (orgId : Option String) :
    Call TxRow := do
  match ← sql (.loadTx transactionId orgId) with
  | none => throw .notFound
  | some row => if row.direction = direction then return row else throw .wrongDirection

/-! ### Payouts -/

/-- What `lockPayoutFunds` records. -/
def lockedPatch (usdcAmount : ℚ) (lockId : ℕ) (m : Meta) : Meta :=
  { m with usdcAmount := some usdcAmount, fundsLocked := true, ledgerLockId := some lockId }

/-- What `finalizePayoutDebit` records. -/
def finalizedPatch (finalizeId : ℕ) (m : Meta) : Meta :=
  { m with fundsLocked := false, fundsFinalized := true, ledgerFinalizeId := some finalizeId }

/-- What `releasePayoutLock` records. -/
def releasedPatch (releaseId : ℕ) (m : Meta) : Meta :=
  { m with fundsLocked := false, fundsReleased := true, ledgerReleaseId := some releaseId }

/-- Reserve USDC for a payout (available to locked). Only bills pass the optional amount.
Source: `infraLifecycleService.ts` `lockPayoutFunds`. -/
def lockPayoutFunds (orgId : String) (transactionId : ℕ) : Call ℚ := do
  let row ← loadDirected .payout transactionId (some orgId)
  let usdcAmount ← usdcAmountOf row
  let lock ← sql (.payout .lock row usdcAmount)
  sql (.patchTx row.id (some row.status) (lockedPatch usdcAmount lock.movement.id))
  let _ ← sql (.getOrgBalance row.orgId (asEnv row.environment))
  return usdcAmount

/-- Provider success: consume locked USDC.
Source: `infraLifecycleService.ts` `finalizePayoutDebit`. -/
def finalizePayoutDebit (orgId : Option String) (transactionId : ℕ) : Call Posted := do
  let row ← loadDirected .payout transactionId orgId
  if row.metadata.fundsReleased then throw .alreadyReleased
  else
    match metaUsdc row with
    | none => throw .noUsdcAmount
    | some usdcAmount => do
        let finalize ← sql (.payout .finalize row usdcAmount)
        sql (.patchTx row.id (some "settled") (finalizedPatch finalize.movement.id))
        let _ ← sql (.getOrgBalance row.orgId (asEnv row.environment))
        return finalize

/-- Provider failure: return locked USDC to available.
Source: `infraLifecycleService.ts` `releasePayoutLock`. -/
def releasePayoutLock (orgId : Option String) (transactionId : ℕ) : Call Posted := do
  let row ← loadDirected .payout transactionId orgId
  if row.metadata.fundsFinalized then throw .alreadyFinalized
  else
    match metaUsdc row with
    | none => throw .noUsdcAmount
    | some usdcAmount => do
        let release ← sql (.payout .release row usdcAmount)
        sql (.patchTx row.id (some "failed") (releasedPatch release.movement.id))
        let _ ← sql (.getOrgBalance row.orgId (asEnv row.environment))
        return release

/-! ### Collections -/

/-- The funding of a collection is confirmed: its pending amount becomes available. The funding
row was made for this collection, so it has the organisation and environment of `row`.
Source: `infraStellarFundingService.ts` `confirmCollectionFunding`. -/
def confirmCollectionFunding (row : TxRow) (funding : FundingRow) (hash : Option String) :
    Call Unit := do
  sql (.updateFundings (fun r => r.id = funding.id) fun r =>
    { r with status := .confirmed, externalReference := hash <|> r.externalReference })
  let _ ← sql (.loadFunding funding.id)
  sql (.patchTx row.id none id)
  let _ ← sql (.collection .available row (num funding.amount))
  sql (.patchTx row.id (some "settled") id)

/-- The idempotency key of the funding of a collection. -/
def fundingKey (collectionId : ℕ) : String :=
  "stellar:funding:collection:" ++ toString collectionId

/-- A new funding of a collection. -/
def newFunding (row : TxRow) (amount : ℚ) (status : FundingStatus) (key : String) : FundingRow :=
  ⟨0, row.orgId, row.id, toNumeric amount, status, key, none⟩

/-- The treasury does not hold the amount: the funding, found or new, waits for it. -/
def awaitTreasury (existing : Option FundingRow) (row : TxRow) (amount : ℚ) (key : String) :
    Call Unit := do
  match existing with
  | none => do
      let _ ← sql (.insertFunding (newFunding row amount .pendingTreasury key))
  | some funding => do
      sql (.updateFundings (fun r => r.id = funding.id) fun r =>
        { r with status := .pendingTreasury })
      let _ ← sql (.loadFunding funding.id)
  sql (.patchTx row.id none id)

/-- The funding found, or a new one. -/
def ensureFunding (existing : Option FundingRow) (row : TxRow) (amount : ℚ) (key : String) :
    Call FundingRow :=
  match existing with
  | some funding => return funding
  | none => sql (.insertFunding (newFunding row amount .pending key))

/-- A payment of the treasury; any exception counts as a failure. -/
def submitUsdcPayment (row : TxRow) (amount : ℚ) : Call SubmitOutcome :=
  tryCatch (sql (.submitFunding row amount)) fun _ => return .threw

/-- The treasury pays the funding, and the payment is confirmed or left submitted. The hash of the
payment is only tested for presence. -/
def payFunding (row : TxRow) (funding : FundingRow) (amount : ℚ) : Call Bool := do
  match ← submitUsdcPayment row amount with
  | .threw => do
      sql (.updateFundings (fun r => r.id = funding.id) fun r => { r with status := .failed })
      sql (.patchTx row.id none id)
      throw .railFailed
  | .accepted confirmed => do
      let hash := some ("stellar-tx:" ++ toString row.id)
      sql (.updateFundings (fun r => r.id = funding.id) fun r =>
        { r with status := .submitted, externalReference := hash })
      let funding ← sql (.loadFunding funding.id)
      if confirmed then do
        confirmCollectionFunding row funding hash
        return true
      else
        match ← sql .verifyPayment with
        | .confirmed => do
            confirmCollectionFunding row funding hash
            return true
        | _ => do
            sql (.patchTx row.id none id)
            return false

/-- Whether the treasury holds the amount; only the live mode asks. -/
def treasuryCovers (mode : FundingMode) (amount : ℚ) : Call Bool :=
  if mode = .live then do
    -- the network, and the treasury's signing key
    sql .external
    sql (.treasuryCovers amount)
  else return true

/-- Pay the collection out to the organisation's Stellar wallet, and make its pending amount
available once that is confirmed; whether it was.
Source: `infraStellarFundingService.ts` `fundCollectionStellarWallet`. -/
def fundCollectionStellarWallet (row : TxRow) (usdcAmount : ℚ) : Call Bool := do
  let mode ← sql (.fundingMode row)
  if mode = .off then return false
  else do
    let amount := round7 (nearest usdcAmount)
    if amount ≤ 0 then throw .invalidInput
    else do
      let key := fundingKey row.id
      let existing ← sql (.findFunding row.orgId key)
      if existing.any (fun r => r.status = .confirmed && r.externalReference.isSome) then
        return true
      else if existing.any (·.status = .pendingTreasury) then return false
      else do
        -- the organisation's wallet, provisioned when there is none
        sql .external
        sql (.patchTx row.id none id)
        let covered ← treasuryCovers mode amount
        if covered = false then do
          awaitTreasury existing row amount key
          return false
        else do
          let funding ← ensureFunding existing row amount key
          payFunding row funding amount

/-- Verified collection settlement: pending or available USDC.
Source: `infraLifecycleService.ts` `settleCollectionCredit`. -/
def settleCollectionCredit (orgId : String) (transactionId : ℕ) : Call Posted := do
  let row ← loadDirected .payment transactionId (some orgId)
  let alreadySettled := row.status.toLower ∈ ["settled", "completed", "success"]
  let usdcAmount ← usdcAmountOf row
  let fundingMode ← sql (.fundingMode row)
  let usesWalletFunding := fundingMode ≠ .off
  let credit ← sql (.collection (if usesWalletFunding then .pending else .credit) row usdcAmount)
  sql (.patchTx row.id
    (some (if alreadySettled then row.status
      else if usesWalletFunding then "processing" else "settled"))
    fun m => { m with usdcAmount := some usdcAmount, ledgerCreditId := some credit.movement.id })
  if usesWalletFunding then do
    -- a failure of the funding is reported, not thrown
    let _ ← tryCatch (fundCollectionStellarWallet row usdcAmount) fun _ => return false
    let _ ← sql (.getOrgBalance row.orgId (asEnv row.environment))
    return credit
  else do
    let _ ← sql (.getOrgBalance row.orgId (asEnv row.environment))
    return credit

/-! ### Webhooks -/

inductive ProviderStatus where
  | success
  | failed
  | pending
  deriving DecidableEq, Repr

/-- Source: `yellowCardStatus.ts` `mapYellowCardProviderStatus`. -/
def mapYellowCardProviderStatus (status : String) : ProviderStatus :=
  let s := String.ofList ((trim status).toLower.toList.map fun c => if c = '_' then '-' else c)
  if s = "" then .pending
  else if s = "complete" || s = "completed" || includes s "settlement-complete" then .success
  else if ["fail", "reject", "cancel", "declin", "expired"].any (includes s) then .failed
  else if ["complete", "success", "settled"].any (includes s) || s = "paid" then .success
  else .pending

/-- Source: `yellowCardWebhook.ts` `YellowCardWebhookPayload`. -/
structure YellowCardWebhookPayload where
  id : Option String := none
  sequenceId : Option String := none
  status : Option String := none
  event : Option String := none
  deriving DecidableEq, Repr

/-- Source: `yellowCardWebhook.ts` `resolveWalletStatusFromYellowCardWebhook`. -/
def resolveWalletStatusFromYellowCardWebhook (payload : YellowCardWebhookPayload) :
    Option ProviderStatus :=
  match orNull payload.status with
  | some status => some (mapYellowCardProviderStatus status)
  | none =>
      let event := (trim (payload.event.getD "")).toUpper
      if endsWith event ".COMPLETE" then some .success
      else if endsWith event ".FAILED" || endsWith event ".EXPIRED" then some .failed
      else if includes event "PENDING" || includes event "PROCESS" then some .pending
      else none

/-- Source: `yellowCardWebhook.ts` `isYellowCardReceiveWebhookEvent`. -/
def isYellowCardReceiveWebhookEvent (event : String) : Bool :=
  startsWith event.toUpper "COLLECTION." || startsWith event.toUpper "RECEIVE."

/-- What a webhook handler reports. -/
inductive WebhookAction where
  | unhandled
  | collectionCredit
  | collectionAlreadySettled
  | collectionFailed
  | collectionPending
  | payoutAlreadyReleased
  | payoutAlreadyFinalized
  | payoutFinalize
  | payoutRelease
  | payoutPending
  | offrampAwaitingStellar
  | offrampProviderRetryRequired
  | invalidAmount
  | amountMismatch
  deriving DecidableEq, Repr

/-- The payout half of the Yellow Card webhook. -/
def applyPayoutWebhook (row : TxRow) (mapped : Option ProviderStatus) : Call WebhookAction :=
  match mapped with
  | some .success =>
      if row.metadata.fundsReleased then return .payoutAlreadyReleased
      else if row.metadata.offRamp && !row.metadata.stellarConfirmed then
        return .offrampAwaitingStellar
      else do
        let released ← tryCatch
          (do let _ ← finalizePayoutDebit none row.id; return false) fun e =>
            if e = .alreadyReleased then return true else throw e
        if released then return .payoutAlreadyReleased
        else if row.metadata.offRamp then do
          sql (.updateSettlements (fun r => r.payoutId = row.id && r.rail = .yellowCard)
            fun r => { r with status := .confirmed })
          sql (.patchTx row.id (some "settled") id)
          return .payoutFinalize
        else return .payoutFinalize
  | some .failed =>
      if row.metadata.fundsFinalized then return .payoutAlreadyFinalized
      else if row.metadata.offRamp && row.metadata.stellarConfirmed then do
        -- after the treasury received the USDC a provider failure must not unlock it
        sql (.patchTx row.id (some "processing") id)
        sql (.updateSettlements (fun r => r.payoutId = row.id && r.rail = .yellowCard &&
            (r.status = .pending || r.status = .submitted))
          fun r => { r with status := .failed })
        return .offrampProviderRetryRequired
      else do
        let finalized ← tryCatch
          (do let _ ← releasePayoutLock none row.id; return false) fun e =>
            if e = .alreadyFinalized then return true else throw e
        return if finalized then .payoutAlreadyFinalized else .payoutRelease
  | _ => return .payoutPending

/-- The collection half of the Yellow Card webhook. -/
def applyCollectionWebhook (row : TxRow) (mapped : Option ProviderStatus) : Call WebhookAction :=
  match mapped with
  | some .success => do
      let _ ← settleCollectionCredit row.orgId row.id
      return .collectionCredit
  | some .failed =>
      if row.status.toLower ∈ ["settled", "completed", "success"] then
        return .collectionAlreadySettled
      else do
        sql (.patchTx row.id (some "failed") id)
        return .collectionFailed
  | _ => return .collectionPending

/-- Apply a verified Yellow Card webhook.
Source: `infraLifecycleService.ts` `applyInfraYellowCardWebhook`. -/
def applyInfraYellowCardWebhook (payload : YellowCardWebhookPayload) : Call WebhookAction :=
  let sequenceId := trim (orDefault payload.sequenceId (payload.id.getD ""))
  if sequenceId = "" then return .unhandled
  else do
    match ← sql (.loadTxByExternalId sequenceId) with
    | none => return .unhandled
    | some row =>
        let mapped := resolveWalletStatusFromYellowCardWebhook payload
        match row.direction with
        | .payment => applyCollectionWebhook row mapped
        | .payout =>
            if isYellowCardReceiveWebhookEvent (trim (payload.event.getD "")) then
              return .unhandled
            else applyPayoutWebhook row mapped

/-- The parts of a Flutterwave `charge.completed` that are read; `txRef` is the first of the
reference fields that is present. -/
structure FlutterwavePayload where
  txRef : String
  amount : Option ℚ
  currency : Option String
  deriving DecidableEq, Repr

/-- Match a Flutterwave charge to a collection by its reference.
Source: `infraLifecycleService.ts` `applyInfraFlutterwaveWebhook`. -/
def applyInfraFlutterwaveWebhook (payload : FlutterwavePayload) : Call WebhookAction :=
  let txRef := trim payload.txRef
  if txRef = "" then return .unhandled
  else do
    match ← sql (.loadTxByExternalId txRef) with
    | none => return .unhandled
    | some row =>
        if row.direction ≠ .payment ∨ row.metadata.rail ≠ some "flutterwave" ∨
            (orDefault payload.currency (orDefault (some row.currency) "NGN")).toUpper ≠ "NGN" then
          return .unhandled
        else
          match payload.amount with
          | none => return .invalidAmount
          | some amount =>
              if nearest amount ≤ 0 then return .invalidAmount
              else if 1 < |nearest (nearest amount - nearest row.amount)| then do
                sql (.patchTx row.id (some row.status) id)
                return .amountMismatch
              else if row.status.toLower ∈ ["settled", "completed", "success"] then
                return .collectionAlreadySettled
              else do
                let _ ← settleCollectionCredit row.orgId row.id
                return .collectionCredit

/-- Source: `infraMoneyService.ts` `simulateSettlement`. -/
def simulateSettlement (orgId env : String) (transactionId : ℕ) : Call Posted :=
  if env ≠ "test" then throw .invalidInput
  else do
    match ← sql (.loadTx transactionId (some orgId)) with
    | none => throw .notFound
    | some row =>
        if row.environment ≠ "test" then throw .notFound
        else if row.status.toLower ∈ ["failed", "cancelled", "expired"] then throw .invalidInput
        else
          match row.direction with
          | .payment => settleCollectionCredit orgId row.id
          | .payout => finalizePayoutDebit (some orgId) row.id

end DayfiBackend.Infra
