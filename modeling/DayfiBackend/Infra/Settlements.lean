import DayfiBackend.Infra.Lifecycle

/-!
# Settling a locked payout

`settlePayoutOnStellar` pays a crypto payout on Stellar. `settleFiatOfframp` pays a bank or mobile
payout in two legs: the organisation's wallet pays the treasury on Stellar, then the provider is
asked to pay the beneficiary. Both decide from the metadata of the payout whether its funds are
locked, and both release the lock when a Stellar payment fails.

A transaction hash is only tested for presence.
-/

namespace DayfiBackend.Infra

open DayfiBackend.Found DayfiBackend.Found.Binary64 DayfiBackend.Found.Keys

/-! ### Rows -/

/-- Source: `infraSettlementService.ts`, `infraFiatWithdrawalService.ts` `loadPayout`. -/
def loadPayout (orgId : String) (payoutId : ℕ) : Call TxRow := do
  match ← sql (.loadTx payoutId (some orgId)) with
  | none => throw .notFound
  | some row => if row.direction = .payout then return row else throw .notFound

/-- Source: `infraSettlementService.ts` `loadSettlement`. -/
def loadSettlement (orgId : String) (settlementId : ℕ) : Call SettlementRow := do
  match ← sql (.loadSettlement orgId settlementId) with
  | none => throw .notFound
  | some row => return row

/-- Update one settlement. -/
def updateSettlement (id : ℕ) (f : SettlementRow → SettlementRow) : Call Unit :=
  sql (.updateSettlements (fun r => r.id = id) f)

/-- The settlement found, or a new pending one. -/
def ensureSettlement (existing : Option SettlementRow) (payout : TxRow) (rail : Rail)
    (key : String) : Call SettlementRow :=
  match existing with
  | some settlement => return settlement
  | none => sql (.insertSettlement ⟨0, payout.orgId, payout.id, rail, .pending, key, none, none⟩)

/-- The hash of the transaction that pays a payout. -/
def transactionHash (payoutId : ℕ) : String := "stellar-tx:" ++ toString payoutId

/-- A Stellar payment; any exception counts as a failure. -/
def submitOnStellar (payout : TxRow) : Call SubmitOutcome :=
  tryCatch (sql (.submitPayment payout)) fun _ => return .threw

/-- A settlement failed: so is the row, and the lock is released. -/
def failSettlement (orgId : String) (settlementId payoutId : ℕ) : Call Unit := do
  updateSettlement settlementId fun r => { r with status := .failed }
  let _ ← releasePayoutLock (some orgId) payoutId

/-! ### Crypto payouts -/

/-- The amount the metadata records is positive. -/
def Meta.hasAmount (m : Meta) : Bool := m.usdcAmount.any (0 < ·)

/-- What `settlePayoutOnStellar` takes as proof that the funds are locked. -/
def Meta.lockedOnStellar (m : Meta) : Bool :=
  m.ledgerLockId.isSome || m.fundsLocked ||
    (m.hasAmount && !m.fundsReleased && !m.fundsFinalized)

/-- Source: `infraSettlementService.ts` `confirmAndFinalize`. -/
def confirmAndFinalize (orgId : String) (settlement : SettlementRow) (hash : Option String) :
    Call Unit := do
  updateSettlement settlement.id fun r =>
    { r with status := .confirmed, externalReference := hash <|> r.externalReference }
  let _ ← finalizePayoutDebit (some orgId) settlement.payoutId
  sql (.patchTx settlement.payoutId none id)
  let _ ← loadSettlement orgId settlement.id

/-- A settlement that was confirmed, or whose submitted payment turns out to be. -/
def settledBefore (orgId : String) (existing : Option SettlementRow) : Call Bool :=
  match existing with
  | none => return false
  | some settlement =>
      if settlement.status = .confirmed then return true
      else if settlement.status = .submitted ∧ settlement.externalReference.isSome then do
        match ← sql .verifyPayment with
        | .confirmed => do
            confirmAndFinalize orgId settlement settlement.externalReference
            return true
        | _ => return false
      else return false

/-- Verify a payment whose submission did not confirm it. -/
def verifySubmitted (orgId : String) (settlement : SettlementRow) (hash : Option String)
    (payoutId : ℕ) : Call Unit := do
  match ← sql .verifyPayment with
  | .confirmed => confirmAndFinalize orgId settlement hash
  | .failed => do
      failSettlement orgId settlement.id payoutId
      throw .submitFailed
  | .unknown => return ()

/-- Source: `infraSettlementService.ts` `settlePayoutOnStellar`. -/
def settlePayoutOnStellar (orgId : String) (payoutTransactionId : ℕ) : Call Unit := do
  let payout ← loadPayout orgId payoutTransactionId
  if payout.method ≠ "crypto" then throw .unsupported
  else if payout.metadata.lockedOnStellar = false then throw .notLocked
  else if payout.metadata.fundsFinalized then do
    match ← sql (.findSettlementForPayout orgId payout.id) with
    | some existing => if existing.status = .confirmed then return () else throw .alreadyFinalized
    | none => throw .alreadyFinalized
  else do
    -- the destination, its network and asset, and that it is not the organisation's own wallet
    sql .external
    if payout.metadata.usdcAmount.getD (nearest payout.amount) ≤ 0 then throw .invalidInput
    else do
      let key := "stellar:payout:" ++ toString payout.id
      let existing ← sql (.findSettlement orgId key)
      let settled ← settledBefore orgId existing
      if settled then return ()
      else do
        let settlement ← ensureSettlement existing payout .stellar key
        -- the signing key, and the wallet's balance on the network
        sql .external
        match ← submitOnStellar payout with
        | .threw => do
            failSettlement orgId settlement.id payout.id
            throw .submitFailed
        | .accepted confirmed => do
            let hash := some (transactionHash payout.id)
            updateSettlement settlement.id fun r =>
              { r with status := .submitted, externalReference := hash }
            let settlement ← loadSettlement orgId settlement.id
            if confirmed then confirmAndFinalize orgId settlement hash
            else verifySubmitted orgId settlement hash payout.id

/-- Source: `infraSettlementService.ts` `confirmStellarSettlement`. -/
def confirmStellarSettlement (orgId : String) (settlementId : ℕ) : Call Unit := do
  let row ← loadSettlement orgId settlementId
  if row.rail ≠ .stellar then throw .unsupported
  else if row.status = .confirmed then return ()
  else if row.externalReference = none then throw .notFound
  else do
    match ← sql .verifyPayment with
    | .confirmed => confirmAndFinalize orgId row row.externalReference
    | .failed => do
        failSettlement orgId row.id row.payoutId
        throw .submitFailed
    | .unknown => throw .notConfirmed

/-! ### Bank and mobile payouts -/

/-- What `settleFiatOfframp` takes as proof that the funds are locked. -/
def Meta.lockedForOfframp (m : Meta) : Bool :=
  m.ledgerLockId.isSome || m.fundsLocked || (m.hasAmount && !m.fundsReleased)

/-- Source: `infraFiatWithdrawalService.ts` `usdcAmountFromPayout`. -/
def usdcAmountFromPayout (payout : TxRow) : Call ℚ :=
  match payout.metadata.usdcAmount.filter (0 < ·) with
  | some amount => return amount
  | none =>
      if payout.currency.toUpper = "USDC" ∧ 0 < nearest payout.amount then
        return nearest payout.amount
      else throw .noUsdcAmount

/-- The signed envelope of the payment to the treasury: the one stored before, or a new one. -/
def preparedEnvelope (settlement : SettlementRow) (payoutId : ℕ) : Call Unit :=
  if settlement.envelope.isSome then return ()
  else do
    sql .external
    updateSettlement settlement.id fun r => { r with
      externalReference := some (transactionHash payoutId)
      envelope := some (transactionHash payoutId) }

/-- Source: `infraFiatWithdrawalService.ts` `settleStellarToTreasury`. -/
def settleStellarToTreasury (orgId : String) (payout : TxRow) : Call Unit := do
  let key := "stellar:offramp:" ++ toString payout.id
  let existing ← sql (.findSettlement orgId key)
  if existing.any (·.status = .confirmed) then return ()
  else do
    -- the treasury, the wallet's key and balance, and the reserve for network fees
    sql .external
    let settlement ← ensureSettlement existing payout .stellar key
    sql (.patchTx payout.id none fun m => { m with offRamp := true })
    preparedEnvelope settlement payout.id
    match ← submitOnStellar payout with
    | .threw => do
        failSettlement orgId settlement.id payout.id
        sql (.patchTx payout.id none id)
        throw .submitFailed
    | .accepted confirmed => do
        updateSettlement settlement.id fun r =>
          { r with status := .submitted, externalReference := some (transactionHash payout.id) }
        let verified ← sql .verifyPayment
        if confirmed = false ∧ verified = .failed then do
          failSettlement orgId settlement.id payout.id
          throw .submitFailed
        else if confirmed = false ∧ verified = .unknown then throw .notConfirmed
        else do
          -- what Horizon says of the payment
          sql .external
          updateSettlement settlement.id fun r => { r with status := .confirmed }
          sql (.patchTx payout.id none fun m => { m with stellarConfirmed := true })

/-- The provider did not take the payout: it is to be retried, and stays locked. -/
def failProvider (settlementId payoutId : ℕ) : Call Unit := do
  updateSettlement settlementId fun r => { r with status := .failed }
  sql (.patchTx payoutId (some "processing") id)
  throw .providerFailed

/-- Ask the provider to pay, unless it already has the sequence id. -/
def requestProvider (payoutId : ℕ) (sequenceId : String) : Call Unit := do
  -- the channel list
  sql .external
  tryCatch
    (do
      let found ← sql (.fetchPayment sequenceId)
      if found then return () else sql (.createPaymentRequest payoutId sequenceId))
    fun _ => sql (.createPaymentRequest payoutId sequenceId)

/-- A simulated provider has paid at once. -/
def confirmSimulated (orgId : String) (settlementId payoutId : ℕ) : Call Unit := do
  updateSettlement settlementId fun r => { r with status := .confirmed }
  let _ ← finalizePayoutDebit (some orgId) payoutId
  sql (.patchTx payoutId none id)

/-- Source: `infraFiatWithdrawalService.ts` `submitProviderPayout`. -/
def submitProviderPayout (orgId : String) (payout : TxRow) : Call Unit := do
  let mode ← sql .offrampMode
  let key := "provider:offramp:" ++ toString payout.id
  let existing ← sql (.findSettlement orgId key)
  if existing.any (·.status = .confirmed) then return ()
  else do
    let sequenceId := orDefault payout.metadata.sequenceId
      (orDefault payout.externalId (toString payout.id))
    let settlement ← ensureSettlement existing payout .yellowCard key
    let forced ← sql .forceProviderFail
    if forced then failProvider settlement.id payout.id
    else do
      sql (.patchTx payout.id none id)
      let simulated := mode = .mock ∨ asEnv payout.environment = "test"
      if ¬ simulated then do
        let configured ← sql .isConfigured
        if configured = false then throw .external
        else tryCatch (requestProvider payout.id sequenceId) fun _ =>
          failProvider settlement.id payout.id
      else return ()
      updateSettlement settlement.id fun r =>
        { r with status := .submitted, externalReference := some sequenceId }
      sql (.patchTx payout.id none id)
      if simulated then confirmSimulated orgId settlement.id payout.id else return ()

/-- What is reported of both legs. -/
def reportLegs (payout : TxRow) : Call Unit := do
  let _ ← sql (.findSettlementByRail payout.id .stellar)
  let _ ← sql (.findSettlementByRail payout.id .yellowCard)
  let _ ← sql (.getOrgBalance payout.orgId (asEnv payout.environment))

/-- Both legs, the first unless it is confirmed. -/
def runLegs (orgId : String) (payout : TxRow) : Call Unit := do
  let stellar ← sql (.findSettlementByRail payout.id .stellar)
  if stellar.all (·.status ≠ .confirmed) then do
    let fresh ← loadPayout orgId payout.id
    settleStellarToTreasury orgId fresh
  else return ()
  tryCatch
    (do
      let fresh ← loadPayout orgId payout.id
      submitProviderPayout orgId fresh)
    fun e => if e = .providerFailed then reportLegs payout else throw e
  let _ ← loadPayout orgId payout.id
  let _ ← sql (.getOrgBalance payout.orgId (asEnv payout.environment))

/-- Source: `infraFiatWithdrawalService.ts` `settleFiatOfframp`. -/
def settleFiatOfframp (orgId : String) (payoutTransactionId : ℕ) : Call Unit := do
  let mode ← sql .offrampMode
  if mode = .off then throw .disabled
  else do
    let payout ← loadPayout orgId payoutTransactionId
    if payout.method ≠ "bank_transfer" ∧ payout.method ≠ "mobile_money" then throw .unsupported
    else if payout.metadata.lockedForOfframp = false ∧ payout.metadata.fundsFinalized = false then
      throw .notLocked
    else if payout.metadata.fundsFinalized = true ∨ payout.status.toLower = "settled" then
      reportLegs payout
    else do
      let _ ← usdcAmountFromPayout payout
      runLegs orgId payout

/-- Source: `infraFiatWithdrawalService.ts` `retryFiatOfframpProvider`. -/
def retryFiatOfframpProvider (orgId : String) (payoutTransactionId : ℕ) : Call Unit := do
  let payout ← loadPayout orgId payoutTransactionId
  if payout.metadata.stellarConfirmed = false then throw .notConfirmed
  else if payout.metadata.fundsFinalized then reportLegs payout
  else do
    let failed ← sql (.findSettlement orgId ("provider:offramp:" ++ toString payout.id))
    match failed.filter (·.status = .failed) with
    | some settlement =>
        updateSettlement settlement.id fun r =>
          { r with status := .pending, externalReference := none }
    | none => return ()
    settleFiatOfframp orgId payoutTransactionId

end DayfiBackend.Infra
