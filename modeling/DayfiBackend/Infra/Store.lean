import DayfiBackend.Found.Interleave
import DayfiBackend.Infra.Posting

/-!
# Payments and payouts: the tables and the statements of the services

A call of a service is a program of statements over one `Store`: the ledger, `infra_transactions`,
`infra_settlements`, and what the payment rails have received. Each statement commits on its own;
a ledger operation is one statement (`Infra.LedgerConcurrent` is why it may be). Any statement may
fail without effect (`Outside.fault`), and a call may stop after any of them.

* `Outside` is what the rest of the world answers at one step: exchange rates, configuration,
  other services, the payment networks.
* `Meta` has the fields of the `metadata` column that some code reads; a flag the code compares
  with `true` is a `Bool`.
* `TxRow.creator` and `Request.sender` are not data of the code: they name the process that made
  the row or the request, for statements.
-/

namespace DayfiBackend.Infra

open DayfiBackend.Found DayfiBackend.Found.Binary64 DayfiBackend.Found.Keys

/-! ### Tables -/

inductive TxDirection where
  | payment
  | payout
  deriving DecidableEq, Repr

/-- The fields of `infra_transactions.metadata` that are read. -/
structure Meta where
  usdcAmount : Option ℚ := none
  ledgerAmount : Option ℚ := none
  settlementUsdc : Option ℚ := none
  fundsLocked : Bool := false
  fundsReleased : Bool := false
  fundsFinalized : Bool := false
  ledgerLockId : Option ℕ := none
  ledgerFinalizeId : Option ℕ := none
  ledgerReleaseId : Option ℕ := none
  ledgerCreditId : Option ℕ := none
  offRamp : Bool := false
  stellarConfirmed : Bool := false
  rail : Option String := none
  sequenceId : Option String := none
  deriving DecidableEq, Repr

/-- The payload a request fingerprint is the SHA-256 of.
Source: `infraMoneyService.ts` `fingerprintPayload` in `createPayout`. -/
structure Fingerprint where
  amount : ℚ
  currency : String
  country : String
  accountType : String
  accountNumber : Option String
  walletAddress : Option String
  dayfiTag : Option String
  recipientId : Option String
  destinationId : Option String
  bulkItemId : Option String
  deriving DecidableEq, Repr

/-- A row of `infra_transactions`. The fingerprint is the payload itself: the hash is taken to be
injective. -/
structure TxRow where
  id : ℕ
  orgId : String
  environment : String
  amount : ℚ
  currency : String
  status : String
  method : String
  direction : TxDirection
  externalId : Option String
  clientKey : Option String
  fingerprint : Option Fingerprint
  metadata : Meta
  creator : ℕ
  deriving DecidableEq, Repr

inductive Rail where
  | stellar
  | yellowCard
  deriving DecidableEq, Repr

inductive SettlementStatus where
  | pending
  | submitted
  | confirmed
  | failed
  deriving DecidableEq, Repr

/-- A row of `infra_settlements`. -/
structure SettlementRow where
  id : ℕ
  orgId : String
  payoutId : ℕ
  rail : Rail
  status : SettlementStatus
  idempotencyKey : String
  externalReference : Option String
  envelope : Option String
  deriving DecidableEq, Repr

inductive FundingStatus where
  | pending
  | pendingTreasury
  | submitted
  | confirmed
  | failed
  deriving DecidableEq, Repr

/-- A row of `infra_settlements` for a collection: the treasury's payment to the organisation's
wallet. The amount is its `NUMERIC(20,7)` column, in minor units. -/
structure FundingRow where
  id : ℕ
  orgId : String
  collectionId : ℕ
  amount : ℤ
  status : FundingStatus
  idempotencyKey : String
  externalReference : Option String
  deriving DecidableEq, Repr

/-- What the provider did with a payment request. -/
inductive RequestStatus where
  | accepted
  | rejected
  | failed
  deriving DecidableEq, Repr

/-- A payment request the provider received. -/
structure Request where
  payoutId : ℕ
  sequenceId : String
  status : RequestStatus
  sender : ℕ
  deriving DecidableEq, Repr

/-- The tables and the rails; rows newest first. -/
structure Store where
  ledger : Ledger
  txs : List TxRow
  settlements : List SettlementRow
  requests : List Request
  /-- The payouts for which a Stellar payment was submitted. -/
  payments : List ℕ
  nextId : ℕ
  fundings : List FundingRow := []

/-- How a call fails. -/
inductive Err where
  | database
  | ledger (e : LedgerFailure)
  | notFound
  | wrongDirection
  | alreadyReleased
  | alreadyFinalized
  | noUsdcAmount
  | quoteFailed
  | walletClosed
  | external
  | invalidInput
  | keyReused
  | railFailed
  | providerFailed
  | notLocked
  | unsupported
  | disabled
  | submitFailed
  | notConfirmed
  deriving DecidableEq, Repr

/-! ### The outside world -/

inductive FundingMode where
  | off
  | mock
  | live
  deriving DecidableEq, Repr

/-- Submitting a Stellar payment: it was accepted (`confirmed` or not), or the call threw. -/
inductive SubmitOutcome where
  | accepted (confirmed : Bool)
  | threw
  deriving DecidableEq, Repr

inductive Verification where
  | confirmed
  | failed
  | unknown
  deriving DecidableEq, Repr

/-- A request to the provider: accepted and answered, accepted and then an error, or rejected. -/
inductive ProviderOutcome where
  | accepted
  | acceptedThenError
  | rejected
  deriving DecidableEq, Repr

/-- The fields a saved destination fills in.
Source: `infraRecipientService.ts` `destinationToPayoutFields`. -/
structure PayoutFields where
  accountType : String := "bank"
  currency : Option String := none
  country : Option String := none
  accountNumber : Option String := none
  accountName : Option String := none
  bankCode : Option String := none
  asset : Option String := none
  walletAddress : Option String := none
  dayfiTag : Option String := none
  deriving DecidableEq, Repr

/-- What the outside answers at one step. -/
structure Outside where
  fault : Bool := false
  allowed : Bool := true
  quote : Option ℚ := none
  fundingMode : FundingMode := .off
  offrampMode : FundingMode := .off
  funded : Bool := false
  submit : SubmitOutcome := .accepted true
  verification : Verification := .unknown
  provider : ProviderOutcome := .accepted
  lookup : Option Bool := some false
  destination : PayoutFields := {}
  forced : Bool := false
  deriving DecidableEq, Repr

/-! ### Ledger operations of a payout and of a collection -/

/-- `asEnv`. Source: `infraLifecycleService.ts` `asEnv`. -/
def asEnv (env : String) : String := if env = "live" then "live" else "test"

inductive PayoutStep where
  | lock
  | finalize
  | release
  deriving DecidableEq, Repr

namespace PayoutStep

def op : PayoutStep → LedgerOp
  | lock => .lockOrgFunds
  | finalize => .finalizeLockedDebit
  | release => .releaseOrgFunds

def movementType : PayoutStep → String
  | lock => "funds_lock"
  | finalize => "payout_settle"
  | release => "funds_release"

def suffix : PayoutStep → String
  | lock => ":lock"
  | finalize => ":finalize"
  | release => ":release"

/-- The idempotency key of a step of a payout. -/
def key (step : PayoutStep) (id : ℕ) : String := "payout:" ++ toString id ++ step.suffix

/-- The ledger call of a step, for the row the caller has read.
Source: `infraLifecycleService.ts` `lockPayoutFunds`, `finalizePayoutDebit`,
`releasePayoutLock`. -/
def params (step : PayoutStep) (row : TxRow) (usdcAmount : ℚ) : LedgerWriteParams where
  orgId := row.orgId
  environment := asEnv row.environment
  amount := some usdcAmount
  idempotencyKey := step.key row.id
  movementType := step.movementType
  referenceType := "payout"
  referenceId := toString row.id
  reference := orDefault row.externalId (toString row.id)

end PayoutStep

inductive CollectionStep where
  /-- Available is credited at once. -/
  | credit
  /-- Pending is credited, to be released when the wallet is funded. -/
  | pending
  /-- The funded wallet's pending amount becomes available. -/
  | available
  deriving DecidableEq, Repr

namespace CollectionStep

def op : CollectionStep → LedgerOp
  | credit => .creditOrgWallet
  | pending => .creditOrgWalletPending
  | available => .releasePendingToAvailable

def movementType : CollectionStep → String
  | credit => "collection_credit"
  | pending => "collection_pending"
  | available => "collection_credit"

def suffix : CollectionStep → String
  | credit => ":credit"
  | pending => ":pending"
  | available => ":available"

/-- The idempotency key of a step of a collection. -/
def key (step : CollectionStep) (id : ℕ) : String := "collection:" ++ toString id ++ step.suffix

/-- The ledger call of a step, for the row the caller has read.
Source: `infraLifecycleService.ts` `settleCollectionCredit`, `infraStellarFundingService.ts`
`confirmFunding`. -/
def params (step : CollectionStep) (row : TxRow) (usdcAmount : ℚ) : LedgerWriteParams where
  orgId := row.orgId
  environment := asEnv row.environment
  amount := some usdcAmount
  idempotencyKey := step.key row.id
  movementType := step.movementType
  referenceType := "collection"
  referenceId := toString row.id
  reference := if step = .available then toString row.id
    else orDefault row.externalId (toString row.id)

end CollectionStep

/-! ### Statements -/

/-- The answer of a statement. -/
abbrev Ans (α : Type) := Except Err α

/-- The statements of the services. -/
inductive Sql : Type → Type
  | loadTx (id : ℕ) (orgId : Option String) : Sql (Ans (Option TxRow))
  | loadTxByExternalId (externalId : String) : Sql (Ans (Option TxRow))
  | findIdempotentTx (orgId env key : String) : Sql (Ans (Option TxRow))
  /-- An insert; `none` when the client key is taken. -/
  | insertTx (draft : TxRow) : Sql (Ans (Option TxRow))
  | patchTx (id : ℕ) (status : Option String) (patch : Meta → Meta) : Sql (Ans Unit)
  | payout (step : PayoutStep) (row : TxRow) (usdcAmount : ℚ) : Sql (Ans Posted)
  | collection (step : CollectionStep) (row : TxRow) (usdcAmount : ℚ) : Sql (Ans Posted)
  | getOrgBalance (orgId environment : String) : Sql (Ans (Buckets ℚ))
  | convertAmountToUsd (amount : ℚ) (currency : String) : Sql (Ans ℚ)
  | fundingMode (row : TxRow) : Sql (Ans FundingMode)
  | offrampMode : Sql (Ans FundingMode)
  | findFunding (orgId key : String) : Sql (Ans (Option FundingRow))
  | loadFunding (id : ℕ) : Sql (Ans FundingRow)
  | insertFunding (draft : FundingRow) : Sql (Ans FundingRow)
  | updateFundings (which : FundingRow → Bool) (f : FundingRow → FundingRow) : Sql (Ans Unit)
  /-- Whether the treasury holds the amount. -/
  | treasuryCovers (amount : ℚ) : Sql (Ans Bool)
  /-- The treasury pays an organisation's wallet. -/
  | submitFunding (row : TxRow) (amount : ℚ) : Sql (Ans SubmitOutcome)
  /-- A precondition checked with another service or the configuration. -/
  | external : Sql (Ans Unit)
  /-- Whether the provider is configured. -/
  | isConfigured : Sql (Ans Bool)
  | resolveDestination (recipientId : String) : Sql (Ans PayoutFields)
  | randomUUID : Sql (Ans String)
  /-- Whether failures of the provider are simulated. -/
  | forceProviderFail : Sql (Ans Bool)
  | loadSettlement (orgId : String) (id : ℕ) : Sql (Ans (Option SettlementRow))
  | findSettlement (orgId key : String) : Sql (Ans (Option SettlementRow))
  | findSettlementForPayout (orgId : String) (payoutId : ℕ) : Sql (Ans (Option SettlementRow))
  | findSettlementByRail (payoutId : ℕ) (rail : Rail) : Sql (Ans (Option SettlementRow))
  | insertSettlement (draft : SettlementRow) : Sql (Ans SettlementRow)
  | updateSettlements (which : SettlementRow → Bool) (f : SettlementRow → SettlementRow) :
      Sql (Ans Unit)
  | submitPayment (row : TxRow) : Sql (Ans SubmitOutcome)
  | verifyPayment : Sql (Ans Verification)
  | fetchPayment (sequenceId : String) : Sql (Ans Bool)
  | createPaymentRequest (payoutId : ℕ) (sequenceId : String) : Sql (Ans Unit)
  /-- The provider gives up a payment it had accepted. -/
  | providerFails (sequenceId : String) : Sql (Ans Unit)

/-- The range of a `NUMERIC(20,7)` column. -/
def fundingLimit : ℤ := 10 ^ 20

/-- The row with an id. -/
def Store.tx (s : Store) (id : ℕ) : Option TxRow := s.txs.find? (·.id = id)

/-- Update one row. -/
def Store.setTx (s : Store) (id : ℕ) (f : TxRow → TxRow) : Store :=
  { s with txs := s.txs.map fun r => if r.id = id then f r else r }

/-- Run a ledger operation on the store. -/
def Store.post (s : Store) (op : LedgerOp) (p : LedgerWriteParams) : Ans Posted × Store :=
  match postLedger op.rule p s.ledger with
  | (.ok r, l) => (.ok r, { s with ledger := l })
  | (.error e, l) => (.error (.ledger e), { s with ledger := l })

/-- Source: `infraLedgerService.ts` `getOrgBalance`. -/
def Store.getOrgBalance (s : Store) (k : WalletKey) : Ans (Buckets ℚ) × Store :=
  match Tx.commit (ensureWalletAccount k) s.ledger with
  | (.error e, _) => (.error (.ledger e), s)
  | (.ok row, l) =>
      if row.status = .closed then (.error .walletClosed, { s with ledger := l })
      else (.ok row.read, { s with ledger := l })

/-- The tables after a request reaches the provider. -/
def Store.request (s : Store) (payoutId : ℕ) (sequenceId : String) (status : RequestStatus)
    (sender : ℕ) : Store :=
  { s with requests := ⟨payoutId, sequenceId, status, sender⟩ :: s.requests }

/-- One statement of process `i`, when it does not fail. -/
def Sql.run {β : Type} (i : ℕ) (st : Sql β) (o : Outside) (s : Store) : β × Store :=
  match st with
  | .loadTx id orgId => (.ok ((s.tx id).filter fun r => orgId.all (r.orgId = ·)), s)
  | .loadTxByExternalId externalId => (.ok (s.txs.find? (·.externalId = some externalId)), s)
  | .findIdempotentTx orgId env key =>
      (.ok (s.txs.find? fun r =>
        r.orgId = orgId && r.environment = env && r.clientKey = some key), s)
  | .insertTx draft =>
      if draft.clientKey.isSome && s.txs.any fun r =>
          r.orgId = draft.orgId && r.environment = draft.environment &&
            r.clientKey = draft.clientKey
      then (.ok none, s)
      else
        let row := { draft with id := s.nextId, creator := i }
        (.ok (some row), { s with txs := row :: s.txs, nextId := s.nextId + 1 })
  | .patchTx id status patch =>
      (.ok (), s.setTx id fun r =>
        { r with status := status.getD r.status, metadata := patch r.metadata })
  | .payout step row usdcAmount => s.post step.op (step.params row usdcAmount)
  | .collection step row usdcAmount => s.post step.op (step.params row usdcAmount)
  | .getOrgBalance orgId environment =>
      s.getOrgBalance ⟨orgId, normalizeEnv environment, normalizeAsset none⟩
  | .convertAmountToUsd _ _ =>
      match o.quote with
      | some usd => (.ok usd, s)
      | none => (.error .quoteFailed, s)
  | .fundingMode _ => (.ok o.fundingMode, s)
  | .offrampMode => (.ok o.offrampMode, s)
  | .findFunding orgId key =>
      (.ok (s.fundings.find? fun r => r.orgId = orgId && r.idempotencyKey = key), s)
  | .loadFunding id =>
      match s.fundings.find? (·.id = id) with
      | some row => (.ok row, s)
      | none => (.error .database, s)
  | .insertFunding draft =>
      if fundingLimit ≤ |draft.amount| ∨ s.fundings.any fun r =>
          (r.orgId = draft.orgId && r.idempotencyKey = draft.idempotencyKey) ||
            (r.collectionId = draft.collectionId && r.status ≠ .failed)
      then (.error .database, s)
      else
        let row := { draft with id := s.nextId }
        (.ok row, { s with fundings := row :: s.fundings, nextId := s.nextId + 1 })
  | .updateFundings which f =>
      (.ok (), { s with fundings := s.fundings.map fun r => if which r then f r else r })
  | .treasuryCovers _ => (.ok o.funded, s)
  | .submitFunding _ _ => (.ok o.submit, s)
  | .external => (if o.allowed then .ok () else .error .external, s)
  | .isConfigured => (.ok o.allowed, s)
  | .resolveDestination _ => (if o.allowed then .ok o.destination else .error .external, s)
  | .randomUUID => (.ok ("uuid-" ++ toString s.nextId ++ ";"), { s with nextId := s.nextId + 1 })
  | .forceProviderFail => (.ok o.forced, s)
  | .loadSettlement orgId id =>
      (.ok (s.settlements.find? fun r => r.id = id && r.orgId = orgId), s)
  | .findSettlement orgId key =>
      (.ok (s.settlements.find? fun r => r.orgId = orgId && r.idempotencyKey = key), s)
  | .findSettlementForPayout orgId payoutId =>
      (.ok (s.settlements.find? fun r => r.orgId = orgId && r.payoutId = payoutId), s)
  | .findSettlementByRail payoutId rail =>
      (.ok (s.settlements.find? fun r => r.payoutId = payoutId && r.rail = rail), s)
  | .insertSettlement draft =>
      if s.settlements.any fun r =>
          (r.orgId = draft.orgId && r.idempotencyKey = draft.idempotencyKey) ||
            (r.payoutId = draft.payoutId && r.rail = draft.rail && r.status ≠ .failed)
      then (.error .database, s)
      else
        let row := { draft with id := s.nextId }
        (.ok row, { s with settlements := row :: s.settlements, nextId := s.nextId + 1 })
  | .updateSettlements which f =>
      (.ok (), { s with settlements := s.settlements.map fun r => if which r then f r else r })
  | .submitPayment row => (.ok o.submit, { s with payments := row.id :: s.payments })
  | .verifyPayment => (.ok o.verification, s)
  | .fetchPayment sequenceId =>
      match o.lookup with
      | none => (.error .external, s)
      | some found =>
          (.ok (found && s.requests.any fun r =>
            r.sequenceId = sequenceId && r.status = .accepted), s)
  | .createPaymentRequest payoutId sequenceId =>
      match o.provider with
      | .accepted => (.ok (), s.request payoutId sequenceId .accepted i)
      | .acceptedThenError => (.error .external, s.request payoutId sequenceId .accepted i)
      | .rejected => (.error .external, s.request payoutId sequenceId .rejected i)
  | .providerFails sequenceId =>
      (.ok (), { s with requests := s.requests.map fun r =>
        if r.sequenceId = sequenceId && r.status = .accepted then { r with status := .failed }
        else r })

/-- The answer of a statement that fails. -/
def Sql.failed {β : Type} (st : Sql β) : β :=
  match st with
  | .loadTx .. => .error .database
  | .loadTxByExternalId .. => .error .database
  | .findIdempotentTx .. => .error .database
  | .insertTx .. => .error .database
  | .patchTx .. => .error .database
  | .payout .. => .error .database
  | .collection .. => .error .database
  | .getOrgBalance .. => .error .database
  | .convertAmountToUsd .. => .error .database
  | .fundingMode .. => .error .database
  | .offrampMode => .error .database
  | .findFunding .. => .error .database
  | .loadFunding .. => .error .database
  | .insertFunding .. => .error .database
  | .updateFundings .. => .error .database
  | .treasuryCovers .. => .error .database
  | .submitFunding .. => .error .database
  | .external => .error .database
  | .isConfigured => .error .database
  | .resolveDestination .. => .error .database
  | .randomUUID => .error .database
  | .forceProviderFail => .error .database
  | .loadSettlement .. => .error .database
  | .findSettlement .. => .error .database
  | .findSettlementForPayout .. => .error .database
  | .findSettlementByRail .. => .error .database
  | .insertSettlement .. => .error .database
  | .updateSettlements .. => .error .database
  | .submitPayment .. => .error .database
  | .verifyPayment => .error .database
  | .fetchPayment .. => .error .database
  | .createPaymentRequest .. => .error .database
  | .providerFails .. => .error .database

/-- The services' machine. A statement that fails has no effect. -/
def services : Machine Sql Outside Store where
  exec i st o s := if o.fault then some (st.failed, s) else some (st.run i o s)

/-- A call of a service. -/
abbrev Call := ExceptT Err (Prog Sql)

/-- One statement; its failure is thrown. -/
def sql {β : Type} (st : Sql (Ans β)) : Call β := ExceptT.mk (Prog.perform st)

/-- A call whose result nobody reads. -/
def discard {β : Type} (p : Call β) : Prog Sql Unit := p.run >>= fun _ => pure ()

/-- Do `p` when `c` holds. -/
def doWhen (c : Prop) [Decidable c] (p : Call Unit) : Call Unit := if c then p else pure ()

end DayfiBackend.Infra
