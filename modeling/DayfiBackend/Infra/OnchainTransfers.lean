import DayfiBackend.Found.Backend
import DayfiBackend.Infra.InternalTransfers
import DayfiBackend.Infra.Store

/-!
# Transfers on chain

The `STELLAR_ONCHAIN` mode of a transfer between organisations. The sender's amount and the fee are
locked, the sender's wallet pays the recipient's on the network, and when the network has confirmed
the payment the locked amounts are debited, and the recipient and the fee organisation credited. A
transfer that fails is marked as failed, and its locks are released.

Every call may stop after any statement and be made again under the same key, while another call
is under way; then it goes on with the rows it finds.

* `OnchainSql` has the statements; `db.tx` of the first four inserts is one of them.
* Amounts are in minor units, as in `Infra.InternalTransfers`.
* Whose payment a hash is of (`Store.attempts`) and which hashes the network has confirmed
  (`Store.confirmed`) are not data of the code, but are recorded for statements.
-/

namespace DayfiBackend.Infra.Onchain

open DayfiBackend.Found DayfiBackend.Found.Binary64 DayfiBackend.Found.Keys
open DayfiBackend.Infra.InternalTransfer (FeeSettings FeeQuote quoteDayfiTransactionFee usdcWallet)

/-! ### Tables -/

inductive TransferStatus where
  | processing
  | submitted
  | completed
  | failed
  deriving DecidableEq, Repr

/-- Source: `infraOnchainTransferService.ts` `OnchainTransferRow`. -/
structure OnchainTransferRow where
  id : ℕ
  senderOrgId : String
  recipientOrgId : String
  environment : Environment
  amount : ℤ
  status : TransferStatus := .processing
  senderTransactionId : ℕ := 0
  recipientTransactionId : ℕ := 0
  senderMovementId : Option ℕ := none
  recipientMovementId : Option ℕ := none
  idempotencyKey : Option String
  requestFingerprint : String
  fee : FeeQuote
  feeId : Option ℕ := none
  deriving DecidableEq, Repr

/-- A row of `infra_transactions` of a transfer. -/
structure TransactionRow where
  id : ℕ
  orgId : String
  environment : Environment
  amount : ℤ
  fee : ℤ
  status : TransferStatus := .processing
  clientIdempotencyKey : Option String
  deriving DecidableEq, Repr

/-- A row of `infra_settlements` of a transfer, with what its `rail_metadata` says of the payment
that is pending. -/
structure SettlementRow where
  id : ℕ
  orgId : String
  transferId : ℕ
  status : SettlementStatus := .pending
  externalReference : Option String := none
  sourceRef : String
  destinationRef : String
  pendingEnvelopeXdr : Option String := none
  pendingTransactionHash : Option String := none
  deriving DecidableEq, Repr

/-- A row of `infra_transaction_fees`. -/
structure FeeRow where
  id : ℕ
  idempotencyKey : String
  orgId : String
  transferId : ℕ
  feeAmount : ℤ
  deriving DecidableEq, Repr

/-- The tables. -/
structure Store where
  ledger : Ledger
  transfers : List OnchainTransferRow := []
  transactions : List TransactionRow := []
  settlements : List SettlementRow := []
  fees : List FeeRow := []
  nextId : ℕ := 0
  /-- The hashes of payments that were prepared or submitted for a transfer. -/
  attempts : List (ℕ × String) := []
  /-- The hashes of payments that the network was seen to have confirmed. -/
  confirmed : List String := []

/-! ### The ledger calls of a transfer -/

/-- The ledger calls of a transfer. -/
inductive TransferStep where
  | lock
  | feeLock
  | release
  | feeRelease
  | finalize
  | credit
  | feeFinalize
  | feeRevenue
  deriving DecidableEq, Repr

namespace TransferStep

def op : TransferStep → LedgerOp
  | lock | feeLock => .lockOrgFunds
  | release | feeRelease => .releaseOrgFunds
  | finalize | feeFinalize => .finalizeLockedDebit
  | credit | feeRevenue => .creditOrgWallet

def movementType : TransferStep → String
  | lock | feeLock => "funds_lock"
  | release | feeRelease => "funds_release"
  | finalize => "internal_transfer_debit"
  | credit => "internal_transfer_credit"
  | feeFinalize => "fee_debit"
  | feeRevenue => "fee_revenue"

def suffix : TransferStep → String
  | lock => ":lock"
  | feeLock => ":fee_lock"
  | release => ":release"
  | feeRelease => ":fee_release"
  | finalize => ":finalize"
  | credit => ":credit"
  | feeFinalize => ":fee_finalize"
  | feeRevenue => ":fee_revenue"

def referenceType : TransferStep → String
  | lock | release | finalize | credit => "internal_transfer"
  | feeLock | feeRelease | feeFinalize | feeRevenue => "transaction_fee"

/-- The idempotency key of a step. -/
def key (step : TransferStep) (id : ℕ) : String :=
  "internal_transfer:" ++ toString id ++ step.suffix

end TransferStep

namespace OnchainTransferRow

variable (r : OnchainTransferRow)

/-- The transaction that a step is of. -/
def transactionOf : TransferStep → ℕ
  | .credit => r.recipientTransactionId
  | _ => r.senderTransactionId

/-- The organisation whose wallet a step writes. -/
def orgOf (revenueOrgId : String) : TransferStep → String
  | .credit => r.recipientOrgId
  | .feeRevenue => revenueOrgId
  | _ => r.senderOrgId

/-- The column `environment`. -/
def environmentText : String :=
  match r.environment with
  | .live => "live"
  | .test => "test"

/-- The reference of a step. -/
def referenceOf : TransferStep → Option String
  | .release | .feeRelease => none
  | .lock | .finalize | .credit => some (toString r.id)
  | .feeLock | .feeFinalize | .feeRevenue => some ("fee:" ++ toString r.id)

/-- The ledger call of a step. -/
def params (step : TransferStep) (revenueOrgId : String) (amount : ℤ) : LedgerWriteParams where
  orgId := r.orgOf revenueOrgId step
  environment := r.environmentText
  amount := some (usdc amount)
  idempotencyKey := step.key (r.transactionOf step)
  movementType := step.movementType
  referenceType := step.referenceType
  referenceId := match step with
    | .feeRevenue => toString (r.feeId.getD r.senderTransactionId)
    | _ => toString (r.transactionOf step)
  reference := r.referenceOf step

/-- The client key of the sender's transaction. -/
def keyOut : Option String := (orNull r.idempotencyKey).map (· ++ ":out")

/-- The client key of the recipient's transaction. -/
def keyIn : Option String := (orNull r.idempotencyKey).map (· ++ ":in")

end OnchainTransferRow

/-! ### The network -/

/-- Source: `stellarSettlementAdapter.ts` `PreparedSponsoredPayment`. -/
structure PreparedSponsoredPayment where
  xdr : String
  transactionHash : String
  innerSourcePublicKey : String
  feePayerPublicKey : String
  destinationAccount : String
  amount : ℤ
  deriving DecidableEq, Repr

/-- What is read of a submitted payment. -/
structure Payment where
  transactionHash : String
  ledgerSequence : Option ℕ
  deriving DecidableEq, Repr

/-- What the network is set to be, and the failures that are simulated. -/
structure Config where
  fees : FeeSettings
  /-- Payments are not made. -/
  mock : Bool := true
  failBeforeLock : Bool := false
  failAfterLock : Bool := false
  forceFail : Bool := false
  forceConfirmFail : Bool := false

/-- A wallet on the network. -/
structure StellarAccount where
  active : Bool
  network : String
  publicKey : String
  deriving DecidableEq, Repr

/-- What submitting a payment comes to. -/
inductive SubmitOutcome where
  | accepted (hash : Option String) (ledgerSequence : Option ℕ)
  /-- The network has had the payment before. -/
  | duplicate
  | refused (reason : String)
  deriving DecidableEq, Repr

/-- What the outside answers at one step. -/
structure Outside where
  account : Option StellarAccount := none
  ready : Bool := true
  orgId : String := ""
  publicKey : String := ""
  envelope : String × String := ("", "")
  submit : SubmitOutcome := .duplicate
  verification : Verification := .unknown
  deriving DecidableEq, Repr

/-! ### Statements -/

/-- How a call fails. -/
inductive TransferErr where
  | database
  | ledger (e : LedgerFailure)
  | senderInactive
  | recipientInactive
  | crossEnvironment
  | selfTransfer
  | insufficientBalance
  | notReady
  | feePayerMismatch
  | feePayerIsSource
  | uniqueViolation
  | simulatedDbFailure
  | noExternalRef
  | notConfirmed
  | submitFailed (reason : String)
  | failed (reason : String)
  deriving DecidableEq, Repr

abbrev Ans (α : Type) := Except TransferErr α

/-- The statements of a transfer. -/
inductive OnchainSql : Type → Type
  | walletStatus (orgId : String) (env : Environment) : OnchainSql (Ans (Option WalletStatus))
  | getOrgStellarAccount (orgId : String) (env : Environment) :
      OnchainSql (Ans (Option StellarAccount))
  | getOrgBalance (orgId : String) (env : Environment) : OnchainSql (Ans (Buckets ℚ))
  /-- The recipient's trustline, or the reserve of the fee payer. -/
  | networkReady : OnchainSql (Ans Unit)
  | ensureFeeRevenueOrg : OnchainSql (Ans String)
  /-- The public key of a secret to sign with. -/
  | signingKey (orgId : Option String) : OnchainSql (Ans String)
  | feePayerStatus : OnchainSql (Ans String)
  | insertTransfer (draft : OnchainTransferRow) (source destination : String) :
      OnchainSql (Ans (Option OnchainTransferRow))
  | findTransfer (senderOrgId : String) (env : Environment) (key : String) :
      OnchainSql (Ans (Option OnchainTransferRow))
  | loadTransfer (id : ℕ) : OnchainSql (Ans OnchainTransferRow)
  | findSettlement (transferId : ℕ) : OnchainSql (Ans (Option SettlementRow))
  | post (step : TransferStep) (row : OnchainTransferRow) (revenueOrgId : String) (amount : ℤ) :
      OnchainSql (Ans Posted)
  | preparePayment (transferId : ℕ) (source feePayer destination : String) (amount : ℤ) :
      OnchainSql (Ans PreparedSponsoredPayment)
  | setPending (settlementId : ℕ) (xdr hash : String) : OnchainSql (Ans Unit)
  | submitPayment (transferId : ℕ) (p : PreparedSponsoredPayment) : OnchainSql (Ans Payment)
  | verifyPayment (hash : String) : OnchainSql (Ans Verification)
  | setSettlement (settlementId : ℕ) (status : SettlementStatus) (hash : Option String) :
      OnchainSql (Ans Unit)
  | setTransactions (ids : List ℕ) (status : TransferStatus) : OnchainSql (Ans Unit)
  | setStatus (id : ℕ) (status : TransferStatus) : OnchainSql (Ans Unit)
  | findFee (key : String) : OnchainSql (Ans (Option ℕ))
  | updateFee (id : ℕ) : OnchainSql (Ans Unit)
  | insertFee (draft : FeeRow) : OnchainSql (Ans ℕ)
  | complete (id debitId creditId : ℕ) (feeId : Option ℕ) : OnchainSql (Ans OnchainTransferRow)
  /-- Another call of the ledger. -/
  | otherPost (op : LedgerOp) (p : LedgerWriteParams) : OnchainSql (Ans Posted)

namespace Store

variable (s : Store)

/-- Run a ledger operation. -/
def post (op : LedgerOp) (p : LedgerWriteParams) : Ans Posted × Store :=
  match postLedger op.rule p s.ledger with
  | (.ok r, l) => (.ok r, { s with ledger := l })
  | (.error e, l) => (.error (.ledger e), { s with ledger := l })

/-- Source: `infraLedgerService.ts` `getOrgBalance`. -/
def getOrgBalance (k : WalletKey) : Ans (Buckets ℚ) × Store :=
  match Tx.commit (ensureWalletAccount k) s.ledger with
  | (.error e, _) => (.error (.ledger e), s)
  | (.ok row, l) =>
      (if row.status = .closed then .error .database else .ok row.read, { s with ledger := l })

/-- The row of a transfer, changed. -/
def setTransfer (id : ℕ) (f : OnchainTransferRow → OnchainTransferRow) : Store :=
  { s with transfers := s.transfers.map fun r => if r.id = id then f r else r }

/-- A settlement, changed. -/
def setSettlement (id : ℕ) (f : SettlementRow → SettlementRow) : Store :=
  { s with settlements := s.settlements.map fun r => if r.id = id then f r else r }

/-- A transfer under a key that the sender has used. -/
def keyTaken (draft : OnchainTransferRow) : Bool :=
  draft.idempotencyKey.isSome && s.transfers.any fun r => r.senderOrgId = draft.senderOrgId &&
    r.environment = draft.environment && r.idempotencyKey = draft.idempotencyKey

/-- A transaction of an organisation under a client key. -/
def clientKeyTaken (orgId : String) (env : Environment) (key : Option String) : Bool :=
  key.isSome && s.transactions.any fun t =>
    t.orgId = orgId && t.environment = env && t.clientIdempotencyKey = key

/-- The transaction that inserts a transfer, both its `infra_transactions` rows and its
settlement. -/
def insertTransfer (draft : OnchainTransferRow) (source destination : String) :
    Ans (Option OnchainTransferRow) × Store :=
  if fits draft.amount = false ∨ draft.amount ≤ 0 ∨ draft.senderOrgId = draft.recipientOrgId then
    (.error .database, s)
  else if s.keyTaken draft || s.clientKeyTaken draft.senderOrgId draft.environment draft.keyOut ||
      s.clientKeyTaken draft.recipientOrgId draft.environment draft.keyIn then (.ok none, s)
  else
    let row := { draft with
      id := s.nextId
      senderTransactionId := s.nextId + 1
      recipientTransactionId := s.nextId + 2 }
    (.ok (some row), { s with
      transfers := row :: s.transfers
      transactions :=
        ⟨s.nextId + 1, row.senderOrgId, row.environment, row.amount, row.fee.feeAmount,
          .processing, row.keyOut⟩ ::
        ⟨s.nextId + 2, row.recipientOrgId, row.environment, row.amount, 0, .processing,
          row.keyIn⟩ :: s.transactions
      settlements := ⟨s.nextId + 3, row.senderOrgId, row.id, .pending, none, source, destination,
        none, none⟩ :: s.settlements
      nextId := s.nextId + 4 })

/-- A payment has been made ready or submitted. -/
def attempt (transferId : ℕ) (hash : String) : Store :=
  { s with attempts := (transferId, hash) :: s.attempts }

/-- The network has confirmed a payment. -/
def confirm (hash : String) : Store := { s with confirmed := hash :: s.confirmed }

/-- A payment that was submitted. -/
def paid (transferId : ℕ) (p : Payment) : Store :=
  if p.ledgerSequence.isSome then (s.attempt transferId p.transactionHash).confirm p.transactionHash
  else s.attempt transferId p.transactionHash

end Store

/-- Submitting a payment. Source: `stellarSettlementAdapter.ts` `submitPreparedSponsoredPayment`. -/
def submitPreparedSponsoredPayment (cfg : Config) (o : Outside) (p : PreparedSponsoredPayment) :
    Ans Payment :=
  if cfg.forceFail then .error (.submitFailed "Forced Stellar submit failure")
  else if cfg.mock then .ok ⟨p.transactionHash, some 1⟩
  else
    match o.submit with
    | .accepted hash ledgerSequence =>
        if o.ready then .ok ⟨orDefault hash p.transactionHash, ledgerSequence⟩
        else .error (.submitFailed "Confirmed fee account is not the Dayfi fee-payer")
    | .duplicate => .ok ⟨p.transactionHash, none⟩
    | .refused reason => .error (.submitFailed reason)

/-- One statement, when it gets there. -/
def OnchainSql.run (cfg : Config) {β : Type} (st : OnchainSql β) (o : Outside) (s : Store) :
    β × Store :=
  match st with
  | .walletStatus orgId env =>
      (.ok ((s.ledger.wallets (usdcWallet orgId env)).map (·.status)), s)
  | .getOrgStellarAccount _ _ => (.ok o.account, s)
  | .getOrgBalance orgId env => s.getOrgBalance (usdcWallet orgId env)
  | .networkReady => (if o.ready then .ok () else .error .notReady, s)
  | .ensureFeeRevenueOrg => (.ok o.orgId, s)
  | .signingKey _ => (.ok o.publicKey, s)
  | .feePayerStatus => (.ok o.publicKey, s)
  | .insertTransfer draft source destination => s.insertTransfer draft source destination
  | .findTransfer senderOrgId env key =>
      (.ok (s.transfers.find? fun r => r.senderOrgId = senderOrgId && r.environment = env &&
        r.idempotencyKey = some key), s)
  | .loadTransfer id =>
      match s.transfers.find? (·.id = id) with
      | some r => (.ok r, s)
      | none => (.error .database, s)
  | .findSettlement transferId => (.ok (s.settlements.find? (·.transferId = transferId)), s)
  | .post step row revenueOrgId amount => s.post step.op (row.params step revenueOrgId amount)
  | .preparePayment transferId source feePayer destination amount =>
      (.ok ⟨o.envelope.1, o.envelope.2, source, feePayer, destination, amount⟩,
        s.attempt transferId o.envelope.2)
  | .setPending settlementId xdr hash =>
      (.ok (), s.setSettlement settlementId fun r => { r with
        externalReference := some hash
        pendingEnvelopeXdr := some xdr
        pendingTransactionHash := some hash })
  | .submitPayment transferId p =>
      match submitPreparedSponsoredPayment cfg o p with
      | .ok payment => (.ok payment, s.paid transferId payment)
      | .error e => (.error e, s)
  | .verifyPayment hash =>
      let verification := if cfg.mock then .confirmed else o.verification
      (.ok verification, if verification = .confirmed then s.confirm hash else s)
  | .setSettlement settlementId status hash =>
      (.ok (), s.setSettlement settlementId fun r => { r with
        status := status
        externalReference := hash <|> r.externalReference })
  | .setTransactions ids status =>
      (.ok (), { s with transactions := s.transactions.map fun t =>
        if t.id ∈ ids then { t with status := status } else t })
  | .setStatus id status => (.ok (), s.setTransfer id fun r => { r with status := status })
  | .findFee key => (.ok ((s.fees.find? (·.idempotencyKey = key)).map (·.id)), s)
  | .updateFee _ => (.ok (), s)
  | .insertFee draft =>
      if s.fees.any (·.idempotencyKey = draft.idempotencyKey) then (.error .database, s)
      else (.ok s.nextId,
        { s with fees := { draft with id := s.nextId } :: s.fees, nextId := s.nextId + 1 })
  | .complete id debitId creditId feeId =>
      match s.transfers.find? (·.id = id) with
      | none => (.error .database, s)
      | some r =>
          let f := fun r : OnchainTransferRow => { r with
            status := .completed
            senderMovementId := some debitId
            recipientMovementId := some creditId
            feeId := feeId <|> r.feeId }
          (.ok (f r), s.setTransfer id f)
  | .otherPost op p => s.post op p

/-- The answer of a statement that fails. -/
def OnchainSql.fail {β : Type} (st : OnchainSql β) (e : TransferErr) : β :=
  match st with
  | .walletStatus .. | .getOrgStellarAccount .. | .getOrgBalance .. | .networkReady => .error e
  | .ensureFeeRevenueOrg | .signingKey _ | .feePayerStatus | .insertTransfer .. => .error e
  | .findTransfer .. | .loadTransfer _ | .findSettlement _ | .post .. => .error e
  | .preparePayment .. | .setPending .. | .submitPayment .. | .verifyPayment _ => .error e
  | .setSettlement .. | .setTransactions .. | .setStatus .. | .findFee _ | .updateFee _ => .error e
  | .insertFee _ | .complete .. | .otherPost .. => .error e

/-- The statements over the tables. -/
def onchain (cfg : Config) : Backend OnchainSql Outside TransferErr Store where
  run _ st o s := st.run cfg o s
  fail st e := st.fail e

/-- A call. -/
abbrev OnchainCall := ExceptT TransferErr (Prog OnchainSql)

/-- One statement; its failure is thrown. -/
def sql {β : Type} (st : OnchainSql (Ans β)) : OnchainCall β := Backend.call st

/-- Throw when a condition holds. -/
def failIf (c : Prop) [Decidable c] (e : TransferErr) : OnchainCall Unit :=
  if c then throw e else pure ()

/-! ### A transfer fails -/

/-- A release, whose failure is not looked at. -/
def releaseLock (step : TransferStep) (row : OnchainTransferRow) (amount : ℤ) :
    OnchainCall Unit :=
  tryCatch (do
    let _ ← sql (.post step row "" amount)
    pure ()) fun _ => pure ()

/-- Source: `infraOnchainTransferService.ts` `releaseLocks`. -/
def releaseLocks (row : OnchainTransferRow) (feeAmount : ℤ) : OnchainCall Unit := do
  releaseLock .release row row.amount
  if 0 < feeAmount then releaseLock .feeRelease row feeAmount else pure ()

/-- Source: `infraOnchainTransferService.ts` `failTransfer`. -/
def failTransfer {α : Type} (row : OnchainTransferRow) (e : TransferErr) (settlementId : ℕ)
    (feeQuote : FeeQuote) : OnchainCall α := do
  sql (.setSettlement settlementId .failed none)
  releaseLocks row feeQuote.feeAmount
  sql (.setTransactions [row.senderTransactionId, row.recipientTransactionId] .failed)
  sql (.setStatus row.id .failed)
  throw e

/-! ### A transfer is confirmed -/

/-- The fee, once it is debited: its record, new or found. -/
def recordFee (row : OnchainTransferRow) (feeQuote : FeeQuote) : OnchainCall ℕ := do
  let feeKey := "transfer:" ++ row.idempotencyKey.getD (toString row.id) ++ ":fee"
  match ← sql (.findFee feeKey) with
  | some id => do
      sql (.updateFee id)
      pure id
  | none => sql (.insertFee ⟨0, feeKey, row.senderOrgId, row.id, feeQuote.feeAmount⟩)

/-- The fee of a transfer that is confirmed. -/
def finalizeFee (row : OnchainTransferRow) (feeQuote : FeeQuote) (revenueOrgId : String) :
    OnchainCall (Option ℕ) :=
  if feeQuote.feeCharged then do
    let _ ← sql (.post .feeFinalize row revenueOrgId feeQuote.feeAmount)
    let _ ← sql (.post .feeRevenue row revenueOrgId feeQuote.feeAmount)
    let id ← recordFee row feeQuote
    pure (some id)
  else pure row.feeId

/-- Source: `infraOnchainTransferService.ts` `finalizeConfirmed`. -/
def finalizeConfirmed (row : OnchainTransferRow) (hash : String) (feeQuote : FeeQuote)
    (settlementId : ℕ) : OnchainCall OnchainTransferRow := do
  let revenueOrgId ← sql .ensureFeeRevenueOrg
  let debit ← sql (.post .finalize row revenueOrgId row.amount)
  let credit ← sql (.post .credit row revenueOrgId row.amount)
  let feeId ← finalizeFee row feeQuote revenueOrgId
  sql (.setSettlement settlementId .confirmed (some hash))
  sql (.setTransactions [row.senderTransactionId, row.recipientTransactionId] .completed)
  sql (.complete row.id debit.movement.id credit.movement.id feeId)

/-- Source: `infraOnchainTransferService.ts` `confirmOnchainInternalTransfer`. -/
def confirmOnchainInternalTransfer (row : OnchainTransferRow) :
    OnchainCall OnchainTransferRow :=
  if row.status = .completed then pure row
  else do
    match ← sql (.findSettlement row.id) with
    | none => throw .noExternalRef
    | some settlement =>
        match orNull settlement.externalReference with
        | none => throw .noExternalRef
        | some hash => do
            match ← sql (.verifyPayment hash) with
            | .confirmed => finalizeConfirmed row hash row.fee settlement.id
            | .failed => failTransfer row (.failed "On-chain failure") settlement.id row.fee
            | .unknown => throw .notConfirmed

/-! ### A transfer is made -/

/-- The parameters. Source: `infraOnchainTransferService.ts` `executeOnchainInternalTransfer`. -/
structure ExecuteInput where
  senderOrgId : String
  recipientOrgId : String
  environment : Environment
  amount : ℤ
  idempotencyKey : Option String
  fingerprint : String
  deriving DecidableEq, Repr

/-- Source: `infraOnchainTransferService.ts` `walletActive`. -/
def walletActive (orgId : String) (env : Environment) (e : TransferErr) : OnchainCall Unit := do
  let status ← sql (.walletStatus orgId env)
  failIf (status ≠ some .active) e

/-- The wallets of both sides on the network. -/
def wallets (input : ExecuteInput) : OnchainCall (StellarAccount × StellarAccount) := do
  match ← sql (.getOrgStellarAccount input.senderOrgId input.environment),
      ← sql (.getOrgStellarAccount input.recipientOrgId input.environment) with
  | none, _ => throw .senderInactive
  | some _, none => throw .recipientInactive
  | some alice, some bob => do
      failIf (alice.active = false) .senderInactive
      failIf (bob.active = false) .recipientInactive
      failIf (alice.network ≠ bob.network) .crossEnvironment
      failIf (alice.publicKey = bob.publicKey) .selfTransfer
      pure (alice, bob)

/-- The checks before anything is written; the public keys of both sides and of the fee payer. -/
def checkTransfer (input : ExecuteInput) (feeQuote : FeeQuote) :
    OnchainCall (String × String × String × String) := do
  walletActive input.senderOrgId input.environment .senderInactive
  walletActive input.recipientOrgId input.environment .recipientInactive
  let (alice, bob) ← wallets input
  let senderBal ← sql (.getOrgBalance input.senderOrgId input.environment)
  failIf (nearest (senderBal.available + nearest (1 / 10 ^ 12)) <
    nearest (usdc feeQuote.customerDebitAmount)) .insufficientBalance
  sql .networkReady
  sql .networkReady
  let _ ← sql .ensureFeeRevenueOrg
  let source ← sql (.signingKey (some input.senderOrgId))
  let status ← sql .feePayerStatus
  let feePayer ← sql (.signingKey none)
  failIf (status ≠ "" ∧ status ≠ feePayer) .feePayerMismatch
  failIf (feePayer = alice.publicKey ∨ feePayer = bob.publicKey) .feePayerIsSource
  pure (alice.publicKey, bob.publicKey, source, feePayer)

/-- The row of a transfer: a new one, or one under the key; `none` beside a row that is done. -/
def openTransfer (input : ExecuteInput) (feeQuote : FeeQuote) (source destination : String) :
    OnchainCall OnchainTransferRow := do
  match ← sql (.insertTransfer ⟨0, input.senderOrgId, input.recipientOrgId, input.environment,
      input.amount, .processing, 0, 0, none, none, input.idempotencyKey, input.fingerprint,
      feeQuote, none⟩ source destination) with
  | some row => pure row
  | none =>
      match orNull input.idempotencyKey with
      | none => throw .uniqueViolation
      | some key => do
          match ← sql (.findTransfer input.senderOrgId input.environment key) with
          | some existing => pure existing
          | none => throw .uniqueViolation

/-- The locks of a transfer. -/
def lockFunds (input : ExecuteInput) (feeQuote : FeeQuote) (row : OnchainTransferRow) :
    OnchainCall Unit := do
  let _ ← sql (.post .lock row "" input.amount)
  if feeQuote.feeCharged then do
    let _ ← sql (.post .feeLock row "" feeQuote.feeAmount)
    pure ()
  else pure ()

/-- The payment of a settlement: the one that is pending, or a new one. -/
def preparedPayment (input : ExecuteInput) (row : OnchainTransferRow) (settlement : SettlementRow)
    (alice bob source feePayer : String) : OnchainCall PreparedSponsoredPayment :=
  let pending : PreparedSponsoredPayment :=
    ⟨orDefault settlement.pendingEnvelopeXdr "",
      orDefault settlement.externalReference (orDefault settlement.pendingTransactionHash ""),
      alice, feePayer, bob, input.amount⟩
  if pending.xdr ≠ "" ∧ pending.transactionHash ≠ "" then pure pending
  else do
    let prepared ← sql (.preparePayment row.id source feePayer bob input.amount)
    sql (.setPending settlement.id prepared.xdr prepared.transactionHash)
    pure prepared

/-- The payment of a transfer is submitted, and the transfer ended if the network has confirmed
it or says that it has failed. -/
def submitAndConfirm (cfg : Config) (row : OnchainTransferRow) (feeQuote : FeeQuote)
    (settlementId : ℕ) (prepared : PreparedSponsoredPayment) :
    OnchainCall OnchainTransferRow := do
  let payment ← tryCatch (sql (.submitPayment row.id prepared)) fun e =>
    failTransfer row e settlementId feeQuote
  sql (.setSettlement settlementId .submitted (some payment.transactionHash))
  sql (.setStatus row.id .submitted)
  let refreshed ← sql (.loadTransfer row.id)
  if cfg.forceConfirmFail then
    failTransfer refreshed (.failed "Forced Stellar confirmation failure") settlementId feeQuote
  else do
    let verified ← sql (.verifyPayment payment.transactionHash)
    if cfg.mock = true ∨ payment.ledgerSequence.isSome ∨ verified = .confirmed then
      finalizeConfirmed refreshed payment.transactionHash feeQuote settlementId
    else if verified = .failed then
      failTransfer refreshed (.failed "On-chain failure") settlementId feeQuote
    else pure refreshed

/-- A transfer whose locks are posted. -/
def payTransfer (cfg : Config) (input : ExecuteInput) (feeQuote : FeeQuote)
    (row : OnchainTransferRow) (settlement : SettlementRow) (alice bob source feePayer : String) :
    OnchainCall OnchainTransferRow := do
  let prepared ← preparedPayment input row settlement alice bob source feePayer
  if prepared.innerSourcePublicKey ≠ alice then
    failTransfer row (.failed "USDC source was not Alice") settlement.id feeQuote
  else submitAndConfirm cfg row feeQuote settlement.id prepared

/-- The settlement's payment may have been confirmed already. -/
def alreadyConfirmed (settlement : SettlementRow) : OnchainCall Bool :=
  match orNull settlement.externalReference with
  | none => pure false
  | some hash =>
      if settlement.status = .failed then pure false
      else do
        let verified ← sql (.verifyPayment hash)
        pure (decide (verified = .confirmed))

/-- Source: `infraOnchainTransferService.ts` `executeOnchainInternalTransfer`. -/
def executeOnchainInternalTransfer (cfg : Config) (input : ExecuteInput) :
    OnchainCall OnchainTransferRow := do
  let feeQuote := quoteDayfiTransactionFee cfg.fees input.amount true
  let (alice, bob, source, feePayer) ← checkTransfer input feeQuote
  let row ← openTransfer input feeQuote alice bob
  if row.status = .completed ∨ row.status = .failed then pure row
  else do
    match ← sql (.findSettlement row.id) with
    | none => throw .database
    | some settlement => do
        failIf (cfg.failBeforeLock = true) .simulatedDbFailure
        lockFunds input feeQuote row
        if cfg.failAfterLock then
          failTransfer row .simulatedDbFailure settlement.id feeQuote
        else do
          let confirmed ← alreadyConfirmed settlement
          if confirmed then confirmOnchainInternalTransfer row
          else payTransfer cfg input feeQuote row settlement alice bob source feePayer

/-! ### Runs -/

/-- A call of the ledger by another service: its key is not one of a transfer on chain. -/
structure OtherPost where
  op : LedgerOp
  params : LedgerWriteParams
  key_ne : ∀ (step : TransferStep) id, params.key ≠ step.key id

/-- What runs. -/
inductive Request where
  | execute (input : ExecuteInput)
  | confirm (transferId : ℕ)
  | other (p : OtherPost)

/-- What a request comes to. -/
inductive Outcome where
  | transfer (r : Ans OnchainTransferRow)
  | other
  deriving DecidableEq, Repr

/-- What a request runs. -/
def Request.program (cfg : Config) : Request → Prog OnchainSql Outcome
  | execute input =>
      (executeOnchainInternalTransfer cfg input).run >>= fun r => pure (.transfer r)
  | confirm transferId =>
      (do
        let row ← sql (.loadTransfer transferId)
        confirmOnchainInternalTransfer row : OnchainCall _).run >>= fun r => pure (.transfer r)
  | other p => (sql (.otherPost p.op p.params)).run >>= fun _ => pure .other

/-- The requests on these wallets, before any has begun. -/
def begun (cfg : Config) (wallets : WalletKey → Option WalletAccount) (requests : List Request) :
    Pool OnchainSql Outcome Store :=
  ⟨{ ledger := ⟨wallets, [], 0⟩ }, requests.map (Request.program cfg)⟩

end DayfiBackend.Infra.Onchain
