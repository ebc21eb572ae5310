import DayfiBackend.Found.Backend
import DayfiBackend.Infra.Store

/-!
# External Stellar deposits

A USDC payment to an organisation's Stellar wallet is verified on Horizon and credited to the
organisation ledger in steps of their own: a row of `infra_stellar_deposits`, a row of
`infra_transactions`, a pending credit and its release to available (`creditVerifiedDeposit`). A
deposit is processed by its hash (`processExternalDepositByHash`) or found by the poller
(`pollOrgStellarDeposits`), which processes every payment of a page and goes on when one fails.

* A deposit is identified by its unique `stellar_tx_hash`; its uuid is left out.
* Of `infra_transactions` the table holds the rows whose metadata has the type `stellar_deposit`;
  the search of `ensureDepositTransaction` sees no others.
* Horizon and `infra_stellar_accounts` are only read here: what a read finds is up to the outside.
* Metadata that nothing reads back, time stamps and the view's renaming of columns are left out.
-/

namespace DayfiBackend.Infra.Deposits

open DayfiBackend.Found DayfiBackend.Found.Binary64 DayfiBackend.Found.Keys

/-! ### Horizon and the accounts -/

/-- Source: `infraStellarDepositService.ts` `InfraStellarDepositMode`. -/
inductive DepositMode where
  | off
  | mock
  | live
  deriving DecidableEq, Repr

inductive Network where
  | testnet
  | mainnet
  deriving DecidableEq, Repr

/-- What a process reads from its environment. -/
structure Config where
  mode : DepositMode
  isTestnet : Bool
  usdcIssuer : String
  deriving DecidableEq, Repr

def Config.network (cfg : Config) : Network := if cfg.isTestnet then .testnet else .mainnet

/-- An operation of a transaction on Horizon; `amount` is `none` when it is not a finite number. -/
structure Operation where
  type : String
  source : Option String
  destination : String
  amount : Option ℚ
  assetCode : String
  assetIssuer : String
  deriving DecidableEq, Repr

/-- A record of an account's payments on Horizon. -/
structure PaymentRecord where
  type : String
  source : String
  destination : String
  assetCode : String
  assetIssuer : String
  transactionHash : String
  deriving DecidableEq, Repr

/-- A row of `infra_stellar_accounts`. -/
structure OrgStellarAccount where
  orgId : String
  environment : String
  publicKey : String
  status : String
  deriving DecidableEq, Repr

/-- Source: `infraStellarDepositService.ts` `VerifiedDepositPayment`. -/
structure VerifiedDepositPayment where
  stellarTxHash : String
  sourcePublicKey : Option String
  destinationPublicKey : String
  amount : ℚ
  assetIssuer : String
  network : Network
  deriving DecidableEq, Repr

/-! ### Tables -/

inductive DepositStatus where
  | detected
  | verified
  | pendingLedger
  | confirmed
  | rejected
  | failed
  deriving DecidableEq, Repr

/-- A row of `infra_stellar_deposits`. -/
structure DepositRow where
  orgId : String
  environment : String
  transactionId : Option ℕ := none
  stellarTxHash : String
  sourcePublicKey : Option String
  destinationPublicKey : String
  assetIssuer : String
  amount : ℚ
  network : Network
  status : DepositStatus
  ledgerPendingMovementId : Option ℕ := none
  ledgerAvailableMovementId : Option ℕ := none
  failureReason : Option String := none
  idempotencyKey : String
  deriving DecidableEq, Repr

/-- A row of `infra_transactions` of the type `stellar_deposit`; the hash is in its metadata. -/
structure DepositTransaction where
  id : ℕ
  orgId : String
  environment : String
  amount : ℚ
  status : String
  externalId : String
  stellarTxHash : String
  deriving DecidableEq, Repr

/-- The tables. -/
structure Tables where
  ledger : Ledger
  deposits : String → Option DepositRow := fun _ => none
  transactions : List DepositTransaction := []
  nextId : ℕ := 1

/-- What the service throws. -/
inductive DepositError where
  | database
  | uniqueViolation
  | checkViolation
  | valueTooLong
  | noRow
  | ledger (e : LedgerFailure)
  | walletClosed
  | horizon
  | depositModeOff
  | invalidHash
  | mainnetBlocked
  | txNotFound
  | txFailed
  | wrongAsset
  | invalidAmount
  | wrongDestination
  | amountMismatch
  | unknownDestination
  | walletNotActive
  | depositCreateFailed
  | depositRejected
  deriving DecidableEq, Repr

/-- What the outside is at a step. -/
structure Outside where
  /-- Whether the transaction succeeded, when Horizon has it. -/
  successful : Option Bool := none
  operations : List Operation := []
  payments : List PaymentRecord := []
  account : Option OrgStellarAccount := none
  deriving DecidableEq, Repr

/-! ### The ledger steps of a deposit -/

/-- `String(hash || '').trim().toLowerCase()`. -/
def normalizeHash (hash : String) : String := (trim hash).toLower

/-- Source: `infraStellarDepositService.ts` `depositIdempotencyKey`. -/
def depositIdempotencyKey (hash : String) : String := "deposit:" ++ normalizeHash hash

inductive DepositStep where
  | pending
  | available
  deriving DecidableEq, Repr

namespace DepositStep

def op : DepositStep → LedgerOp
  | pending => .creditOrgWalletPending
  | available => .releasePendingToAvailable

def movementType : DepositStep → String
  | pending => "deposit_pending"
  | available => "deposit_credit"

def suffix : DepositStep → String
  | pending => ":pending"
  | available => ":available"

/-- The idempotency key of a step of a deposit. -/
def key (step : DepositStep) (hash : String) : String := "deposit:" ++ hash ++ step.suffix

/-- The ledger call of a step. -/
def params (step : DepositStep) (orgId environment : String) (v : VerifiedDepositPayment)
    (txId : ℕ) : LedgerWriteParams where
  orgId := orgId
  environment := environment
  amount := some v.amount
  idempotencyKey := step.key v.stellarTxHash
  movementType := step.movementType
  referenceType := "deposit"
  referenceId := toString txId
  reference := v.stellarTxHash

end DepositStep

/-! ### Statements -/

/-- The answer of a statement. -/
abbrev Ans (α : Type) := Except DepositError α

/-- The statements of the service. -/
inductive Query : Type → Type
  /-- `server.transactions().transaction(hash)`: whether it succeeded. -/
  | transaction (hash : String) : Query (Ans Bool)
  | operations (hash : String) : Query (Ans (List Operation))
  | paymentsFor (publicKey : String) (limit : ℕ) : Query (Ans (List PaymentRecord))
  | accountByPublicKey (publicKey : String) : Query (Ans (Option OrgStellarAccount))
  | accountOf (orgId environment : String) (network : Network) :
      Query (Ans (Option OrgStellarAccount))
  | getOrgBalance (orgId environment : String) : Query (Ans (Buckets ℚ))
  | depositByHash (hash : String) : Query (Ans (Option DepositRow))
  | insertDeposit (row : DepositRow) : Query (Ans DepositRow)
  /-- `SELECT … WHERE metadata->>'stellarTxHash' = hash AND metadata->>'type' = …`. -/
  | depositTransaction (orgId environment hash : String) : Query (Ans (Option ℕ))
  /-- The id is the one the insert returns. -/
  | insertTransaction (row : DepositTransaction) : Query (Ans ℕ)
  /-- `SET transaction_id = txId, status = 'pending_ledger'`. -/
  | assignTransaction (hash : String) (txId : ℕ) : Query (Ans Unit)
  /-- The update after the pending credit. -/
  | recordPending (hash : String) (movementId txId : ℕ) : Query (Ans Unit)
  | confirmDeposit (hash : String) (movementId : ℕ) : Query (Ans Unit)
  | settleTransaction (txId : ℕ) : Query (Ans Unit)
  | post (step : DepositStep) (orgId environment : String) (v : VerifiedDepositPayment)
      (txId : ℕ) : Query (Ans Posted)

namespace Tables

/-- The rows of `infra_transactions` of a deposit. -/
def transactionsOf (s : Tables) (hash : String) : List DepositTransaction :=
  s.transactions.filter (·.stellarTxHash = hash)

/-- Update the row of one deposit. -/
def setDeposit (s : Tables) (hash : String) (f : DepositRow → DepositRow) : Tables :=
  { s with deposits := Function.update s.deposits hash ((s.deposits hash).map f) }

/-- An insert into `infra_stellar_deposits`. The columns `stellar_tx_hash` and `idempotency_key`
are unique; the key of a row is a function of its hash. -/
def insertDeposit (s : Tables) (row : DepositRow) : Ans DepositRow × Tables :=
  if tooLong 64 row.stellarTxHash then (.error .valueTooLong, s)
  else if row.amount ≤ 0 then (.error .checkViolation, s)
  else if (s.deposits row.stellarTxHash).isSome then (.error .uniqueViolation, s)
  else (.ok row, { s with deposits := Function.update s.deposits row.stellarTxHash (some row) })

/-- Run a ledger operation on the tables. -/
def post (s : Tables) (op : LedgerOp) (p : LedgerWriteParams) : Ans Posted × Tables :=
  match postLedger op.rule p s.ledger with
  | (.ok r, l) => (.ok r, { s with ledger := l })
  | (.error e, l) => (.error (.ledger e), { s with ledger := l })

/-- Source: `infraLedgerService.ts` `getOrgBalance`. -/
def getOrgBalance (s : Tables) (k : WalletKey) : Ans (Buckets ℚ) × Tables :=
  match Tx.commit (ensureWalletAccount k) s.ledger with
  | (.error e, _) => (.error (.ledger e), s)
  | (.ok row, l) =>
      if row.status = .closed then (.error .walletClosed, { s with ledger := l })
      else (.ok row.read, { s with ledger := l })

end Tables

/-- One statement, when it gets there. -/
def Query.run {β : Type} (st : Query β) (o : Outside) (s : Tables) : β × Tables :=
  match st with
  | .transaction _ =>
      match o.successful with
      | none => (.error .horizon, s)
      | some successful => (.ok successful, s)
  | .operations _ => (.ok o.operations, s)
  | .paymentsFor _ limit => (.ok (o.payments.take limit), s)
  | .accountByPublicKey publicKey => (.ok (o.account.filter (·.publicKey = publicKey)), s)
  | .accountOf orgId environment _ =>
      (.ok (o.account.filter fun a => a.orgId = orgId && a.environment = environment), s)
  | .getOrgBalance orgId environment =>
      s.getOrgBalance ⟨orgId, normalizeEnv environment, normalizeAsset none⟩
  | .depositByHash hash => (.ok (s.deposits hash), s)
  | .insertDeposit row => s.insertDeposit row
  | .depositTransaction orgId environment hash =>
      (.ok ((s.transactions.find? fun t => t.orgId = orgId && t.environment = environment &&
        t.stellarTxHash = hash).map (·.id)), s)
  | .insertTransaction row =>
      (.ok s.nextId,
        { s with transactions := { row with id := s.nextId } :: s.transactions
                 nextId := s.nextId + 1 })
  | .assignTransaction hash txId =>
      (.ok (), s.setDeposit hash fun d =>
        { d with transactionId := some txId, status := .pendingLedger })
  | .recordPending hash movementId txId =>
      (.ok (), s.setDeposit hash fun d =>
        { d with
          ledgerPendingMovementId := d.ledgerPendingMovementId <|> some movementId
          transactionId := d.transactionId <|> some txId
          status := if d.status = .confirmed then d.status else .pendingLedger })
  | .confirmDeposit hash movementId =>
      (.ok (), s.setDeposit hash fun d =>
        { d with
          status := .confirmed
          ledgerAvailableMovementId := d.ledgerAvailableMovementId <|> some movementId })
  | .settleTransaction txId =>
      (.ok (), { s with transactions := s.transactions.map fun t =>
        if t.id = txId then { t with status := "settled" } else t })
  | .post step orgId environment v txId => s.post step.op (step.params orgId environment v txId)

/-- The answer of a statement that fails. -/
def Query.fail {β : Type} (st : Query β) (e : DepositError) : β :=
  match st with
  | .transaction .. | .operations .. | .paymentsFor .. | .accountByPublicKey .. => .error e
  | .accountOf .. | .getOrgBalance .. | .depositByHash .. | .insertDeposit .. => .error e
  | .depositTransaction .. | .insertTransaction .. | .assignTransaction .. => .error e
  | .recordPending .. | .confirmDeposit .. | .settleTransaction .. | .post .. => .error e

/-- The database of deposits, with Horizon. -/
def backend : Backend Query Outside DepositError Tables where
  run _ st o s := st.run o s
  fail st e := st.fail e

/-- A call of the service. -/
abbrev Call := ExceptT DepositError (Prog Query)

/-- One statement; its failure is thrown. -/
def sql {β : Type} (st : Query (Ans β)) : Call β := Backend.call st

/-! ### Verification -/

/-- `/^[a-f0-9]{64}$/`. -/
def isTxHash (hash : String) : Bool :=
  hash.length = 64 && hash.toList.all fun c => ('a' ≤ c && c ≤ 'f') || ('0' ≤ c && c ≤ '9')

/-- `/^G[A-Z0-9]{55}$/`. -/
def isPublicKey (key : String) : Bool :=
  key.length = 56 && startsWith key "G" &&
    key.toList.all fun c => ('A' ≤ c && c ≤ 'Z') || ('0' ≤ c && c ≤ '9')

/-- The request of `processExternalDepositByHash`. -/
structure DepositRequest where
  stellarTxHash : String
  expectedDestination : Option String := none
  expectedAmount : Option ℚ := none
  stopAfterPending : Bool := false
  mockPayment : Option VerifiedDepositPayment := none
  deriving DecidableEq, Repr

/-- The payment of a transaction, as it is credited: the checks after Horizon has answered. -/
def checkPayment (cfg : Config) (hash : String) (r : DepositRequest) (payment : Operation) :
    Except DepositError VerifiedDepositPayment :=
  let destination := trim payment.destination
  match payment.amount.map round7 with
  | none => .error .invalidAmount
  | some amount =>
      if amount ≤ 0 then .error .invalidAmount
      else if (orNull r.expectedDestination).any (· ≠ destination) then .error .wrongDestination
      else if r.expectedAmount.any fun e => nearest (1 / 10 ^ 7) < |nearest (amount - e)| then
        .error .amountMismatch
      else .ok {
        stellarTxHash := hash
        sourcePublicKey := orNull (payment.source.map trim)
        destinationPublicKey := destination
        amount := amount
        assetIssuer := cfg.usdcIssuer
        network := cfg.network }

/-- Source: `infraStellarDepositService.ts` `verifyExternalUsdcDeposit`. -/
def verifyExternalUsdcDeposit (cfg : Config) (r : DepositRequest) :
    Call VerifiedDepositPayment := do
  let hash := normalizeHash r.stellarTxHash
  if isTxHash hash = false then throw .invalidHash
  else if cfg.isTestnet = false ∧ cfg.mode = .live then throw .mainnetBlocked
  else do
    let successful ← tryCatch (sql (.transaction hash)) fun _ => throw .txNotFound
    if successful = false then throw .txFailed
    else do
      let ops ← sql (.operations hash)
      let usdc := ops.find? fun op => op.type = "payment" && op.assetCode.toUpper = "USDC" &&
        op.assetIssuer = cfg.usdcIssuer
      match usdc with
      | none => throw .wrongAsset
      | some payment =>
          match checkPayment cfg hash r payment with
          | .error e => throw e
          | .ok v => pure v

/-! ### Crediting -/

/-- Source: `infraStellarDepositService.ts` `getDepositByHash`. -/
def getDepositByHash (hash : String) : Call (Option DepositRow) :=
  sql (.depositByHash (normalizeHash hash))

/-- Source: `infraStellarAccountService.ts` `findOrgStellarAccountByPublicKey`. -/
def findOrgStellarAccountByPublicKey (publicKey : String) : Call (Option OrgStellarAccount) :=
  if isPublicKey (trim publicKey) then sql (.accountByPublicKey (trim publicKey)) else pure none

/-- Source: `infraStellarDepositService.ts` `ensureDepositTransaction`. -/
def ensureDepositTransaction (orgId environment : String) (v : VerifiedDepositPayment) :
    Call ℕ := do
  match ← sql (.depositTransaction orgId environment v.stellarTxHash) with
  | some id => pure id
  | none => sql (.insertTransaction {
      id := 0
      orgId := orgId
      environment := environment
      amount := v.amount
      status := "processing"
      externalId := "stellar-deposit:" ++ v.stellarTxHash
      stellarTxHash := v.stellarTxHash })

/-- The row `creditVerifiedDeposit` inserts. -/
def VerifiedDepositPayment.row (v : VerifiedDepositPayment) (orgId environment : String) :
    DepositRow where
  orgId := orgId
  environment := environment
  stellarTxHash := v.stellarTxHash
  sourcePublicKey := v.sourcePublicKey
  destinationPublicKey := v.destinationPublicKey
  assetIssuer := v.assetIssuer
  amount := v.amount
  network := v.network
  status := .verified
  idempotencyKey := depositIdempotencyKey v.stellarTxHash

/-- The deposit row a run works on: the one it read, the one it inserts, or, when another run
has inserted it in between, the one it reads then. -/
def ensureDeposit (v : VerifiedDepositPayment) (orgId environment : String)
    (existing : Option DepositRow) : Call DepositRow := do
  let existing ← match existing with
    | some d => pure (some d)
    | none => tryCatch (do
          let row ← sql (.insertDeposit (v.row orgId environment))
          pure (some row)) fun e =>
        if e = .uniqueViolation then getDepositByHash v.stellarTxHash else throw e
  match existing with
  | none => throw .depositCreateFailed
  | some d =>
      if d.status = .rejected ∨ d.status = .failed then throw .depositRejected else pure d

/-- The transaction of a deposit, recorded on the deposit row when that has none. -/
def assignedTransaction (v : VerifiedDepositPayment) (orgId environment : String)
    (existing : DepositRow) : Call ℕ := do
  match existing.transactionId with
  | some txId => pure txId
  | none =>
      let txId ← ensureDepositTransaction orgId environment v
      sql (.assignTransaction existing.stellarTxHash txId)
      pure txId

inductive LedgerPhase where
  | pending
  | available
  deriving DecidableEq, Repr

/-- What `creditVerifiedDeposit` returns. -/
structure Credit where
  deposit : Option DepositRow
  ledgerPhase : LedgerPhase
  balance : Buckets ℚ
  duplicate : Bool
  deriving DecidableEq, Repr

/-- The release to available, and the end of the deposit. -/
def releaseDeposit (v : VerifiedDepositPayment) (orgId environment : String)
    (existing : DepositRow) (txId : ℕ) (pending : Posted) : Call Credit := do
  let available ← sql (.post .available orgId environment v txId)
  sql (.confirmDeposit existing.stellarTxHash available.movement.id)
  sql (.settleTransaction txId)
  let deposit ← getDepositByHash v.stellarTxHash
  let balance ← sql (.getOrgBalance orgId environment)
  pure ⟨deposit, .available, balance, pending.duplicate && available.duplicate⟩

/-- Source: `infraStellarDepositService.ts` `creditVerifiedDeposit`. -/
def creditVerifiedDeposit (v : VerifiedDepositPayment) (orgAccount : Option OrgStellarAccount)
    (stopAfterPending : Bool) : Call Credit := do
  let existing ← getDepositByHash v.stellarTxHash
  match existing.filter (·.status = .confirmed) with
  | some d =>
      let balance ← sql (.getOrgBalance d.orgId d.environment)
      pure ⟨some d, .available, balance, true⟩
  | none =>
      let orgAccount ← match orgAccount with
        | some a => pure (some a)
        | none => findOrgStellarAccountByPublicKey v.destinationPublicKey
      match orgAccount with
      | none => throw .unknownDestination
      | some a =>
          if a.status ≠ "active" then throw .walletNotActive
          else if a.publicKey ≠ v.destinationPublicKey then throw .wrongDestination
          else do
            let env := asEnv a.environment
            let existing ← ensureDeposit v a.orgId env existing
            let txId ← assignedTransaction v a.orgId env existing
            let pending ← sql (.post .pending a.orgId env v txId)
            sql (.recordPending existing.stellarTxHash pending.movement.id txId)
            if stopAfterPending then do
              let balance ← sql (.getOrgBalance a.orgId env)
              let deposit ← getDepositByHash v.stellarTxHash
              pure ⟨deposit, .pending, balance, pending.duplicate⟩
            else releaseDeposit v a.orgId env existing txId pending

/-- What `processExternalDepositByHash` returns. -/
structure Processed extends Credit where
  verified : VerifiedDepositPayment
  deriving DecidableEq, Repr

/-- Source: `infraStellarDepositService.ts` `processExternalDepositByHash`. -/
def processExternalDepositByHash (cfg : Config) (r : DepositRequest) : Call Processed := do
  if cfg.mode = .off then throw .depositModeOff
  else do
    let verified ← match r.mockPayment.filter fun _ => cfg.mode = .mock with
      | some v => pure v
      | none => verifyExternalUsdcDeposit cfg r
    let credit ← creditVerifiedDeposit verified none r.stopAfterPending
    pure ⟨credit, verified⟩

/-! ### Polling -/

/-- An entry of the poller's `errors`. -/
inductive PollNote where
  | depositModeOff
  | orgWalletNotActive
  | mockMode
  | thrown (e : DepositError)
  deriving DecidableEq, Repr

/-- What `pollOrgStellarDeposits` returns. -/
structure PollResult where
  scanned : ℕ := 0
  processed : ℕ := 0
  credited : ℕ := 0
  duplicates : ℕ := 0
  skipped : ℕ := 0
  errors : List PollNote := []
  deposits : List (Option DepositRow) := []
  deriving DecidableEq, Repr

/-- The records the poller skips. -/
def PaymentRecord.skipped (cfg : Config) (publicKey : String) (r : PaymentRecord) : Bool :=
  r.type ≠ "payment" || r.destination ≠ publicKey || r.source = publicKey ||
    r.assetCode.toUpper ≠ "USDC" || r.assetIssuer ≠ cfg.usdcIssuer || r.transactionHash.toLower = ""

/-- The result after one more deposit. -/
def PollResult.add (result : PollResult) (processed : Processed) : PollResult :=
  { result with
    processed := result.processed + 1
    deposits := result.deposits ++ [processed.deposit]
    duplicates := result.duplicates + if processed.duplicate then 1 else 0
    credited := result.credited +
      if !processed.duplicate && processed.ledgerPhase = .available then 1 else 0 }

/-- The loop over a page of payments. -/
def pollRecords (cfg : Config) (publicKey : String) :
    List PaymentRecord → PollResult → Call PollResult
  | [], result => pure result
  | record :: records, result => do
      let result := { result with scanned := result.scanned + 1 }
      if record.skipped cfg publicKey then
        pollRecords cfg publicKey records { result with skipped := result.skipped + 1 }
      else do
        let result ← tryCatch (do
            let processed ← processExternalDepositByHash cfg {
              stellarTxHash := record.transactionHash.toLower
              expectedDestination := publicKey }
            pure (result.add processed)) fun e =>
          pure { result with errors := result.errors ++ [.thrown e] }
        pollRecords cfg publicKey records result

/-- `Math.min(limit || 50, 200)`. -/
def pageLimit (limit : Option ℕ) : ℕ := min ((limit.filter (· ≠ 0)).getD 50) 200

/-- Source: `infraStellarDepositService.ts` `pollOrgStellarDeposits`. -/
def pollOrgStellarDeposits (cfg : Config) (orgId environment : String) (limit : Option ℕ) :
    Call PollResult := do
  if cfg.mode = .off then pure { errors := [.depositModeOff] }
  else do
    match ← sql (.accountOf orgId (asEnv environment) cfg.network) with
    | none => pure { errors := [.orgWalletNotActive] }
    | some account =>
        if account.status ≠ "active" then pure { errors := [.orgWalletNotActive] }
        else if cfg.mode = .mock then pure { errors := [.mockMode] }
        else if cfg.isTestnet = false then throw .mainnetBlocked
        else do
          let records ← sql (.paymentsFor account.publicKey (pageLimit limit))
          pollRecords cfg account.publicKey records {}

end DayfiBackend.Infra.Deposits
