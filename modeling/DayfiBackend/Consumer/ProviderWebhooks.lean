import DayfiBackend.Consumer.FlutterwaveDeposits
import DayfiBackend.Consumer.PaymentVerification
import DayfiBackend.Infra.Lifecycle

/-!
# Webhooks of the payment providers

Five routes take webhooks: those of Yellow Card, of Grey (two, the older one under the name of
Fincra), of Flutterwave, and one for transfers. Yellow Card's checks a signature when there is one,
Grey's when Grey is configured, and the others check nothing. `OnlyAuthentic` says that a request
that is not authentic leaves the tables as they are; `only_authentic_iff` says for which routes,
configurations and requests that is so.

What `JSON.stringify` makes of a body and the digests of `node:crypto` are a parameter (`Node`).
-/

namespace DayfiBackend.Consumer.Webhooks

open DayfiBackend.Found DayfiBackend.Found.Prog DayfiBackend.Found.Keys
open DayfiBackend.Infra (ProviderStatus)

/-! ### Requests -/

/-- A value, as `Number` reads it: none when that is not finite. -/
abbrev Numeric := Option ℚ

/-- The body of a Yellow Card webhook. -/
structure YellowCardBody extends Infra.YellowCardWebhookPayload where
  amount : Option Numeric := none
  localAmount : Option Numeric := none
  usdAmount : Option Numeric := none
  currency : Option String := none
  deriving DecidableEq, Repr

/-- The fields of a Grey webhook that stand in `data` or in the body itself. -/
structure GreyFields where
  amount : Option Numeric := none
  receivedAmount : Option Numeric := none
  currency : Option String := none
  sourceCurrency : Option String := none
  reference : Option String := none
  transactionReference : Option String := none
  id : Option String := none
  deriving DecidableEq, Repr

/-- The body of a Grey webhook. -/
structure GreyBody where
  own : GreyFields := {}
  data : Option GreyFields := none
  userId : Option String := none
  customerReference : Option String := none
  customerId : Option String := none
  metadataUserId : Option String := none
  deriving DecidableEq, Repr

/-- A body, as each handler reads it. -/
structure Body where
  yellowCard : YellowCardBody := {}
  grey : GreyBody := {}
  flutterwave : FlutterwaveDeposits.WebhookBody := {}
  transfer : Option PaymentVerification.Transfer := none
  deriving DecidableEq, Repr

/-- The headers: `x-yc-signature`, `x-grey-signature`, `x-webhook-signature`, and Flutterwave's
`verif-hash`. -/
structure Headers where
  yellowCardSignature : Option String := none
  greySignature : Option String := none
  webhookSignature : Option String := none
  verifHash : Option String := none
  deriving DecidableEq, Repr

/-- The routes. Source: `routes.ts`. -/
inductive Route where
  /-- `/payments/yc-webhook`. -/
  | yellowCard
  /-- `/payments/grey/webhook`. -/
  | grey
  /-- `/payments/fincra/webhook`. -/
  | fincra
  /-- `/payments/webhooks/flutterwave`. -/
  | flutterwave
  /-- `/payments/webhook`. -/
  | payment
  deriving DecidableEq, Repr

/-- A request. -/
structure Request where
  route : Route
  headers : Headers := {}
  body : Body := {}
  deriving DecidableEq, Repr

/-- The configuration, trimmed; what is not set is empty. `verifHash` is the secret hash that is
set at Flutterwave, which the code does not have. -/
structure Config where
  yellowCardSecret : String := ""
  greyApiKey : String := ""
  greyBaseUrl : String := ""
  greyWebhookSecret : String := ""
  nodeEnv : String := ""
  verifHash : String := ""
  deriving DecidableEq, Repr

/-- What `JSON.stringify` and `createHmac` compute, the digest of a text under a secret. -/
structure Node where
  stringify : Body → String
  hmacBase64 : String → String → String
  hmacHex : String → String → String

/-- A header that is not empty. -/
def truthy (header : Option String) : Bool := (orNull header).isSome

/-! ### Signatures -/

/-- Source: `yellowCardWebhook.ts` `verifyYellowCardWebhookSignature`. -/
def verifyYellowCardWebhookSignature (N : Node) (rawBody : String) (signature : Option String)
    (secret : String) : Bool :=
  let provided := trim (signature.getD "")
  if secret = "" || provided = "" then false
  else provided = N.hmacBase64 secret rawBody

/-- Source: `greyService.ts` `isConfigured`. -/
def Config.greyConfigured (config : Config) : Bool :=
  config.greyApiKey ≠ "" && config.greyBaseUrl ≠ ""

/-- `signature.replace(/^sha256=/i, '').trim()`. -/
def normalized (signature : String) : String :=
  trim (if startsWith signature.toLower "sha256=" then String.ofList (signature.toList.drop 7)
    else signature)

/-- Source: `greyService.ts` `verifyWebhookSignature`. -/
def verifyGreyWebhookSignature (N : Node) (config : Config) (rawBody : String)
    (signature : Option String) : Bool :=
  if config.greyWebhookSecret = "" then config.nodeEnv ≠ "production"
  else
    match orNull signature with
    | none => false
    | some signature => normalized signature = N.hmacHex config.greyWebhookSecret rawBody

/-- The signature that Grey's handler looks at. -/
def Headers.grey (headers : Headers) : Option String :=
  headers.greySignature <|> headers.webhookSignature

/-! ### Tables -/

/-- Source: table `wallet_transactions`, as far as the webhooks read it. -/
structure TransactionRow where
  id : String
  userId : String
  status : String
  paymentSequenceId : Option String := none
  externalReference : Option String := none
  collectionSequenceId : Option String := none
  deriving DecidableEq, Repr

/-- The ledger, and the transactions. -/
abbrev Store := Accounts × List TransactionRow

/-- What the handlers answer or throw. -/
inductive WebhookError where
  | invalidSignature
  | missingSequenceId
  | invalidPayload
  | transactionNotFound
  | referenceRequired
  | ledger (e : Err)
  | database
  deriving DecidableEq, Repr

abbrev Ans (α : Type) := Except WebhookError α

/-- The statements beside those of the ledger. -/
inductive TransactionSql : Type → Type
  | getWalletTransactionById (id : String) : TransactionSql (Ans (Option TransactionRow))
  | updateWalletTransaction (id status : String) : TransactionSql (Ans (Option TransactionRow))
  | updateWalletTransactionPayment (id status : String) :
      TransactionSql (Ans (Option TransactionRow))
  | updateWalletTransactionPaymentByRef (id status : String) :
      TransactionSql (Ans (Option TransactionRow))
  | reversalByReference (userId reference : String) : TransactionSql (Ans (Option MovementRow))
  | debitByReference (userId reference : String) : TransactionSql (Ans (Option MovementRow))

/-- `UPDATE wallet_transactions SET status = … WHERE … RETURNING *`. -/
def setStatus (rows : List TransactionRow) (which : TransactionRow → Bool) (status : String) :
    Option TransactionRow × List TransactionRow :=
  let updated := rows.map fun r => if which r then { r with status := status } else r
  (updated.find? which, updated)

/-- `external_reference = … OR id = … OR collection_sequence_id = …`. -/
def TransactionRow.refersTo (r : TransactionRow) (id : String) : Bool :=
  r.externalReference = some id || r.id = id || r.collectionSequenceId = some id

/-- The prefix of the keys of Yellow Card sends, and of their reversals. -/
def sendKey (collectionId : String) : String := buildIdempotencyKey "yc_send" collectionId

/-- One statement, when it gets there. The credits that carry `metadata.reversal` are those under
the keys of sends. -/
def TransactionSql.run {β : Type} (st : TransactionSql β) (s : Store) : β × Store :=
  match st with
  | .getWalletTransactionById id => (.ok (s.2.find? (·.id = id)), s)
  | .updateWalletTransaction id status =>
      let r := setStatus s.2 (·.id = id) status
      (.ok r.1, s.1, r.2)
  | .updateWalletTransactionPayment id status =>
      let r := setStatus s.2 (·.paymentSequenceId = some id) status
      (.ok r.1, s.1, r.2)
  | .updateWalletTransactionPaymentByRef id status =>
      let r := setStatus s.2 (·.refersTo id) status
      (.ok r.1, s.1, r.2)
  | .reversalByReference userId reference =>
      (.ok (s.1.movements.find? fun m => m.userId = userId && m.direction = .credit &&
        m.externalReference = some reference && startsWith m.idempotencyKey (sendKey "")), s)
  | .debitByReference userId reference =>
      (.ok (s.1.movements.find? fun m => m.userId = userId && m.direction = .debit &&
        m.source = .yellowcard && m.externalReference = some reference), s)

/-- The answer of a statement that fails. -/
def TransactionSql.fail {β : Type} (st : TransactionSql β) (e : WebhookError) : β :=
  match st with
  | .getWalletTransactionById _ | .updateWalletTransaction .. => .error e
  | .updateWalletTransactionPayment .. | .updateWalletTransactionPaymentByRef .. => .error e
  | .reversalByReference .. | .debitByReference .. => .error e

/-- The statements over all tables. -/
def transactions : Backend TransactionSql Outside WebhookError Store where
  run _ st _ s := st.run s
  fail st e := st.fail e

/-- The transactions beside the ledger. -/
def server : Backend (Beside Query TransactionSql) Outside WebhookError Store :=
  accounts.beside transactions id .database

/-- A call of a handler. -/
abbrev HookCall := ExceptT WebhookError (Prog (Beside Query TransactionSql))

/-- A call of the ledger. -/
def ledger {β : Type} (p : Call β) : HookCall β := inside WebhookError.ledger p

/-- One statement; its failure is thrown. -/
def sql {β : Type} (st : TransactionSql (Ans β)) : HookCall β := ownCall st

/-! ### Inflows -/

/-- Source: `inflowService.ts` `creditUsdInflow`. -/
def creditUsdInflow (userId : String) (usdWalletId : ℕ) (amount : Numeric) (fromCurrency : String)
    (source : LedgerSource) (name externalReference : String) : HookCall Unit :=
  let key := buildIdempotencyKey name externalReference
  match amount with
  | some amount => do
      let _ ← ledger (creditUsdBalance {
        userId := userId
        walletId := usdWalletId
        amount := amount
        currency := fromCurrency
        source := source
        idempotencyKey := key
        externalReference := some externalReference })
      pure ()
  | none => do
      -- what is not a number is thrown out once no movement is found
      match ← ledger (Consumer.sql (.findMovementByKey key)) with
      | some _ => pure ()
      | none => throw (.ledger .invalidAmount)

/-- Source: `services.ts` `creditWalletInflow`, `creditUnifiedUsdInflow`. -/
def creditWalletInflow (userId : String) (amount : Numeric) (fromCurrency : String)
    (source : LedgerSource) (name externalReference : String) : HookCall Unit :=
  if externalReference = "" then throw .referenceRequired
  else do
    let usdWallet ← ledger (ensureWalletForCurrency userId primaryCurrency)
    creditUsdInflow userId usdWallet.walletId amount fromCurrency source name externalReference

/-! ### Yellow Card -/

/-- The status of a transaction. Source: `yellowCardStatus.ts` `mapYellowCardProviderStatus`. -/
def paymentStatus : ProviderStatus → String
  | .success => "success-payment"
  | .failed => "failed-payment"
  | .pending => "pending-payment"

/-- Source: `balanceService.ts` `reverseYellowCardWalletDebit`. -/
def reverseYellowCardWalletDebit (userId collectionSequenceId : String) : HookCall Unit :=
  let userId := trim userId
  let collectionId := trim collectionSequenceId
  let reversalReference := collectionId ++ "-reversal"
  if userId = "" || collectionId = "" then pure ()
  else do
    match ← ledger (Consumer.sql (.findMovementByKey (sendKey collectionId ++ "-reversal"))) with
    | some _ => pure ()
    | none => do
        match ← sql (.reversalByReference userId reversalReference) with
        | some _ => pure ()
        | none => do
            match ← sql (.debitByReference userId collectionId) with
            | none => pure ()
            | some debit =>
                if debit.usdEquivalent ≤ 0 then pure ()
                else do
                  let _ ← ledger (creditUsdBalance {
                    userId := userId
                    walletId := debit.walletId
                    amount := decimal debit.usdEquivalent
                    source := .yellowcard
                    idempotencyKey := sendKey collectionId ++ "-reversal"
                    externalReference := some reversalReference })
                  pure ()

/-- Source: `services.ts` `reverseFailedYellowCardSendIfNeeded`. -/
def reverseFailedYellowCardSendIfNeeded (tx : TransactionRow) : HookCall Unit :=
  let userId := trim tx.userId
  let own := if startsWith tx.id "wt-" then String.ofList (tx.id.toList.drop 3) else ""
  let collectionId := orDefault (some (trim (tx.collectionSequenceId.getD ""))) own
  if userId = "" || collectionId = "" then pure ()
  else reverseYellowCardWalletDebit userId collectionId

/-- The row that a text names, its status set.
Source: `services.ts` `updateTransactionPaymentStatus`. -/
def updatedRow (id status : String) : HookCall (Option TransactionRow) := do
  match ← sql (.updateWalletTransactionPayment id status) with
  | some row => pure (some row)
  | none => sql (.updateWalletTransactionPaymentByRef id status)

/-- Source: `services.ts` `updateTransactionPaymentStatus`. -/
def updateTransactionPaymentStatus (id status : String) : HookCall Unit := do
  let tx ← sql (.getWalletTransactionById id)
  if tx.any (·.status = status) then pure ()
  else do
    match ← updatedRow id status with
    | none => pure ()
    | some row =>
        if status = "failed-payment" then
          tryCatch (reverseFailedYellowCardSendIfNeeded row) fun _ => pure ()
        else pure ()

/-- Source: `services.ts` `completeCollectionInflow`. -/
def completeCollectionInflow (sequenceId : String) (amount : Numeric) (currency : Option String)
    (usdAmount : Option Numeric) : HookCall Unit := do
  match ← sql (.getWalletTransactionById sequenceId) with
  | none => throw .transactionNotFound
  | some tx =>
      if tx.userId = "" then throw .transactionNotFound
      else if startsWith tx.status "success-collection" then pure ()
      else do
        let fromCurrency := (currency.getD primaryCurrency).toUpper
        creditWalletInflow tx.userId (usdAmount.getD amount) fromCurrency .yellowcard "yellowcard"
          sequenceId
        let _ ← sql (.updateWalletTransaction sequenceId "success-collection")
        pure ()

/-- Source: `yellowCardWebhook.ts` `isYellowCardSendWebhookEvent`. -/
def isYellowCardSendWebhookEvent (event : String) : Bool :=
  startsWith event.toUpper "PAYMENT." || startsWith event.toUpper "SEND."

/-- A webhook of a collection. Source: `controller.ts` `webhook`. -/
def receiveWebhook (body : YellowCardBody) (sequenceId event : String) : HookCall Unit :=
  let upper := event.toUpper
  if endsWith upper ".COMPLETE" then
    completeCollectionInflow sequenceId ((body.amount.or body.localAmount).getD none) body.currency
      body.usdAmount
  else if endsWith upper ".FAILED" || endsWith upper ".EXPIRED" ||
      endsWith upper ".CANCELLED" then do
    let _ ← sql (.updateWalletTransaction sequenceId "failed-collection")
    pure ()
  else pure ()

/-- What a webhook of Yellow Card does, once it is let in. Source: `controller.ts` `webhook`. -/
def applyWebhook (body : YellowCardBody) : HookCall Unit :=
  let event := trim (body.event.getD "")
  let sequenceId := trim (body.sequenceId.getD "")
  let update : HookCall Unit :=
    match Infra.resolveWalletStatusFromYellowCardWebhook body.toYellowCardWebhookPayload with
    | none => pure ()
    | some walletStatus => updateTransactionPaymentStatus sequenceId (paymentStatus walletStatus)
  if sequenceId = "" then throw .missingSequenceId
  else if isYellowCardSendWebhookEvent event then update
  else if Infra.isYellowCardReceiveWebhookEvent event then receiveWebhook body sequenceId event
  else update

/-- Source: `controller.ts` `webhook`. -/
def webhook (N : Node) (config : Config) (r : Request) : HookCall Unit :=
  let signature := r.headers.yellowCardSignature
  if truthy signature && !verifyYellowCardWebhookSignature N (N.stringify r.body) signature
      config.yellowCardSecret then
    throw .invalidSignature
  else applyWebhook r.body.yellowCard

/-! ### Grey -/

/-- A deposit that Grey reports. -/
structure Collection where
  userId : String
  amount : ℚ
  currency : String
  reference : String
  deriving DecidableEq, Repr

/-- Source: `greyService.ts` `parseCollectionWebhook`. -/
def parseCollectionWebhook (body : GreyBody) : Option Collection :=
  let data := body.data.getD body.own
  let userId := trim ((((body.userId.or body.customerReference).or body.customerId).or
    body.metadataUserId).getD "")
  let amount := (((data.amount.or data.receivedAmount).or body.own.amount).or
    body.own.receivedAmount).getD none
  let currency := currencyCode (((data.currency.or data.sourceCurrency).or
    body.own.currency).getD "USD")
  let reference := trim (((((data.reference.or data.transactionReference).or data.id).or
    body.own.reference).or body.own.id).getD "")
  match amount with
  | none => none
  | some amount =>
      if userId = "" || reference = "" || amount ≤ 0 then none
      else some ⟨userId, amount, currency, reference⟩

/-- What a webhook of Grey does, once it is let in. Source: `controller.ts` `greyWebhook`. -/
def creditCollection (body : GreyBody) : HookCall Unit :=
  match parseCollectionWebhook body with
  | none => throw .invalidPayload
  | some parsed =>
      creditWalletInflow parsed.userId (some parsed.amount) parsed.currency .grey "grey"
        parsed.reference

/-- Source: `controller.ts` `greyWebhook`. -/
def greyWebhook (N : Node) (config : Config) (r : Request) : HookCall Unit :=
  if config.greyConfigured && !verifyGreyWebhookSignature N config (N.stringify r.body)
      r.headers.grey then
    throw .invalidSignature
  else creditCollection r.body.grey

/-! ### Flutterwave -/

/-- What the handler of Flutterwave's webhooks throws. -/
inductive DepositHookError where
  | infra (e : Infra.Err)
  | deposit (e : FlutterwaveDeposits.DepositError)

/-- The statements of the organisations' payments, beside those of the deposits. -/
abbrev DepositHookSql := Beside Infra.Sql (Beside Query FlutterwaveDeposits.DepositSql)

/-- The organisations' tables, and those of the deposits. -/
abbrev DepositStore := Infra.Store × FlutterwaveDeposits.Store

/-- Both services. -/
def depositServices :
    Machine DepositHookSql
      (Infra.Outside × Except FlutterwaveDeposits.DepositError FlutterwaveDeposits.Outside)
      DepositStore :=
  Infra.services.beside FlutterwaveDeposits.server.machine

/-- A call of both services. -/
abbrev DepositHookCall := ExceptT DepositHookError (Prog DepositHookSql)

/-- What the services of the organisations read of a deposit. -/
def chargeOf (body : FlutterwaveDeposits.WebhookBody) (p : FlutterwaveDeposits.DepositPayload) :
    Infra.FlutterwavePayload where
  txRef := (((body.data.getD body.own).txRef).or body.own.txRef).getD p.reference
  amount := some p.amount
  currency := some p.currency

/-- Source: `controller.ts` `flutterwaveWebhook`. -/
def flutterwaveWebhook (body : FlutterwaveDeposits.WebhookBody) : DepositHookCall Unit :=
  match FlutterwaveDeposits.parseFlutterwaveDepositWebhook body with
  | none => pure ()
  | some payload => do
      let infraResult ← embedCall Beside.inner DepositHookError.infra
        (Infra.applyInfraFlutterwaveWebhook (chargeOf body payload))
      if infraResult ≠ .unhandled then pure ()
      else do
        let _ ← embedCall Beside.own DepositHookError.deposit
          (FlutterwaveDeposits.processFlutterwaveDeposit payload)
        pure ()

/-! ### The property -/

/-- A program leaves the tables as they are: from any that are considered, and whatever the outside
does. -/
def Leaves {I : Type → Type} {ω σ α : Type} (M : Machine I ω σ) (ok : σ → Prop) (p : Prog I α) :
    Prop := ∀ s, ok s → ∀ i os, (p.advance M i os s).2 = s

/-- A request leaves the tables as they are. Those of the transfers are as the migrations have
left them. -/
def Request.LeavesTables (N : Node) (config : Config) (r : Request) : Prop :=
  match r.route with
  | .yellowCard => Leaves server.machine (fun _ => True) (webhook N config r).run
  | .grey | .fincra => Leaves server.machine (fun _ => True) (greyWebhook N config r).run
  | .flutterwave =>
      Leaves depositServices (fun _ => True) (flutterwaveWebhook r.body.flutterwave).run
  | .payment => Leaves PaymentVerification.server.machine
      (fun s => s.columns = PaymentVerification.walletTransactionColumns)
      (PaymentVerification.processWebhookData r.body.transfer).run

/-- The header that a route's provider puts its signature or secret in. -/
def Request.signature (r : Request) : Option String :=
  match r.route with
  | .yellowCard => r.headers.yellowCardSignature
  | .grey | .fincra => r.headers.grey
  | .flutterwave | .payment => r.headers.verifHash

/-- A request carries a signature or secret of its route's provider. -/
def Request.Authentic (N : Node) (config : Config) (r : Request) : Prop :=
  match r.route with
  | .yellowCard => config.yellowCardSecret ≠ "" ∧ ∃ signature ∈ r.signature,
      trim signature = N.hmacBase64 config.yellowCardSecret (N.stringify r.body)
  | .grey | .fincra => config.greyWebhookSecret ≠ "" ∧ ∃ signature ∈ r.signature,
      normalized signature = N.hmacHex config.greyWebhookSecret (N.stringify r.body)
  | .flutterwave | .payment => config.verifHash ≠ "" ∧ r.signature = some config.verifHash

/-- Only authentic requests to a route change anything, of those with a signature header or of
those without. -/
def OnlyAuthentic (N : Node) (config : Config) (route : Route) (signed : Bool) : Prop :=
  ∀ r : Request, r.route = route → truthy r.signature = signed → ¬ r.Authentic N config →
    r.LeavesTables N config

/-- The route checks a request: Yellow Card's when there is a signature header, Grey's when Grey is
configured, with a secret or in production; and the lookup of a transfer fails. -/
def Route.Checks (config : Config) (signed : Bool) : Route → Bool
  | yellowCard => signed
  | grey | fincra => config.greyConfigured &&
      (config.greyWebhookSecret ≠ "" || config.nodeEnv = "production")
  | flutterwave => false
  | payment => true

/-! ### Requests that are let in -/

/-- A collection is complete. -/
def collected : YellowCardBody where
  sequenceId := some "t1"
  event := some "COLLECTION.COMPLETE"
  amount := some (some 100)

/-- A deposit with Grey. -/
def greyDeposit : GreyBody where
  own := {
    amount := some (some 100)
    reference := some "g1" }
  userId := some "u1"

/-- A bank transfer to a user's naira account. -/
def bankTransfer : FlutterwaveDeposits.WebhookBody where
  event := some "charge.completed"
  own := {
    amount := some 100
    txRef := some "x1"
    email := some "a@b.c" }

/-- A user with a wallet, and a collection that is under way. -/
def oneUser : Store where
  fst := { wallets := [{
    walletId := 1
    userId := "u1"
    currency := "USD" }] }
  snd := [{
    id := "t1"
    userId := "u1"
    status := "pending-collection" }]

/-- No organisation has a payment. -/
def noPayments : Infra.Store where
  ledger := ⟨fun _ => none, [], 1⟩
  txs := []
  settlements := []
  requests := []
  payments := []
  nextId := 1

/-- The user has a naira account. -/
def oneHolder : DepositStore where
  fst := noPayments
  snd := (oneUser.1, { holders := [{
    userId := "u1"
    accountNumber := none
    email := "a@b.c" }] })

section hooks

variable {I : Type → Type} {ω σ α : Type} {M : Machine I ω σ} {ok : σ → Prop} {N : Node}
  {config : Config} {signed : Bool}

theorem leaves_ret (a : α) : Leaves M ok (Prog.ret a : Prog I α) := by
  intro s _ i os
  cases os <;> rfl

theorem advance_cons {β : Type} {ins : I β} {k : β → Prog I α} {i : ℕ} {o : ω} {s t : σ} {b : β}
    (h : M.exec i ins o s = some (b, t)) (os : List ω) :
    (Prog.act ins k).advance M i (o :: os) s = (k b).advance M i os t := by
  simp [Prog.advance, h]

/-- A collection is credited without a signature. -/
theorem applyWebhook_credits :
    ¬ Leaves server.machine (fun _ => True) (applyWebhook collected).run := by
  intro h
  have hsame := h oneUser trivial 0 (List.replicate 5 (.ok {}))
  have hcredited : ((applyWebhook collected).run.advance server.machine 0
      (List.replicate 5 (.ok {})) oneUser).2.1.movements.length = 1 := by
    decide +kernel
  rw [hsame] at hcredited
  cases hcredited

theorem creditCollection_credits :
    ¬ Leaves server.machine (fun _ => True) (creditCollection greyDeposit).run := by
  intro h
  have hsame := h oneUser trivial 0 (List.replicate 3 (.ok {}))
  have hcredited : ((creditCollection greyDeposit).run.advance server.machine 0
      (List.replicate 3 (.ok {})) oneUser).2.1.movements.length = 1 := by
    decide +kernel
  rw [hsame] at hcredited
  cases hcredited

theorem flutterwaveWebhook_credits :
    ¬ Leaves depositServices (fun _ => True) (flutterwaveWebhook bankTransfer).run := by
  intro h
  have hsame := h oneHolder trivial 0
    (List.replicate 6 ({}, .ok { ledger := { rate := some (1 / 10) } }))
  have hcredited : ((flutterwaveWebhook bankTransfer).run.advance depositServices 0
      (List.replicate 6 ({}, .ok { ledger := { rate := some (1 / 10) } }))
        oneHolder).2.2.1.movements.length = 1 := by
    decide +kernel
  rw [hsame] at hcredited
  cases hcredited

/-! ### Requests that are checked -/

/-- The lookup of a transfer names a column that is not there. -/
theorem leaves_verifyTransfer (reference status : String) (amount : ℚ)
    (fee : PaymentVerification.Value) : Leaves PaymentVerification.server.machine
      (fun s => s.columns = PaymentVerification.walletTransactionColumns)
      (PaymentVerification.verifyTransfer reference status amount fee).run := by
  intro s hs i os
  cases os with
  | nil => rfl
  | cons o os =>
      have hfails : ∃ e, PaymentVerification.server.machine.exec i
          (.getWalletTransactionByReference reference) o s = some (.error e, s) := by
        cases o with
        | error e => exact ⟨e, rfl⟩
        | ok o =>
            have hmissing : "reference" ∉ s.columns := by
              rw [hs]
              exact PaymentVerification.reference_not_mem_columns
            refine ⟨.undefinedColumn, congrArg some ?_⟩
            show PaymentVerification.Query.run (.getWalletTransactionByReference reference) o s = _
            simp [PaymentVerification.Query.run, PaymentVerification.Query.names,
              PaymentVerification.Query.fail, hmissing]
      obtain ⟨e, he⟩ := hfails
      refine (congrArg Prod.snd (advance_cons he os)).trans ?_
      exact (show Leaves PaymentVerification.server.machine (fun _ => True) _ from leaves_ret _)
        s trivial i os

theorem leaves_processWebhookData (transfer : Option PaymentVerification.Transfer) :
    Leaves PaymentVerification.server.machine
      (fun s => s.columns = PaymentVerification.walletTransactionColumns)
      (PaymentVerification.processWebhookData transfer).run := by
  unfold PaymentVerification.processWebhookData
  split
  · exact leaves_ret _
  · split
    · exact leaves_verifyTransfer _ _ _ _
    · exact leaves_ret _

/-- A request with a signature that is not valid is refused. -/
theorem leaves_webhook {r : Request} (hroute : r.route = .yellowCard)
    (hsigned : truthy r.headers.yellowCardSignature = true) (hauth : ¬ r.Authentic N config) :
    Leaves server.machine (fun _ => True) (webhook N config r).run := by
  have hinvalid : verifyYellowCardWebhookSignature N (N.stringify r.body)
      r.headers.yellowCardSignature config.yellowCardSecret = false := by
    by_contra hvalid
    refine hauth ?_
    simp only [Bool.not_eq_false] at hvalid
    unfold verifyYellowCardWebhookSignature at hvalid
    dsimp only at hvalid
    split_ifs at hvalid with hmissing
    simp only [Bool.or_eq_true, decide_eq_true_eq, not_or] at hmissing hvalid
    unfold Request.Authentic Request.signature
    rw [hroute]
    cases hheader : r.headers.yellowCardSignature with
    | none =>
        rw [hheader] at hsigned
        cases hsigned
    | some signature =>
        rw [hheader] at hvalid
        exact ⟨hmissing.1, signature, rfl, hvalid⟩
  unfold webhook
  dsimp only
  rw [if_pos (by simp [hsigned, hinvalid])]
  exact leaves_ret _

/-- A request that Grey's handler checks is refused when it is not authentic. -/
theorem leaves_greyWebhook {r : Request} (hroute : r.route = .grey ∨ r.route = .fincra)
    (hchecks : Route.grey.Checks config signed = true) (hauth : ¬ r.Authentic N config) :
    Leaves server.machine (fun _ => True) (greyWebhook N config r).run := by
  simp only [Route.Checks, Bool.and_eq_true, Bool.or_eq_true, decide_eq_true_eq] at hchecks
  obtain ⟨hconfigured, hsecret⟩ := hchecks
  have hinvalid : verifyGreyWebhookSignature N config (N.stringify r.body) r.headers.grey =
      false := by
    unfold verifyGreyWebhookSignature
    split_ifs with hnone
    · simpa [hnone] using hsecret
    · split
      · rfl
      · rename_i signature hsignature
        refine decide_eq_false fun hvalid => hauth ?_
        have hheader : r.headers.grey = some signature :=
          (Option.filter_eq_some_iff.mp hsignature).1
        unfold Request.Authentic Request.signature
        rcases hroute with hroute | hroute
        · rw [hroute]
          exact ⟨hnone, signature, hheader, hvalid⟩
        · rw [hroute]
          exact ⟨hnone, signature, hheader, hvalid⟩
  unfold greyWebhook
  rw [if_pos (by simp [hconfigured, hinvalid])]
  exact leaves_ret _

/-! ### Requests that are not -/

/-- A request of Yellow Card without a signature is let in. -/
theorem unsigned_not_leaves (N : Node) (config : Config) :
    ¬ OnlyAuthentic N config .yellowCard false := by
  intro h
  have hauth : ¬ (Request.mk .yellowCard {} { yellowCard := collected }).Authentic N config := by
    rintro ⟨-, signature, hsignature, -⟩
    cases hsignature
  exact applyWebhook_credits (h ⟨.yellowCard, {}, { yellowCard := collected }⟩ rfl rfl hauth)

/-- A header that is there or not, and does not hold a given text. -/
theorem exists_header (signed : Bool) (digest : String) : ∃ header : Option String,
    truthy header = signed ∧ ∀ text ∈ header, text ≠ digest ∧ normalized text ≠ digest := by
  cases signed with
  | false => exact ⟨none, rfl, fun text htext => (by cases htext)⟩
  | true =>
      have hx : normalized "x" = "x" := by decide +kernel
      have hy : normalized "y" = "y" := by decide +kernel
      by_cases hdigest : digest = "x"
      · refine ⟨some "y", rfl, fun text htext => ?_⟩
        obtain rfl := Option.some.inj htext
        rw [hdigest, hy]
        simp
      · refine ⟨some "x", rfl, fun text htext => ?_⟩
        obtain rfl := Option.some.inj htext
        rw [hx]
        exact ⟨Ne.symm hdigest, Ne.symm hdigest⟩

/-- A request of Grey that its handler does not check is let in. -/
theorem unchecked_not_leaves {route : Route} (hroute : route = .grey ∨ route = .fincra)
    (hchecks : Route.grey.Checks config signed = false) :
    ¬ OnlyAuthentic N config route signed := by
  intro h
  let body : Body := { grey := greyDeposit }
  obtain ⟨header, hsigned, hwrong⟩ :=
    exists_header signed (N.hmacHex config.greyWebhookSecret (N.stringify body))
  let r : Request := ⟨route, { greySignature := header }, body⟩
  have hheader : r.signature = header := by
    have hgrey : (header <|> none) = header := by cases header <;> rfl
    rcases hroute with rfl | rfl <;> exact hgrey
  have hauth : ¬ r.Authentic N config := by
    have hnone : ¬ (config.greyWebhookSecret ≠ "" ∧ ∃ signature ∈ r.signature,
        normalized signature = N.hmacHex config.greyWebhookSecret (N.stringify r.body)) := by
      rintro ⟨-, signature, hsignature, hvalid⟩
      rw [hheader] at hsignature
      exact (hwrong signature hsignature).2 hvalid
    rcases hroute with rfl | rfl <;> exact hnone
  have hletIn : greyWebhook N config r = creditCollection greyDeposit := by
    unfold greyWebhook
    refine if_neg fun hrefused => ?_
    simp only [Bool.and_eq_true, Bool.not_eq_true'] at hrefused
    obtain ⟨hconfigured, hinvalid⟩ := hrefused
    simp only [Route.Checks, hconfigured, Bool.true_and, Bool.or_eq_false_iff,
      decide_eq_false_iff_not, not_not] at hchecks
    unfold verifyGreyWebhookSignature at hinvalid
    rw [if_pos hchecks.1] at hinvalid
    simp [hchecks.2] at hinvalid
  have hleaves := h r rfl (hheader ▸ hsigned) hauth
  have hgrey : Leaves server.machine (fun _ => True) (greyWebhook N config r).run := by
    rcases hroute with rfl | rfl <;> exact hleaves
  rw [hletIn] at hgrey
  exact creditCollection_credits hgrey

/-- Flutterwave's route lets in every request. -/
theorem flutterwave_not_leaves (N : Node) (config : Config) (signed : Bool) :
    ¬ OnlyAuthentic N config .flutterwave signed := by
  intro h
  obtain ⟨header, hsigned, hwrong⟩ := exists_header signed config.verifHash
  let r : Request := ⟨.flutterwave, { verifHash := header }, { flutterwave := bankTransfer }⟩
  have hauth : ¬ r.Authentic N config := fun hauth => (hwrong config.verifHash hauth.2).1 rfl
  exact flutterwaveWebhook_credits (h r rfl hsigned hauth)

end hooks

/-- **Only authentic webhooks change anything** on a route, with a signature header or without,
exactly when the route checks the request or its lookup fails. -/
theorem only_authentic_iff (N : Node) (config : Config) (route : Route) (signed : Bool) :
    OnlyAuthentic N config route signed ↔ route.Checks config signed = true := by
  constructor
  · intro h
    by_contra hchecks
    rw [Bool.not_eq_true] at hchecks
    cases route with
    | yellowCard =>
        obtain rfl : signed = false := hchecks
        exact unsigned_not_leaves N config h
    | grey => exact unchecked_not_leaves (.inl rfl) hchecks h
    | fincra => exact unchecked_not_leaves (.inr rfl) hchecks h
    | flutterwave => exact flutterwave_not_leaves N config signed h
    | payment => cases hchecks
  · intro hchecks r hroute hsigned hauth
    subst hroute
    unfold Request.LeavesTables
    cases hr : r.route with
    | yellowCard =>
        rw [hr] at hchecks
        obtain rfl : signed = true := hchecks
        unfold Request.signature at hsigned
        rw [hr] at hsigned
        exact leaves_webhook hr hsigned hauth
    | grey =>
        rw [hr] at hchecks
        exact leaves_greyWebhook (.inl hr) hchecks hauth
    | fincra =>
        rw [hr] at hchecks
        exact leaves_greyWebhook (.inr hr)
          (show Route.grey.Checks config signed = true from hchecks) hauth
    | flutterwave =>
        rw [hr] at hchecks
        cases hchecks
    | payment => exact leaves_processWebhookData r.body.transfer

/-! ### A request without a signature -/

/-- Digests that hold the secret and the text. -/
def plain : Node where
  stringify _ := "body"
  hmacBase64 secret text := secret ++ text
  hmacHex secret text := secret ++ text

/-- Every secret is set, in production. -/
def production : Config where
  yellowCardSecret := "yc"
  greyApiKey := "key"
  greyBaseUrl := "url"
  greyWebhookSecret := "grey"
  nodeEnv := "production"
  verifHash := "flw"

/-- A collection that nobody has signed. -/
def forged : Request where
  route := .yellowCard
  body := { yellowCard := collected }

/-- It is credited all the same. -/
theorem forged_webhook_credits : ¬ forged.Authentic plain production ∧
    ((webhook plain production forged).run.advance server.machine 0
      (List.replicate 5 (.ok {})) oneUser).2.1.wallets.map (·.balance) = [10000] := by
  refine ⟨?_, by decide +kernel⟩
  rintro ⟨-, signature, hsignature, -⟩
  cases hsignature

end DayfiBackend.Consumer.Webhooks
