import DayfiBackend.Found.Backend
import DayfiBackend.Infra.Lifecycle

/-!
# Bill payments

An organisation pays a bill in naira: the bill becomes a payout whose USDC funds are locked, the
payment is sent to Flutterwave, and the lock is finalized or released by what Flutterwave answers
(`payInfraBill`). A bill that is still processing can be refreshed (`refreshInfraBillStatus`).
What the bill came to is read off the texts of two answers, that of the payment and that of a
later status call, either of which may be missing (`resolveFlutterwaveBillOutcome`).

The lock, the finalize and the release are the programs of `Lifecycle`, embedded statement by
statement.

* A reference is a number here; its text is `referenceText`. `issued` has the process each one was
  made for, and is read by no statement.
* Flutterwave holds the payments it has accepted until it reports that they failed: an answer that
  reports a failure of a bill is the provider giving it up. A status is asked for under the
  provider's own name of the payment when the answer of the payment gave one; it is about the bill
  that is asked for.
* The bill's catalogue data and the texts of errors are kept; time stamps, rates and flags that
  nothing reads are left out.
-/

namespace DayfiBackend.Infra.Bills

open DayfiBackend.Found DayfiBackend.Found.Binary64 DayfiBackend.Found.Keys

/-! ### What Flutterwave answers -/

/-- The answer of a payment. -/
structure FwResult where
  status : Option String := none
  message : Option String := none
  txRef : Option String := none
  flwRef : Option String := none
  rechargeToken : Option String := none
  deriving DecidableEq, Repr

/-- The answer of a status call. -/
structure StatusData where
  status : Option String := none
  processorResponse : Option String := none
  responseMessage : Option String := none
  extra : Option String := none
  deriving DecidableEq, Repr

inductive BillOutcome where
  | success
  | pending
  | failed
  deriving DecidableEq, Repr

/-- The texts of an answer that are looked at. -/
def FwResult.tokens (r : FwResult) : List String := [r.status, r.message].map fun t =>
  (t.getD "").toLower

def StatusData.tokens (d : StatusData) : List String :=
  [d.status, d.processorResponse, d.responseMessage].map fun t => (t.getD "").toLower

/-- `/failed|error|invalid|declined/`. -/
def failureToken (s : String) : Bool :=
  ["failed", "error", "invalid", "declined"].any (includes s)

/-- `/in.?progress/`: at most one character, not a line break, between the two parts. -/
def inProgress (s : String) : Bool :=
  includes s "inprogress" || s.toList.tails.any fun l =>
    match l with
    | 'i' :: 'n' :: c :: rest => c ∉ ['\n', '\r'] && decide ("progress".toList <+: rest)
    | _ => false

/-- `/pending|processing|in.?progress|queued/`. -/
def pendingToken (s : String) : Bool :=
  includes s "pending" || includes s "processing" || inProgress s || includes s "queued"

/-- `/success|successful|completed|delivered/`. -/
def successToken (s : String) : Bool :=
  ["success", "successful", "completed", "delivered"].any (includes s)

/-- An answer reports a failure. -/
def FwResult.fails (r : FwResult) : Bool := r.tokens.any failureToken

def StatusData.fails (d : StatusData) : Bool := d.tokens.any failureToken

/-- Source: `infraBillsService.ts` `resolveFlutterwaveBillOutcome`. -/
def resolveFlutterwaveBillOutcome (fwResult : Option FwResult) (statusData : Option StatusData) :
    BillOutcome :=
  let tokens := (statusData.map (·.tokens)).getD [] ++ (fwResult.map (·.tokens)).getD []
  if tokens.any failureToken then .failed
  else if tokens.any pendingToken then .pending
  else if tokens.any successToken then .success
  else if fwResult.isSome then .success else .failed

/-! ### Tables -/

/-- The metadata of a bill that is read back. -/
structure BillMeta where
  reference : ℕ
  categoryCode : String
  billerCode : String
  itemCode : String
  customerId : String
  billerName : Option String := none
  itemName : Option String := none
  validatedCustomerName : Option String := none
  flutterwave : Option FwResult := none
  billStatus : Option StatusData := none
  rechargeToken : Option String := none
  needsManualRelease : Bool := false
  needsSettleRetry : Bool := false
  failureReason : Option String := none
  deriving DecidableEq, Repr

/-- The tables, beside those of the payouts, and the provider. -/
structure Tables where
  payouts : Store
  /-- The metadata of the rows of `infra_transactions` that are bills. -/
  bills : ℕ → Option BillMeta
  /-- The process each reference was made for. -/
  issued : List ℕ := []
  /-- The references of the payments the provider holds. -/
  accepted : List ℕ := []
  /-- The references it has reported as failed. -/
  failed : List ℕ := []

/-- The text of a reference. -/
def referenceText (n : ℕ) : String := "dayfi-infra-bill-" ++ toString n

/-- What the service throws; a bill error may name its transaction. -/
inductive BillError where
  | database
  | payout (e : Err)
  | uniqueViolation
  | provider
  | invalidAmount
  | insufficientBalance
  | notFound
  | validationFailed (transactionId : ℕ)
  | providerFailed (transactionId : ℕ)
  | releaseFailed (transactionId : ℕ)
  deriving DecidableEq, Repr

/-- What becomes of the request for a payment. -/
inductive CreateOutcome where
  | answered (r : FwResult)
  /-- The payment is accepted, and the call times out or fails on its way back. -/
  | acceptedThenFailed
  | refused
  deriving DecidableEq, Repr

/-- What the outside is at a step. -/
structure BillOutside where
  payouts : Outside := {}
  /-- The customer name a validation finds; `none` when it fails. -/
  validation : Option (Option String) := some none
  create : CreateOutcome := .refused
  /-- `none` when the status call fails. -/
  status : Option StatusData := none
  deriving DecidableEq, Repr

/-! ### Statements -/

/-- The answer of a statement. -/
abbrev Ans (α : Type) := Except BillError α

/-- What the caller of a status call has of the bill before it asks. -/
structure Known where
  reference : ℕ
  fwResult : Option FwResult
  statusData : Option StatusData
  deriving DecidableEq, Repr

/-- The statements on bills. -/
inductive BillSql : Type → Type
  /-- A new reference. -/
  | randomUUID : BillSql (Ans ℕ)
  /-- The insert of a bill; the id is the one it returns. -/
  | insertBill (draft : TxRow) (bill : BillMeta) : BillSql (Ans TxRow)
  | loadBillTx (id : ℕ) (orgId : String) : BillSql (Ans (Option (TxRow × Option BillMeta)))
  /-- The newest bill of an organisation with a reference. -/
  | findBill (orgId reference : String) : BillSql (Ans (Option (TxRow × BillMeta)))
  | patchBill (id : ℕ) (status : Option String) (f : BillMeta → BillMeta) : BillSql (Ans Unit)
  | validateBill (billerCode itemCode customerId : String) : BillSql (Ans (Option String))
  /-- `simulate`: whether the caller takes a failure for a test to be simulated. -/
  | createBillPayment (reference : ℕ) (simulate : Bool) : BillSql (Ans FwResult)
  | fetchBillPaymentStatus (fwTxRef : String) (known : Known) : BillSql (Ans StatusData)

/-- The statements of the service, with those of the payouts. -/
inductive Query (β : Type) : Type
  | payouts (st : Sql β)
  | bill (st : BillSql β)

namespace Tables

/-- The provider reports that a payment has failed. -/
def giveUp (s : Tables) (reference : ℕ) : Tables :=
  { s with
    accepted := s.accepted.filter (· ≠ reference)
    failed := reference :: s.failed }

/-- The bill of a row. -/
def withBill (s : Tables) (row : TxRow) : TxRow × Option BillMeta := (row, s.bills row.id)

end Tables

/-- One statement on bills, of process `i`. -/
def BillSql.run {β : Type} (i : ℕ) (st : BillSql β) (o : BillOutside) (s : Tables) : β × Tables :=
  match st with
  | .randomUUID => (.ok s.issued.length, { s with issued := s.issued ++ [i] })
  | .insertBill draft bill =>
      match (Sql.insertTx draft).run i o.payouts s.payouts with
      | (.ok (some row), payouts) =>
          (.ok row, { s with payouts, bills := Function.update s.bills row.id (some bill) })
      | (.ok none, _) => (.error .uniqueViolation, s)
      | (.error e, _) => (.error (.payout e), s)
  | .loadBillTx id orgId =>
      (.ok (((s.payouts.tx id).filter (·.orgId = orgId)).map s.withBill), s)
  | .findBill orgId reference =>
      (.ok (s.payouts.txs.findSome? fun row =>
        match s.bills row.id with
        | none => none
        | some bill =>
            if row.orgId = orgId ∧ row.direction = .payout ∧ row.method = "bill_pay" ∧
                (row.externalId = some reference ∨ referenceText bill.reference = reference)
            then some (row, bill) else none), s)
  | .patchBill id status f =>
      (.ok (), { s with
        payouts := s.payouts.setTx id fun r => { r with status := status.getD r.status }
        bills := Function.update s.bills id ((s.bills id).map f) })
  | .validateBill _ _ _ =>
      match o.validation with
      | some name => (.ok name, s)
      | none => (.error .provider, s)
  | .createBillPayment reference _ =>
      match o.create with
      | .answered r =>
          if r.fails then (.ok r, s.giveUp reference)
          else (.ok r, { s with accepted := reference :: s.accepted })
      | .acceptedThenFailed => (.error .provider, { s with accepted := reference :: s.accepted })
      | .refused => (.error .provider, s)
  | .fetchBillPaymentStatus _ known =>
      match o.status with
      | some data => (.ok data, if data.fails then s.giveUp known.reference else s)
      | none => (.error .provider, s)

/-- The answer of a statement that fails. -/
def BillSql.fail {β : Type} (st : BillSql β) (e : BillError) : β :=
  match st with
  | .randomUUID | .insertBill .. | .loadBillTx .. | .findBill .. | .patchBill .. => .error e
  | .validateBill .. | .createBillPayment .. | .fetchBillPaymentStatus .. => .error e

/-- One statement of process `i`, when it gets there. -/
def Query.run {β : Type} (i : ℕ) (st : Query β) (o : BillOutside) (s : Tables) : β × Tables :=
  match st with
  | .payouts st =>
      if o.payouts.fault then (st.failed, s)
      else ((st.run i o.payouts s.payouts).1,
        { s with payouts := (st.run i o.payouts s.payouts).2 })
  | .bill st => st.run i o s

def Query.fail {β : Type} (st : Query β) (e : BillError) : β :=
  match st with
  | .payouts st => st.failed
  | .bill st => st.fail e

/-- The database of the bills, with the provider. -/
def backend : Backend Query BillOutside BillError Tables where
  run i st o s := st.run i o s
  fail st e := st.fail e

/-- A call of the service. -/
abbrev BillCall := ExceptT BillError (Prog Query)

/-- One statement on bills; its failure is thrown. -/
def sql {β : Type} (st : BillSql (Ans β)) : BillCall β := Backend.call (Query.bill st)

/-- A call of the payouts. -/
def payouts {β : Type} (p : Call β) : BillCall β := embedCall Query.payouts BillError.payout p

/-! ### Input and result -/

/-- Source: `infraBillsService.ts` `PayInfraBillInput`. The amount is the number the argument
denotes, `none` when it is not finite; `noSimulate` is `INFRA_BILLS_TEST_NO_SIMULATE`. -/
structure PayInfraBillInput where
  orgId : String
  env : String
  idempotencyKey : Option String := none
  categoryCode : String
  billerCode : String
  itemCode : String
  customerId : String
  amount : Option ℚ
  billerName : Option String := none
  itemName : Option String := none
  noSimulate : Bool := false
  deriving DecidableEq, Repr

/-- What `mapBillResult` is applied to, and what is added. -/
structure BillResult where
  row : TxRow
  bill : Option BillMeta
  idempotentReplay : Bool := false
  testSimulated : Bool := false
  pendingProvider : Bool := false
  settlePending : Bool := false
  rechargeToken : Option String := none
  deriving DecidableEq, Repr

namespace PayInfraBillInput

def category (input : PayInfraBillInput) : String := input.categoryCode.toUpper

/-- Source: `infraBillsService.ts` `SKIP_VALIDATE_CATEGORIES`. -/
def skipsValidation (input : PayInfraBillInput) : Bool :=
  input.category ∈ ["AIRTIME", "MOBILEDATA"]

/-- Source: `infraBillsService.ts` `shouldSimulateBillOnProviderFailure`. -/
def simulates (input : PayInfraBillInput) : Bool := asEnv input.env = "test" && !input.noSimulate

/-- The client key of the bill. -/
def clientKey (input : PayInfraBillInput) : Option String :=
  orNull (some (trim (input.idempotencyKey.getD "")))

/-- The row to insert. -/
def draft (input : PayInfraBillInput) (amount usdcAmount : ℚ) (reference : ℕ) : TxRow where
  id := 0
  orgId := input.orgId
  environment := asEnv input.env
  amount := amount
  currency := "NGN"
  status := if asEnv input.env = "test" then "processing" else "pending"
  method := "bill_pay"
  direction := .payout
  externalId := referenceText reference
  clientKey := input.clientKey
  fingerprint := none
  metadata := { usdcAmount := some usdcAmount }
  creator := 0

def bill (input : PayInfraBillInput) (reference : ℕ) : BillMeta where
  reference := reference
  categoryCode := input.category
  billerCode := input.billerCode
  itemCode := input.itemCode
  customerId := input.customerId
  billerName := input.billerName
  itemName := input.itemName

end PayInfraBillInput

/-! ### Parts of a payment -/

/-- A bill that is there, or an error. -/
def loadBill (id : ℕ) (orgId : String) : BillCall (TxRow × Option BillMeta) := do
  match ← sql (.loadBillTx id orgId) with
  | none => throw .notFound
  | some found => pure found

/-- The row that has the client's key. -/
def findKeyedTx (input : PayInfraBillInput) : BillCall (Option TxRow) :=
  match input.clientKey with
  | none => pure none
  | some idem => payouts (Infra.sql (.findIdempotentTx input.orgId (asEnv input.env) idem))

/-- Source: `infraBillsService.ts` `insertBillTx`. A row that has the key is answered as a replay,
whatever it is; a key taken in between is an error. -/
def insertBillTx (input : PayInfraBillInput) (amount usdcAmount : ℚ) (reference : ℕ) :
    BillCall ((TxRow × Option BillMeta) × Bool) := do
  match ← findKeyedTx input with
  | some existing => do
      let found ← loadBill existing.id input.orgId
      pure (found, true)
  | none => do
      let row ← sql (.insertBill (input.draft amount usdcAmount reference) (input.bill reference))
      pure ((row, some (input.bill reference)), false)

/-- `lockPayoutFunds` with the amount given. Source: `infraLifecycleService.ts`
`lockPayoutFunds`. -/
def lockBillFunds (orgId : String) (transactionId : ℕ) (usdcAmount : ℚ) : Call Unit := do
  let row ← loadDirected .payout transactionId (some orgId)
  let lock ← Infra.sql (.payout .lock row usdcAmount)
  Infra.sql (.patchTx row.id (some row.status) (lockedPatch usdcAmount lock.movement.id))
  let _ ← Infra.sql (.getOrgBalance row.orgId (asEnv row.environment))

/-- Release the lock and mark the bill failed; always throws.
Source: `infraBillsService.ts` `failLockedBillPayment`. -/
def failLockedBillPayment {β : Type} (orgId : String) (transactionId : ℕ) (reason : String)
    (error : BillError) (patch : BillMeta → BillMeta) : BillCall β := do
  tryCatch (do let _ ← payouts (releasePayoutLock (some orgId) transactionId)) fun _ => do
    sql (.patchBill transactionId none fun m =>
      { m with needsManualRelease := true, failureReason := some reason })
    throw (.releaseFailed transactionId)
  sql (.patchBill transactionId (some "failed") fun m =>
    patch { m with failureReason := some reason })
  throw error

/-- Source: `infraBillsService.ts` `completeBillSettlement`. -/
def completeBillSettlement (orgId : String) (transactionId : ℕ) (fwResult : Option FwResult)
    (statusData : Option StatusData) (rechargeToken : Option String) :
    BillCall (TxRow × Option BillMeta) := do
  let _ ← payouts (finalizePayoutDebit (some orgId) transactionId)
  sql (.patchBill transactionId (some "settled") fun m =>
    { m with flutterwave := fwResult, billStatus := statusData, rechargeToken })
  loadBill transactionId orgId

/-- Source: `infraBillsService.ts` `markBillProcessing`. -/
def markBillProcessing (transactionId : ℕ) (fwResult : Option FwResult)
    (statusData : Option StatusData) (rechargeToken : Option String) (needsSettleRetry : Bool) :
    BillCall Unit :=
  sql (.patchBill transactionId (some "processing") fun m =>
    { m with
      flutterwave := fwResult
      billStatus := statusData
      rechargeToken
      needsSettleRetry := m.needsSettleRetry || needsSettleRetry })

/-- `String(fwResult?.tx_ref ?? fwResult?.flw_ref ?? reference).trim()`. -/
def fwTxRef (fwResult : Option FwResult) (reference : ℕ) : String :=
  trim (((fwResult.bind fun r => r.txRef <|> r.flwRef)).getD (referenceText reference))

/-- The status of a bill: the answer of the provider, or what was known before. -/
def statusOf (known : Known) : BillCall (Option StatusData) :=
  let ref := fwTxRef known.fwResult known.reference
  if ref = "" then pure known.statusData
  else tryCatch (do
      let data ← sql (.fetchBillPaymentStatus ref known)
      pure (some data)) fun _ => pure known.statusData

/-- The token of a recharge. -/
def rechargeTokenOf (fwResult : Option FwResult) (statusData : Option StatusData)
    (recorded : Option String) : Option String :=
  statusData.bind (·.extra) <|> fwResult.bind (·.rechargeToken) <|> recorded

/-! ### Paying -/

/-- The check of the customer; a failure ends the bill. -/
def validateLockedBill (input : PayInfraBillInput) (transactionId : ℕ) : BillCall Unit :=
  if input.skipsValidation then pure ()
  else tryCatch (do
      let name ← sql (.validateBill input.billerCode input.itemCode input.customerId)
      sql (.patchBill transactionId none fun m => { m with validatedCustomerName := name }))
    fun _ => failLockedBillPayment input.orgId transactionId "validation"
      (.validationFailed transactionId) id

/-- The end of a payment the provider has answered. -/
def settleAnsweredBill (input : PayInfraBillInput) (transactionId reference : ℕ) (r : FwResult) :
    BillCall BillResult := do
  let statusData ← statusOf ⟨reference, some r, none⟩
  let token := rechargeTokenOf (some r) statusData none
  match resolveFlutterwaveBillOutcome (some r) statusData with
  | .failed =>
      failLockedBillPayment input.orgId transactionId "Bill provider rejected this payment"
        (.providerFailed transactionId)
        fun m => { m with flutterwave := some r, billStatus := statusData }
  | .pending => do
      markBillProcessing transactionId (some r) statusData token false
      let (row, bill) ← loadBill transactionId input.orgId
      pure { row, bill, pendingProvider := true }
  | .success =>
      tryCatch (do
          let (row, bill) ← completeBillSettlement input.orgId transactionId (some r) statusData
            token
          pure { row, bill, rechargeToken := token })
        fun _ => do
          markBillProcessing transactionId (some r) statusData token true
          let (row, bill) ← loadBill transactionId input.orgId
          pure { row, bill, settlePending := true }

/-- The payment of a bill whose funds are locked. -/
def payLockedBill (input : PayInfraBillInput) (transactionId reference : ℕ) :
    BillCall BillResult := do
  validateLockedBill input transactionId
  let answer ← tryCatch (do
      let r ← sql (.createBillPayment reference input.simulates)
      pure (some r)) fun _ => pure none
  match answer with
  | some r => settleAnsweredBill input transactionId reference r
  | none =>
      if input.simulates then do
        let _ ← payouts (simulateSettlement input.orgId "test" transactionId)
        let (row, bill) ← loadBill transactionId input.orgId
        pure { row, bill, testSimulated := true }
      else
        failLockedBillPayment input.orgId transactionId "provider"
          (.providerFailed transactionId) id

/-- Source: `infraBillsService.ts` `payInfraBill`. -/
def payInfraBill (input : PayInfraBillInput) : BillCall BillResult :=
  match input.amount with
  | none => throw .invalidAmount
  | some raw =>
      let amount := nearest raw
      if amount ≤ 0 then throw .invalidAmount
      else do
        let reference ← sql .randomUUID
        let usdcAmount ← payouts (resolveUsdcAmount amount "NGN")
        let balance ← payouts (Infra.sql (.getOrgBalance input.orgId (asEnv input.env)))
        if nearest (balance.available + nearest (1 / 10 ^ 9)) < usdcAmount then
          throw .insufficientBalance
        else do
          let ((row, bill), idempotentReplay) ← insertBillTx input amount usdcAmount reference
          if idempotentReplay then pure { row, bill, idempotentReplay := true }
          else do
            tryCatch (payouts (lockBillFunds input.orgId row.id usdcAmount)) fun e => do
              sql (.patchBill row.id (some "failed") id)
              throw e
            payLockedBill input row.id reference

/-! ### Refreshing -/

/-- Source: `infraBillsService.ts` `refreshInfraBillStatus`. -/
def refreshInfraBillStatus (orgId reference : String) : BillCall BillResult := do
  match ← sql (.findBill orgId reference) with
  | none => throw .notFound
  | some (row, bill) =>
      if row.status.toLower = "settled" ∨ row.status.toLower = "failed" then
        pure { row, bill }
      else do
        let statusData ← statusOf ⟨bill.reference, bill.flutterwave, bill.billStatus⟩
        let token := rechargeTokenOf bill.flutterwave statusData bill.rechargeToken
        match resolveFlutterwaveBillOutcome bill.flutterwave statusData with
        | .failed =>
            if row.metadata.fundsFinalized = false ∧ row.metadata.fundsReleased = false then
              failLockedBillPayment orgId row.id "Bill provider reported payment failed"
                (.providerFailed row.id) fun m => { m with billStatus := statusData }
            else if row.metadata.fundsFinalized then pure { row, bill }
            else settleRefreshed row.id bill statusData token
        | .pending => do
            markBillProcessing row.id bill.flutterwave statusData token false
            let (row, bill) ← loadBill row.id orgId
            pure { row, bill }
        | .success =>
            if row.metadata.fundsFinalized then pure { row, bill }
            else settleRefreshed row.id bill statusData token
where
  /-- Settle a refreshed bill, or answer with what it is when that fails. -/
  settleRefreshed (id : ℕ) (bill : BillMeta) (statusData : Option StatusData)
      (token : Option String) : BillCall BillResult :=
    tryCatch (do
        let (row, bill) ← completeBillSettlement orgId id bill.flutterwave statusData token
        pure { row, bill })
      fun _ => do
        let (row, bill) ← loadBill id orgId
        pure { row, bill }

end DayfiBackend.Infra.Bills
