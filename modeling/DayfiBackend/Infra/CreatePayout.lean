import DayfiBackend.Infra.Statements

/-!
# Creating a payout

`createPayout` inserts the transaction, locks the organisation's funds, and, for a live payout to a
bank or a mobile wallet, sends a payment request to the provider. A request with a client key is
looked up first, and the insert recovers from a taken key by going on with the row that has it.

What is sent to the provider beyond the payout and its sequence id is left out, and so are the
descriptive parts of the metadata.

`PayoutRules.createPayout` is the rule of the call under any discipline: it asks for rules of its
four parts, the insert, the lock, the mark of an off-ramp and the submission.
-/

namespace DayfiBackend.Infra

open DayfiBackend.Found DayfiBackend.Found.Prog DayfiBackend.Found.Binary64
  DayfiBackend.Found.Keys

/-! ### Inserting under a client key -/

/-- Source: `infraMoneyService.ts` `findIdempotentTx`. -/
def findIdempotentTx (orgId env : String) (key : Option String) (fingerprint : Fingerprint) :
    Call (Option TxRow) :=
  let idem := trim (key.getD "")
  if idem = "" then return none
  else do
    match ← sql (.findIdempotentTx orgId env idem) with
    | none => return none
    | some existing =>
        if existing.fingerprint.any (· ≠ fingerprint) then throw .keyReused
        else return some existing

/-- Source: `infraMoneyService.ts` `insertTx`. A taken key is answered by the row that has it. -/
def insertTx (draft : TxRow) (fingerprint : Fingerprint) : Call TxRow := do
  match ← sql (.insertTx draft) with
  | some row => return row
  | none =>
      match ← findIdempotentTx draft.orgId draft.environment draft.clientKey fingerprint with
      | some existing => return existing
      | none => throw .database

/-! ### Input -/

/-- Source: `infraMoneyService.ts` `CreatePayoutInput`. The amount is the number the argument
denotes, `none` when it is not finite. -/
structure CreatePayoutInput where
  orgId : String
  env : String
  amount : Option ℚ
  currency : Option String := none
  country : Option String := none
  accountNumber : Option String := none
  accountName : Option String := none
  bankCode : Option String := none
  accountType : Option String := none
  asset : Option String := none
  walletAddress : Option String := none
  dayfiTag : Option String := none
  recipientId : Option String := none
  destinationId : Option String := none
  bulkItemId : Option String := none
  idempotencyKey : Option String := none
  deriving DecidableEq, Repr

namespace CreatePayoutInput

/-- The input with the fields of a saved destination. -/
def withDestination (input : CreatePayoutInput) (fields : PayoutFields) : CreatePayoutInput :=
  { input with
    accountType := some fields.accountType
    currency := orNull input.currency <|> fields.currency
    country := orNull input.country <|> fields.country
    accountNumber := orNull fields.accountNumber <|> input.accountNumber
    accountName := orNull fields.accountName <|> input.accountName
    bankCode := orNull fields.bankCode <|> input.bankCode
    asset := orNull fields.asset <|> input.asset
    walletAddress := orNull fields.walletAddress <|> input.walletAddress
    dayfiTag := orNull fields.dayfiTag <|> input.dayfiTag }

def kind (input : CreatePayoutInput) : String := (orDefault input.accountType "bank").toLower

def fingerprint (input : CreatePayoutInput) (amount : ℚ) : Fingerprint where
  amount := round7 amount
  currency := (orDefault input.currency (orDefault input.asset "NGN")).toUpper
  country := (orDefault input.country "NG").toUpper
  accountType := input.kind
  accountNumber := orNull input.accountNumber
  walletAddress := orNull input.walletAddress
  dayfiTag := orNull input.dayfiTag
  recipientId := orNull input.recipientId
  destinationId := orNull input.destinationId
  bulkItemId := orNull input.bulkItemId

/-- The row to insert. -/
def draft (input : CreatePayoutInput) (amount : ℚ) (currency status method : String)
    (sequenceId : String) : TxRow where
  id := 0
  orgId := input.orgId
  environment := input.env
  amount := round7 amount
  currency
  status
  method
  direction := .payout
  externalId := some sequenceId
  clientKey := orNull (some (trim (input.idempotencyKey.getD "")))
  fingerprint := some (input.fingerprint amount)
  metadata := { sequenceId := some sequenceId }
  creator := 0

/-- The tag of the recipient, without leading `@`. -/
def tag (input : CreatePayoutInput) : String :=
  let raw := trim (orDefault input.dayfiTag (input.accountNumber.getD ""))
  (String.ofList (raw.toList.dropWhile (· = '@'))).toLower

end CreatePayoutInput

/-- What a call returns of the payout. -/
structure CreatedPayout where
  row : TxRow
  usdcAmount : Option ℚ
  idempotentReplay : Bool := false
  deriving DecidableEq, Repr

/-! ### The call -/

/-- Lock the funds of a new payout; a failure marks it failed.
Source: `infraMoneyService.ts` `lockFundsForPayout`. -/
def lockFundsForPayout (orgId : String) (payoutId : ℕ) : Call ℚ :=
  tryCatch (lockPayoutFunds orgId payoutId) fun e => do
    sql (.patchTx payoutId (some "failed") id)
    throw e

/-- Insert and lock a payout that is not sent to the provider. -/
def createLockedPayout (input : CreatePayoutInput) (amount : ℚ) (currency method : String)
    (sequenceId : String) : Call CreatedPayout := do
  let status := if input.env = "test" then "processing" else "pending"
  let row ← insertTx (input.draft amount currency status method sequenceId)
    (input.fingerprint amount)
  let usdcAmount ← lockFundsForPayout input.orgId row.id
  return ⟨row, some usdcAmount, false⟩

/-- Source: `infraMoneyService.ts` `fetchTxRow`. -/
def fetchTxRow (id : ℕ) : Call TxRow := do
  match ← sql (.loadTx id none) with
  | some row => return row
  | none => throw .database

/-- Send a live payout to the provider. Any failure releases the lock, and a failure to release is
only logged. Source: the last part of `infraMoneyService.ts` `createPayout`. -/
def submitToProvider (orgId : String) (payoutId : ℕ) (sequenceId : String) : Call Unit :=
  tryCatch
    (do
      -- the channel list
      sql .external
      sql (.createPaymentRequest payoutId sequenceId)
      sql (.patchTx payoutId (some "processing") id))
    fun _ => do
      tryCatch (do let _ ← releasePayoutLock (some orgId) payoutId) fun _ => return ()
      throw .railFailed

/-- Only a live payout needs the provider. -/
def providerConfigured (input : CreatePayoutInput) : Call Bool :=
  if input.env = "live" then sql .isConfigured else return true

/-- The branch for a bank account or a mobile wallet. -/
def createBankPayout (input : CreatePayoutInput) (amount : ℚ) (sequenceId : String) :
    Call CreatedPayout :=
  let currency := (orDefault input.currency "NGN").toUpper
  let live := input.env = "live"
  let method := if input.kind = "momo" then "mobile_money" else "bank_transfer"
  if trim (input.accountNumber.getD "") = "" ∨ trim (input.accountName.getD "") = "" then
    throw .invalidInput
  else if input.kind = "bank" ∧ trim (input.bankCode.getD "") = "" then throw .invalidInput
  else do
    -- the account name is looked up for a live bank payout
    doWhen (live ∧ input.kind = "bank") (sql .external)
    let configured ← providerConfigured input
    if !configured then do
      let _ ← insertTx (input.draft amount currency "failed" method sequenceId)
        (input.fingerprint amount)
      throw .railFailed
    else do
      -- the organisation's verified identity
      doWhen live (sql .external)
      let status := if live then "pending" else "processing"
      let row ← insertTx (input.draft amount currency status method sequenceId)
        (input.fingerprint amount)
      let usdcAmount ← lockFundsForPayout input.orgId row.id
      let mode ← tryCatch (sql .offrampMode) fun _ => return .off
      if mode ≠ .off then do
        sql (.patchTx row.id none fun m => { m with offRamp := true })
        let latest ← fetchTxRow row.id
        return ⟨latest, some usdcAmount, false⟩
      else do
        doWhen live (submitToProvider input.orgId row.id sequenceId)
        let latest ← fetchTxRow row.id
        return ⟨latest, some usdcAmount, false⟩

/-- The input with its saved recipient filled in. -/
def resolveRecipient (input : CreatePayoutInput) : Call CreatePayoutInput :=
  match orNull input.recipientId with
  | none => return input
  | some recipientId => do
      let fields ← sql (.resolveDestination recipientId)
      return input.withDestination fields

/-- Source: `infraMoneyService.ts` `createPayout`. -/
def createPayout (input : CreatePayoutInput) : Call CreatedPayout :=
  match input.amount with
  | none => throw .invalidInput
  | some raw =>
      let amount := nearest raw
      if amount ≤ 0 then throw .invalidInput
      else do
        let payoutInput ← resolveRecipient input
        match ← findIdempotentTx payoutInput.orgId payoutInput.env payoutInput.idempotencyKey
            (payoutInput.fingerprint amount) with
        | some replay =>
            let _ ← sql (.getOrgBalance payoutInput.orgId payoutInput.env)
            return ⟨replay, replay.metadata.usdcAmount, true⟩
        | none =>
            let sequenceId ← sql .randomUUID
            if payoutInput.kind = "dayfi_tag" ∨ (orNull payoutInput.dayfiTag).isSome then
              if payoutInput.tag = "" then throw .invalidInput
              else do
                -- the member with the tag
                sql .external
                createLockedPayout payoutInput amount
                  (orDefault payoutInput.currency "NGN").toUpper "dayfi_tag" sequenceId
            else if payoutInput.kind = "crypto" ∨ (orNull payoutInput.asset).isSome then
              if trim (orDefault payoutInput.walletAddress
                  (payoutInput.accountNumber.getD "")) = "" then throw .invalidInput
              else
                createLockedPayout payoutInput amount
                  (orDefault payoutInput.asset (orDefault payoutInput.currency "USDC")).toUpper
                  "crypto" sequenceId
            else createBankPayout payoutInput amount sequenceId

/-! ### The rule of the call -/

/-- What `createPayout` needs of a discipline: `A` holds before its insert, `B` of the payout
after it. -/
structure PayoutRules (D : Discipline Sql Outside Store) (pid : ℕ) (A : Store → Prop)
    (B : ℕ → Store → Prop) : Prop where
  quiet : ∀ {P : Store → Prop}, P = A ∨ (∃ id, P = B id) ∨ (P = fun _ => True) →
    ∀ {β : Type} {p : Call β}, OnlyE (fun st => st.quiet = true) p →
      Triple services D pid P p (fun _ => P) fun _ _ => True
  insert : ∀ draft fingerprint, draft.direction = .payout →
    draft.metadata = { sequenceId := draft.externalId } →
      Triple services D pid A (insertTx draft fingerprint) (fun row => B row.id) fun _ _ => True
  lock : ∀ orgId id, Triple services D pid (B id) (lockFundsForPayout orgId id) (fun _ => B id)
    fun _ _ => True
  mark : ∀ id, Triple services D pid (B id)
    (sql (.patchTx id none fun m => { m with offRamp := true })) (fun _ => B id) fun _ _ => True
  submit : ∀ orgId id sequenceId, Triple services D pid (B id)
    (submitToProvider orgId id sequenceId) (fun _ _ => True) fun _ _ => True

section rule

variable {D : Discipline Sql Outside Store} {pid : ℕ} {A : Store → Prop} {B : ℕ → Store → Prop}

theorem findIdempotentTx_quiet (orgId env : String) (key : Option String)
    (fingerprint : Fingerprint) :
    OnlyE (fun st => st.quiet = true) (findIdempotentTx orgId env key fingerprint) := by
  unfold findIdempotentTx
  dsimp only
  refine .ite (.pure _) (.bind (sql_only rfl) fun found => ?_)
  cases found with
  | none => exact .pure _
  | some existing => exact .ite (.throw _) (.pure _)

theorem fetchTxRow_quiet (id : ℕ) : OnlyE (fun st => st.quiet = true) (fetchTxRow id) := by
  unfold fetchTxRow
  refine .bind (sql_only rfl) fun found => ?_
  cases found with
  | none => exact .throw _
  | some row => exact .pure _

theorem resolveRecipient_quiet (input : CreatePayoutInput) :
    OnlyE (fun st => st.quiet = true) (resolveRecipient input) := by
  unfold resolveRecipient
  cases orNull input.recipientId with
  | none => exact .pure _
  | some id => exact .bind (sql_only rfl) fun _ => .pure _

theorem doWhen_only {φ : {γ : Type} → Sql γ → Prop} {c : Prop} [Decidable c] {p : Call Unit}
    (hp : OnlyE φ p) : OnlyE φ (doWhen c p) := .ite hp (.pure _)

namespace PayoutRules

variable (h : PayoutRules D pid A B)

include h

theorem createLockedPayout (input : CreatePayoutInput) (amount : ℚ)
    (currency method sequenceId : String) :
    Triple services D pid A (createLockedPayout input amount currency method sequenceId)
      (fun _ _ => True) fun _ _ => True := by
  unfold Infra.createLockedPayout
  dsimp only
  refine Triple.bind (h.insert _ _ rfl rfl) fun row => ?_
  refine Triple.bind (h.lock _ _) fun _ => ?_
  exact Triple.pure fun _ _ => trivial

theorem createBankPayout (input : CreatePayoutInput) (amount : ℚ) (sequenceId : String) :
    Triple services D pid A (createBankPayout input amount sequenceId) (fun _ _ => True)
      fun _ _ => True := by
  unfold Infra.createBankPayout
  dsimp only
  refine Triple.ite (fun _ => Triple.throw fun _ _ => trivial) fun _ => ?_
  refine Triple.ite (fun _ => Triple.throw fun _ _ => trivial) fun _ => ?_
  refine Triple.bind (h.quiet (.inl rfl) (doWhen_only (sql_only rfl))) fun _ => ?_
  refine Triple.bind (h.quiet (.inl rfl) (.ite (sql_only rfl) (.pure _))) fun configured => ?_
  refine Triple.ite (fun _ => ?_) fun _ => ?_
  · exact Triple.bind (h.insert _ _ rfl rfl) fun _ => Triple.throw fun _ _ => trivial
  refine Triple.bind (h.quiet (.inl rfl) (doWhen_only (sql_only rfl))) fun _ => ?_
  refine Triple.bind (h.insert _ _ rfl rfl) fun row => ?_
  refine Triple.bind (h.lock _ _) fun _ => ?_
  refine Triple.bind (h.quiet (.inr (.inl ⟨row.id, rfl⟩))
    (.tryCatch (sql_only rfl) fun _ => .pure _)) fun mode => ?_
  refine Triple.ite (fun _ => ?_) fun _ => ?_
  · refine Triple.bind (h.mark _) fun _ => ?_
    exact Triple.bind (h.quiet (.inr (.inl ⟨row.id, rfl⟩)) (fetchTxRow_quiet _)) fun _ =>
      Triple.pure fun _ _ => trivial
  · refine Triple.bind (R := fun _ _ => True) (Triple.ite (fun _ => h.submit _ _ _) fun _ =>
      Triple.pure fun _ _ => trivial) fun _ => ?_
    exact Triple.bind (h.quiet (.inr (.inr rfl)) (fetchTxRow_quiet _)) fun _ =>
      Triple.pure fun _ _ => trivial

/-- **The rule of `createPayout`.** -/
theorem createPayout (input : CreatePayoutInput) :
    Triple services D pid A (createPayout input) (fun _ _ => True) fun _ _ => True := by
  unfold Infra.createPayout
  cases input.amount with
  | none => exact Triple.throw fun _ _ => trivial
  | some raw =>
      dsimp only
      refine Triple.ite (fun _ => Triple.throw fun _ _ => trivial) fun _ => ?_
      refine Triple.bind (h.quiet (.inl rfl) (resolveRecipient_quiet input)) fun payoutInput => ?_
      refine Triple.bind (h.quiet (.inl rfl) (findIdempotentTx_quiet _ _ _ _)) fun replay => ?_
      cases replay with
      | some row =>
          exact Triple.bind (h.quiet (.inl rfl) (sql_only rfl)) fun _ =>
            Triple.pure fun _ _ => trivial
      | none =>
          refine Triple.bind (h.quiet (.inl rfl) (sql_only rfl)) fun sequenceId => ?_
          refine Triple.ite (fun _ => ?_) fun _ => Triple.ite (fun _ => ?_) fun _ => ?_
          · refine Triple.ite (fun _ => Triple.throw fun _ _ => trivial) fun _ => ?_
            exact Triple.bind (h.quiet (.inl rfl) (sql_only rfl)) fun _ =>
              h.createLockedPayout _ _ _ _ _
          · exact Triple.ite (fun _ => Triple.throw fun _ _ => trivial) fun _ =>
              h.createLockedPayout _ _ _ _ _
          · exact h.createBankPayout _ _ _

end PayoutRules

end rule

end DayfiBackend.Infra
