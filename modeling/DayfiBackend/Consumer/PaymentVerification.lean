import DayfiBackend.Consumer.Balance

/-!
# Verification of card payments and bank transfers

`verifyPayment`, `verifyTransfer` and the webhook `processWebhookData` look up a row of
`wallet_transactions` by its `reference`, change a wallet's balance, and mark the row. Neither the
lookup nor the balance updates look at what was done for the reference before, so nothing in the
three entry points themselves stops a second update. What decides is the table they read: the
migrations drop the column `reference`, the start scripts apply every migration before the server
starts, and a statement that names a missing column fails. The lookup is the first statement of
each entry point that touches the database, so none gets as far as a balance
(`balance_changed_at_most_once`, `balances_kept`).
-/

namespace DayfiBackend.Consumer.PaymentVerification

open DayfiBackend.Found DayfiBackend.Found.Prog

/-! ### The table -/

/-- A clause of a migration that changes the columns of a table. -/
inductive Alter where
  | create (columns : List String)
  | add (columns : List String)
  | drop (columns : List String)
  | rename (old new : String)

/-- The columns after a clause. -/
def Alter.apply (columns : List String) : Alter → List String
  | create new => new
  | add new => columns ++ new.filter (· ∉ columns)
  | drop old => columns.filter (· ∉ old)
  | rename old new => columns.map fun c => if c = old then new else c

/-- The columns `wallet_transactions` is created with, and those of the cards.
Source: `20250517145001-wallet-and-transactions-table-up.sql`,
`20250529195143-update-transactions-table-up.sql`. -/
def firstMigrations : List Alter :=
  [.create ["id", "wallet_transactions_id", "user_id", "sender_wallet_id", "recipient_wallet_id",
      "external_account_number", "external_bank_code", "external_bank_name", "amount", "balance",
      "fees", "type", "status", "reference", "narration", "metadata", "initiated_by", "created_at",
      "updated_at"],
    .add ["card_last4", "card_type", "card_brand", "card_country", "card_token",
      "card_transaction_ref"]]

/-- The later ones, in order.
Source: `20251002214803-update-transaction-and-beneficiary-table-up.sql`,
`20251003151525-update-transaction-table-up.sql`,
`20251003154522-update-transaction-table-up.sql`,
`20260527200000-wallet-transaction-ledger-fields-up.sql`. -/
def laterMigrations : List Alter :=
  [.drop ["id"],
    .rename "wallet_transactions_id" "id",
    .add ["beneficiary_id", "source_id", "send_channel", "send_network", "send_amount",
      "receive_channel", "receive_network", "receive_amount", "reason"],
    .rename "created_at" "timestamp",
    .drop ["sender_wallet_id", "recipient_wallet_id", "external_account_number",
      "external_bank_code", "external_bank_name", "amount", "balance", "fees", "type",
      "reference", "narration", "metadata", "initiated_by", "updated_at", "card_country"],
    .add ["status_tmp"],
    .drop ["status"],
    .add ["status"],
    .drop ["status_tmp"],
    .add ["collection_sequence_id", "payment_sequence_id"],
    .add ["ledger_currency", "activity_kind", "external_reference"]]

/-- The columns after some migrations. -/
def columnsAfter (migrations : List Alter) : List String := migrations.foldl Alter.apply []

/-- The columns of `wallet_transactions` when the server runs. -/
def walletTransactionColumns : List String := columnsAfter (firstMigrations ++ laterMigrations)

/-- A value of a column. -/
inductive Value where
  | null
  | text (s : String)
  | number (x : ℚ)
  deriving DecidableEq, Repr

/-- A row, by column. -/
abbrev Row := String → Value

/-- A text of a row; the empty text and `null` are falsy. -/
def Row.text? (row : Row) (column : String) : Option String :=
  match row column with
  | .text s => if s = "" then none else some s
  | _ => none

/-- A change of a wallet's balance, and the reference on whose account it was made. -/
structure BalanceChange where
  reference : String
  walletId : String
  amount : ℚ
  deriving DecidableEq, Repr

/-- The tables. No statement reads `changes`. -/
structure Tables where
  columns : List String
  transactions : List Row
  wallets : List (String × ℤ)
  changes : List BalanceChange := []

/-- The tables of a running server, before the first call. -/
def Tables.start (transactions : List Row) (wallets : List (String × ℤ)) : Tables where
  columns := walletTransactionColumns
  transactions := transactions
  wallets := wallets

/-! ### Statements -/

/-- What the services throw. -/
inductive VerifyError where
  | database
  | undefinedColumn
  | typeError
  | paymentNotSuccessful
  | transactionNotFound
  | unableToVerifyTransfer
  | unableToVerifyPayment
  | invalidWebhookData
  deriving DecidableEq, Repr

/-- The card of a payment. -/
structure Card where
  type : String
  brand : String
  issuingCountry : String
  embedtokens : List String
  last4digits : String
  deriving DecidableEq, Repr

/-- What the provider says of a payment. -/
structure PaymentData where
  status : String
  amount : ℚ
  txref : String
  card : Option Card
  deriving DecidableEq, Repr

/-- The outside at a step: the provider's answer. -/
structure Outside where
  payment : Option PaymentData := none
  deriving DecidableEq, Repr

/-- The answer of a statement. -/
abbrev Ans (α : Type) := Except VerifyError α

/-- The statements. The `reference` of a balance update is the one it is made for; the statement
itself does not carry it. -/
inductive Query : Type → Type
  | verifyPayment (txref : String) : Query (Ans (Option PaymentData))
  | getWalletTransactionByReference (reference : String) : Query (Ans (Option Row))
  | creditWalletBalance (reference : String) (amount : ℚ) (walletId : Option String) :
      Query (Ans (Option ℚ))
  | debitWalletBalance (reference : String) (amount : ℚ) (walletId : Option String) :
      Query (Ans (Option ℚ))
  | markTransactionSuccessful (balance : ℚ) (reference : String) (card : Card) (token : String) :
      Query (Ans Unit)
  | markTransferSuccessful (balance : ℚ) (reference status : String) (fee : Value) :
      Query (Ans Unit)
  | markTransferFailed (reference status : String) : Query (Ans Unit)

/-- The columns of `wallet_transactions` a statement names. -/
def Query.names {β : Type} : Query β → List String
  | getWalletTransactionByReference _ => ["reference"]
  | markTransactionSuccessful .. => ["status", "balance", "card_type", "card_brand",
      "card_country", "card_token", "card_last4", "updated_at", "reference"]
  | markTransferSuccessful .. => ["status", "balance", "fees", "updated_at", "reference"]
  | markTransferFailed .. => ["status", "updated_at", "reference"]
  | verifyPayment _ | creditWalletBalance .. | debitWalletBalance .. => []

namespace Tables

/-- `SELECT *`: the cells of the columns the table has. -/
def select (s : Tables) (row : Row) : Row := fun c => if c ∈ s.columns then row c else .null

/-- `UPDATE wallet_transactions SET … WHERE reference = …`. -/
def mark (s : Tables) (reference : String) (values : List (String × Value)) : Tables :=
  { s with transactions := s.transactions.map fun row =>
      if row "reference" = .text reference then
        values.foldl (fun row v => Function.update row v.1 v.2) row
      else row }

/-- `UPDATE wallets SET balance = balance + … WHERE wallet_id = … RETURNING balance`. -/
def addBalance (s : Tables) (reference : String) (amount : ℚ) (walletId : Option String) :
    Option ℚ × Tables :=
  match s.wallets.find? fun w => some w.1 = walletId with
  | none => (none, s)
  | some w =>
      let balance := cents (decimal w.2 + amount)
      (some (decimal balance), { s with
        wallets := s.wallets.map fun v => if v.1 = w.1 then (v.1, balance) else v
        changes := ⟨reference, w.1, amount⟩ :: s.changes })

end Tables

/-- One statement whose columns exist. -/
def Query.perform {β : Type} (st : Query β) (o : Outside) (s : Tables) : β × Tables :=
  match st with
  | .verifyPayment _ => (.ok o.payment, s)
  | .getWalletTransactionByReference reference =>
      (.ok ((s.transactions.find? fun row => row "reference" = .text reference).map s.select), s)
  | .creditWalletBalance reference amount walletId =>
      let r := s.addBalance reference amount walletId
      (.ok r.1, r.2)
  | .debitWalletBalance reference amount walletId =>
      let r := s.addBalance reference (-amount) walletId
      (.ok r.1, r.2)
  | .markTransactionSuccessful balance reference card token =>
      (.ok (), s.mark reference [("status", .text "success"), ("balance", .number balance),
        ("card_type", .text card.type), ("card_brand", .text card.brand),
        ("card_country", .text card.issuingCountry), ("card_token", .text token),
        ("card_last4", .text card.last4digits)])
  | .markTransferSuccessful balance reference status fee =>
      (.ok (), s.mark reference [("status", .text status), ("balance", .number balance),
        ("fees", fee)])
  | .markTransferFailed reference status => (.ok (), s.mark reference [("status", .text status)])

/-- The answer of a statement that fails. -/
def Query.fail {β : Type} (st : Query β) (e : VerifyError) : β :=
  match st with
  | .verifyPayment _ | .getWalletTransactionByReference _ => .error e
  | .creditWalletBalance .. | .debitWalletBalance .. | .markTransactionSuccessful .. => .error e
  | .markTransferSuccessful .. | .markTransferFailed .. => .error e

/-- One statement: a column that does not exist is an error. -/
def Query.run {β : Type} (st : Query β) (o : Outside) (s : Tables) : β × Tables :=
  if st.names.all (· ∈ s.columns) then st.perform o s else (st.fail .undefinedColumn, s)

/-- The database and the provider. -/
def server : Backend Query Outside VerifyError Tables where
  run _ st o s := st.run o s
  fail st e := st.fail e

/-- A call of the services. -/
abbrev Call := ExceptT VerifyError (Prog Query)

/-- One statement; its failure is thrown. -/
def sql {β : Type} (st : Query (Ans β)) : Call β := Backend.call st

/-! ### Calls -/

/-- A row that must be there; reading a field of `null` throws. -/
def present {β : Type} (e : VerifyError) : Option β → Call β
  | none => throw e
  | some b => pure b

/-- What a successful transfer does to the balances.
Source: `services.ts` `verifyTransfer`. -/
def settleTransfer (transaction : Row) (transactionReference : String) (amount : ℚ) (fee : Value) :
    Call Unit := do
  if (transaction.text? "receiver_wallet_id").isSome then
    let _ ← sql (.creditWalletBalance transactionReference amount
      (transaction.text? "receiver_wallet_id"))
  let wallet ← sql (.debitWalletBalance transactionReference amount
    (transaction.text? "sender_wallet_id"))
  let newBalance ← present .typeError wallet
  sql (.markTransferSuccessful newBalance transactionReference "success" fee)

/-- Source: `services.ts` `verifyTransfer`. -/
def verifyTransfer (transactionReference status : String) (amount : ℚ) (fee : Value) : Call Unit :=
  tryCatch (do
      let row ← sql (.getWalletTransactionByReference transactionReference)
      let transaction ← present .transactionNotFound row
      if status = "SUCCESSFUL" then settleTransfer transaction transactionReference amount fee
      else sql (.markTransferFailed transactionReference "failed"))
    fun _ => throw .unableToVerifyTransfer

/-- What a successful payment does to the balance.
Source: `services.ts` `verifyPayment`. -/
def settlePayment (transaction : Row) (data : PaymentData) : Call PaymentData := do
  let wallet ← sql (.creditWalletBalance data.txref data.amount
    (transaction.text? "recipient_wallet_id"))
  let newBalance ← present .typeError wallet
  let card ← present .typeError data.card
  let token ← present .typeError card.embedtokens.head?
  sql (.markTransactionSuccessful newBalance data.txref card token)
  pure data

/-- Source: `services.ts` `verifyPayment`. -/
def verifyPayment (transactionReference : String) : Call PaymentData :=
  tryCatch (do
      let data ← sql (.verifyPayment transactionReference)
      let data ← present .paymentNotSuccessful (data.filter (·.status = "successful"))
      let row ← sql (.getWalletTransactionByReference data.txref)
      let transaction ← present .transactionNotFound row
      settlePayment transaction data)
    fun _ => throw .unableToVerifyPayment

/-- The `transfer` of a webhook's body; `amount` is present when it is not `null`. -/
structure Transfer where
  reference : Option String
  status : Option String
  amount : Option ℚ
  fee : Value := .null
  deriving DecidableEq, Repr

/-- Source: `controller.ts` `processWebhookData`. -/
def processWebhookData (transfer : Option Transfer) : Call Unit :=
  match transfer with
  | none => throw .typeError
  | some transfer =>
      match transfer.reference.filter (· ≠ ""), transfer.status.filter (· ≠ ""),
        transfer.amount with
      | some transactionReference, some status, some amount =>
          verifyTransfer transactionReference status amount transfer.fee
      | _, _, _ => throw .invalidWebhookData

/-- A call of one of the three entry points. -/
inductive Verification where
  | verifyPayment (transactionReference : String)
  | verifyTransfer (transactionReference status : String) (amount : ℚ) (fee : Value)
  | processWebhookData (transfer : Option Transfer)

/-- The program of a call. -/
def Verification.program : Verification → Prog Query Unit
  | verifyPayment ref => (PaymentVerification.verifyPayment ref).run >>= fun _ => pure ()
  | verifyTransfer ref status amount fee =>
      (PaymentVerification.verifyTransfer ref status amount fee).run >>= fun _ => pure ()
  | processWebhookData transfer =>
      (PaymentVerification.processWebhookData transfer).run >>= fun _ => pure ()

/-- A run of some calls. -/
def runCalls (s : Tables) (calls : List Verification)
    (sched : List (ℕ × Except VerifyError Outside)) : Tables :=
  ((⟨s, calls.map Verification.program⟩ : Pool Query Unit Tables).run server.machine sched).store

/-! ### No balance is reached -/

/-- The migrations drop the column the lookup names. -/
theorem reference_not_mem_columns : "reference" ∉ walletTransactionColumns := by decide +kernel

/-- The balances, and the changes made to them, are as at the start. -/
structure Untouched (wallets : List (String × ℤ)) (s : Tables) : Prop where
  reference : "reference" ∉ s.columns
  wallets : s.wallets = wallets
  changes : s.changes = []

theorem untouched_start (transactions : List Row) (wallets : List (String × ℤ)) :
    Untouched wallets (Tables.start transactions wallets) :=
  ⟨reference_not_mem_columns, rfl, rfl⟩

/-- The discipline of the calls: nothing touches a balance. -/
def untouched (wallets : List (String × ℤ)) :
    Discipline Query (Except VerifyError Outside) Tables where
  inv := Untouched wallets
  rely _ _ _ := True
  cond _ _ _ _ := True
  good _ _ _ _ _ _ := True
  rely_refl _ _ := trivial
  rely_trans _ _ _ _ _ _ := trivial

variable {wallets : List (String × ℤ)} {i : ℕ}

/-- The lookup by reference always fails. -/
theorem triple_lookup (reference : String) {Q : Option Row → Tables → Prop} :
    Triple server.machine (untouched wallets) i (fun _ => True)
      (sql (.getWalletTransactionByReference reference)) Q fun _ _ => True := by
  refine Backend.triple_call (fun _ => rfl) (fun _ _ _ _ => trivial)
    (fun _ _ _ _ => ⟨trivial, trivial⟩) fun s o _ hinv _ => ?_
  have hrun : Query.run (.getWalletTransactionByReference reference) o s =
      (.error .undefinedColumn, s) := by
    simp [Query.run, Query.names, Query.fail, hinv.reference]
  have hserver : server.run i (.getWalletTransactionByReference reference) o s =
      (.error .undefinedColumn, s) := hrun
  simp only [hserver]
  exact ⟨trivial, hinv, fun _ _ => trivial, trivial⟩

/-- The provider's answer changes nothing. -/
theorem triple_verifyPayment (txref : String) :
    Triple server.machine (untouched wallets) i (fun _ => True)
      (sql (.verifyPayment txref)) (fun _ _ => True) fun _ _ => True := by
  refine Backend.triple_call (fun _ => rfl) (fun _ _ _ _ => trivial)
    (fun _ _ _ _ => ⟨trivial, trivial⟩) fun s o _ hinv _ => ?_
  exact ⟨trivial, hinv, fun _ _ => trivial, trivial⟩

theorem triple_present {β : Type} (e : VerifyError) (b : Option β) {P : Tables → Prop} :
    Triple server.machine (untouched wallets) i P (present e b) (fun _ => P)
      fun _ _ => True := by
  cases b with
  | none => exact Triple.throw fun _ _ => trivial
  | some b => exact Triple.pure fun _ h => h

theorem safe_verifyTransfer (transactionReference status : String) (amount : ℚ) (fee : Value) :
    Safe server.machine (untouched wallets) i
      (verifyTransfer transactionReference status amount fee) := by
  refine Triple.tryCatch (F := fun _ _ => True) ?_ fun e => Triple.throw fun _ _ => trivial
  exact (triple_lookup (Q := fun _ _ => False) transactionReference).bind fun row _ h => h.elim

theorem safe_verifyPayment (transactionReference : String) :
    Safe server.machine (untouched wallets) i (verifyPayment transactionReference) := by
  refine Triple.tryCatch (F := fun _ _ => True) ?_ fun e => Triple.throw fun _ _ => trivial
  refine (triple_verifyPayment transactionReference).bind fun data => ?_
  refine (triple_present _ _).bind fun data => ?_
  exact (triple_lookup (Q := fun _ _ => False) data.txref).bind fun row _ h => h.elim

theorem safe_processWebhookData (transfer : Option Transfer) :
    Safe server.machine (untouched wallets) i (processWebhookData transfer) := by
  unfold processWebhookData
  split
  · exact Safe.throw _
  · split
    · exact safe_verifyTransfer _ _ _ _
    · exact Safe.throw _

/-- In every run the balances are as at the start. -/
theorem runCalls_untouched (transactions : List Row) (wallets : List (String × ℤ))
    (calls : List Verification) (sched : List (ℕ × Except VerifyError Outside)) :
    Untouched wallets (runCalls (Tables.start transactions wallets) calls sched) := by
  have hstart : Pool.Verified server.machine (untouched wallets) (fun _ _ _ => True)
      ⟨Tables.start transactions wallets, calls.map Verification.program⟩ := by
    refine Pool.Verified.start (untouched_start transactions wallets) fun i p hp => ?_
    obtain ⟨call, -, rfl⟩ := List.mem_map.mp (List.mem_of_getElem? hp)
    cases call with
    | verifyPayment ref => exact (safe_verifyPayment ref).map_unit _ trivial
    | verifyTransfer ref status amount fee =>
        exact (safe_verifyTransfer ref status amount fee).map_unit _ trivial
    | processWebhookData transfer => exact (safe_processWebhookData transfer).map_unit _ trivial
  exact (Pool.run_verified (fun _ _ _ _ => trivial) hstart sched).1

/-- **No wallet is changed by a verification**, whatever the provider reports. -/
theorem balances_kept (transactions : List Row) (wallets : List (String × ℤ))
    (calls : List Verification) (sched : List (ℕ × Except VerifyError Outside)) :
    (runCalls (Tables.start transactions wallets) calls sched).wallets = wallets :=
  (runCalls_untouched transactions wallets calls sched).wallets

/-- Every statement that changes a balance is recorded among the changes. -/
theorem Query.run_changes {β : Type} (st : Query β) (o : Outside) (s : Tables)
    (h : (st.run o s).2.changes = s.changes) : (st.run o s).2.wallets = s.wallets := by
  have hadd : ∀ ref amount walletId, (s.addBalance ref amount walletId).2.changes = s.changes →
      (s.addBalance ref amount walletId).2.wallets = s.wallets := by
    intro ref amount walletId
    unfold Tables.addBalance
    split
    · exact fun _ => rfl
    · intro h
      exact absurd h (List.cons_ne_self _ _)
  unfold Query.run at h ⊢
  split_ifs at h ⊢
  · cases st with
    | creditWalletBalance ref amount walletId => exact hadd _ _ _ h
    | debitWalletBalance ref amount walletId => exact hadd _ _ _ h
    | _ => rfl
  · rfl

/-- **A verification is applied at most once**: in every run of the three entry points, in any
order and number and whatever the provider reports, at most one balance change is made on account
of a reference. -/
theorem balance_changed_at_most_once (transactions : List Row) (wallets : List (String × ℤ))
    (calls : List Verification) (sched : List (ℕ × Except VerifyError Outside))
    (reference : String) :
    ((runCalls (Tables.start transactions wallets) calls sched).changes.filter
      (·.reference = reference)).length ≤ 1 := by
  rw [(runCalls_untouched transactions wallets calls sched).changes]
  simp

/-- The entry points alone do not ensure it: with the columns of the first migrations, two
verifications of one payment credit it twice. -/
example :
    let row : Row := fun c => if c = "reference" then .text "r" else
      if c = "recipient_wallet_id" then .text "w" else .null
    let paid : PaymentData := ⟨"successful", 5, "r", some ⟨"DEBIT", "VISA", "NG", ["t"], "4242"⟩⟩
    (runCalls ⟨columnsAfter firstMigrations, [row], [("w", 0)], []⟩
      [.verifyPayment "r", .verifyPayment "r"]
      (List.replicate 4 (0, .ok ⟨some paid⟩) ++ List.replicate 4 (1, .ok ⟨some paid⟩))).wallets =
      [("w", 1000)] := by
  decide +kernel

end DayfiBackend.Consumer.PaymentVerification
