import DayfiBackend.Consumer.LedgerCalls

/-!
# Deposits into naira accounts

A Flutterwave webhook reports a bank transfer into a user's permanent virtual account.
`parseFlutterwaveDepositWebhook` reads the body, `processFlutterwaveDeposit` looks for the user,
asks the verify API when the body does not say enough, and credits the USD wallet under a key made
of the transfer's reference.

The reference is the first of several fields of the body that is there, and the API's when it was
asked. `CreditedOnce` says that each transaction is credited once whichever way its deliveries go;
`deposits_credited_once` is the result for the runs in which a delivery that finds its user carries
the reference of its transaction.
-/

namespace DayfiBackend.Consumer.FlutterwaveDeposits

open DayfiBackend.Found DayfiBackend.Found.Prog DayfiBackend.Found.Keys

/-! ### Webhooks -/

/-- Source: `flutterwaveInflowService.ts` `pickString`. -/
def pickString (values : List (Option String)) : String :=
  ((values.map fun v => trim (v.getD "")).find? (· ≠ "")).getD ""

/-- The fields `account_number` and `originatoraccountnumber` of a `meta`. -/
structure ChargeMeta where
  accountNumber : Option String := none
  originatorAccountNumber : Option String := none
  deriving DecidableEq, Repr

/-- The fields of a charge: of `data`, or of the body itself. A field that is not there is none,
and so is an amount that is not a number. `accountNumber` is `account_number`, and
`accountNumber'` is `accountNumber`; `chargeMeta` is `meta`. -/
structure Charge where
  status : Option String := none
  amount : Option ℚ := none
  currency : Option String := none
  txRef : Option String := none
  flwRef : Option String := none
  id : Option String := none
  customerEmail : Option String := none
  email : Option String := none
  accountNumber : Option String := none
  accountNumber' : Option String := none
  chargeMeta : Option ChargeMeta := none
  metaData : Option ChargeMeta := none
  deriving DecidableEq, Repr

/-- The body of a webhook. -/
structure WebhookBody where
  event : Option String := none
  data : Option Charge := none
  own : Charge := {}
  deriving DecidableEq, Repr

/-- Source: `flutterwaveInflowService.ts` `FlutterwaveDepositPayload`. -/
structure DepositPayload where
  amount : ℚ
  currency : String
  reference : String
  transactionId : Option String
  email : String
  accountNumber : String
  deriving DecidableEq, Repr

/-- `.replace(/\s/g, '')`. -/
def withoutSpaces (s : String) : String := String.ofList (s.toList.filter fun c => !isSpace c)

/-- A text that is there. -/
def orNone (s : String) : Option String := if s = "" then none else some s

/-- Source: `flutterwaveInflowService.ts` `parseFlutterwaveDepositWebhook`, its reference. -/
def WebhookBody.reference (body : WebhookBody) : String :=
  let data := body.data.getD body.own
  pickString [data.txRef, body.own.txRef, data.flwRef, data.id, body.own.flwRef]

/-- Source: `flutterwaveInflowService.ts` `parseFlutterwaveDepositWebhook`. -/
def parseFlutterwaveDepositWebhook (body : WebhookBody) : Option DepositPayload :=
  let event := trim (body.event.getD "")
  let data := body.data.getD body.own
  let meta? := body.own.metaData <|> data.chargeMeta <|> data.metaData
  let status := (trim (data.status.getD "")).toLower
  if event ≠ "" ∧ event ≠ "charge.completed" then none
  else if status ≠ "" ∧ status ≠ "successful" then none
  else
    match data.amount with
    | none => none
    | some amount =>
        if amount ≤ 0 then none
        else if body.reference = "" then none
        else some
          { amount
            currency := currencyCode (data.currency.getD "NGN")
            reference := body.reference
            transactionId := orNone (pickString [data.id])
            email := (pickString [data.customerEmail, data.email, body.own.email]).toLower
            accountNumber := withoutSpaces (pickString [data.accountNumber, data.accountNumber',
              meta?.bind (·.accountNumber), meta?.bind (·.originatorAccountNumber)]) }

/-- The payload, from what the verify API answers.
Source: `flutterwaveInflowService.ts` `enrichFlutterwaveDepositFromApi`. -/
def DepositPayload.enriched (p : DepositPayload) (tx : Charge) : DepositPayload where
  amount := if tx.amount.getD 0 = 0 then p.amount else tx.amount.getD 0
  currency := (tx.currency.getD p.currency).toUpper
  reference := pickString [tx.flwRef, tx.id, some p.reference]
  transactionId := p.transactionId
  email := if p.email = "" then (pickString [tx.customerEmail, tx.email]).toLower else p.email
  accountNumber := if p.accountNumber = "" then pickString [tx.accountNumber, tx.accountNumber']
    else p.accountNumber

/-! ### Tables -/

/-- A user's naira account. -/
structure Holder where
  userId : String
  accountNumber : Option String
  email : String
  deriving DecidableEq, Repr

/-- A delivery has found its user; it carries a reference. -/
structure Finding where
  delivery : ℕ
  userId : String
  reference : String
  deriving DecidableEq, Repr

/-- The tables beside the ledger, and a note of the users found. -/
structure Tables where
  holders : List Holder := []
  found : List Finding := []

/-- All tables. -/
abbrev Store := Accounts × Tables

/-- What the services throw. -/
inductive DepositError where
  | ledger (e : Err)
  | database
  | provider
  | unsupportedCurrency
  | userNotFound
  | referenceRequired
  deriving DecidableEq, Repr

/-- The outside at a step: what the verify API answers, and whether the deposit is in the
history. -/
structure Outside where
  ledger : Consumer.Outside := {}
  transaction : Charge := {}
  recorded : Bool := false
  deriving DecidableEq, Repr

abbrev Ans (α : Type) := Except DepositError α

/-- The statements of the deposits. -/
inductive DepositSql : Type → Type
  | userByAccount (p : DepositPayload) : DepositSql (Ans (Option String))
  | userByEmail (p : DepositPayload) : DepositSql (Ans (Option String))
  | verifyFlutterwaveTransactionById (transactionId : String) : DepositSql (Ans Charge)
  | findActivity (reference : String) : DepositSql (Ans Bool)
  | writeActivity (reference : String) : DepositSql (Ans Unit)
  | notify : DepositSql (Ans Unit)

/-- The account that is looked for. -/
def Tables.byAccount (T : Tables) (p : DepositPayload) : Option String :=
  (T.holders.find? fun h => h.accountNumber = some (trim p.accountNumber)).map (·.userId)

/-- The email that is looked for. -/
def Tables.byEmail (T : Tables) (p : DepositPayload) : Option String :=
  (T.holders.find? fun h => h.email.toLower = (trim p.email).toLower).map (·.userId)

/-- The user of a delivery is looked up. -/
def Tables.look (T : Tables) (i : ℕ) (reference : String) (user : Option String) : Tables :=
  match user with
  | none => T
  | some userId => { T with found := ⟨i, userId, reference⟩ :: T.found }

/-- One statement, when it gets there. -/
def DepositSql.run {β : Type} (i : ℕ) (st : DepositSql β) (o : Outside) (s : Store) : β × Store :=
  match st with
  | .userByAccount p => (.ok (s.2.byAccount p), s.1, s.2.look i p.reference (s.2.byAccount p))
  | .userByEmail p => (.ok (s.2.byEmail p), s.1, s.2.look i p.reference (s.2.byEmail p))
  | .verifyFlutterwaveTransactionById _ => (.ok o.transaction, s)
  | .findActivity _ => (.ok o.recorded, s)
  | .writeActivity _ => (.ok (), s)
  | .notify => (.ok (), s)

/-- The answer of a statement that fails. -/
def DepositSql.fail {β : Type} (st : DepositSql β) (e : DepositError) : β :=
  match st with
  | .userByAccount _ | .userByEmail _ | .verifyFlutterwaveTransactionById _ => .error e
  | .findActivity _ | .writeActivity _ | .notify => .error e

/-- The statements of the deposits over all tables. -/
def deposits : Backend DepositSql Outside DepositError Store where
  run i st o s := st.run i o s
  fail st e := st.fail e

/-- The deposits beside the ledger. -/
def server : Backend (Beside Query DepositSql) Outside DepositError Store :=
  accounts.beside deposits Outside.ledger .database

/-- A call of the deposits. -/
abbrev DepositCall := ExceptT DepositError (Prog (Beside Query DepositSql))

/-- A call of the ledger. -/
def ledger {β : Type} (p : Call β) : DepositCall β := inside DepositError.ledger p

/-- One statement of the deposits; its failure is thrown. -/
def sql {β : Type} (st : DepositSql (Ans β)) : DepositCall β := ownCall st

/-! ### Operations -/

/-- Source: `flutterwaveInflowService.ts` `resolveUserIdForFlutterwaveDeposit`, by the account. -/
def userByAccount (p : DepositPayload) : DepositCall (Option String) :=
  if trim p.accountNumber = "" then pure none else sql (.userByAccount p)

/-- Source: `flutterwaveInflowService.ts` `resolveUserIdForFlutterwaveDeposit`, by the email. -/
def userByEmail (p : DepositPayload) : DepositCall (Option String) :=
  if trim p.email = "" then pure none else sql (.userByEmail p)

/-- Source: `flutterwaveInflowService.ts` `resolveUserIdForFlutterwaveDeposit`. -/
def resolveUserIdForFlutterwaveDeposit (p : DepositPayload) : DepositCall (Option String) := do
  match ← userByAccount p with
  | some userId => pure (some userId)
  | none => userByEmail p

/-- Source: `flutterwaveInflowService.ts` `enrichFlutterwaveDepositFromApi`. -/
def enrichFlutterwaveDepositFromApi (p : DepositPayload) : DepositCall DepositPayload :=
  match p.transactionId with
  | none => pure p
  | some id =>
      if p.email ≠ "" ∧ p.accountNumber ≠ "" then pure p
      else
        tryCatch (do
            let tx ← sql (.verifyFlutterwaveTransactionById id)
            pure (p.enriched tx))
          fun _ => pure p

/-- The key of a deposit. -/
def depositKey (reference : String) : String := buildIdempotencyKey "flutterwave" reference

/-- Source: `inflowService.ts` `creditUsdInflow`. -/
def inflow (userId : String) (walletId : ℕ) (amount : ℚ) (reference : String) :
    BalanceParams where
  userId := userId
  walletId := walletId
  amount := amount
  currency := "NGN"
  source := .flutterwave
  idempotencyKey := depositKey reference
  externalReference := some reference

/-- Source: `services.ts` `creditWalletInflow`. -/
def creditWalletInflow (userId : String) (amount : ℚ) (reference : String) :
    DepositCall CreditResult :=
  if reference = "" then throw .referenceRequired
  else do
    let usdWallet ← ledger (ensureWalletForCurrency userId primaryCurrency)
    ledger (creditUsdBalance (inflow userId usdWallet.walletId amount reference))

/-- Source: `flutterwaveInflowService.ts` `upsertNgnBankDepositActivity`. -/
def upsertNgnBankDepositActivity (reference : String) (usdAmount : ℚ) : DepositCall Unit := do
  if ← sql (.findActivity reference) then sql (.writeActivity reference)
  else do
    -- what `recordWalletActivity` looks for and writes
    if ← sql (.findActivity reference) then pure ()
    else if ← sql (.findActivity reference) then pure ()
    else do
      sql (.writeActivity reference)
      sql (.writeActivity reference)
    if 0 < usdAmount then sql (.writeActivity reference)

/-- From the user on. Source: `flutterwaveInflowService.ts` `processFlutterwaveDeposit`. -/
def creditDeposit (userId : String) (p : DepositPayload) : DepositCall CreditResult := do
  let result ← creditWalletInflow userId p.amount p.reference
  upsertNgnBankDepositActivity p.reference result.usdAmount
  if !result.duplicate then tryCatch (sql .notify) fun _ => pure ()
  pure result

/-- The payload the user is looked for with first.
Source: `flutterwaveInflowService.ts` `processFlutterwaveDeposit`. -/
def firstEnriched (p : DepositPayload) : DepositCall DepositPayload :=
  if p.email = "" ∧ p.accountNumber = "" ∧ p.transactionId.isSome then
    enrichFlutterwaveDepositFromApi p
  else pure p

/-- Source: `flutterwaveInflowService.ts` `processFlutterwaveDeposit`. -/
def processFlutterwaveDeposit (p : DepositPayload) : DepositCall CreditResult :=
  if (orDefault (some p.currency) "NGN").toUpper ≠ "NGN" then throw .unsupportedCurrency
  else do
    let enriched ← firstEnriched p
    match ← resolveUserIdForFlutterwaveDeposit enriched with
    | some userId => creditDeposit userId enriched
    | none =>
        if enriched.transactionId.isNone then throw .userNotFound
        else do
          let fromApi ← enrichFlutterwaveDepositFromApi enriched
          match ← resolveUserIdForFlutterwaveDeposit fromApi with
          | some userId => creditDeposit userId fromApi
          | none => throw .userNotFound

/-- A delivery of a webhook about a transaction. -/
structure Delivery where
  transaction : ℕ
  body : WebhookBody
  deriving DecidableEq, Repr

/-- What a delivery runs; a body that is no deposit is ignored.
Source: `controller.ts` `flutterwaveWebhook`. -/
def Delivery.call (d : Delivery) : DepositCall (Option CreditResult) :=
  match parseFlutterwaveDepositWebhook d.body with
  | none => pure none
  | some p => do
      let result ← processFlutterwaveDeposit p
      pure (some result)

/-- What a delivery comes to. -/
abbrev Outcome := Except DepositError (Option CreditResult)

/-- The deliveries, before any has begun. -/
def begun (wallets : List WalletRow) (holders : List Holder) (deliveries : List Delivery) :
    Pool (Beside Query DepositSql) Outcome Store :=
  ⟨({ wallets := wallets }, { holders := holders }), deliveries.map fun d => d.call.run⟩

/-! ### The property -/

/-- The transaction of a delivery. -/
def transactionOf (deliveries : List Delivery) (i : ℕ) : Option ℕ :=
  deliveries[i]?.map (·.transaction)

/-- A movement is a credit of a transaction: it goes to a user that a delivery of the transaction
has found, under the reference it carries. -/
def creditOf (deliveries : List Delivery) (T : Tables) (transaction : ℕ) (m : MovementRow) : Bool :=
  T.found.any fun f => decide (transactionOf deliveries f.delivery = some transaction ∧
    m.userId = f.userId ∧ m.idempotencyKey = depositKey f.reference)

/-- No transaction is credited twice, no two are credited by one movement, and each whose delivery
was processed is credited. -/
structure CreditedOnce (deliveries : List Delivery)
    (P : Pool (Beside Query DepositSql) Outcome Store) : Prop where
  once : ∀ t, (P.store.1.movements.filter (creditOf deliveries P.store.2 t)).length ≤ 1
  apart : ∀ m ∈ P.store.1.movements, ∀ t u, creditOf deliveries P.store.2 t m = true →
    creditOf deliveries P.store.2 u m = true → t = u
  all : ∀ i t r, transactionOf deliveries i = some t →
    P.procs[i]? = some (.ret (.ok (some r))) →
      ∃ m ∈ P.store.1.movements, creditOf deliveries P.store.2 t m = true

/-- The condition on a statement of the deposits: a lookup that finds a user is made with the
transaction's reference. -/
def DepositSql.Named {β : Type} (st : DepositSql β) (reference : String) (s : Store) : Prop :=
  match st with
  | .userByAccount p => (s.2.byAccount p).isSome → p.reference = reference
  | .userByEmail p => (s.2.byEmail p).isSome → p.reference = reference
  | _ => True

/-- The condition on the steps of a run. -/
def Named (referenceOf : ℕ → String) (deliveries : List Delivery) {β : Type} (i : ℕ)
    (st : Beside Query DepositSql β) (o : Except DepositError Outside) (s : Store) : Prop :=
  match st with
  | .inner _ => True
  | .own st =>
      match o with
      | .error _ => True
      | .ok _ => ∀ t ∈ transactionOf deliveries i, st.Named (referenceOf t) s

instance {β : Type} (referenceOf : ℕ → String) (deliveries : List Delivery) (i : ℕ)
    (st : Beside Query DepositSql β) (o : Except DepositError Outside) (s : Store) :
    Decidable (Named referenceOf deliveries i st o s) := by
  unfold Named DepositSql.Named
  repeat' split
  all_goals infer_instance

/-! ### The invariant -/

/-- Every credit is one of a user found, and whoever is found carries the reference of the
transaction. -/
structure DepositInv (referenceOf : ℕ → String) (deliveries : List Delivery) (s : Store) :
    Prop where
  keys : (s.1.movements.map (·.idempotencyKey)).Nodup
  owned : ∀ m ∈ s.1.movements, ∃ f ∈ s.2.found,
    m.userId = f.userId ∧ m.idempotencyKey = depositKey f.reference
  named : ∀ f ∈ s.2.found, ∃ t, transactionOf deliveries f.delivery = some t ∧
    f.reference = referenceOf t

/-- What a process may count on: movements and findings stay. -/
structure Grows (s t : Store) : Prop where
  movements : ∀ m ∈ s.1.movements, m ∈ t.1.movements
  found : ∀ f ∈ s.2.found, f ∈ t.2.found

section deposits

variable {referenceOf : ℕ → String} {deliveries : List Delivery} {i t : ℕ} {s u : Store}
  {A : Accounts} {m : MovementRow}

theorem Grows.refl (s : Store) : Grows s s := ⟨fun _ h => h, fun _ h => h⟩

/-- The discipline of the deposits. -/
def depositDiscipline (referenceOf : ℕ → String) (deliveries : List Delivery) :
    Discipline (Beside Query DepositSql) (Except DepositError Outside) Store where
  inv := DepositInv referenceOf deliveries
  rely _ := Grows
  cond := Named referenceOf deliveries
  good _ _ _ _ _ _ := True
  rely_refl _ := Grows.refl
  rely_trans _ _ _ _ h h' :=
    ⟨fun m hm => h'.movements m (h.movements m hm), fun f hf => h'.found f (h.found f hf)⟩

theorem lax : Lax (depositDiscipline referenceOf deliveries) := ⟨fun _ _ _ _ _ _ => trivial⟩

theorem depositKey_inj {a b : String} : depositKey a = depositKey b ↔ a = b := by
  unfold depositKey buildIdempotencyKey
  rw [String.append_right_inj]

/-- The delivery has found this user with this reference. -/
def Found (i : ℕ) (userId reference : String) (s : Store) : Prop :=
  ⟨i, userId, reference⟩ ∈ s.2.found

/-- A reference is credited. -/
def Credited (reference : String) (s : Store) : Prop :=
  ∃ m ∈ s.1.movements, m.idempotencyKey = depositKey reference

/-- What is known stays so while the others step. -/
def Lasts (P : Store → Prop) : Prop := ∀ s t, P s → Grows s t → P t

theorem lasts_true : Lasts fun _ => True := fun _ _ _ _ => trivial

theorem lasts_found {userId reference : String} : Lasts (Found i userId reference) :=
  fun _ _ h hg => hg.found _ h

theorem lasts_credited {reference : String} : Lasts (Credited reference) :=
  fun _ _ ⟨m, hm, hkey⟩ hg => ⟨m, hg.movements m hm, hkey⟩

/-! ### Steps -/

/-- The ledger changes, and no movement is recorded. -/
theorem DepositInv.same (h : DepositInv referenceOf deliveries s)
    (hA : A.movements = s.1.movements) :
    DepositInv referenceOf deliveries (A, s.2) ∧ Grows s (A, s.2) := by
  refine ⟨⟨?_, ?_, h.named⟩, fun m hm => hA ▸ hm, fun _ hf => hf⟩
  · show (A.movements.map _).Nodup
    rw [hA]
    exact h.keys
  · show ∀ m ∈ A.movements, _
    rw [hA]
    exact h.owned

/-- A user that is found is credited. -/
theorem DepositInv.credit (h : DepositInv referenceOf deliveries s)
    (hA : A.movements = m :: s.1.movements) (hfresh : s.1.movement? m.idempotencyKey = none)
    {reference : String} (hf : Found i m.userId reference s)
    (hkey : m.idempotencyKey = depositKey reference) :
    DepositInv referenceOf deliveries (A, s.2) ∧ Grows s (A, s.2) := by
  refine ⟨⟨?_, ?_, h.named⟩, fun m' hm' => hA ▸ List.mem_cons_of_mem m hm', fun _ hf => hf⟩
  · show (A.movements.map _).Nodup
    rw [hA]
    refine List.nodup_cons.mpr ⟨fun hmem => ?_, h.keys⟩
    obtain ⟨m', hm', he⟩ := List.mem_map.mp hmem
    have hnone := List.find?_eq_none.mp hfresh m' hm'
    simp [he] at hnone
  · show ∀ m' ∈ A.movements, _
    rw [hA]
    intro m' hm'
    rcases List.mem_cons.mp hm' with rfl | hm'
    · exact ⟨_, hf, rfl, hkey⟩
    · exact h.owned m' hm'

/-- A user is looked for. -/
theorem DepositInv.look (h : DepositInv referenceOf deliveries s) {reference : String}
    {user : Option String} (ht : transactionOf deliveries i = some t)
    (hnamed : user.isSome → reference = referenceOf t) :
    DepositInv referenceOf deliveries (s.1, s.2.look i reference user) ∧
      Grows s (s.1, s.2.look i reference user) ∧
        ∀ userId ∈ user, Found i userId reference (s.1, s.2.look i reference user) := by
  cases user with
  | none => exact ⟨h, Grows.refl s, fun _ hu => (by cases hu)⟩
  | some userId =>
      refine ⟨⟨h.keys, fun m hm => ?_, fun f hf => ?_⟩, ⟨fun _ hm => hm,
        fun f hf => List.mem_cons_of_mem _ hf⟩, fun v hv => ?_⟩
      · obtain ⟨f, hf, hm⟩ := h.owned m hm
        exact ⟨f, List.mem_cons_of_mem _ hf, hm⟩
      · rcases List.mem_cons.mp hf with rfl | hf
        · exact ⟨t, ht, hnamed rfl⟩
        · exact h.named f hf
      · cases hv
        exact List.mem_cons_self

/-! ### Rules -/

/-- What a call does under the discipline. -/
abbrev Runs (referenceOf : ℕ → String) (deliveries : List Delivery) (i : ℕ) {β : Type}
    (P : Store → Prop) (c : DepositCall β) (Q : β → Store → Prop) : Prop :=
  Triple server.machine (depositDiscipline referenceOf deliveries) i P c Q fun _ _ => True

variable {P : Store → Prop}

/-- A statement of the deposits that only reads, failing or not. -/
theorem triple_read {β : Type} {st : DepositSql (Ans β)} {f : Outside → β}
    (hrun : ∀ o s, st.run i o s = (.ok (f o), s)) (hst : ∀ e, st.fail e = .error e)
    (hP : Lasts P) :
    Triple server.machine (depositDiscipline referenceOf deliveries) i P (sql st) (fun _ => P)
      fun _ => P := by
  refine Beside.triple_own hst hP (fun _ _ hs _ _ => ⟨trivial, hs⟩) fun s o hs hinv _ => ?_
  have hsame : deposits.run i st o s = (.ok (f o), s) := hrun o s
  rw [hsame]
  exact ⟨⟨trivial, hinv, fun _ _ => Grows.refl s⟩, fun _ _ => hs, fun _ _ => hs⟩

theorem runs_read {β : Type} {st : DepositSql (Ans β)} {f : Outside → β}
    (hrun : ∀ o s, st.run i o s = (.ok (f o), s)) (hst : ∀ e, st.fail e = .error e)
    (hP : Lasts P) : Runs referenceOf deliveries i P (sql st) fun _ => P :=
  (triple_read hrun hst hP).mono (fun _ h => h) (fun _ _ h => h) fun _ _ _ => trivial

/-- The lookups of the user. -/
theorem runs_resolve (ht : transactionOf deliveries i = some t) (p : DepositPayload) :
    Runs referenceOf deliveries i (fun _ => True) (resolveUserIdForFlutterwaveDeposit p)
      fun user s => ∀ userId ∈ user,
        p.reference = referenceOf t ∧ Found i userId p.reference s := by
  have hlook : ∀ {st : DepositSql (Ans (Option String))} (user : Tables → Option String),
      (∀ o s, st.run i o s = (.ok (user s.2), s.1, s.2.look i p.reference (user s.2))) →
      (∀ e, st.fail e = .error e) →
      (∀ s, st.Named (referenceOf t) s → (user s.2).isSome → p.reference = referenceOf t) →
      Runs referenceOf deliveries i (fun _ => True) (sql st)
        fun found s => ∀ userId ∈ found,
          p.reference = referenceOf t ∧ Found i userId p.reference s := by
    intro st user hrun hst hnamed
    refine Beside.triple_own hst lasts_true (fun _ _ _ _ _ => ⟨trivial, trivial⟩)
      fun s o _ hinv hc => ?_
    have hthis : deposits.run i st o s = _ := hrun o s
    rw [hthis]
    obtain ⟨hinv', hgrows, hfound⟩ := hinv.look ht (hnamed s (hc t ht))
    refine ⟨⟨trivial, hinv', fun _ _ => hgrows⟩, fun b hb userId hu => ?_, fun _ _ => trivial⟩
    rw [← Except.ok.inj hb] at hu
    exact ⟨hnamed s (hc t ht) (Option.isSome_of_mem hu), hfound userId hu⟩
  refine Triple.bind (R := fun found s => ∀ userId ∈ found,
    p.reference = referenceOf t ∧ Found i userId p.reference s)
      (Triple.ite (fun _ => Triple.pure fun _ _ _ hu => (by cases hu)) fun _ =>
        hlook (fun T => T.byAccount p) (fun _ _ => rfl) (fun _ => rfl) fun _ h => h)
    fun found => ?_
  cases found with
  | some userId => exact Triple.pure fun _ h => h
  | none =>
      refine Triple.mono (P := fun _ => True) ?_ (fun _ _ => trivial) (fun _ _ h => h)
        fun _ _ h => h
      exact Triple.ite (fun _ => Triple.pure fun _ _ _ hu => (by cases hu)) fun _ =>
        hlook (fun T => T.byEmail p) (fun _ _ => rfl) (fun _ => rfl) fun _ h => h

/-- The verify API. -/
theorem runs_enrich (p : DepositPayload) :
    Runs referenceOf deliveries i (fun _ => True) (enrichFlutterwaveDepositFromApi p)
      fun _ _ => True := by
  unfold enrichFlutterwaveDepositFromApi
  cases p.transactionId with
  | none => exact Triple.pure fun _ h => h
  | some id =>
      refine Triple.ite (fun _ => Triple.pure fun _ h => h) fun _ => ?_
      exact Triple.tryCatch (F := fun _ _ => True) (Triple.bind (R := fun _ _ => True)
        (runs_read (fun _ _ => rfl) (fun _ => rfl) lasts_true) fun _ => Triple.pure fun _ h => h)
          fun _ => Triple.pure fun _ h => h

/-- The credit of a user found. -/
theorem runs_creditWalletInflow (userId reference : String) (amount : ℚ) :
    Runs referenceOf deliveries i (Found i userId reference)
      (creditWalletInflow userId amount reference) fun _ => Credited reference := by
  refine Triple.ite (fun _ => Triple.throw fun _ _ => trivial) fun _ => ?_
  refine Triple.bind (R := fun _ => Found i userId reference) ((triple_ensureWallet lax userId
    primaryCurrency lasts_found fun s A w hs hinv hnew => ?_).mono (fun _ h => h) (fun _ _ h => h)
      fun _ _ _ => trivial) fun wallet => ?_
  · obtain ⟨hinv', hgrows⟩ := hinv.same (Accounts.createWallet_movements hnew)
    exact ⟨hinv', fun _ _ => hgrows, hs⟩
  · refine Triple.mono (triple_creditUsdBalance lax (P := Found i userId reference)
      (Q := Credited reference) lasts_found
        (fun s m _ _ _ hm => ⟨m, List.mem_of_find?_eq_some hm, ?_⟩)
        fun usd _ s A hs hinv hstep => ?_) (fun _ h => h) (fun _ _ h => h) fun _ _ _ => trivial
    · have hkey : m.idempotencyKey =
          (inflow userId wallet.walletId amount reference).idempotencyKey := by
        simpa using List.find?_some hm
      exact hkey
    · obtain ⟨hinv', hgrows⟩ := hinv.credit hstep.movements hstep.fresh hs rfl
      exact ⟨hinv', fun _ _ => hgrows, _, hstep.movements ▸ List.mem_cons_self, rfl⟩

/-- The history of a deposit. -/
theorem runs_upsert (reference : String) (usd : ℚ) (hP : Lasts P) :
    Runs referenceOf deliveries i P (upsertNgnBankDepositActivity reference usd) fun _ => P := by
  have hfind : Runs referenceOf deliveries i P (sql (.findActivity reference)) fun _ => P :=
    runs_read (fun _ _ => rfl) (fun _ => rfl) hP
  have hwrite : Runs referenceOf deliveries i P (sql (.writeActivity reference)) fun _ => P :=
    runs_read (fun _ _ => rfl) (fun _ => rfl) hP
  have hlast : Runs referenceOf deliveries i P
      (if 0 < usd then sql (.writeActivity reference) else pure ()) fun _ => P :=
    Triple.ite (fun _ => hwrite) fun _ => Triple.pure fun _ h => h
  refine Triple.bind hfind fun found => Triple.ite (fun _ => hwrite) fun _ => ?_
  refine Triple.bind hfind fun found => Triple.ite (fun _ => hlast) fun _ => ?_
  refine Triple.bind hfind fun found => Triple.ite (fun _ => hlast) fun _ => ?_
  exact Triple.bind hwrite fun _ => Triple.bind hwrite fun _ => hlast

/-- From the user on. -/
theorem runs_creditDeposit (userId : String) (p : DepositPayload) :
    Runs referenceOf deliveries i (Found i userId p.reference) (creditDeposit userId p)
      fun _ => Credited p.reference := by
  refine Triple.bind (runs_creditWalletInflow _ _ _) fun result => ?_
  refine Triple.bind (R := fun _ => Credited p.reference) (runs_upsert _ _ lasts_credited)
    fun _ => Triple.ite (fun _ => ?_) fun _ => Triple.pure fun _ h => h
  have hnotify : Runs referenceOf deliveries i (Credited p.reference)
      (tryCatch (sql .notify) fun _ => pure ()) fun _ => Credited p.reference :=
    Triple.tryCatch (triple_read (fun _ _ => rfl) (fun _ => rfl) lasts_credited) fun _ =>
      Triple.pure fun _ h => h
  exact Triple.bind hnotify fun _ => Triple.pure fun _ h => h

/-- A user that is found by the transaction's reference is credited for it. -/
theorem runs_creditFound {userId : String} (p : DepositPayload) :
    Runs referenceOf deliveries i
      (fun s => p.reference = referenceOf t ∧ Found i userId p.reference s)
      (creditDeposit userId p) fun _ => Credited (referenceOf t) := by
  refine Triple.assume fun href => ?_
  rw [← href]
  exact runs_creditDeposit userId p

/-- A deposit that is processed is credited under the reference of its transaction. -/
theorem runs_process (ht : transactionOf deliveries i = some t) (p : DepositPayload) :
    Runs referenceOf deliveries i (fun _ => True) (processFlutterwaveDeposit p)
      fun _ => Credited (referenceOf t) := by
  refine Triple.ite (fun _ => Triple.throw fun _ _ => trivial) fun _ => ?_
  refine Triple.bind (R := fun _ _ => True) (Triple.ite (fun _ => runs_enrich p) fun _ =>
    Triple.pure fun _ h => h) fun enriched => ?_
  refine Triple.bind (runs_resolve ht enriched) fun user => ?_
  cases user with
  | some userId =>
      exact (runs_creditFound enriched).mono (fun _ h => h userId rfl) (fun _ _ h => h)
        fun _ _ h => h
  | none =>
      refine Triple.ite (fun _ => Triple.throw fun _ _ => trivial) fun _ => ?_
      refine Triple.bind (R := fun _ _ => True) ((runs_enrich enriched).mono (fun _ _ => trivial)
        (fun _ _ h => h) fun _ _ h => h) fun fromApi => ?_
      refine Triple.bind (runs_resolve ht fromApi) fun user => ?_
      cases user with
      | some userId =>
          exact (runs_creditFound fromApi).mono (fun _ h => h userId rfl) (fun _ _ h => h)
            fun _ _ h => h
      | none => exact Triple.throw fun _ _ => trivial

/-- What a delivery that was processed knows. -/
def Settled (referenceOf : ℕ → String) (deliveries : List Delivery) (i : ℕ) (r : Outcome)
    (s : Store) : Prop :=
  ∀ t c, transactionOf deliveries i = some t → r = .ok (some c) → Credited (referenceOf t) s

/-- A delivery runs under the discipline. -/
theorem runs_call {d : Delivery} (hd : deliveries[i]? = some d) :
    Prog.wp server.machine (depositDiscipline referenceOf deliveries) i d.call.run
      (Settled referenceOf deliveries i) s := by
  have ht : transactionOf deliveries i = some d.transaction := by simp [transactionOf, hd]
  have hruns : Runs referenceOf deliveries i (fun _ => True) d.call
      fun r s => r.isSome → Credited (referenceOf d.transaction) s := by
    unfold Delivery.call
    cases parseFlutterwaveDepositWebhook d.body with
    | none => exact Triple.pure fun _ _ h => (by cases h)
    | some p => exact Triple.bind (runs_process ht p) fun r => Triple.pure fun _ h _ => h
  refine Prog.wp_mono (fun r s hr => ?_) _ _ (hruns s trivial)
  intro t' c ht' hok
  subst hok
  obtain rfl : d.transaction = t' := Option.some.inj (ht.symm.trans ht')
  exact hr rfl

/-! ### Every run -/

/-- The credits of a transaction are those under its reference. -/
theorem DepositInv.creditOf_iff (h : DepositInv referenceOf deliveries s)
    (hinj : Function.Injective referenceOf) (hm : m ∈ s.1.movements) :
    creditOf deliveries s.2 t m = true ↔ m.idempotencyKey = depositKey (referenceOf t) := by
  unfold creditOf
  rw [List.any_eq_true]
  constructor
  · rintro ⟨f, hf, hcredit⟩
    obtain ⟨ht, -, hkey⟩ := of_decide_eq_true hcredit
    obtain ⟨t', ht', href⟩ := h.named f hf
    rw [hkey, href, Option.some.inj (ht'.symm.trans ht)]
  · intro hkey
    obtain ⟨f, hf, huser, hkey'⟩ := h.owned m hm
    obtain ⟨t', ht', href⟩ := h.named f hf
    have htt' : t' = t := hinj (by rw [← href, ← depositKey_inj, ← hkey', hkey])
    exact ⟨f, hf, decide_eq_true ⟨htt' ▸ ht', huser, hkey'⟩⟩

end deposits

/-- **Deposits are credited once**: in every run in which a delivery that finds its user carries
the reference of its transaction, and different transactions have different references, each
transaction is credited at most once, by a movement of its own, and exactly once when a delivery
of it was processed. -/
theorem deposits_credited_once (referenceOf : ℕ → String) (hinj : Function.Injective referenceOf)
    (wallets : List WalletRow) (holders : List Holder) (deliveries : List Delivery)
    (sched : List (ℕ × Except DepositError Outside))
    (hc : Pool.Along server.machine (Pool.CondAt (Named referenceOf deliveries))
      (begun wallets holders deliveries) sched) :
    CreditedOnce deliveries ((begun wallets holders deliveries).run server.machine sched) := by
  have hstart : Pool.Verified server.machine (depositDiscipline referenceOf deliveries)
      (Settled referenceOf deliveries) (begun wallets holders deliveries) := by
    refine Pool.Verified.start ⟨List.nodup_nil, fun m hm => (by cases hm),
      fun f hf => (by cases hf)⟩ fun i p hp => ?_
    rw [List.getElem?_map] at hp
    obtain ⟨d, hd, rfl⟩ := Option.map_eq_some_iff.mp hp
    exact runs_call hd
  have hverified := (Pool.run_sound hstart sched hc).1
  have hinv := hverified.1
  refine ⟨fun t => ?_, fun m hm t u ht hu => ?_, fun i t r ht hi => ?_⟩
  · exact length_filter_le_one hinv.keys fun m hm hcredit =>
      (hinv.creditOf_iff hinj hm).mp hcredit
  · refine hinj (depositKey_inj.mp ?_)
    rw [← (hinv.creditOf_iff hinj hm).mp ht, (hinv.creditOf_iff hinj hm).mp hu]
  · obtain ⟨s, hsettled, hgrows⟩ := hverified.result hi
    obtain ⟨m, hm, hkey⟩ := lasts_credited _ _ (hsettled t r ht rfl) hgrows
    exact ⟨m, hm, (hinv.creditOf_iff hinj hm).mpr hkey⟩

/-! ### Two transfers, one reference -/

/-- A transfer of five thousand naira to the account of a user, as a webhook reports it. -/
def transfer (transaction : ℕ) (txRef : Option String) (flwRef : String)
    (email : Option String) : Delivery :=
  ⟨transaction,
    { event := some "charge.completed"
      data := some
        { status := some "successful"
          amount := some 5000
          txRef := txRef
          flwRef := some flwRef
          id := some (toString transaction)
          customerEmail := email } }⟩

/-- The user. -/
def ada : Holder := ⟨"ada", some "0123456789", "ada@dayfi.co"⟩

def adasDollars : WalletRow := { walletId := 1, userId := "ada", currency := "USD" }

/-- The turns of a delivery; the verify API, when it is asked, knows the transfer `FLW-0`. -/
def turns (i : ℕ) : List (ℕ × Except DepositError Outside) :=
  List.replicate 13 (i, .ok
    { ledger := { rate := some (1 / 1500) }
      transaction := { flwRef := some "FLW-0", customerEmail := some "ada@dayfi.co" } })

/-- Two deliveries, one after the other. -/
def afterBoth (deliveries : List Delivery) : Pool (Beside Query DepositSql) Outcome Store :=
  (begun [adasDollars] [ada] deliveries).run server.machine (turns 0 ++ turns 1)

/-- Two transfers into one permanent account, which carry the `tx_ref` of the account. -/
def intoOneAccount : List Delivery :=
  [transfer 0 (some "dayfi-va-1") "FLW-0" (some "ada@dayfi.co"),
    transfer 1 (some "dayfi-va-1") "FLW-1" (some "ada@dayfi.co")]

/-- One of them is credited. -/
theorem two_transfers_one_credit : ¬ CreditedOnce intoOneAccount (afterBoth intoOneAccount) := by
  intro h
  have hrun : ∃ m ∈ (afterBoth intoOneAccount).store.1.movements,
      creditOf intoOneAccount (afterBoth intoOneAccount).store.2 0 m = true ∧
        creditOf intoOneAccount (afterBoth intoOneAccount).store.2 1 m = true := by
    decide +kernel
  obtain ⟨m, hm, h0, h1⟩ := hrun
  exact absurd (h.apart m hm 0 1 h0 h1) (by decide)

/-- One transfer, delivered with its user's email and without: it is credited twice. -/
example :
    ((afterBoth [transfer 0 (some "dayfi-va-1") "FLW-0" (some "ada@dayfi.co"),
      transfer 0 (some "dayfi-va-1") "FLW-0" none]).store.1.movements.map (·.idempotencyKey)) =
        ["flutterwave:FLW-0", "flutterwave:dayfi-va-1"] := by
  decide +kernel

/-- The references of the transfers, when there is no `tx_ref`. -/
def flwReference (t : ℕ) : String := "FLW-" ++ toString t

theorem flwReference_injective : Function.Injective flwReference := fun m n h => by
  unfold flwReference at h
  rwa [String.append_right_inj, toString_inj] at h

/-- Two transfers without a `tx_ref`, the second one delivered without the email. -/
theorem deposits_credited_once_apart :
    CreditedOnce [transfer 1 none "FLW-1" (some "ada@dayfi.co"), transfer 0 none "FLW-0" none]
      ((begun [adasDollars] [ada] [transfer 1 none "FLW-1" (some "ada@dayfi.co"),
        transfer 0 none "FLW-0" none]).run server.machine (turns 0 ++ turns 1)) :=
  deposits_credited_once flwReference flwReference_injective [adasDollars] [ada]
    [transfer 1 none "FLW-1" (some "ada@dayfi.co"), transfer 0 none "FLW-0" none]
    (turns 0 ++ turns 1) (by decide +kernel)

end DayfiBackend.Consumer.FlutterwaveDeposits
