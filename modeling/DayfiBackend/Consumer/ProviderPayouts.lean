import DayfiBackend.Consumer.LedgerCalls

/-!
# Bank transfers and bills

`bankTransfer` and `payBill` debit the user's USD wallet, ask Flutterwave for the payment, and
credit the debit back when an exception reaches their `catch`. The block of `bankTransfer` spans
the request and the history that is recorded after it, that of `payBill` the request only.

`Stands` says that what the provider has taken stays paid: the debit is there, and it is not
credited back. An exception says little about the provider, which may have taken a payment whose
answer is lost; `payouts_stand` is the result for the runs in which that does not happen and the
history of a bank transfer is recorded.

The history is a table of its own, whose statements are answered or fail; the texts it displays
are left out.
-/

namespace DayfiBackend.Consumer.Payouts

open DayfiBackend.Found DayfiBackend.Found.Prog DayfiBackend.Found.Keys

/-! ### Payments -/

/-- A payment, by the number of its reference. -/
inductive Payment where
  | bank (number : ℕ)
  | bill (number : ℕ)
  deriving DecidableEq, Repr

namespace Payment

/-- The number drawn for the reference. -/
def number : Payment → ℕ
  | bank n | bill n => n

/-- `reference`. -/
def reference : Payment → String
  | bank n => "bank-" ++ toString n
  | bill n => "dayfi-bill-" ++ toString n

/-- The key of the debit. -/
def debitKey : Payment → String
  | bank n => buildIdempotencyKey "bank_out" (bank n).reference
  | bill n => "bill-pay-" ++ (bill n).reference

/-- The key of its reversal. -/
def reversalKey (p : Payment) : String := p.debitKey ++ "-reversal"

/-- The source of the debit. -/
def source : Payment → LedgerSource
  | bank _ => .bankOut
  | bill _ => .billPay

end Payment

/-- Source: `services.ts` `bankTransfer`, its parameters. A fee that is not a number is none. -/
structure BankTransferParams where
  amount : ℚ
  accountName : String
  accountNumber : String
  bankCode : String
  bankName : String
  fee : Option ℚ
  userId : String
  spendCurrency : String
  deriving DecidableEq, Repr

/-- Source: `billsService.ts` `payBill`, its parameters. -/
structure PayBillParams where
  userId : String
  categoryCode : String
  billerCode : String
  itemCode : String
  customerId : String
  amount : ℚ
  deriving DecidableEq, Repr

/-- What the provider is asked for. -/
inductive Request where
  | transfer (bankCode accountNumber accountName currency : String) (amount : ℚ)
  | bill (billerCode itemCode customerId : String) (amount : ℚ)
  deriving DecidableEq, Repr

/-! ### Tables -/

/-- The tables beside the ledger: `issued` says who drew the number of a reference, `requests` are
those that reached the provider and `accepted` the payments it has taken. -/
structure Tables where
  issued : List ℕ := []
  requests : List (Payment × Request) := []
  accepted : List Payment := []

/-- All tables. -/
abbrev Store := Accounts × Tables

/-- What the services throw. -/
inductive PayoutError where
  | ledger (e : Err)
  | database
  | provider
  | usdPayout
  | invalidBillAmount
  | walletNotFound
  | insufficientBalance
  deriving DecidableEq, Repr

/-- What becomes of a request to the provider; `txRef` is the `tx_ref` of a bill's answer. -/
inductive RequestOutcome where
  | answered (txRef : String)
  | acceptedThenFailed
  | refused
  deriving DecidableEq, Repr

/-- The outside at a step; `found` is what a search of the history answers. -/
structure Outside where
  ledger : Consumer.Outside := {}
  request : RequestOutcome := .answered ""
  found : Bool := false
  deriving DecidableEq, Repr

abbrev Ans (α : Type) := Except PayoutError α

/-- The statements of the payouts. -/
inductive PayoutSql : Type → Type
  | newReference : PayoutSql (Ans ℕ)
  | validateBillCustomer (p : PayBillParams) : PayoutSql (Ans Unit)
  | request (p : Payment) (r : Request) : PayoutSql (Ans String)
  /-- A search of the history. -/
  | findActivity (p : Payment) : PayoutSql (Ans Bool)
  /-- A write of the history. -/
  | writeActivity (p : Payment) : PayoutSql (Ans Unit)
  | notify : PayoutSql (Ans Unit)
  | fetchBillPaymentStatus (txRef : String) : PayoutSql (Ans Unit)

/-- A request reaches the provider, which takes it or not. -/
def Tables.asked (T : Tables) (p : Payment) (r : Request) (takes : Bool) : Tables :=
  { T with
    requests := (p, r) :: T.requests
    accepted := if takes then p :: T.accepted else T.accepted }

/-- One statement, when it gets there. -/
def PayoutSql.run {β : Type} (i : ℕ) (st : PayoutSql β) (o : Outside) (s : Store) : β × Store :=
  match st with
  | .newReference => (.ok s.2.issued.length, s.1, { s.2 with issued := s.2.issued ++ [i] })
  | .validateBillCustomer _ => (.ok (), s)
  | .request p r =>
      match o.request with
      | .answered txRef => (.ok txRef, s.1, s.2.asked p r true)
      | .acceptedThenFailed => (.error .provider, s.1, s.2.asked p r true)
      | .refused => (.error .provider, s.1, s.2.asked p r false)
  | .findActivity _ => (.ok o.found, s)
  | .writeActivity _ => (.ok (), s)
  | .notify => (.ok (), s)
  | .fetchBillPaymentStatus _ => (.ok (), s)

/-- The answer of a statement that fails. -/
def PayoutSql.fail {β : Type} (st : PayoutSql β) (e : PayoutError) : β :=
  match st with
  | .newReference | .validateBillCustomer _ | .request .. | .findActivity _ => .error e
  | .writeActivity _ | .notify | .fetchBillPaymentStatus _ => .error e

/-- The statements of the payouts over all tables. -/
def payouts : Backend PayoutSql Outside PayoutError Store where
  run i st o s := st.run i o s
  fail st e := st.fail e

/-- The payouts beside the ledger. -/
def server : Backend (Beside Query PayoutSql) Outside PayoutError Store :=
  accounts.beside payouts Outside.ledger .database

/-- A call of the payouts. -/
abbrev PayoutCall := ExceptT PayoutError (Prog (Beside Query PayoutSql))

/-- A call of the ledger. -/
def ledger {β : Type} (p : Call β) : PayoutCall β := inside PayoutError.ledger p

/-- One statement of the payouts; its failure is thrown. -/
def sql {β : Type} (st : PayoutSql (Ans β)) : PayoutCall β := ownCall st

/-- A failure that is swallowed. -/
def swallow (p : PayoutCall Unit) : PayoutCall Unit := tryCatch p fun _ => pure ()

/-! ### Operations -/

/-- The debit of a payment. -/
def Payment.debit (p : Payment) (userId : String) (walletId : ℕ) (usd : ℚ) : BalanceParams where
  userId := userId
  walletId := walletId
  amount := usd
  source := p.source
  idempotencyKey := p.debitKey
  externalReference := some p.reference

/-- The credit that reverses it. -/
def Payment.reversal (p : Payment) (userId : String) (walletId : ℕ) (usd : ℚ) :
    BalanceParams where
  userId := userId
  walletId := walletId
  amount := usd
  source := .manual
  idempotencyKey := p.reversalKey
  externalReference := some (p.reference ++ "-reversal")

/-- `LOCAL_SPEND_CURRENCY`. -/
def localSpendCurrency : String := "NGN"

/-- `spendCurrency || 'NGN'`, in capitals. -/
def BankTransferParams.currency (p : BankTransferParams) : String :=
  (if p.spendCurrency = "" then "NGN" else p.spendCurrency).toUpper

/-- `amount + (Number(fee) || 0)`. -/
def BankTransferParams.totalDebit (p : BankTransferParams) : ℚ := p.amount + p.fee.getD 0

/-- Source: `services.ts` `bankTransfer`, its request. -/
def BankTransferParams.request (p : BankTransferParams) : Request :=
  .transfer p.bankCode p.accountNumber p.accountName localSpendCurrency p.amount

/-- Source: `walletActivityService.ts` `recordWalletActivity`, of a bank transfer. -/
def recordWalletActivity (p : BankTransferParams) (n : ℕ) : PayoutCall Unit := do
  if trim p.userId = "" ∨ p.amount ≤ 0 then pure ()
  else if ← sql (.findActivity (.bank n)) then do
    sql (.writeActivity (.bank n))
    if trim p.accountName ≠ "" then
      -- the beneficiary of the row, and its name
      if ← sql (.findActivity (.bank n)) then sql (.writeActivity (.bank n))
  else if ← sql (.findActivity (.bank n)) then pure ()
  else do
    -- the beneficiary and the account
    sql (.writeActivity (.bank n))
    if trim p.accountNumber ≠ "" then sql (.writeActivity (.bank n))
    sql (.writeActivity (.bank n))

/-- The `try` and the `catch` of a bank transfer. Source: `services.ts` `bankTransfer`. -/
def submitTransfer (p : BankTransferParams) (n walletId : ℕ) (usd : ℚ) : PayoutCall Unit :=
  tryCatch (do
      let _ ← sql (.request (.bank n) p.request)
      recordWalletActivity p n
      swallow (sql .notify))
    fun _ => do
      let _ ← ledger (creditUsdBalance ((Payment.bank n).reversal p.userId walletId usd))
      throw .provider

/-- Source: `services.ts` `bankTransfer`. -/
def bankTransfer (p : BankTransferParams) : PayoutCall Unit := do
  let n ← sql .newReference
  if p.currency = primaryCurrency then throw .usdPayout
  else do
    let usdWallet ← ledger (ensureWalletForCurrency p.userId primaryCurrency)
    let usd ← ledger (convertAmountToUsd p.totalDebit localSpendCurrency)
    let _ ← ledger (debitUsdBalance ((Payment.bank n).debit p.userId usdWallet.walletId usd))
    submitTransfer p n usdWallet.walletId usd

/-- `SKIP_VALIDATE_CATEGORIES`. -/
def skipValidateCategories : List String := ["AIRTIME", "MOBILEDATA"]

/-- Source: `billsService.ts` `payBill`, its request. -/
def PayBillParams.request (p : PayBillParams) : Request :=
  .bill p.billerCode p.itemCode p.customerId p.amount

/-- The `try` and the `catch` of a bill. Source: `billsService.ts` `payBill`. -/
def submitBill (p : PayBillParams) (n walletId : ℕ) (usd : ℚ) : PayoutCall String :=
  tryCatch (sql (.request (.bill n) p.request)) fun e => do
    let _ ← ledger (creditUsdBalance ((Payment.bill n).reversal p.userId walletId usd))
    swallow (sql .notify)
    throw e

/-- From the debit of a bill on. Source: `billsService.ts` `payBill`. -/
def payBillFrom (p : PayBillParams) (n walletId : ℕ) (usd : ℚ) : PayoutCall Unit := do
  let _ ← ledger (debitUsdBalance ((Payment.bill n).debit p.userId walletId usd))
  let txRef ← submitBill p n walletId usd
  swallow (sql .notify)
  if trim txRef ≠ "" then swallow (sql (.fetchBillPaymentStatus (trim txRef)))
  let _ ← ledger (Consumer.sql (.balanceOf walletId))

/-- Source: `billsService.ts` `payBill`. -/
def payBill (p : PayBillParams) : PayoutCall Unit :=
  if p.amount ≤ 0 then throw .invalidBillAmount
  else do
    match ← ledger (Consumer.sql (.userWallet p.userId primaryCurrency)) with
    | none => throw .walletNotFound
    | some usdWallet =>
        let usd ← ledger (convertAmountToUsd p.amount "NGN")
        if decimal usdWallet.balance < usd then throw .insufficientBalance
        else do
          let n ← sql .newReference
          if p.categoryCode.toUpper ∉ skipValidateCategories then sql (.validateBillCustomer p)
          payBillFrom p n usdWallet.walletId usd

/-! ### Runs -/

/-- A call. -/
inductive Payout where
  | bankTransfer (p : BankTransferParams)
  | payBill (p : PayBillParams)

/-- What a call runs. -/
def Payout.call : Payout → PayoutCall Unit
  | bankTransfer p => Payouts.bankTransfer p
  | payBill p => Payouts.payBill p

/-- The program of a call. -/
def Payout.program (e : Payout) : Prog (Beside Query PayoutSql) Unit :=
  e.call.run >>= fun _ => pure ()

/-- The calls, before any has begun, on these wallets. -/
def begun (wallets : List WalletRow) (calls : List Payout) :
    Pool (Beside Query PayoutSql) Unit Store :=
  ⟨({ wallets := wallets }, {}), calls.map Payout.program⟩

/-! ### The property -/

/-- The debit of a payment is recorded. -/
def Debited (p : Payment) (s : Store) : Prop :=
  ∃ m ∈ s.1.movements, m.direction = .debit ∧ m.idempotencyKey = p.debitKey

/-- The debit of a payment is credited back. -/
def Reversed (p : Payment) (s : Store) : Prop :=
  ∃ m ∈ s.1.movements, m.direction = .credit ∧ m.idempotencyKey = p.reversalKey

/-- What the provider has taken is debited, and is not credited back. -/
def Stands (s : Store) : Prop := ∀ p ∈ s.2.accepted, Debited p s ∧ ¬ Reversed p s

/-- The condition on a statement of the payouts: a request that is taken is answered, and the
history of a transfer is written. -/
def PayoutSql.Answered {β : Type} (st : PayoutSql β) (o : Except PayoutError Outside) : Prop :=
  match st with
  | .request _ _ =>
      match o with
      | .ok o => o.request ≠ .acceptedThenFailed
      | .error _ => True
  | .findActivity _ | .writeActivity _ =>
      match o with
      | .ok _ => True
      | .error _ => False
  | _ => True

/-- The condition on the steps of a run. -/
def Answered {β : Type} (_ : ℕ) (st : Beside Query PayoutSql β) (o : Except PayoutError Outside)
    (_ : Store) : Prop :=
  match st with
  | .inner _ => True
  | .own st => st.Answered o

instance {β : Type} (i : ℕ) (st : Beside Query PayoutSql β) (o : Except PayoutError Outside)
    (s : Store) : Decidable (Answered i st o s) := by
  unfold Answered PayoutSql.Answered
  repeat' split
  all_goals infer_instance

/-! ### Keys -/

namespace Payment

theorem debitKey_bank (n : ℕ) : (bank n).debitKey = "bank_out:bank-" ++ toString n := by
  show "bank_out" ++ ":" ++ ("bank-" ++ toString n) = _
  rw [← String.append_assoc]
  rfl

theorem debitKey_bill (n : ℕ) : (bill n).debitKey = "bill-pay-dayfi-bill-" ++ toString n := by
  show "bill-pay-" ++ ("dayfi-bill-" ++ toString n) = _
  rw [← String.append_assoc]
  rfl

theorem debitKey_inj {p q : Payment} (h : p.debitKey = q.debitKey) : p = q := by
  cases p with
  | bank m =>
      cases q with
      | bank n =>
          rw [debitKey_bank, debitKey_bank, String.append_right_inj, toString_inj] at h
          rw [h]
      | bill n => exact absurd h (append_ne_append_of_heads (by decide) (by decide) _ _)
  | bill m =>
      cases q with
      | bank n => exact absurd h.symm (append_ne_append_of_heads (by decide) (by decide) _ _)
      | bill n =>
          rw [debitKey_bill, debitKey_bill, String.append_right_inj, toString_inj] at h
          rw [h]

theorem reversalKey_inj {p q : Payment} (h : p.reversalKey = q.reversalKey) : p = q :=
  debitKey_inj ((String.append_left_inj _).mp h)

/-- A debit's key ends in a number. -/
theorem debitKey_ne_reversalKey (p q : Payment) : p.debitKey ≠ q.reversalKey := by
  cases p with
  | bank n =>
      rw [debitKey_bank]
      exact append_toString_ne (by decide) _ _ n
  | bill n =>
      rw [debitKey_bill]
      exact append_toString_ne (by decide) _ _ n

end Payment

/-! ### The invariant -/

structure PayInv (s : Store) : Prop where
  debits : ∀ m ∈ s.1.movements, m.direction = .debit →
    ∃ p : Payment, m.idempotencyKey = p.debitKey
  credits : ∀ m ∈ s.1.movements, m.direction = .credit →
    ∃ p : Payment, m.idempotencyKey = p.reversalKey ∧ p.number < s.2.issued.length
  accepted : ∀ p ∈ s.2.accepted, p.number < s.2.issued.length
  stands : Stands s

/-- What a process may count on: a payment whose number it has drawn is requested and reversed by
no other. -/
structure Leaves (i : ℕ) (s t : Store) : Prop where
  issued : ∀ n j : ℕ, s.2.issued[n]? = some j → t.2.issued[n]? = some j
  debited : ∀ p, Debited p s → Debited p t
  accepted : ∀ p : Payment, s.2.issued[p.number]? = some i → p ∈ t.2.accepted → p ∈ s.2.accepted
  reversed : ∀ p : Payment, s.2.issued[p.number]? = some i → Reversed p t → Reversed p s

variable {i n : ℕ} {s t u : Store} {p : Payment}

theorem Leaves.refl (i : ℕ) (s : Store) : Leaves i s s :=
  ⟨fun _ _ h => h, fun _ h => h, fun _ _ h => h, fun _ _ h => h⟩

theorem Leaves.trans (h : Leaves i s t) (h' : Leaves i t u) : Leaves i s u where
  issued n j hn := h'.issued n j (h.issued n j hn)
  debited p hp := h'.debited p (h.debited p hp)
  accepted p hp ha := h.accepted p hp (h'.accepted p (h.issued _ i hp) ha)
  reversed p hp hr := h.reversed p hp (h'.reversed p (h.issued _ i hp) hr)

/-- The discipline of the payouts. -/
def payoutDiscipline :
    Discipline (Beside Query PayoutSql) (Except PayoutError Outside) Store where
  inv := PayInv
  rely := Leaves
  cond := Answered
  good _ _ _ _ _ _ := True
  rely_refl := Leaves.refl
  rely_trans _ _ _ _ := Leaves.trans

theorem lax : Lax payoutDiscipline := ⟨fun _ _ _ _ _ _ => trivial⟩

/-- A payment of the process that is neither taken nor reversed. -/
structure Open (i : ℕ) (p : Payment) (s : Store) : Prop where
  issued : s.2.issued[p.number]? = some i
  untaken : p ∉ s.2.accepted
  standing : ¬ Reversed p s

theorem Open.stable (h : Open i p s) (hl : Leaves i s t) : Open i p t where
  issued := hl.issued _ i h.issued
  untaken ha := h.untaken (hl.accepted p h.issued ha)
  standing hr := h.standing (hl.reversed p h.issued hr)

/-- Such a payment, once it is debited. -/
def Charged (i : ℕ) (p : Payment) (s : Store) : Prop := Open i p s ∧ Debited p s

theorem Charged.stable (h : Charged i p s) (hl : Leaves i s t) : Charged i p t :=
  ⟨h.1.stable hl, hl.debited p h.2⟩

/-! ### Steps -/

section steps

variable {A : Accounts} {m : MovementRow}

/-- A payment is reversed by a credit under its own key only. -/
theorem Reversed.of_cons (hA : A.movements = m :: s.1.movements) (h : Reversed p (A, s.2)) :
    Reversed p s ∨ m.direction = .credit ∧ m.idempotencyKey = p.reversalKey := by
  obtain ⟨m', hm', hr⟩ := h
  rw [show (A, s.2).1.movements = _ from hA] at hm'
  rcases List.mem_cons.mp hm' with rfl | hm'
  · exact .inr hr
  · exact .inl ⟨m', hm', hr⟩

theorem Debited.cons (hA : A.movements = m :: s.1.movements) (h : Debited p s) :
    Debited p (A, s.2) := by
  obtain ⟨m', hm', hd⟩ := h
  exact ⟨m', hA ▸ List.mem_cons_of_mem m hm', hd⟩

/-- The ledger changes, and records nothing. -/
theorem PayInv.same (h : PayInv s) (hA : A.movements = s.1.movements) :
    PayInv (A, s.2) ∧ ∀ j, Leaves j s (A, s.2) := by
  have hd : ∀ p, Debited p (A, s.2) ↔ Debited p s := fun p => by
    unfold Debited
    rw [hA]
  have hr : ∀ p, Reversed p (A, s.2) ↔ Reversed p s := fun p => by
    unfold Reversed
    rw [hA]
  refine ⟨⟨fun m hm => h.debits m (hA ▸ hm), fun m hm => h.credits m (hA ▸ hm), h.accepted,
    fun p hp => ?_⟩, fun j => ⟨fun _ _ hn => hn, fun p => (hd p).mpr, fun _ _ hp => hp,
      fun p _ => (hr p).mp⟩⟩
  rw [hd, hr]
  exact h.stands p hp

/-- A debit is recorded. -/
theorem PayInv.debit (h : PayInv s) (hA : A.movements = m :: s.1.movements)
    (hm : m.direction = .debit) (hkey : m.idempotencyKey = p.debitKey) :
    PayInv (A, s.2) ∧ (∀ j, Leaves j s (A, s.2)) ∧ Debited p (A, s.2) := by
  have hr : ∀ q, Reversed q (A, s.2) → Reversed q s := fun q hq =>
    (hq.of_cons hA).resolve_right fun hc => by
      rw [hm] at hc
      cases hc.1
  refine ⟨⟨?_, ?_, h.accepted, fun q hq => ⟨(h.stands q hq).1.cons hA,
    fun hq' => (h.stands q hq).2 (hr q hq')⟩⟩, fun j => ⟨fun _ _ hn => hn,
      fun q => Debited.cons hA, fun _ _ hq => hq, fun q _ => hr q⟩,
    m, hA ▸ List.mem_cons_self, hm, hkey⟩
  · show ∀ m' ∈ A.movements, _
    rw [hA]
    intro m' hm' hd
    rcases List.mem_cons.mp hm' with rfl | hm'
    · exact ⟨p, hkey⟩
    · exact h.debits m' hm' hd
  · show ∀ m' ∈ A.movements, _
    rw [hA]
    intro m' hm' hd
    rcases List.mem_cons.mp hm' with rfl | hm'
    · rw [hm] at hd
      cases hd
    · exact h.credits m' hm' hd

/-- A payment that is not taken is reversed. -/
theorem PayInv.reverse (h : PayInv s) (hA : A.movements = m :: s.1.movements)
    (hm : m.direction = .credit) (hkey : m.idempotencyKey = p.reversalKey) (ho : Open i p s) :
    PayInv (A, s.2) ∧ ∀ j, j ≠ i → Leaves j s (A, s.2) := by
  have hr : ∀ q, Reversed q (A, s.2) → Reversed q s ∨ q = p := fun q hq =>
    (hq.of_cons hA).imp_right fun hc => Payment.reversalKey_inj (hc.2.symm.trans hkey)
  refine ⟨⟨?_, ?_, h.accepted, fun q hq => ⟨(h.stands q hq).1.cons hA, fun hq' => ?_⟩⟩,
    fun j hj => ⟨fun _ _ hn => hn, fun q => Debited.cons hA, fun _ _ hq => hq,
      fun q hi hq => ?_⟩⟩
  · show ∀ m' ∈ A.movements, _
    rw [hA]
    intro m' hm' hd
    rcases List.mem_cons.mp hm' with rfl | hm'
    · rw [hm] at hd
      cases hd
    · exact h.debits m' hm' hd
  · show ∀ m' ∈ A.movements, _
    rw [hA]
    intro m' hm' hd
    rcases List.mem_cons.mp hm' with rfl | hm'
    · exact ⟨p, hkey, (List.getElem?_eq_some_iff.mp ho.issued).1⟩
    · exact h.credits m' hm' hd
  · rcases hr q hq' with hq' | rfl
    · exact (h.stands q hq).2 hq'
    · exact ho.untaken hq
  · rcases hr q hq with hq | rfl
    · exact hq
    · rw [ho.issued] at hi
      exact absurd (Option.some.inj hi).symm hj

end steps

/-- The number of a reference is drawn. -/
theorem PayInv.draw (h : PayInv s) (i : ℕ) :
    PayInv (s.1, { s.2 with issued := s.2.issued ++ [i] }) ∧
      (∀ j, Leaves j s (s.1, { s.2 with issued := s.2.issued ++ [i] })) ∧
        ∀ p : Payment, p.number = s.2.issued.length →
          Open i p (s.1, { s.2 with issued := s.2.issued ++ [i] }) := by
  have hlen : s.2.issued.length < (s.2.issued ++ [i]).length := by simp
  refine ⟨⟨h.debits, fun m hm hd => ?_, fun q hq => (h.accepted q hq).trans hlen, h.stands⟩,
    fun j => ⟨fun n k hn => ?_, fun _ hq => hq, fun _ _ hq => hq, fun _ _ hq => hq⟩,
    fun p hp => ⟨?_, fun ha => ?_, ?_⟩⟩
  · obtain ⟨q, hkey, hq⟩ := h.credits m hm hd
    exact ⟨q, hkey, hq.trans hlen⟩
  · show (s.2.issued ++ [i])[n]? = some k
    rw [List.getElem?_append_left (List.getElem?_eq_some_iff.mp hn).1, hn]
  · simp [hp]
  · exact absurd (h.accepted p ha) (by simp [hp])
  · rintro ⟨m, hm, hd, hkey⟩
    obtain ⟨q, hkey', hq⟩ := h.credits m hm hd
    rw [Payment.reversalKey_inj (hkey.symm.trans hkey')] at hp
    exact absurd hq (by simp [hp])

/-- A request for a payment that is charged reaches the provider. -/
theorem PayInv.ask (h : PayInv s) (hc : Charged i p s) (r : Request) (takes : Bool) :
    PayInv (s.1, s.2.asked p r takes) ∧
      (∀ j, j ≠ i → Leaves j s (s.1, s.2.asked p r takes)) ∧
        (takes = false → Charged i p (s.1, s.2.asked p r takes)) := by
  have ha : ∀ q ∈ (s.2.asked p r takes).accepted, q = p ∧ takes = true ∨ q ∈ s.2.accepted := by
    intro q hq
    cases takes with
    | true => exact (List.mem_cons.mp hq).imp_left fun he => ⟨he, rfl⟩
    | false => exact .inr hq
  refine ⟨⟨h.debits, h.credits, fun q hq => ?_, fun q hq => ?_⟩, fun j hj => ⟨fun _ _ hn => hn,
    fun _ hq => hq, fun q hi hq => ?_, fun _ _ hq => hq⟩, fun ht => ⟨⟨hc.1.issued, fun hq => ?_,
      hc.1.standing⟩, hc.2⟩⟩
  · rcases ha q hq with ⟨rfl, -⟩ | hq
    · exact (List.getElem?_eq_some_iff.mp hc.1.issued).1
    · exact h.accepted q hq
  · rcases ha q hq with ⟨rfl, -⟩ | hq
    · exact ⟨hc.2, hc.1.standing⟩
    · exact h.stands q hq
  · rcases ha q hq with ⟨rfl, -⟩ | hq
    · rw [hc.1.issued] at hi
      exact absurd (Option.some.inj hi).symm hj
    · exact hq
  · rcases ha p hq with ⟨-, he⟩ | hq
    · rw [ht] at he
      cases he
    · exact hc.1.untaken hq

/-! ### Rules -/

/-- What a call does under the discipline. -/
abbrev Runs (i : ℕ) {β : Type} (P : Store → Prop) (c : PayoutCall β) (Q : β → Store → Prop)
    (E : PayoutError → Store → Prop) : Prop :=
  Triple server.machine payoutDiscipline i P c Q E

/-- What is known stays so while the others step. -/
def Lasts (i : ℕ) (P : Store → Prop) : Prop := ∀ s t, P s → Leaves i s t → P t

theorem lasts_open : Lasts i (Open i p) := fun _ _ h hl => h.stable hl

theorem lasts_charged : Lasts i (Charged i p) := fun _ _ h hl => h.stable hl

theorem lasts_true : Lasts i fun _ => True := fun _ _ _ _ => trivial

variable {P : Store → Prop}

/-- A statement of the payouts that writes nothing. -/
theorem runs_read {β : Type} {st : PayoutSql (Ans β)} {f : Outside → β}
    {E : PayoutError → Store → Prop} (hrun : ∀ o s, st.run i o s = (.ok (f o), s))
    (hst : ∀ e, st.fail e = .error e) (hP : Lasts i P)
    (hE : ∀ s e, P s → Answered i (.own st) (.error e) s → E e s) :
    Runs i P (sql st) (fun _ => P) E := by
  refine Beside.triple_own hst hP (fun s e hs _ hc => ⟨trivial, hE s e hs hc⟩)
    fun s o hs hinv _ => ?_
  have hsame : payouts.run i st o s = (.ok (f o), s) := hrun o s
  rw [hsame]
  exact ⟨⟨trivial, hinv, fun j _ => Leaves.refl j s⟩, fun _ _ => hs, fun e he => (by cases he)⟩

/-- A failure that is swallowed. -/
theorem runs_swallow {c : PayoutCall Unit} (h : Runs i P c (fun _ => P) fun _ => P)
    {E : PayoutError → Store → Prop} : Runs i P (swallow c) (fun _ => P) E :=
  Triple.tryCatch h fun _ => Triple.pure fun _ hs => hs

/-- A notification. -/
theorem runs_notify (hP : Lasts i P) {E : PayoutError → Store → Prop} :
    Runs i P (swallow (sql .notify)) (fun _ => P) E :=
  runs_swallow (runs_read (fun _ _ => rfl) (fun _ => rfl) hP fun _ _ hs _ => hs)

/-- The number of a reference. -/
theorem runs_newReference :
    Runs i (fun _ => True) (sql .newReference)
      (fun n s => ∀ p : Payment, p.number = n → Open i p s) fun _ _ => True := by
  refine Beside.triple_own (fun _ => rfl) lasts_true (fun _ _ _ _ _ => ⟨trivial, trivial⟩)
    fun s o _ hinv _ => ?_
  obtain ⟨hinv', hleaves, hopen⟩ := hinv.draw i
  refine ⟨⟨trivial, hinv', fun j _ => hleaves j⟩, fun n hn => ?_, fun _ _ => trivial⟩
  rw [← Except.ok.inj hn]
  exact hopen

/-- The debit of a payment. When it is found under its key, it is the payment's own. -/
theorem runs_debit (userId : String) (walletId : ℕ) (usd : ℚ) :
    Runs i (Open i p) (ledger (debitUsdBalance (p.debit userId walletId usd)))
      (fun _ => Charged i p) fun _ _ => True := by
  refine Triple.mono (triple_debit lax (P := Open i p) (Q := Charged i p) lasts_open
    lasts_charged (fun s m hs hinv _ hm => ⟨hs, ?_⟩) fun _ s t hs hinv _ hstep => ?_)
    (fun _ h => h) (fun _ _ h => h) fun _ _ _ => trivial
  · have hmem : m ∈ s.1.movements := List.mem_of_find?_eq_some hm
    have hkey : m.idempotencyKey = (p.debit userId walletId usd).idempotencyKey := by
      simpa using List.find?_some hm
    replace hkey : m.idempotencyKey = p.debitKey := hkey
    refine ⟨m, hmem, ?_, hkey⟩
    cases hd : m.direction with
    | debit => rfl
    | credit =>
        obtain ⟨q, hq, -⟩ := hinv.credits m hmem hd
        exact absurd (hkey.symm.trans hq) (p.debitKey_ne_reversalKey q)
  · obtain ⟨usd', hmoves⟩ := hstep.movements
    obtain ⟨hinv', hleaves, hdebited⟩ := hinv.debit (p := p) hmoves rfl rfl
    exact ⟨hinv', fun j _ => hleaves j, hs.stable (hleaves i), hdebited⟩

/-- The reversal of a payment that is not taken. -/
theorem runs_reversal (userId : String) (walletId : ℕ) (usd : ℚ) :
    Runs i (Charged i p) (ledger (creditUsdBalance (p.reversal userId walletId usd)))
      (fun _ _ => True) fun _ _ => True := by
  refine Triple.mono (triple_creditUsdBalance lax (P := Charged i p) (Q := fun _ => True)
    lasts_charged (fun _ _ _ _ _ _ => trivial) fun usd' _ s t hs hinv hstep => ?_)
    (fun _ h => h) (fun _ _ h => h) fun _ _ _ => trivial
  obtain ⟨hinv', hleaves⟩ := hinv.reverse (p := p) hstep.movements rfl rfl hs.1
  exact ⟨hinv', hleaves, trivial⟩

/-- A request. Unless it is answered, the provider has not taken it. -/
theorem runs_request (r : Request) :
    Runs i (Charged i p) (sql (.request p r)) (fun _ _ => True) fun _ => Charged i p := by
  refine Beside.triple_own (fun _ => rfl) lasts_charged (fun s e hs _ _ => ⟨trivial, hs⟩)
    fun s o hs hinv hc => ?_
  have hrun : payouts.run i (.request p r) o s = match o.request with
      | .answered txRef => (.ok txRef, s.1, s.2.asked p r true)
      | .acceptedThenFailed => (.error .provider, s.1, s.2.asked p r true)
      | .refused => (.error .provider, s.1, s.2.asked p r false) := rfl
  rw [hrun]
  cases ho : o.request with
  | answered txRef =>
      obtain ⟨hinv', hleaves, -⟩ := hinv.ask hs r true
      exact ⟨⟨trivial, hinv', hleaves⟩, fun _ _ => trivial, fun e he => (by cases he)⟩
  | acceptedThenFailed => exact absurd ho hc
  | refused =>
      obtain ⟨hinv', hleaves, hcharged⟩ := hinv.ask hs r false
      exact ⟨⟨trivial, hinv', hleaves⟩, fun _ hb => (by cases hb), fun _ _ => hcharged rfl⟩

/-! ### Calls -/

/-- A statement of the history is answered. -/
theorem runs_activity {β : Type} {st : PayoutSql (Ans β)} {f : Outside → β}
    (hrun : ∀ o s, st.run i o s = (.ok (f o), s)) (hst : ∀ e, st.fail e = .error e)
    (hno : ∀ e, ¬ st.Answered (.error e)) :
    Runs i (fun _ => True) (sql st) (fun _ _ => True) fun _ _ => False :=
  runs_read hrun hst lasts_true fun _ e _ hc => hno e hc

/-- The history of a transfer is recorded. -/
theorem runs_recordWalletActivity (b : BankTransferParams) (n : ℕ) :
    Runs i (fun _ => True) (recordWalletActivity b n) (fun _ _ => True) fun _ _ => False := by
  have hfind : Runs i (fun _ => True) (sql (.findActivity (.bank n))) (fun _ _ => True)
      fun _ _ => False := runs_activity (fun _ _ => rfl) (fun _ => rfl) fun _ h => h
  have hwrite : Runs i (fun _ => True) (sql (.writeActivity (.bank n))) (fun _ _ => True)
      fun _ _ => False := runs_activity (fun _ _ => rfl) (fun _ => rfl) fun _ h => h
  refine Triple.ite (fun _ => Triple.pure fun _ h => h) fun _ => ?_
  refine Triple.bind hfind fun found => Triple.ite (fun _ => ?_) fun _ => ?_
  · refine Triple.bind hwrite fun _ => Triple.ite (fun _ => ?_) fun _ => Triple.pure fun _ h => h
    exact Triple.bind hfind fun _ => Triple.ite (fun _ => hwrite) fun _ => Triple.pure fun _ h => h
  · refine Triple.bind hfind fun found => Triple.ite (fun _ => Triple.pure fun _ h => h) fun _ => ?_
    refine Triple.bind hwrite fun _ => Triple.ite (fun _ => ?_) fun _ => hwrite
    exact Triple.bind hwrite fun _ => hwrite

/-- A bank transfer runs under the discipline. -/
theorem runs_bankTransfer (b : BankTransferParams) :
    Runs i (fun _ => True) (bankTransfer b) (fun _ _ => True) fun _ _ => True := by
  refine Triple.bind runs_newReference fun n => ?_
  refine Triple.mono (P := Open i (.bank n)) ?_ (fun s hs => hs (.bank n) rfl) (fun _ _ h => h)
    fun _ _ h => h
  refine Triple.ite (fun _ => Triple.throw fun _ _ => trivial) fun _ => ?_
  refine Triple.bind (R := fun _ => Open i (.bank n)) ((triple_ensureWallet lax b.userId
    primaryCurrency lasts_open fun s t w hs hinv hnew => ?_).mono (fun _ h => h) (fun _ _ h => h)
      fun _ _ _ => trivial) fun usdWallet => ?_
  · obtain ⟨hinv', hleaves⟩ := hinv.same (Accounts.createWallet_movements hnew)
    exact ⟨hinv', fun j _ => hleaves j, hs.stable (hleaves i)⟩
  refine Triple.bind (R := fun _ => Open i (.bank n)) ((triple_convert lax _ _ lasts_open).mono
    (fun _ h => h) (fun _ _ h => h.2) fun _ _ _ => trivial) fun usd => ?_
  refine Triple.bind (runs_debit _ _ _) fun _ => ?_
  refine Triple.tryCatch (F := fun _ => Charged i (.bank n)) ?_ fun e =>
    Triple.bind (runs_reversal _ _ _) fun _ => Triple.throw fun _ _ => trivial
  refine Triple.bind (runs_request _) fun _ => Triple.bind (R := fun _ _ => True)
    ((runs_recordWalletActivity b n).mono (fun _ h => h) (fun _ _ h => h) fun _ _ h => h.elim)
      fun _ => runs_notify lasts_true

/-- A bill runs under the discipline. -/
theorem runs_payBill (b : PayBillParams) :
    Runs i (fun _ => True) (payBill b) (fun _ _ => True) fun _ _ => True := by
  refine Triple.ite (fun _ => Triple.throw fun _ _ => trivial) fun _ => ?_
  refine Triple.bind (R := fun _ _ => True) (triple_reads lax rfl rfl lasts_true
    fun _ _ _ _ _ _ _ => trivial) fun found => ?_
  cases found with
  | none => exact Triple.throw fun _ _ => trivial
  | some usdWallet =>
      refine Triple.bind (R := fun _ _ => True) ((triple_convert lax _ _ lasts_true).mono
        (fun _ h => h) (fun _ _ _ => trivial) fun _ _ h => h) fun usd => ?_
      refine Triple.ite (fun _ => Triple.throw fun _ _ => trivial) fun _ => ?_
      refine Triple.bind runs_newReference fun n => ?_
      refine Triple.mono (P := Open i (.bill n)) ?_ (fun s hs => hs (.bill n) rfl)
        (fun _ _ h => h) fun _ _ h => h
      have hfrom : Runs i (Open i (.bill n)) (payBillFrom b n usdWallet.walletId usd)
          (fun _ _ => True) fun _ _ => True := by
        refine Triple.bind (runs_debit _ _ _) fun _ => Triple.bind (R := fun _ _ => True)
          (Triple.tryCatch (runs_request _) fun e => Triple.bind (runs_reversal _ _ _) fun _ =>
            Triple.bind (runs_notify lasts_true) fun _ => Triple.throw fun _ _ => trivial)
          fun txRef => ?_
        have hbalance : Runs i (fun _ => True) (do
            let _ ← ledger (Consumer.sql (.balanceOf usdWallet.walletId))) (fun _ _ => True)
            fun _ _ => True :=
          Triple.bind (triple_reads lax rfl rfl lasts_true fun _ _ _ _ _ _ _ => trivial)
            fun _ => Triple.pure fun _ h => h
        refine Triple.bind (runs_notify lasts_true) fun _ => Triple.ite (fun _ => ?_)
          fun _ => hbalance
        exact Triple.bind (runs_swallow (runs_read (fun _ _ => rfl) (fun _ => rfl) lasts_true
          fun _ _ h _ => h)) fun _ => hbalance
      refine Triple.ite (fun _ => ?_) fun _ => hfrom
      exact Triple.bind (R := fun _ => Open i (.bill n)) (runs_read (fun _ _ => rfl)
        (fun _ => rfl) lasts_open fun _ _ _ _ => trivial) fun _ => hfrom

theorem runs_call (e : Payout) :
    Runs i (fun _ => True) e.call (fun _ _ => True) fun _ _ => True := by
  cases e with
  | bankTransfer b => exact runs_bankTransfer b
  | payBill b => exact runs_payBill b

/-! ### Every run -/

theorem payInv_opening (wallets : List WalletRow) : PayInv ({ wallets := wallets }, {}) :=
  ⟨fun m hm => (by cases hm), fun m hm => (by cases hm), fun p hp => (by cases hp),
    fun p hp => (by cases hp)⟩

/-- **Payouts stand**: in every run in which a request that the provider takes is answered and the
history of a transfer is written, what the provider has taken is debited, and is not credited
back. -/
theorem payouts_stand (wallets : List WalletRow) (calls : List Payout)
    (sched : List (ℕ × Except PayoutError Outside))
    (hc : Pool.Along server.machine (Pool.CondAt Answered) (begun wallets calls) sched) :
    Stands ((begun wallets calls).run server.machine sched).store := by
  have hstart : Pool.Verified server.machine payoutDiscipline (fun _ _ _ => True)
      (begun wallets calls) := by
    refine Pool.Verified.start (payInv_opening wallets) fun i p hp => ?_
    rw [List.getElem?_map] at hp
    obtain ⟨e, -, rfl⟩ := Option.map_eq_some_iff.mp hp
    exact (runs_call e).map_unit _ trivial
  exact (Pool.run_sound hstart sched hc).1.1.stands

/-! ### A payment that is taken and reversed -/

/-- A dollar wallet of a hundred dollars. -/
def payersWallet : WalletRow :=
  { walletId := 1, userId := "ada", currency := "USD", balance := 10000 }

/-- A transfer of fifteen thousand naira. -/
def transferToBola : BankTransferParams :=
  ⟨15000, "Bola Ade", "0123456789", "058", "GTBank", some 0, "ada", "NGN"⟩

/-- The turns of a transfer: six up to its debit, its request, and the rest. -/
def transferTurns (request : RequestOutcome)
    (rest : List (Except PayoutError Outside)) : List (ℕ × Except PayoutError Outside) :=
  let turn : Except PayoutError Outside := .ok { ledger := { rate := some (1 / 1500) } }
  (List.replicate 6 turn ++ Except.ok { request } :: rest).map (0, ·)

/-- The tables after a transfer. -/
def afterTransfer (sched : List (ℕ × Except PayoutError Outside)) : Store :=
  ((begun [payersWallet] [.bankTransfer transferToBola]).run server.machine sched).store

/-- The provider takes a transfer whose answer is lost, and the transfer is credited back. -/
theorem taken_transfer_reversed :
    ¬ Stands (afterTransfer (transferTurns .acceptedThenFailed [.ok {}, .ok {}])) := by
  intro h
  have hrun : Payment.bank 0 ∈
        (afterTransfer (transferTurns .acceptedThenFailed [.ok {}, .ok {}])).2.accepted ∧
      ∃ m ∈ (afterTransfer (transferTurns .acceptedThenFailed [.ok {}, .ok {}])).1.movements,
        m.direction = .credit ∧ m.idempotencyKey = (Payment.bank 0).reversalKey := by
    decide +kernel
  exact (h _ hrun.1).2 hrun.2

/-- So is one whose history is not written. -/
example : (Payment.bank 0).reversalKey ∈ (afterTransfer (transferTurns (.answered "")
    [.error .database, .ok {}, .ok {}])).1.movements.map (·.idempotencyKey) := by
  decide +kernel

/-- A transfer that the provider refuses. -/
theorem payouts_stand_refused :
    Stands ((begun [payersWallet] [.bankTransfer transferToBola]).run server.machine
      (transferTurns .refused [.ok {}, .ok {}])).store :=
  payouts_stand [payersWallet] [.bankTransfer transferToBola]
    (transferTurns .refused [.ok {}, .ok {}]) (by decide +kernel)

end DayfiBackend.Consumer.Payouts
