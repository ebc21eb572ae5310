import DayfiBackend.Found.Matched
import DayfiBackend.Infra.CollectionCredit
import DayfiBackend.Infra.OnchainTransfers

/-!
# What a transfer on chain credits

Transfers are made and confirmed side by side, under the same keys or others, beside other calls of
the ledger; each may stop at any statement. Whatever the order, what recipients and the fee
organisation are credited is backed (`credits_backed`): every credit is of one transfer and stands
for a debit of the same amount from what the sender had locked, and neither is posted before the
network was seen to have confirmed a payment that was made for that transfer.

The keys of the ledger calls carry this. A step of a transfer has its own key, so it is posted once,
and a movement under that key tells which transfer it is of.
-/

namespace DayfiBackend.Infra.Onchain

open DayfiBackend.Found DayfiBackend.Found.Binary64 DayfiBackend.Found.Keys
open DayfiBackend.Found.Prog
open DayfiBackend.Infra.InternalTransfer (FeeQuote getConfiguredFeeUsdcMinor usdcWallet
  quoteDayfiTransactionFee)

/-! ### What is credited -/

/-- The debit that a credit stands for. -/
def TransferStep.debit : TransferStep → Option TransferStep
  | .credit => some .finalize
  | .feeRevenue => some .feeFinalize
  | _ => none

/-- The steps that wait for the payment. -/
def TransferStep.Settles : TransferStep → Prop
  | .finalize | .credit | .feeFinalize | .feeRevenue => True
  | _ => False

/-- What is posted for an amount, which is bound as a number. -/
def posted (amount : ℤ) : ℤ := toNumeric (toNumber amount)

/-- Up to the limit of what a number tells apart, it is the amount. -/
theorem posted_eq {amount : ℤ} (h : |amount| ≤ exactLimit) : posted amount = amount := by
  unfold posted
  rw [toNumber_eq_num h, toNumeric_num h]

/-- The amount of a step that waits for the payment. -/
def OnchainTransferRow.settledAmount (r : OnchainTransferRow) (fee : ℤ) : TransferStep → ℤ
  | .feeFinalize | .feeRevenue => fee
  | _ => r.amount

@[simp] theorem settledAmount_feeFinalize (r : OnchainTransferRow) (fee : ℤ) :
    r.settledAmount fee .feeFinalize = fee := rfl

@[simp] theorem settledAmount_feeRevenue (r : OnchainTransferRow) (fee : ℤ) :
    r.settledAmount fee .feeRevenue = fee := rfl

/-- What never changes of a transfer. -/
def OnchainTransferRow.lasting (r : OnchainTransferRow) : OnchainTransferRow :=
  { r with status := .processing, senderMovementId := none, recipientMovementId := none,
           feeId := none }

/-- The fee of every transfer. -/
def Config.fee (cfg : Config) : ℤ := getConfiguredFeeUsdcMinor cfg.fees

/-- The movement is a step of the transfer, on the wallet and of the amount that it should be. -/
structure Settled (cfg : Config) (step : TransferStep) (r : OnchainTransferRow) (m : Movement) :
    Prop where
  posting : m.posting = step.op.rule.posting
  wallet : ∃ revenueOrgId, m.wallet = usdcWallet (r.orgOf revenueOrgId step) r.environment
  amount : m.amount = posted (r.settledAmount cfg.fee step)

namespace Store

variable (s : Store)

/-- A payment that was made for the transfer has been confirmed. -/
def Paid (r : OnchainTransferRow) : Prop := ∃ hash ∈ s.confirmed, (r.id, hash) ∈ s.attempts

/-- A step of the transfer is posted, as this movement. -/
def Made (r : OnchainTransferRow) (step : TransferStep) (id : ℕ) : Prop :=
  ∃ m ∈ s.ledger.movements, m.idempotencyKey = step.key (r.transactionOf step) ∧ m.id = id

/-- Both sides of the transfer are posted, as the movements that it names. -/
def Done (r : OnchainTransferRow) : Prop :=
  ∃ debitId creditId, r.senderMovementId = some debitId ∧ r.recipientMovementId = some creditId ∧
    s.Made r .finalize debitId ∧ s.Made r .credit creditId

/-- The movements of a step. -/
def movementsOf (step : TransferStep) : List Movement :=
  s.ledger.movements.filter fun m => s.transfers.any fun r =>
    m.idempotencyKey = step.key (r.transactionOf step)

/-- What the movements of a step come to. -/
def sum (step : TransferStep) : ℤ := ((s.movementsOf step).map (·.amount)).sum

end Store

/-- What is credited is backed. -/
structure Backed (cfg : Config) (s : Store) : Prop where
  once : s.ledger.KeysUnique
  apart : s.transfers.Pairwise fun r r' => ∀ step, r.transactionOf step ≠ r'.transactionOf step
  settled : ∀ step : TransferStep, step.Settles → ∀ m ∈ s.ledger.movements, ∀ id,
    m.idempotencyKey = step.key id →
      ∃ r ∈ s.transfers, r.transactionOf step = id ∧ Settled cfg step r m ∧ s.Paid r
  debited : ∀ step debit : TransferStep, step.debit = some debit → ∀ m ∈ s.ledger.movements,
    ∀ r ∈ s.transfers, m.idempotencyKey = step.key (r.transactionOf step) →
      ∃ d ∈ s.ledger.movements, d.idempotencyKey = debit.key (r.transactionOf debit) ∧
        d.amount = m.amount
  completed : ∀ r ∈ s.transfers, r.status = .completed → s.Done r
  total : ∀ step debit : TransferStep, step.debit = some debit → s.sum step ≤ s.sum debit

/-! ### The keys -/

namespace TransferStep

theorem trim_key (step : TransferStep) (id : ℕ) : trim (step.key id) = step.key id := by
  cases step <;> exact trim_eq_self (by decide) (by decide)

/-- A key is of one step of one transaction. -/
theorem key_inj {step step' : TransferStep} {id id' : ℕ} :
    step.key id = step'.key id' ↔ step = step' ∧ id = id' := by
  constructor
  · intro h
    cases step <;> cases step' <;>
      first
      | exact ⟨rfl, toString_inj.mp ((Keys.key_inj _ _ _ _).mp h)⟩
      | exact absurd h (append_ne_of_not_suffix (by decide) (by decide) _ _)
  · rintro ⟨rfl, rfl⟩
    rfl

/-- The debit waits for the payment too. -/
theorem settles_of_debit {step debit : TransferStep} (h : step.debit = some debit) :
    step.Settles ∧ debit.Settles := by
  cases step <;> simp_all [TransferStep.debit, Settles] <;> simp [← h]

/-- A credit and its debit are of the same amount. -/
theorem settledAmount_debit {step debit : TransferStep} (h : step.debit = some debit)
    (r : OnchainTransferRow) (fee : ℤ) : r.settledAmount fee debit = r.settledAmount fee step := by
  cases step <;> cases h <;> rfl

end TransferStep

section params

variable (r : OnchainTransferRow) (step : TransferStep) (revenueOrgId : String) (amount : ℤ)

@[simp] theorem params_key :
    (r.params step revenueOrgId amount).key = step.key (r.transactionOf step) :=
  step.trim_key _

theorem params_wallet :
    (r.params step revenueOrgId amount).wallet = usdcWallet (r.orgOf revenueOrgId step)
      r.environment := by
  have henv : normalizeEnv r.environmentText = r.environment := by
    unfold OnchainTransferRow.environmentText
    cases r.environment <;> rfl
  unfold LedgerWriteParams.wallet usdcWallet OnchainTransferRow.params
  rw [henv]
  rfl

/-- The amount that a step posts. -/
theorem toNumeric_of_parse {x : ℚ}
    (h : parseAmount (r.params step revenueOrgId amount).amount = .ok x) :
    toNumeric x = posted amount := by
  unfold OnchainTransferRow.params parseAmount at h
  dsimp only at h
  split_ifs at h
  rw [← Except.ok.inj h]
  rfl

end params

/-! ### What lasts -/

section lasting

variable {cfg : Config} {r r' : OnchainTransferRow} {step : TransferStep} {m : Movement}

theorem lasting_id (h : r'.lasting = r.lasting) : r'.id = r.id := by
  have heq : r'.lasting.id = r.lasting.id := by rw [h]
  exact heq

theorem lasting_transactionOf (h : r'.lasting = r.lasting) (step : TransferStep) :
    r'.transactionOf step = r.transactionOf step := by
  have heq : r'.lasting.transactionOf step = r.lasting.transactionOf step := by rw [h]
  exact heq

theorem lasting_settledAmount (h : r'.lasting = r.lasting) (fee : ℤ) (step : TransferStep) :
    r'.settledAmount fee step = r.settledAmount fee step := by
  have heq : r'.lasting.settledAmount fee step = r.lasting.settledAmount fee step := by rw [h]
  exact heq

theorem Settled.lasting (hm : Settled cfg step r m) (h : r'.lasting = r.lasting) :
    Settled cfg step r' m := by
  obtain ⟨orgId, hwallet⟩ := hm.wallet
  have heq : usdcWallet (r'.lasting.orgOf orgId step) r'.lasting.environment =
      usdcWallet (r.lasting.orgOf orgId step) r.lasting.environment := by rw [h]
  exact ⟨hm.posting, ⟨orgId, hwallet.trans heq.symm⟩,
    hm.amount.trans (congrArg posted (lasting_settledAmount h cfg.fee step).symm)⟩

/-- What no step undoes. -/
structure Later (s t : Store) : Prop where
  movements : ∀ m ∈ s.ledger.movements, m ∈ t.ledger.movements
  transfers : ∀ r ∈ s.transfers, ∃ r' ∈ t.transfers, r'.lasting = r.lasting
  attempts : ∀ a ∈ s.attempts, a ∈ t.attempts
  confirmed : ∀ hash ∈ s.confirmed, hash ∈ t.confirmed

variable {s t u : Store}

theorem Later.refl (s : Store) : Later s s :=
  ⟨fun _ h => h, fun r h => ⟨r, h, rfl⟩, fun _ h => h, fun _ h => h⟩

theorem Later.trans (h : Later s t) (h' : Later t u) : Later s u where
  movements m hm := h'.movements m (h.movements m hm)
  transfers r hr := by
    obtain ⟨r', hr', heq⟩ := h.transfers r hr
    obtain ⟨r'', hr'', heq'⟩ := h'.transfers r' hr'
    exact ⟨r'', hr'', heq'.trans heq⟩
  attempts a ha := h'.attempts a (h.attempts a ha)
  confirmed hash hh := h'.confirmed hash (h.confirmed hash hh)

/-- The transfer is in the table. -/
def Store.Known (s : Store) (r : OnchainTransferRow) : Prop :=
  ∃ r' ∈ s.transfers, r'.lasting = r.lasting

theorem Store.Known.later (h : s.Known r) (hl : Later s t) : t.Known r := by
  obtain ⟨r', hr', heq⟩ := h
  obtain ⟨r'', hr'', heq'⟩ := hl.transfers r' hr'
  exact ⟨r'', hr'', heq'.trans heq⟩

theorem Store.Paid.later (h : s.Paid r) (hl : Later s t) : t.Paid r := by
  obtain ⟨hash, hconfirmed, hattempt⟩ := h
  exact ⟨hash, hl.confirmed hash hconfirmed, hl.attempts _ hattempt⟩

theorem Store.Paid.lasting (h : s.Paid r) (heq : r'.lasting = r.lasting) : s.Paid r' := by
  unfold Store.Paid
  rwa [lasting_id heq]

theorem Store.Made.later {id : ℕ} (h : s.Made r step id) (hl : Later s t) : t.Made r step id := by
  obtain ⟨m, hm, hkey, hid⟩ := h
  exact ⟨m, hl.movements m hm, hkey, hid⟩

theorem Store.Made.lasting {id : ℕ} (h : s.Made r step id) (heq : r'.lasting = r.lasting) :
    s.Made r' step id := by
  unfold Store.Made
  rwa [lasting_transactionOf heq]

theorem Store.Done.later (h : s.Done r) (hl : Later s t) : t.Done r := by
  obtain ⟨debitId, creditId, hd, hc, hdebit, hcredit⟩ := h
  exact ⟨debitId, creditId, hd, hc, hdebit.later hl, hcredit.later hl⟩

end lasting

/-! ### The invariant -/

/-- What holds of the tables all along. -/
structure OnchainInv (cfg : Config) (s : Store) : Prop where
  keys : s.ledger.KeysUnique
  positive : ∀ m ∈ s.ledger.movements, 0 < m.amount
  distinct : (s.transfers.map (·.id)).Nodup
  numbered : ∀ r ∈ s.transfers, r.id < s.nextId ∧ r.senderTransactionId = r.id + 1 ∧
    r.recipientTransactionId = r.id + 2
  fees : ∀ r ∈ s.transfers, r.fee.feeAmount = cfg.fee
  settled : ∀ step : TransferStep, step.Settles → ∀ m ∈ s.ledger.movements, ∀ id,
    m.idempotencyKey = step.key id →
      ∃ r ∈ s.transfers, r.transactionOf step = id ∧ Settled cfg step r m ∧ s.Paid r
  debited : ∀ step debit : TransferStep, step.debit = some debit → ∀ m ∈ s.ledger.movements,
    ∀ r ∈ s.transfers, m.idempotencyKey = step.key (r.transactionOf step) →
      ∃ id, s.Made r debit id
  completed : ∀ r ∈ s.transfers, r.status = .completed → s.Done r
  payments : ∀ x ∈ s.settlements, x.id = x.transferId + 3 ∧ ∀ hash,
    x.externalReference = some hash ∨ x.pendingTransactionHash = some hash →
      (x.transferId, hash) ∈ s.attempts

section invariant

variable {cfg : Config} {s t : Store} {r r' : OnchainTransferRow} {step : TransferStep}

/-- Two transfers of the table with one identifier are one. -/
theorem OnchainInv.row_inj (hinv : OnchainInv cfg s) (hr : r ∈ s.transfers)
    (hr' : r' ∈ s.transfers) (h : r.id = r'.id) : r = r' :=
  List.inj_on_of_nodup_map hinv.distinct hr hr' h

/-- Whose transaction it is tells whose transfer it is. -/
theorem OnchainInv.transactionOf_inj (hinv : OnchainInv cfg s) (hr : r ∈ s.transfers)
    (hr' : r' ∈ s.transfers) (h : r.transactionOf step = r'.transactionOf step) : r = r' := by
  obtain ⟨-, hs, hc⟩ := hinv.numbered r hr
  obtain ⟨-, hs', hc'⟩ := hinv.numbered r' hr'
  refine hinv.row_inj hr hr' ?_
  cases step <;> unfold OnchainTransferRow.transactionOf at h <;> dsimp only at h <;> omega

/-- A credit and its debit are of the same amount. -/
theorem OnchainInv.amount_of_debit (hinv : OnchainInv cfg s) {debit : TransferStep}
    (hstep : step.debit = some debit) {m : Movement} (hm : m ∈ s.ledger.movements)
    (hr : r ∈ s.transfers) (hkey : m.idempotencyKey = step.key (r.transactionOf step)) :
    ∃ d ∈ s.ledger.movements, d.idempotencyKey = debit.key (r.transactionOf debit) ∧
      d.amount = m.amount := by
  obtain ⟨hs, hd⟩ := TransferStep.settles_of_debit hstep
  obtain ⟨id, d, hdmem, hdkey, -⟩ := hinv.debited step debit hstep m hm r hr hkey
  obtain ⟨r₁, hr₁, hid₁, hm', -⟩ := hinv.settled step hs m hm _ hkey
  obtain ⟨r₂, hr₂, hid₂, hd', -⟩ := hinv.settled debit hd d hdmem _ hdkey
  obtain rfl := hinv.transactionOf_inj hr₁ hr hid₁
  obtain rfl := hinv.transactionOf_inj hr₂ hr₁ hid₂
  refine ⟨d, hdmem, hdkey, ?_⟩
  rw [hd'.amount, hm'.amount, TransferStep.settledAmount_debit hstep]

/-- The movements stay as they are, and so does what lasts of the transfers. -/
theorem OnchainInv.congr (hinv : OnchainInv cfg s) (hl : Later s t)
    (hm : t.ledger.movements = s.ledger.movements) (hnext : s.nextId ≤ t.nextId)
    (hids : t.transfers.map (·.id) = s.transfers.map (·.id))
    (hrows : ∀ r ∈ t.transfers, ∃ r' ∈ s.transfers, r.lasting = r'.lasting)
    (hdone : ∀ r ∈ t.transfers, r.status = .completed → t.Done r)
    (hpayments : ∀ x ∈ t.settlements, x.id = x.transferId + 3 ∧ ∀ hash,
      x.externalReference = some hash ∨ x.pendingTransactionHash = some hash →
        (x.transferId, hash) ∈ t.attempts) : OnchainInv cfg t where
  keys := by
    unfold Ledger.KeysUnique
    rw [hm]
    exact hinv.keys
  positive := hm ▸ hinv.positive
  distinct := hids ▸ hinv.distinct
  numbered r hr := by
    obtain ⟨r', hr', heq⟩ := hrows r hr
    obtain ⟨hlt, hs, hc⟩ := hinv.numbered r' hr'
    have hs' := lasting_transactionOf heq .finalize
    have hc' := lasting_transactionOf heq .credit
    rw [lasting_id heq]
    exact ⟨hlt.trans_le hnext, hs'.trans hs, hc'.trans hc⟩
  fees r hr := by
    obtain ⟨r', hr', heq⟩ := hrows r hr
    have hfee : r.lasting.fee = r'.lasting.fee := by rw [heq]
    exact (congrArg FeeQuote.feeAmount hfee).trans (hinv.fees r' hr')
  settled step hstep m hmem id hkey := by
    obtain ⟨r, hr, hid, hsettled, hpaid⟩ := hinv.settled step hstep m (hm ▸ hmem) id hkey
    obtain ⟨r', hr', heq⟩ := hl.transfers r hr
    exact ⟨r', hr', (lasting_transactionOf heq step).trans hid, hsettled.lasting heq,
      (hpaid.later hl).lasting heq⟩
  debited step debit hstep m hmem r hr hkey := by
    obtain ⟨r', hr', heq⟩ := hrows r hr
    obtain ⟨id, hmade⟩ := hinv.debited step debit hstep m (hm ▸ hmem) r' hr'
      (hkey.trans (congrArg step.key (lasting_transactionOf heq step)))
    exact ⟨id, (hmade.later hl).lasting heq⟩
  completed := hdone
  payments := hpayments

end invariant

/-! ### Statements -/

/-- What a statement of a transfer may do. -/
def May (cfg : Config) {β : Type} (st : OnchainSql β) (s : Store) : Prop :=
  match st with
  | .insertTransfer draft _ _ => draft.fee.feeAmount = cfg.fee ∧ draft.status ≠ .completed
  | .setStatus _ status => status ≠ .completed
  | .post step row _ amount => step.Settles → s.Known row ∧ s.Paid row ∧
      amount = row.settledAmount cfg.fee step ∧
      ∀ debit, step.debit = some debit → ∃ id, s.Made row debit id
  | .setPending id _ hash | .setSettlement id _ (some hash) =>
      ∃ transferId, id = transferId + 3 ∧ (transferId, hash) ∈ s.attempts
  | .complete id debitId creditId _ => ∃ row, s.Known row ∧ row.id = id ∧
      s.Made row .finalize debitId ∧ s.Made row .credit creditId
  | .otherPost _ p => ∀ (step : TransferStep) id, p.key ≠ step.key id
  | _ => True

section statements

variable {cfg : Config} {s t : Store} {r : OnchainTransferRow} {step : TransferStep}

/-- A ledger operation fails, answers with the movement that has the key, or posts. -/
theorem post_cases (s : Store) (op : LedgerOp) (p : LedgerWriteParams) :
    (∃ e, s.post op p = (.error e, s)) ∨
      (∃ m, findMovementByIdempotency s.ledger p.key = some m ∧
        s.post op p = (.ok ⟨m, true⟩, s)) ∨
      ∃ amount, Posts op.rule p amount s.ledger ∧
        s.post op p = (.ok ⟨op.rule.movement p amount s.ledger, false⟩,
          { s with ledger := op.rule.posted p amount s.ledger }) := by
  unfold Store.post
  rcases postLedger_cases op.rule p s.ledger with ⟨e, h⟩ | ⟨m, hm, h⟩ | ⟨amount, hp, h⟩ <;> rw [h]
  · exact .inl ⟨.ledger e, rfl⟩
  · exact .inr (.inl ⟨m, hm, rfl⟩)
  · exact .inr (.inr ⟨amount, hp, rfl⟩)

/-- What is posted stays. -/
theorem later_posted (s : Store) (rule : PostRule) (p : LedgerWriteParams) (amount : ℚ) :
    Later s { s with ledger := rule.posted p amount s.ledger } :=
  ⟨fun _ h => List.mem_cons_of_mem _ h, fun r h => ⟨r, h, rfl⟩, fun _ h => h, fun _ h => h⟩

/-- A movement is posted: what it must be when it is a step that waits for the payment. -/
theorem OnchainInv.posted (hinv : OnchainInv cfg s) {rule : PostRule} {p : LedgerWriteParams}
    {amount : ℚ} (hp : Posts rule p amount s.ledger)
    (hnew : ∀ step : TransferStep, step.Settles → ∀ id, p.key = step.key id →
      ∃ r ∈ s.transfers, r.transactionOf step = id ∧
        Settled cfg step r (rule.movement p amount s.ledger) ∧ s.Paid r ∧
        ∀ debit, step.debit = some debit → ∃ id, s.Made r debit id) :
    OnchainInv cfg { s with ledger := rule.posted p amount s.ledger } := by
  have hl := later_posted s rule p amount
  refine ⟨hinv.keys.posted hp.toPostsOn, fun m hm => ?_, hinv.distinct, hinv.numbered, hinv.fees,
    fun step hstep m hm id hkey => ?_, fun step debit hstep m hm r hr hkey => ?_,
    fun r hr hc => (hinv.completed r hr hc).later hl, hinv.payments⟩
  · rcases List.mem_cons.mp hm with rfl | hm
    · exact hp.amountPos
    · exact hinv.positive m hm
  · rcases List.mem_cons.mp hm with rfl | hm
    · obtain ⟨r, hr, hid, hsettled, hpaid, -⟩ := hnew step hstep id hkey
      exact ⟨r, hr, hid, hsettled, hpaid⟩
    · exact hinv.settled step hstep m hm id hkey
  · rcases List.mem_cons.mp hm with rfl | hm
    · obtain ⟨r', hr', hid, -, -, hdebit⟩ :=
        hnew step (TransferStep.settles_of_debit hstep).1 _ hkey
      obtain rfl := hinv.transactionOf_inj hr' hr hid
      obtain ⟨id, hmade⟩ := hdebit debit hstep
      exact ⟨id, hmade.later hl⟩
    · obtain ⟨id, hmade⟩ := hinv.debited step debit hstep m hm r hr hkey
      exact ⟨id, hmade.later hl⟩

/-- A step of a transfer is posted. -/
theorem OnchainInv.post (hinv : OnchainInv cfg s) {row : OnchainTransferRow}
    {revenueOrgId : String} {amount : ℤ} (hmay : May cfg (.post step row revenueOrgId amount) s) :
    OnchainInv cfg (s.post step.op (row.params step revenueOrgId amount)).2 ∧
      Later s (s.post step.op (row.params step revenueOrgId amount)).2 := by
  rcases post_cases s step.op (row.params step revenueOrgId amount) with
    ⟨e, h⟩ | ⟨m, -, h⟩ | ⟨x, hp, h⟩ <;> rw [h]
  · exact ⟨hinv, .refl s⟩
  · exact ⟨hinv, .refl s⟩
  refine ⟨hinv.posted hp fun step' hstep id hkey => ?_, later_posted s _ _ _⟩
  rw [params_key] at hkey
  obtain ⟨rfl, rfl⟩ := TransferStep.key_inj.mp hkey
  obtain ⟨⟨r, hr, heq⟩, hpaid, hamount, hdebit⟩ := hmay hstep
  refine ⟨r, hr, lasting_transactionOf heq _, ?_, hpaid.lasting heq, fun debit hd => ?_⟩
  · have hsettled : Settled cfg step row
        (step.op.rule.movement (row.params step revenueOrgId amount) x s.ledger) := by
      refine ⟨rfl, ⟨revenueOrgId, params_wallet row step revenueOrgId amount⟩, ?_⟩
      rw [← hamount, ← toNumeric_of_parse row step revenueOrgId amount hp.parsed]
      rfl
    exact hsettled.lasting heq
  · obtain ⟨id, hmade⟩ := hdebit debit hd
    exact ⟨id, hmade.lasting heq⟩

/-- Another call of the ledger. -/
theorem OnchainInv.otherPost (hinv : OnchainInv cfg s) {op : LedgerOp} {p : LedgerWriteParams}
    (hmay : May cfg (.otherPost op p) s) :
    OnchainInv cfg (s.post op p).2 ∧ Later s (s.post op p).2 := by
  rcases post_cases s op p with ⟨e, h⟩ | ⟨m, -, h⟩ | ⟨x, hp, h⟩ <;> rw [h]
  · exact ⟨hinv, .refl s⟩
  · exact ⟨hinv, .refl s⟩
  · exact ⟨hinv.posted hp fun step _ id hkey => absurd hkey (hmay step id), later_posted s _ _ _⟩

/-- A step that is answered is posted. -/
theorem post_made {row : OnchainTransferRow} {revenueOrgId : String} {amount : ℤ} {b : Posted}
    (h : (s.post step.op (row.params step revenueOrgId amount)).1 = .ok b) :
    (s.post step.op (row.params step revenueOrgId amount)).2.Made row step b.movement.id := by
  rcases post_cases s step.op (row.params step revenueOrgId amount) with
    ⟨e, heq⟩ | ⟨m, hm, heq⟩ | ⟨x, -, heq⟩ <;> rw [heq] at h ⊢
  · cases h
  · obtain rfl := Except.ok.inj h
    obtain ⟨hmem, hkey⟩ := find_mem hm
    exact ⟨m, hmem, hkey.trans (params_key row step revenueOrgId amount), rfl⟩
  · obtain rfl := Except.ok.inj h
    exact ⟨_, List.mem_cons_self, params_key row step revenueOrgId amount, rfl⟩

/-- The row of a transfer is changed in what does not last. -/
theorem OnchainInv.setTransfer (hinv : OnchainInv cfg s) (id : ℕ)
    {f : OnchainTransferRow → OnchainTransferRow} (hf : ∀ r, (f r).lasting = r.lasting)
    (hdone : ∀ r ∈ s.transfers, r.id = id → (f r).status = .completed → s.Done (f r)) :
    OnchainInv cfg (s.setTransfer id f) ∧ Later s (s.setTransfer id f) := by
  have hlasting : ∀ r : OnchainTransferRow,
      (if r.id = id then f r else r).lasting = r.lasting := by
    intro r
    split_ifs
    · exact hf r
    · rfl
  have hl : Later s (s.setTransfer id f) :=
    ⟨fun _ h => h, fun r hr => ⟨_, List.mem_map.mpr ⟨r, hr, rfl⟩, hlasting r⟩, fun _ h => h,
      fun _ h => h⟩
  refine ⟨hinv.congr hl rfl le_rfl ?_ (fun r hr => ?_) (fun r hr hc => ?_) hinv.payments, hl⟩
  · unfold Store.setTransfer
    rw [List.map_map]
    exact List.map_congr_left fun r _ => lasting_id (hlasting r)
  · obtain ⟨r', hr', rfl⟩ := List.mem_map.mp hr
    exact ⟨r', hr', hlasting r'⟩
  · obtain ⟨r', hr', rfl⟩ := List.mem_map.mp hr
    split_ifs at hc ⊢ with hid
    · exact (hdone r' hr' hid hc).later hl
    · exact (hinv.completed r' hr' hc).later hl

/-- A settlement is changed; the hashes that it names are of its transfer. -/
theorem OnchainInv.setSettlement (hinv : OnchainInv cfg s) (id : ℕ)
    {f : SettlementRow → SettlementRow}
    (hf : ∀ x, (f x).id = x.id ∧ (f x).transferId = x.transferId)
    (hhash : ∀ x ∈ s.settlements, x.id = id → ∀ hash,
      (f x).externalReference = some hash ∨ (f x).pendingTransactionHash = some hash →
        (x.transferId, hash) ∈ s.attempts) :
    OnchainInv cfg (s.setSettlement id f) ∧ Later s (s.setSettlement id f) := by
  have hl : Later s (s.setSettlement id f) :=
    ⟨fun _ h => h, fun r hr => ⟨r, hr, rfl⟩, fun _ h => h, fun _ h => h⟩
  refine ⟨hinv.congr hl rfl le_rfl rfl (fun r hr => ⟨r, hr, rfl⟩)
    (fun r hr hc => (hinv.completed r hr hc).later hl) fun x hx => ?_, hl⟩
  obtain ⟨x', hx', rfl⟩ := List.mem_map.mp hx
  obtain ⟨hid', hhash'⟩ := hinv.payments x' hx'
  split_ifs with hid
  · obtain ⟨hsame, htransfer⟩ := hf x'
    rw [hsame, htransfer]
    exact ⟨hid', hhash x' hx' hid⟩
  · exact ⟨hid', hhash'⟩

/-- Nothing changes that the invariant is about, but for what the network has been seen to do. -/
theorem OnchainInv.seen (hinv : OnchainInv cfg s) (hm : t.ledger.movements = s.ledger.movements)
    (htransfers : t.transfers = s.transfers) (hsettlements : t.settlements = s.settlements)
    (hnext : s.nextId ≤ t.nextId) (hattempts : ∀ a ∈ s.attempts, a ∈ t.attempts)
    (hconfirmed : ∀ hash ∈ s.confirmed, hash ∈ t.confirmed) : OnchainInv cfg t ∧ Later s t := by
  have hl : Later s t :=
    ⟨fun m h => hm ▸ h, fun r h => ⟨r, htransfers ▸ h, rfl⟩, hattempts, hconfirmed⟩
  refine ⟨hinv.congr hl hm hnext (by rw [htransfers]) (fun r hr => ⟨r, htransfers ▸ hr, rfl⟩)
    (fun r hr hc => (hinv.completed r (htransfers ▸ hr) hc).later hl) fun x hx => ?_, hl⟩
  obtain ⟨hid, hhash⟩ := hinv.payments x (hsettlements ▸ hx)
  exact ⟨hid, fun hash h => hattempts _ (hhash hash h)⟩

/-- A transfer is inserted: its numbers are new, and so are its keys. -/
theorem OnchainInv.insertTransfer (hinv : OnchainInv cfg s) {draft : OnchainTransferRow}
    (source destination : String) (hfee : draft.fee.feeAmount = cfg.fee)
    (hstatus : draft.status ≠ .completed) :
    OnchainInv cfg (s.insertTransfer draft source destination).2 ∧
      Later s (s.insertTransfer draft source destination).2 := by
  unfold Store.insertTransfer
  dsimp only
  split_ifs
  · exact ⟨hinv, .refl s⟩
  · exact ⟨hinv, .refl s⟩
  refine ⟨⟨hinv.keys, hinv.positive, ?_, fun r hr => ?_, fun r hr => ?_,
    fun step hstep m hm id hkey => ?_, fun step debit hstep m hm r hr hkey => ?_,
    fun r hr hc => ?_, fun x hx => ?_⟩, ?_⟩
  · refine List.nodup_cons.mpr ⟨fun h => ?_, hinv.distinct⟩
    obtain ⟨r, hr, hid⟩ := List.mem_map.mp h
    exact absurd hid (hinv.numbered r hr).1.ne
  · rcases List.mem_cons.mp hr with rfl | hr
    · exact ⟨Nat.lt_add_of_pos_right (by decide), rfl, rfl⟩
    · obtain ⟨hlt, hs, hc⟩ := hinv.numbered r hr
      exact ⟨hlt.trans (Nat.lt_add_of_pos_right (by decide)), hs, hc⟩
  · rcases List.mem_cons.mp hr with rfl | hr
    · exact hfee
    · exact hinv.fees r hr
  · obtain ⟨r, hr, h⟩ := hinv.settled step hstep m hm id hkey
    exact ⟨r, List.mem_cons_of_mem _ hr, h⟩
  · rcases List.mem_cons.mp hr with rfl | hr
    · -- No movement is of the new transfer yet.
      obtain ⟨r', hr', hid, -⟩ :=
        hinv.settled step (TransferStep.settles_of_debit hstep).1 m hm _ hkey
      obtain ⟨hlt, hs, hc⟩ := hinv.numbered r' hr'
      cases step <;> unfold OnchainTransferRow.transactionOf at hid <;> dsimp only at hid <;> omega
    · exact hinv.debited step debit hstep m hm r hr hkey
  · rcases List.mem_cons.mp hr with rfl | hr
    · exact absurd hc hstatus
    · exact hinv.completed r hr hc
  · rcases List.mem_cons.mp hx with rfl | hx
    · exact ⟨rfl, fun hash h => by rcases h with h | h <;> cases h⟩
    · exact hinv.payments x hx
  · exact ⟨fun _ h => h, fun r hr => ⟨r, List.mem_cons_of_mem _ hr, rfl⟩, fun _ h => h,
      fun _ h => h⟩

/-- What a statement keeps. -/
theorem run_keeps (hinv : OnchainInv cfg s) {β : Type} (st : OnchainSql β) (o : Outside)
    (hmay : May cfg st s) : OnchainInv cfg (st.run cfg o s).2 ∧ Later s (st.run cfg o s).2 := by
  have hsame : ∀ {t : Store}, t.ledger.movements = s.ledger.movements →
      t.transfers = s.transfers → t.settlements = s.settlements → s.nextId ≤ t.nextId →
      t.attempts = s.attempts → t.confirmed = s.confirmed → OnchainInv cfg t ∧ Later s t :=
    fun hm ht hx hn ha hc => hinv.seen hm ht hx hn (fun a h => ha ▸ h) fun hash h => hc ▸ h
  cases st with
  | insertTransfer draft source destination =>
      exact hinv.insertTransfer source destination hmay.1 hmay.2
  | post step row revenueOrgId amount => exact hinv.post hmay
  | otherPost op p => exact hinv.otherPost hmay
  | getOrgBalance orgId env =>
      unfold OnchainSql.run
      dsimp only
      unfold Store.getOrgBalance
      rcases Tx.commit_cases (ensureWalletAccount (usdcWallet orgId env)) s.ledger with
        ⟨row, l, hrun, hc⟩ | ⟨e, -, hc⟩ <;> rw [hc]
      · obtain ⟨-, rfl⟩ := ensureWalletAccount_ok hrun
        exact hsame rfl rfl rfl le_rfl rfl rfl
      · exact ⟨hinv, .refl s⟩
  | loadTransfer id =>
      unfold OnchainSql.run
      dsimp only
      cases s.transfers.find? (·.id = id) <;> exact ⟨hinv, .refl s⟩
  | preparePayment transferId source feePayer destination amount =>
      exact hinv.seen rfl rfl rfl le_rfl (fun _ h => List.mem_cons_of_mem _ h) fun _ h => h
  | submitPayment transferId p =>
      unfold OnchainSql.run
      dsimp only
      cases submitPreparedSponsoredPayment cfg o p with
      | error e => exact ⟨hinv, .refl s⟩
      | ok payment =>
          show OnchainInv cfg (s.paid transferId payment) ∧ Later s (s.paid transferId payment)
          unfold Store.paid
          split_ifs
          · exact hinv.seen rfl rfl rfl le_rfl (fun _ h => List.mem_cons_of_mem _ h)
              fun _ h => List.mem_cons_of_mem _ h
          · exact hinv.seen rfl rfl rfl le_rfl (fun _ h => List.mem_cons_of_mem _ h) fun _ h => h
  | verifyPayment hash =>
      unfold OnchainSql.run
      dsimp only
      split_ifs
      all_goals first
        | exact ⟨hinv, .refl s⟩
        | exact hinv.seen rfl rfl rfl le_rfl (fun _ h => h) fun _ h => List.mem_cons_of_mem _ h
  | setPending id xdr hash =>
      obtain ⟨transferId, hid, hattempt⟩ := hmay
      refine hinv.setSettlement id (fun x => ⟨rfl, rfl⟩) fun x hx hxid hash' h => ?_
      obtain rfl : x.transferId = transferId := by
        have := (hinv.payments x hx).1
        omega
      rcases h with h | h
      · rwa [← Option.some.inj h]
      · rwa [← Option.some.inj h]
  | setSettlement id status hash =>
      refine hinv.setSettlement id (fun x => ⟨rfl, rfl⟩) fun x hx hxid hash' h => ?_
      cases hash with
      | none => exact (hinv.payments x hx).2 hash' h
      | some hash =>
          obtain ⟨transferId, hid, hattempt⟩ := hmay
          obtain rfl : x.transferId = transferId := by
            have := (hinv.payments x hx).1
            omega
          rcases h with h | h
          · rwa [← Option.some.inj h]
          · exact (hinv.payments x hx).2 hash' (.inr h)
  | setStatus id status =>
      exact hinv.setTransfer id (fun _ => rfl) fun r hr hid hc => absurd hc hmay
  | insertFee draft =>
      unfold OnchainSql.run
      dsimp only
      split_ifs
      · exact ⟨hinv, .refl s⟩
      · exact hsame rfl rfl rfl (Nat.le_succ _) rfl rfl
  | complete id debitId creditId feeId =>
      unfold OnchainSql.run
      dsimp only
      cases hfind : s.transfers.find? (·.id = id) with
      | none => exact ⟨hinv, .refl s⟩
      | some r =>
          refine hinv.setTransfer id (fun _ => rfl) fun r' hr' hid _ => ?_
          obtain ⟨row, ⟨r'', hr'', heq⟩, hrow, hdebit, hcredit⟩ := hmay
          obtain rfl := hinv.row_inj hr' hr'' (hid.trans (hrow.symm.trans (lasting_id heq).symm))
          exact ⟨debitId, creditId, rfl, rfl, hdebit.lasting heq, hcredit.lasting heq⟩
  | _ => exact hsame rfl rfl rfl le_rfl rfl rfl

end statements

end DayfiBackend.Infra.Onchain
