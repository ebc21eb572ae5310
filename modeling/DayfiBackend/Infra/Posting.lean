import DayfiBackend.Infra.Ledger

/-!
# What a committed ledger operation did

Each operation of the ledger either leaves it as it was (the operation failed, or its key was
already there) or posts. This file says once what posting is, as functions of the ledger before:
`PostRule.posted` for the operations on one wallet, `AvailableMove.moved` for those between two.
`postLedger_cases`, `transferBody_ok` and `applyDayfiTransactionFee_ok` are the inversions every
later argument about the ledger starts from.
-/

namespace DayfiBackend.Infra

open DayfiBackend.Found.Binary64 DayfiBackend.Found.Keys DayfiBackend.Found.Tx

/-! ### Rows and movements -/

/-- The row an operation works on: the wallet's, or the one it creates. -/
def Ledger.row (l : Ledger) (k : WalletKey) : WalletAccount := (l.wallets k).getD .fresh

/-- A wallet row written. -/
def Ledger.setRow (l : Ledger) (k : WalletKey) (row : WalletAccount) : Ledger :=
  { l with wallets := Function.update l.wallets k (some row) }

/-- A movement inserted. -/
def Ledger.insert (l : Ledger) (m : Movement) : Ledger :=
  { l with movements := m :: l.movements, nextMovementId := l.nextMovementId + 1 }

section rows

variable {l l' : Ledger} {k k' : WalletKey} {row row' : WalletAccount} {m : Movement}

@[simp] theorem Ledger.setRow_movements : (l.setRow k row).movements = l.movements := rfl

@[simp] theorem Ledger.setRow_nextMovementId :
    (l.setRow k row).nextMovementId = l.nextMovementId := rfl

@[simp] theorem Ledger.insert_movements : (l.insert m).movements = m :: l.movements := rfl

@[simp] theorem Ledger.insert_wallets : (l.insert m).wallets = l.wallets := rfl

@[simp] theorem Ledger.insert_nextMovementId :
    (l.insert m).nextMovementId = l.nextMovementId + 1 := rfl

@[simp] theorem Ledger.row_setRow : (l.setRow k row).row k = row := by
  simp [Ledger.row, Ledger.setRow]

theorem Ledger.row_setRow_of_ne (h : k' ≠ k) : (l.setRow k row).row k' = l.row k' := by
  simp [Ledger.row, Ledger.setRow, Function.update_of_ne h]

@[simp] theorem Ledger.row_insert : (l.insert m).row k = l.row k := rfl

/-- Writing twice is writing the second time. -/
@[simp] theorem Ledger.setRow_setRow : (l.setRow k row).setRow k row' = l.setRow k row' := by
  simp [Ledger.setRow]

theorem Ledger.row_setRow_eq_ite :
    (l.setRow k row).row k' = if k' = k then row else l.row k' := by
  split_ifs with h
  · subst h
    exact Ledger.row_setRow
  · exact Ledger.row_setRow_of_ne h

/-- Creating the wallet does not change what any operation reads. -/
@[simp] theorem Ledger.row_setRow_row : (l.setRow k (l.row k)).row k' = l.row k' := by
  rw [Ledger.row_setRow_eq_ite]
  split_ifs with h
  · rw [h]
  · rfl

theorem ensureWalletAccount_ok (h : (ensureWalletAccount k).run l = .ok (row, l')) :
    row = l.row k ∧ l' = l.setRow k (l.row k) := by
  unfold ensureWalletAccount at h
  obtain ⟨t, s, ht, h⟩ := bind_ok.mp h
  obtain ⟨rfl, rfl⟩ := get_ok.mp ht
  cases hk : l.wallets k with
  | some existing =>
      rw [hk] at h
      obtain ⟨rfl, rfl⟩ := pure_ok.mp h
      have hrow : l.row k = existing := by simp [Ledger.row, hk]
      refine ⟨hrow.symm, ?_⟩
      rw [hrow, Ledger.setRow, ← hk, Function.update_eq_self]
  | none =>
      rw [hk] at h
      obtain ⟨_, s, hs, h⟩ := bind_ok.mp h
      obtain ⟨-, rfl⟩ := throwIf_ok.mp hs
      obtain ⟨_, s', hs', h⟩ := bind_ok.mp h
      obtain rfl := modify_ok.mp hs'
      obtain ⟨rfl, rfl⟩ := pure_ok.mp h
      have hrow : l.row k = .fresh := by simp [Ledger.row, hk]
      exact ⟨hrow.symm, by rw [hrow]; rfl⟩

/-- A row that passes the constraints of its table has no negative balance. -/
theorem checkRow_ok {b : Buckets ℤ} (h : checkRow b = .ok ()) : b.Nonneg := by
  unfold checkRow at h
  split_ifs at h with hf hn
  simp only [Bool.or_eq_true, decide_eq_true_eq, not_or, not_lt] at hn
  exact ⟨hn.1.1, hn.1.2, hn.2⟩

theorem updateWallet_ok {balance : Buckets ℤ} {u : Unit}
    (h : (updateWallet k row balance).run l = .ok (u, l')) :
    balance.Nonneg ∧ l' = l.setRow k { row with balance } := by
  unfold updateWallet at h
  obtain ⟨_, s, hs, h⟩ := bind_ok.mp h
  obtain ⟨hc, rfl⟩ := lift_ok.mp hs
  obtain rfl := modify_ok.mp h
  exact ⟨checkRow_ok hc, rfl⟩

theorem checkMovement_ok (h : checkMovement m = .ok ()) : 0 < m.amount := by
  unfold checkMovement at h
  split_ifs at h with hl hf hn
  exact not_le.mp hn

/-- A movement that clashes with none has an unused key. -/
theorem keyFresh_of_noClash (h : ∀ n ∈ l.movements, m.clashes n = false) :
    findMovementByIdempotency l m.idempotencyKey = none := by
  unfold findMovementByIdempotency
  rw [List.find?_eq_none]
  intro n hn hkey
  have hclash := h n hn
  simp only [Movement.clashes, Bool.or_eq_false_iff, decide_eq_false_iff_not] at hclash
  exact hclash.1 (by simpa [eq_comm] using hkey)

/-- The movement an insert makes. -/
def Ledger.newMovement (l : Ledger) (wallet : WalletKey) (direction : Direction) (amount : ℚ)
    (text : MovementText) (after : Buckets ℚ) (posting : Posting) : Movement :=
  { text with
    id := l.nextMovementId
    wallet, direction, posting
    amount := toNumeric amount
    after := after.toNumeric }

theorem insertMovement_ok {direction : Direction} {amount : ℚ} {text : MovementText}
    {after : Buckets ℚ} {posting : Posting}
    (h : (insertMovement k direction amount text after posting).run l = .ok (m, l')) :
    m = l.newMovement k direction amount text after posting ∧ 0 < m.amount ∧
      (∀ n ∈ l.movements, m.clashes n = false) ∧ l' = l.insert m := by
  unfold insertMovement at h
  obtain ⟨t, s, ht, h⟩ := bind_ok.mp h
  obtain ⟨rfl, rfl⟩ := get_ok.mp ht
  obtain ⟨_, s, hs, h⟩ := bind_ok.mp h
  obtain ⟨hc, rfl⟩ := lift_ok.mp hs
  obtain ⟨_, s', hs', h⟩ := bind_ok.mp h
  obtain ⟨hany, rfl⟩ := throwIf_ok.mp hs'
  obtain ⟨_, s, hs, h⟩ := bind_ok.mp h
  obtain rfl := set_ok.mp hs
  obtain ⟨rfl, rfl⟩ := pure_ok.mp h
  refine ⟨rfl, checkMovement_ok hc, fun n hn => ?_, rfl⟩
  simp only [List.any_eq_true, not_exists, not_and, Bool.not_eq_true] at hany
  exact hany n hn

end rows

/-- The movement an operation on one wallet inserts, from the row it locked and a fresh id. -/
def PostRule.entry (rule : PostRule) (p : LedgerWriteParams) (amount : ℚ) (row : WalletAccount)
    (id : ℕ) : Movement :=
  { p.text rule.defaultType with
    id
    wallet := p.wallet
    direction := rule.direction
    amount := toNumeric amount
    after := (rule.after row.read amount).toNumeric
    posting := rule.posting }

/-- The movement an operation on one wallet inserts. -/
def PostRule.movement (rule : PostRule) (p : LedgerWriteParams) (amount : ℚ) (l : Ledger) :
    Movement :=
  rule.entry p amount (l.row p.wallet) l.nextMovementId

section movement

variable (rule : PostRule) (p : LedgerWriteParams) (amount : ℚ) (l : Ledger)

@[simp] theorem PostRule.movement_idempotencyKey :
    (rule.movement p amount l).idempotencyKey = p.key := rfl

@[simp] theorem PostRule.movement_wallet : (rule.movement p amount l).wallet = p.wallet := rfl

@[simp] theorem PostRule.movement_posting : (rule.movement p amount l).posting = rule.posting := rfl

@[simp] theorem PostRule.movement_referenceType :
    (rule.movement p amount l).referenceType = orNull p.referenceType := rfl

@[simp] theorem PostRule.movement_referenceId :
    (rule.movement p amount l).referenceId = orNull p.referenceId := rfl

end movement

/-- The ledger with that movement posted. -/
def PostRule.posted (rule : PostRule) (p : LedgerWriteParams) (amount : ℚ) (l : Ledger) : Ledger :=
  (l.setRow p.wallet
    { l.row p.wallet with balance := rule.columns (l.row p.wallet) amount }).insert
      (rule.movement p amount l)

/-- What holds when a new movement is posted on the row of the wallet. -/
structure PostsOn (rule : PostRule) (p : LedgerWriteParams) (amount : ℚ) (l : Ledger) : Prop where
  parsed : parseAmount p.amount = .ok amount
  keyFresh : findMovementByIdempotency l p.key = none
  guarded : rule.guard (l.row p.wallet).read amount = none
  nonneg : (rule.columns (l.row p.wallet) amount).Nonneg
  amountPos : 0 < (rule.movement p amount l).amount
  noClash : ∀ n ∈ l.movements, (rule.movement p amount l).clashes n = false

/-- What holds when an operation posts a new movement. -/
structure Posts (rule : PostRule) (p : LedgerWriteParams) (amount : ℚ) (l : Ledger) : Prop
    extends PostsOn rule p amount l where
  active : (l.row p.wallet).status = .active

/-- A committed transaction on one wallet found the key, or posted. -/
theorem postBody_ok {rule : PostRule} {p : LedgerWriteParams} {amount : ℚ} {l l' : Ledger}
    {r : Posted} (hp : parseAmount p.amount = .ok amount)
    (h : (postBody rule p amount).run l = .ok (r, l')) :
    (findMovementByIdempotency l p.key = some r.movement ∧ r.duplicate = true ∧ l' = l) ∨
      (Posts rule p amount l ∧ r = ⟨rule.movement p amount l, false⟩ ∧
        l' = rule.posted p amount l) := by
  unfold postBody at h
  obtain ⟨t, s, ht, h⟩ := bind_ok.mp h
  obtain ⟨rfl, rfl⟩ := get_ok.mp ht
  cases hk : findMovementByIdempotency l p.key with
  | some existing =>
      rw [hk] at h
      obtain ⟨rfl, rfl⟩ := pure_ok.mp h
      exact .inl ⟨rfl, rfl, rfl⟩
  | none =>
      rw [hk] at h
      obtain ⟨row, s, hs, h⟩ := bind_ok.mp h
      obtain ⟨rfl, rfl⟩ := ensureWalletAccount_ok hs
      obtain ⟨_, s, hs, h⟩ := bind_ok.mp h
      obtain ⟨hactive, rfl⟩ := throwIf_ok.mp hs
      cases hg : rule.guard (l.row p.wallet).read amount with
      | some e =>
          rw [hg] at h
          exact absurd h (by rw [throw_ok]; exact id)
      | none =>
          rw [hg] at h
          obtain ⟨_, s, hs, h⟩ := bind_ok.mp h
          obtain ⟨hnonneg, rfl⟩ := updateWallet_ok hs
          obtain ⟨m, s, hs, h⟩ := bind_ok.mp h
          obtain ⟨hm, hpos, hclash, rfl⟩ := insertMovement_ok hs
          obtain ⟨rfl, rfl⟩ := pure_ok.mp h
          have hmove : m = rule.movement p amount l := hm
          subst hmove
          refine .inr ⟨⟨⟨hp, hk, hg, hnonneg, hpos, hclash⟩, not_not.mp hactive⟩, rfl, ?_⟩
          rw [Ledger.setRow_setRow]
          rfl

/-- What a call of an operation on one wallet can be: it fails and changes nothing, returns the
movement that has the key and changes nothing, or posts a new one. -/
theorem postLedger_cases (rule : PostRule) (p : LedgerWriteParams) (l : Ledger) :
    (∃ e, postLedger rule p l = (.error e, l)) ∨
      (∃ m, findMovementByIdempotency l p.key = some m ∧
        postLedger rule p l = (.ok ⟨m, true⟩, l)) ∨
      ∃ amount, Posts rule p amount l ∧
        postLedger rule p l = (.ok ⟨rule.movement p amount l, false⟩, rule.posted p amount l) := by
  unfold postLedger
  cases hp : parseAmount p.amount with
  | error e => exact .inl ⟨e, rfl⟩
  | ok amount =>
      by_cases hkey : p.key = ""
      · exact .inl ⟨.error .idempotencyRequired, by simp only [hkey, if_true]⟩
      rcases commit_cases (postBody rule p amount) l with ⟨r, l', hrun, hc⟩ | ⟨e, hrun, hc⟩
      · rcases postBody_ok hp hrun with ⟨hf, hd, rfl⟩ | ⟨hposts, rfl, rfl⟩
        · refine .inr (.inl ⟨r.movement, hf, ?_⟩)
          simp only [hkey, if_false, hc]
          rw [← hd]
        · refine .inr (.inr ⟨amount, hposts, ?_⟩)
          simp only [hkey, if_false, hc]
      · by_cases he : e = .uniqueViolation
        · subst he
          simp only [hkey, if_false, hc]
          cases hf : findMovementByIdempotency l p.key with
          | some m => exact .inr (.inl ⟨m, rfl, rfl⟩)
          | none => exact .inl ⟨_, rfl⟩
        · refine .inl ⟨e, ?_⟩
          simp only [hkey, if_false, hc]
          split
          · rename_i heq
            cases heq
            exact absurd rfl he
          · rfl

namespace AvailableMove

variable (mv : AvailableMove) (l : Ledger)

/-- The sender's row after a move. -/
def srcRow : WalletAccount :=
  { l.row mv.src with balance :=
    { (l.row mv.src).balance with
      available := toNumeric (mv.srcAfter (l.row mv.src)).available } }

/-- The recipient's row after a move. -/
def dstRow : WalletAccount :=
  { l.row mv.dst with balance :=
    { (l.row mv.dst).balance with
      available := toNumeric (mv.dstAfter (l.row mv.dst)).available } }

/-- The debit leg. -/
def debit : Movement :=
  l.newMovement mv.src .debit mv.amount mv.outText (mv.srcAfter (l.row mv.src)) mv.outPosting

/-- The credit leg. -/
def credit : Movement :=
  (l.insert (mv.debit l)).newMovement mv.dst .credit mv.amount mv.inText
    (mv.dstAfter (l.row mv.dst)) mv.inPosting

/-- The ledger after a move. -/
def moved : Ledger :=
  ((((l.setRow mv.src (mv.srcRow l)).setRow mv.dst (mv.dstRow l)).insert (mv.debit l)).insert
    (mv.credit l))

/-- What holds when money is moved. -/
structure Moves : Prop where
  srcActive : (l.row mv.src).status = .active
  dstActive : (l.row mv.dst).status = .active
  guarded : ¬ (l.row mv.src).read.available < mv.amount
  srcNonneg : (mv.srcRow l).balance.Nonneg
  dstNonneg : (mv.dstRow l).balance.Nonneg
  amountPos : 0 < (mv.debit l).amount
  debitFresh : ∀ n ∈ l.movements, (mv.debit l).clashes n = false
  creditFresh : ∀ n ∈ mv.debit l :: l.movements, (mv.credit l).clashes n = false

end AvailableMove

theorem Ledger.setRow_comm {l : Ledger} {k k' : WalletKey} {row row' : WalletAccount}
    (h : k ≠ k') : (l.setRow k row).setRow k' row' = (l.setRow k' row').setRow k row := by
  simp [Ledger.setRow, Function.update_comm h]

/-- Rows created before being written leave no trace. -/
theorem Ledger.setRow_after_ensure {l : Ledger} {k k' : WalletKey} {a b a' b' : WalletAccount} :
    (((l.setRow k a).setRow k' b).setRow k a').setRow k' b' =
      (l.setRow k a').setRow k' b' := by
  by_cases h : k = k'
  · subst h
    simp only [Ledger.setRow_setRow]
  · rw [Ledger.setRow_comm (Ne.symm h), Ledger.setRow_setRow, Ledger.setRow_setRow]

/-- A committed move, on rows read through `ensureWalletAccount`. -/
theorem moveAvailable_ok {mv : AvailableMove} {l l' : Ledger} {r : Movement × Movement}
    (hsrc : (l.row mv.src).status = .active) (hdst : (l.row mv.dst).status = .active)
    (hg : ¬ (l.row mv.src).read.available < mv.amount)
    (h : (moveAvailable mv (l.row mv.src) (l.row mv.dst)).run
      ((l.setRow mv.src (l.row mv.src)).setRow mv.dst (l.row mv.dst)) = .ok (r, l')) :
    mv.Moves l ∧ r = (mv.debit l, mv.credit l) ∧ l' = mv.moved l := by
  unfold moveAvailable at h
  obtain ⟨_, s, hs, h⟩ := bind_ok.mp h
  obtain ⟨hsrcNonneg, rfl⟩ := updateWallet_ok hs
  obtain ⟨_, s, hs, h⟩ := bind_ok.mp h
  obtain ⟨hdstNonneg, rfl⟩ := updateWallet_ok hs
  obtain ⟨debit, s, hs, h⟩ := bind_ok.mp h
  obtain ⟨hdebit, hpos, hclash, rfl⟩ := insertMovement_ok hs
  obtain ⟨credit, s, hs, h⟩ := bind_ok.mp h
  obtain ⟨hcredit, -, hclash', rfl⟩ := insertMovement_ok hs
  obtain ⟨rfl, rfl⟩ := pure_ok.mp h
  have hd : debit = mv.debit l := hdebit
  subst hd
  have hc : credit = mv.credit l := hcredit
  subst hc
  refine ⟨⟨hsrc, hdst, hg, hsrcNonneg, hdstNonneg, hpos, hclash, hclash'⟩, rfl, ?_⟩
  rw [Ledger.setRow_after_ensure]
  rfl

/-- What holds when a transfer posts both legs. -/
structure Transfers (p : TransferParams) (amount : ℚ) (l : Ledger) : Prop where
  parsed : parseAmount p.amount = .ok amount
  orgs : p.senderOrgId ≠ p.recipientOrgId
  debitKeyFresh : findMovementByIdempotency l (trim p.debitIdempotencyKey) = none
  creditKeyFresh : findMovementByIdempotency l (trim p.creditIdempotencyKey) = none
  moves : (p.move amount).Moves l

/-- A committed transfer found both keys, or moved the money. -/
theorem transferBody_ok {p : TransferParams} {l l' : Ledger} {r : PostedPair}
    (h : (transferBody p).run l = .ok (r, l')) :
    (findMovementByIdempotency l (trim p.debitIdempotencyKey) = some r.debit ∧
        findMovementByIdempotency l (trim p.creditIdempotencyKey) = some r.credit ∧ l' = l) ∨
      ∃ amount, Transfers p amount l ∧
        r = ⟨(p.move amount).debit l, (p.move amount).credit l, false⟩ ∧
        l' = (p.move amount).moved l := by
  unfold transferBody at h
  obtain ⟨amount, s, hs, h⟩ := bind_ok.mp h
  obtain ⟨hp, rfl⟩ := lift_ok.mp hs
  obtain ⟨_, s, hs, h⟩ := bind_ok.mp h
  obtain ⟨-, rfl⟩ := throwIf_ok.mp hs
  obtain ⟨_, s, hs, h⟩ := bind_ok.mp h
  obtain ⟨horgs, rfl⟩ := throwIf_ok.mp hs
  obtain ⟨_, s, hs, h⟩ := bind_ok.mp h
  obtain ⟨rfl, rfl⟩ := get_ok.mp hs
  cases hd : findMovementByIdempotency l (trim p.debitIdempotencyKey) <;>
    cases hc : findMovementByIdempotency l (trim p.creditIdempotencyKey) <;>
    simp only [hd, hc] at h
  case some.some debit credit =>
    obtain ⟨rfl, rfl⟩ := pure_ok.mp h
    exact .inl ⟨rfl, rfl, rfl⟩
  case some.none => exact absurd h (by rw [throw_ok]; exact id)
  case none.some => exact absurd h (by rw [throw_ok]; exact id)
  case none.none =>
    obtain ⟨senderRow, s, hs, h⟩ := bind_ok.mp h
    obtain ⟨rfl, rfl⟩ := ensureWalletAccount_ok hs
    obtain ⟨recipientRow, s, hs, h⟩ := bind_ok.mp h
    obtain ⟨rfl, rfl⟩ := ensureWalletAccount_ok hs
    obtain ⟨_, s, hs, h⟩ := bind_ok.mp h
    obtain ⟨hsender, rfl⟩ := throwIf_ok.mp hs
    obtain ⟨_, s, hs, h⟩ := bind_ok.mp h
    obtain ⟨hrecipient, rfl⟩ := throwIf_ok.mp hs
    obtain ⟨_, s, hs, h⟩ := bind_ok.mp h
    obtain ⟨hg, rfl⟩ := throwIf_ok.mp hs
    obtain ⟨_, s, hs, h⟩ := bind_ok.mp h
    obtain ⟨rfl, rfl⟩ := pure_ok.mp h
    rw [Ledger.row_setRow_row] at hrecipient hs
    have hsrc : (l.row (p.move amount).src).status = .active := not_not.mp hsender
    have hdst : (l.row (p.move amount).dst).status = .active := not_not.mp hrecipient
    obtain ⟨hmoves, rfl, rfl⟩ := moveAvailable_ok hsrc hdst hg hs
    exact .inr ⟨amount, ⟨hp, horgs, hd, hc, hmoves⟩, rfl, rfl⟩

/-- What holds when a fee posts both legs. -/
structure ChargesFee (p : FeeParams) (amount : ℚ) (l : Ledger) : Prop where
  parsed : parseAmount p.amount = .ok amount
  moves : (p.move amount).Moves l

/-- A committed fee was zero, found both keys, or moved the money. -/
theorem applyDayfiTransactionFee_ok {p : FeeParams} {l l' : Ledger} {r : Option PostedPair}
    (h : (applyDayfiTransactionFee p).run l = .ok (r, l')) :
    (r = none ∧ l' = l) ∨
      (∃ pair, r = some pair ∧
        findMovementByIdempotency l (trim p.debitIdempotencyKey) = some pair.debit ∧
        findMovementByIdempotency l (trim p.creditIdempotencyKey) = some pair.credit ∧ l' = l) ∨
      ∃ amount, ChargesFee p amount l ∧
        r = some ⟨(p.move amount).debit l, (p.move amount).credit l, false⟩ ∧
        l' = (p.move amount).moved l := by
  unfold applyDayfiTransactionFee at h
  obtain ⟨amount, s, hs, h⟩ := bind_ok.mp h
  obtain ⟨hp, rfl⟩ := lift_ok.mp hs
  by_cases hzero : amount ≤ 0
  · rw [if_pos hzero] at h
    obtain ⟨rfl, rfl⟩ := pure_ok.mp h
    exact .inl ⟨rfl, rfl⟩
  rw [if_neg hzero] at h
  obtain ⟨_, s, hs, h⟩ := bind_ok.mp h
  obtain ⟨-, rfl⟩ := throwIf_ok.mp hs
  obtain ⟨_, s, hs, h⟩ := bind_ok.mp h
  obtain ⟨rfl, rfl⟩ := get_ok.mp hs
  by_cases hboth : ∃ debit credit,
      findMovementByIdempotency l (trim p.debitIdempotencyKey) = some debit ∧
        findMovementByIdempotency l (trim p.creditIdempotencyKey) = some credit
  · obtain ⟨debit, credit, hd, hc⟩ := hboth
    simp only [hd, hc] at h
    obtain ⟨rfl, rfl⟩ := pure_ok.mp h
    exact .inr (.inl ⟨_, rfl, hd, hc, rfl⟩)
  · split at h
    · rename_i debit credit hd hc
      exact absurd ⟨debit, credit, hd, hc⟩ hboth
    · obtain ⟨payerRow, s, hs, h⟩ := bind_ok.mp h
      obtain ⟨rfl, rfl⟩ := ensureWalletAccount_ok hs
      obtain ⟨revenueRow, s, hs, h⟩ := bind_ok.mp h
      obtain ⟨rfl, rfl⟩ := ensureWalletAccount_ok hs
      obtain ⟨_, s, hs, h⟩ := bind_ok.mp h
      obtain ⟨hpayer, rfl⟩ := throwIf_ok.mp hs
      obtain ⟨_, s, hs, h⟩ := bind_ok.mp h
      obtain ⟨hrevenue, rfl⟩ := throwIf_ok.mp hs
      obtain ⟨_, s, hs, h⟩ := bind_ok.mp h
      obtain ⟨hg, rfl⟩ := throwIf_ok.mp hs
      obtain ⟨_, s, hs, h⟩ := bind_ok.mp h
      obtain ⟨rfl, rfl⟩ := pure_ok.mp h
      rw [Ledger.row_setRow_row] at hrevenue hs
      have hsrc : (l.row (p.move amount).src).status = .active := not_not.mp hpayer
      have hdst : (l.row (p.move amount).dst).status = .active := not_not.mp hrevenue
      obtain ⟨hmoves, rfl, rfl⟩ := moveAvailable_ok hsrc hdst hg hs
      exact .inr (.inr ⟨amount, ⟨hp, hmoves⟩, rfl, rfl⟩)

end DayfiBackend.Infra
