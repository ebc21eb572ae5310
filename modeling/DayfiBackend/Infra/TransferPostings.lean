import Mathlib.Algebra.BigOperators.Group.Finset.Piecewise
import DayfiBackend.Infra.Conservation
import DayfiBackend.Infra.InternalTransfers

/-!
# What the transaction of a transfer posts

When a transfer commits, money should only move between wallets: out of the sender the amount and
the fee, into the recipient the amount, into the revenue wallet the fee, and a wallet that is two of
these gets both (`Settled`). The transaction does this exactly when its legs are its own and its
sender is not the wallet its fee goes to (`Transferred.books`): with one wallet for both, the fee
writes two balances computed from one row, and the second write wins; and the keys of the legs do
not name the organisation, so under a key another organisation used nothing is posted.
-/

namespace DayfiBackend.Infra.InternalTransfer

open DayfiBackend.Found.Binary64 DayfiBackend.Found.Keys DayfiBackend.Found.Tx

/-! ### What a transfer should do -/

/-- The wallets of a request, when its organisations are well-formed ids. -/
structure Parties where
  request : Prepared
  sender : WalletKey
  recipient : WalletKey
  revenue : Option WalletKey

/-- The organisation the fee goes to. -/
def feeOrgOf (o : Outside) (cfg : FeeSettings) (b : Books) : String :=
  let fromEnv := trim (orDefault cfg.infraFeeOrgId "")
  if fromEnv ≠ "" then fromEnv
  else ((b.orgs.find? (·.slug = feeOrgSlug)).map (·.id)).getD o.feeOrgId

/-- The wallets of a transfer between two organisations. -/
def partiesOf (o : Outside) (cfg : FeeSettings) (b : Books) (p : Prepared)
    (sender recipient : String) : Parties where
  request := p
  sender := usdcWallet sender p.environment
  recipient := usdcWallet recipient p.environment
  revenue := (o.uuid.read (feeOrgOf o cfg b)).map (usdcWallet · p.environment)

/-- The wallets of a request. -/
def parties (o : Outside) (cfg : FeeSettings) (i : TransferInput) (b : Books) : Option Parties :=
  match prepare o cfg i b with
  | .error _ => none
  | .ok p =>
      match o.uuid.read p.senderOrgId, o.uuid.read p.recipientOrgId with
      | some sender, some recipient => some (partiesOf o cfg b p sender recipient)
      | _, _ => none

/-- How much a wallet holds more than before. -/
def change (l l' : Ledger) (k : WalletKey) : ℤ := (l'.row k).balance.total - (l.row k).balance.total

/-- The movements that are fee revenue. -/
def isFeeRevenue : Posting → Bool
  | .feeRevenue => true
  | _ => false

/-- What a wallet received as fee revenue. -/
def received (l l' : Ledger) (k : WalletKey) : ℤ :=
  sumOf l'.movements k isFeeRevenue - sumOf l.movements k isFeeRevenue

/-- Money moved as the request says, and none was made or lost. -/
structure Settled (w : Parties) (l l' : Ledger) : Prop where
  sum : ∀ S : Finset WalletKey, (∀ k, l'.wallets k ≠ none → k ∈ S) →
    ∑ k ∈ S, (l'.row k).balance.total = ∑ k ∈ S, (l.row k).balance.total
  sender : change l l' w.sender =
    -(w.request.quote.transferAmount + w.request.quote.feeAmount) + received l l' w.sender
  recipient : change l l' w.recipient =
    w.request.quote.transferAmount + received l l' w.recipient
  others : ∀ k, k ≠ w.sender → k ≠ w.recipient → change l l' k = received l l' k
  revenue : ∀ k, received l l' k = if some k = w.revenue then w.request.quote.feeAmount else 0

/-- Balances, movements and fee records are as they were. -/
structure Unchanged (b b' : Books) : Prop where
  balances : ∀ k, (b'.ledger.row k).balance = (b.ledger.row k).balance
  movements : b'.ledger.movements = b.ledger.movements
  fees : b'.fees = b.fees

/-- The call made its transfer. -/
def Commits (o : Outside) (b b' : Books) : Prop :=
  (∃ r ∈ b'.transfers, r.id = o.transferGroupId) ∧ ∀ r ∈ b.transfers, r.id ≠ o.transferGroupId

/-- A call conserves money. -/
structure Conserves (o : Outside) (cfg : FeeSettings) (i : TransferInput) (b : Books)
    (r : Except TransferFailure Presented) (b' : Books) : Prop where
  committed : Commits o b b' → ∃ w, parties o cfg i b = some w ∧ Settled w b.ledger b'.ledger
  failed : (∃ e, r = .error e) → Unchanged b b'

/-! ### When it does -/

/-- The statements after the commit succeed. -/
structure Answered (o : Outside) : Prop where
  acknowledge : o.fails .acknowledge = false
  balanceAfter : o.fails .balanceAfter = false
  storedFee : o.fails .storedFee = false

/-- Both movements with these keys are there. -/
def BothPosted (l : Ledger) (debitKey creditKey : String) : Prop :=
  (findMovementByIdempotency l (trim debitKey)).isSome = true ∧
    (findMovementByIdempotency l (trim creditKey)).isSome = true

/-- The key of the fee has not been used: no record has it, and no pair of movements. -/
structure FeeUnused (o : Outside) (b : Books) (p : Prepared) : Prop where
  record : ∀ r ∈ b.fees, r.idempotencyKey ≠ p.feeKey o
  legs : ¬ BothPosted b.ledger (p.feeKey o ++ ":debit") (p.feeKey o ++ ":revenue")

/-- The legs a call posts are its own, and its sender is not the wallet its fee goes to. -/
structure OwnLegs (o : Outside) (b : Books) (w : Parties) : Prop where
  principal : ¬ BothPosted b.ledger (w.request.debitKey o) (w.request.creditKey o)
  fee : w.request.quote.feeCharged = true →
    FeeUnused o b w.request ∧ w.revenue ≠ some w.sender

/-- Its legs are its own, and the statements after its commit succeed. -/
structure Clean (o : Outside) (b : Books) (w : Parties) : Prop where
  answered : Answered o
  own : OwnLegs o b w

/-- The balances of the wallets of the call are carried exactly. -/
def InRange (b : Books) (w : Parties) : Prop :=
  ∀ k, k = w.sender ∨ k = w.recipient ∨ some k = w.revenue →
    (b.ledger.row k).balance.InRange ∧
      (b.ledger.row k).balance.total + w.request.quote.customerDebitAmount < exactLimit

/-! ### Ledgers that hold the same -/

/-- The rows read the same, and none is gone. -/
structure SameRows (l l' : Ledger) : Prop where
  row : ∀ k, l'.row k = l.row k
  movements : l'.movements = l.movements
  rows : ∀ k, l.wallets k ≠ none → l'.wallets k ≠ none

theorem SameRows.refl (l : Ledger) : SameRows l l := ⟨fun _ => rfl, rfl, fun _ h => h⟩

theorem SameRows.trans {l l' l'' : Ledger} (h : SameRows l l') (h' : SameRows l' l'') :
    SameRows l l'' :=
  ⟨fun k => (h'.row k).trans (h.row k), h'.movements.trans h.movements,
    fun k hk => h'.rows k (h.rows k hk)⟩

section ledgers

variable {l l' l'' : Ledger} {k : WalletKey} {mv : AvailableMove} {a : ℤ}

theorem SameRows.ensured (k : WalletKey) : SameRows l (l.setRow k (l.row k)) := by
  refine ⟨fun k' => Ledger.row_setRow_row, rfl, ?_⟩
  intro k' hk'
  unfold Ledger.setRow
  by_cases h : k' = k
  · subst h
    simp
  · simpa [Function.update_of_ne h] using hk'

theorem SameRows.change (h : SameRows l l') : change l l' k = 0 := by
  unfold InternalTransfer.change
  rw [h.row, sub_self]

theorem SameRows.received (h : SameRows l l') : received l l' k = 0 := by
  unfold InternalTransfer.received
  rw [h.movements, sub_self]

theorem change_add (l' : Ledger) : change l l' k + change l' l'' k = change l l'' k := by
  unfold change
  omega

theorem received_add (l' : Ledger) : received l l' k + received l' l'' k = received l l'' k := by
  unfold received
  omega

/-- A move takes from its source and gives to its destination; where they are one wallet, the
second write is what remains. -/
theorem change_moved (h : ExactMove mv l a) :
    change l (mv.moved l) k = if k = mv.dst then a else if k = mv.src then -a else 0 := by
  unfold change AvailableMove.moved
  simp only [Ledger.row_insert, Ledger.row_setRow_eq_ite]
  split_ifs with hdst hsrc
  · rw [h.dst, hdst]
    simp only [Buckets.total]
    omega
  · rw [h.src, hsrc]
    simp only [Buckets.total]
    omega
  · omega

/-- A move that is no fee revenue. -/
theorem received_moved (hout : isFeeRevenue mv.outPosting = false)
    (hin : isFeeRevenue mv.inPosting = false) : received l (mv.moved l) k = 0 := by
  have hdebit : (mv.debit l).posting = mv.outPosting := rfl
  have hcredit : (mv.credit l).posting = mv.inPosting := rfl
  unfold received AvailableMove.moved
  simp [hdebit, hcredit, hout, hin]

/-- A move whose credit is fee revenue. -/
theorem received_feeMoved (h : ExactMove mv l a) (hout : isFeeRevenue mv.outPosting = false)
    (hin : isFeeRevenue mv.inPosting = true) :
    received l (mv.moved l) k = if k = mv.dst then a else 0 := by
  have hdebit : (mv.debit l).posting = mv.outPosting := rfl
  have hcredit : (mv.credit l).posting = mv.inPosting := rfl
  have hwallet : (mv.credit l).wallet = mv.dst := rfl
  unfold received AvailableMove.moved
  simp [hdebit, hcredit, hwallet, hout, hin, h.creditAmount, eq_comm]

/-- Both wallets of a move exist after it. -/
theorem moved_wallets (mv : AvailableMove) (l : Ledger) :
    (mv.moved l).wallets mv.src ≠ none ∧ (mv.moved l).wallets mv.dst ≠ none := by
  unfold AvailableMove.moved Ledger.setRow
  constructor
  · by_cases h : mv.src = mv.dst
    · simp [h]
    · simp [Function.update_of_ne h]
  · simp

/-- A move leaves the status of every wallet. -/
theorem moved_status (mv : AvailableMove) (k : WalletKey) :
    ((mv.moved l).row k).status = (l.row k).status := by
  unfold AvailableMove.moved
  simp only [Ledger.row_insert, Ledger.row_setRow_eq_ite]
  split_ifs with hdst hsrc
  · rw [hdst]
    rfl
  · rw [hsrc]
    rfl
  · rfl

/-- A wallet that exists, by the row it is read as. -/
theorem wallets_eq_row (h : l.wallets k ≠ none) : l.wallets k = some (l.row k) := by
  unfold Ledger.row
  cases hk : l.wallets k with
  | none => exact absurd hk h
  | some x => rfl

/-- A wallet that exists still does after a move. -/
theorem moved_rows (mv : AvailableMove) (h : l.wallets k ≠ none) :
    (mv.moved l).wallets k ≠ none := by
  by_cases hdst : k = mv.dst
  · rw [hdst]
    exact (moved_wallets mv l).2
  by_cases hsrc : k = mv.src
  · rw [hsrc]
    exact (moved_wallets mv l).1
  · unfold AvailableMove.moved Ledger.setRow
    simpa [Function.update_of_ne hdst, Function.update_of_ne hsrc] using h

/-- A wallet that exists and takes part in transfers. -/
structure Active (l : Ledger) (k : WalletKey) : Prop where
  row : l.wallets k ≠ none
  status : (l.row k).status = .active

/-- Wallets that take part still do. -/
structure KeepsWallets (l l' : Ledger) : Prop where
  row : ∀ k, l.wallets k ≠ none → l'.wallets k ≠ none
  status : ∀ k, (l'.row k).status = (l.row k).status

theorem KeepsWallets.active (h : KeepsWallets l l') (hk : Active l k) : Active l' k :=
  ⟨h.row k hk.row, (h.status k).trans hk.status⟩

theorem SameRows.keepsWallets (h : SameRows l l') : KeepsWallets l l' :=
  ⟨h.rows, fun k => by rw [h.row]⟩

theorem moved_keepsWallets (mv : AvailableMove) : KeepsWallets l (mv.moved l) :=
  ⟨fun _ => moved_rows mv, moved_status mv⟩

theorem KeepsWallets.trans (h : KeepsWallets l l') (h' : KeepsWallets l' l'') :
    KeepsWallets l l'' :=
  ⟨fun k hk => h'.row k (h.row k hk), fun k => (h'.status k).trans (h.status k)⟩

/-- The keys of two movements that a move posts are not found when they are not those looked for. -/
theorem find_moved {key : String} (hout : mv.outText.idempotencyKey ≠ key)
    (hin : mv.inText.idempotencyKey ≠ key) :
    findMovementByIdempotency (mv.moved l) key = findMovementByIdempotency l key := by
  have hdebit : (mv.debit l).idempotencyKey = mv.outText.idempotencyKey := rfl
  have hcredit : (mv.credit l).idempotencyKey = mv.inText.idempotencyKey := rfl
  unfold findMovementByIdempotency AvailableMove.moved
  simp [hdebit, hcredit, hout, hin]

end ledgers

/-! ### Statements -/

/-- A transaction that moves no money and makes no transfer. -/
structure Quiet (o : Outside) (cfg : FeeSettings) (b b' : Books) : Prop where
  ledger : SameRows b.ledger b'.ledger
  transfers : b'.transfers = b.transfers
  fees : b'.fees = b.fees
  feeOrg : feeOrgOf o cfg b' = feeOrgOf o cfg b

section statements

variable {o : Outside} {cfg : FeeSettings} {p : Prepared} {b b' b'' : Books} {α : Type} {x : α}

theorem Quiet.refl (o : Outside) (cfg : FeeSettings) (b : Books) : Quiet o cfg b b :=
  ⟨.refl _, rfl, rfl, rfl⟩

theorem Quiet.trans (h : Quiet o cfg b b') (h' : Quiet o cfg b' b'') : Quiet o cfg b b'' :=
  ⟨h.ledger.trans h'.ledger, h'.transfers.trans h.transfers, h'.fees.trans h.fees,
    h'.feeOrg.trans h.feeOrg⟩

theorem statement_ok {step : Step} {tx : BooksTx α} :
    (o.statement step tx).run b = .ok (x, b') ↔
      o.fails step = false ∧ tx.run b = .ok (x, b') := by
  unfold Outside.statement
  rw [bind_ok]
  constructor
  · rintro ⟨_, _, hs, h⟩
    obtain ⟨hf, rfl⟩ := throwIf_ok.mp hs
    exact ⟨by simpa using hf, h⟩
  · rintro ⟨hf, h⟩
    exact ⟨(), b, throwIf_ok.mpr ⟨by simp [hf], rfl⟩, h⟩

theorem onLedger_ok {tx : LedgerTx α} :
    (onLedger tx).run b = .ok (x, b') ↔
      ∃ l, tx.run b.ledger = .ok (x, l) ∧ b' = { b with ledger := l } := by
  change onLedger tx b = _ ↔ _
  unfold onLedger
  cases tx.run b.ledger with
  | error e => simp
  | ok r =>
      obtain ⟨a, l⟩ := r
      simp only [Except.ok.injEq, Prod.mk.injEq]
      constructor
      · rintro ⟨rfl, rfl⟩
        exact ⟨l, ⟨rfl, rfl⟩, rfl⟩
      · rintro ⟨_, ⟨rfl, rfl⟩, rfl⟩
        exact ⟨rfl, rfl⟩

theorem readUuid_ok {s id : String} :
    (readUuid o s).run b = .ok (id, b') ↔ o.uuid.read s = some id ∧ b = b' := by
  unfold readUuid
  cases o.uuid.read s with
  | none =>
      dsimp only
      rw [throw_ok]
      simp
  | some u =>
      dsimp only
      rw [pure_ok]
      simp

/-- Ensuring a wallet creates a row that reads as the absent one did. -/
theorem ensureWallet_ok {orgId : String} {env : Environment} {w : WalletAccount}
    (h : (ensureWallet o orgId env).run b = .ok (w, b')) :
    ∃ id, o.uuid.read orgId = some id ∧ w = b.ledger.row (usdcWallet id env) ∧
      Quiet o cfg b b' := by
  unfold ensureWallet at h
  obtain ⟨id, s, hs, h⟩ := bind_ok.mp h
  obtain ⟨hid, rfl⟩ := readUuid_ok.mp hs
  obtain ⟨t, s, hs, h⟩ := bind_ok.mp h
  obtain ⟨rfl, rfl⟩ := get_ok.mp hs
  obtain ⟨_, s, hs, h⟩ := bind_ok.mp h
  obtain ⟨-, rfl⟩ := throwIf_ok.mp hs
  obtain ⟨l, hl, rfl⟩ := onLedger_ok.mp h
  obtain ⟨rfl, rfl⟩ := ensureWalletAccount_ok hl
  exact ⟨id, hid, rfl, .ensured _, rfl, rfl, rfl⟩

/-- The fee organisation inserted is the one that is found from then on. -/
theorem insertFeeOrg_ok {id : String} (hnone : b.orgs.find? (·.slug = feeOrgSlug) = none)
    (h : (insertFeeOrg o).run b = .ok (id, b')) :
    id = o.feeOrgId ∧ Quiet o cfg b b' := by
  unfold insertFeeOrg at h
  obtain ⟨t, s, hs, h⟩ := bind_ok.mp h
  obtain ⟨rfl, rfl⟩ := get_ok.mp hs
  obtain ⟨_, s, hs, h⟩ := bind_ok.mp h
  obtain ⟨-, rfl⟩ := throwIf_ok.mp hs
  obtain ⟨_, s, hs, h⟩ := bind_ok.mp h
  obtain rfl := set_ok.mp hs
  obtain ⟨rfl, rfl⟩ := pure_ok.mp h
  refine ⟨rfl, .refl _, rfl, rfl, ?_⟩
  unfold feeOrgOf
  simp [hnone]

/-- The lookup of the fee organisation. -/
theorem findFeeOrg_ok {found : Option Organization}
    (h : (o.statement .feeOrg (return (← get).orgs.find? (·.slug = feeOrgSlug)) :
      BooksTx (Option Organization)).run b = .ok (found, b')) :
    found = b.orgs.find? (·.slug = feeOrgSlug) ∧ b' = b := by
  obtain ⟨-, h⟩ := statement_ok.mp h
  obtain ⟨t, s, hs, h⟩ := bind_ok.mp h
  obtain ⟨rfl, rfl⟩ := get_ok.mp hs
  obtain ⟨rfl, rfl⟩ := pure_ok.mp h
  exact ⟨rfl, rfl⟩

/-- Inside the transaction. -/
theorem ensureFeeRevenueOrg_ok {org : String}
    (h : (ensureFeeRevenueOrg id o cfg : BooksTx String).run b = .ok (org, b')) :
    org = feeOrgOf o cfg b ∧ Quiet o cfg b b' := by
  unfold ensureFeeRevenueOrg at h
  dsimp only [id] at h
  split_ifs at h with henv
  · obtain ⟨rfl, rfl⟩ := pure_ok.mp h
    refine ⟨?_, .refl ..⟩
    unfold feeOrgOf
    rw [if_pos henv]
  · obtain ⟨found, s, hs, h⟩ := bind_ok.mp h
    obtain ⟨rfl, rfl⟩ := findFeeOrg_ok hs
    obtain ⟨id, s', hs', h⟩ := bind_ok.mp h
    have hid : id = feeOrgOf o cfg s ∧ Quiet o cfg s s' := by
      unfold feeOrgOr at hs'
      unfold feeOrgOf
      rw [if_neg henv]
      cases hfind : s.orgs.find? (·.slug = feeOrgSlug) with
      | some org =>
          rw [hfind] at hs'
          obtain ⟨rfl, rfl⟩ := pure_ok.mp hs'
          exact ⟨rfl, .refl ..⟩
      | none =>
          rw [hfind] at hs'
          exact insertFeeOrg_ok hfind (statement_ok.mp hs').2
    obtain ⟨w, s'', hs'', h⟩ := bind_ok.mp h
    obtain ⟨rfl, rfl⟩ := pure_ok.mp h
    obtain ⟨-, -, -, hquiet⟩ := ensureWallet_ok (statement_ok.mp hs'').2
    exact ⟨hid.1, hid.2.trans hquiet⟩

/-- What the fee of a transfer can do: nothing, when none is charged or its record is there, or
the two legs. -/
theorem recordTransferFee_ok {payer : String} {feeId : Option String}
    (h : (recordTransferFee o cfg p payer).run b = .ok (feeId, b')) :
    b'.transfers = b.transfers ∧
      ((p.quote.feeCharged = false ∧ b'.ledger = b.ledger) ∨
        (p.quote.feeCharged = true ∧ (∃ r ∈ b.fees, r.idempotencyKey = p.feeKey o) ∧
          b'.ledger = b.ledger) ∨
        (p.quote.feeCharged = true ∧ (∀ r ∈ b.fees, r.idempotencyKey ≠ p.feeKey o) ∧
          ∃ revenue l r, o.uuid.read (feeOrgOf o cfg b) = some revenue ∧ SameRows b.ledger l ∧
            (applyDayfiTransactionFee (feeParams o p payer revenue)).run l =
              .ok (r, b'.ledger))) := by
  unfold recordTransferFee at h
  split_ifs at h with hcharged
  · obtain ⟨rfl, rfl⟩ := pure_ok.mp h
    exact ⟨rfl, .inl ⟨hcharged, rfl⟩⟩
  · have hyes : p.quote.feeCharged = true := by simpa using hcharged
    obtain ⟨found, s, hs, h⟩ := bind_ok.mp h
    obtain ⟨-, hs⟩ := statement_ok.mp hs
    obtain ⟨t, s', hs', hs⟩ := bind_ok.mp hs
    obtain ⟨rfl, rfl⟩ := get_ok.mp hs'
    obtain ⟨rfl, rfl⟩ := pure_ok.mp hs
    cases hfind : b.fees.find? (·.idempotencyKey = p.feeKey o) with
    | some fee =>
        rw [hfind] at h
        obtain ⟨rfl, rfl⟩ := pure_ok.mp h
        have hkey : fee.idempotencyKey = p.feeKey o := by simpa using List.find?_some hfind
        exact ⟨rfl, .inr (.inl ⟨hyes, ⟨fee, List.mem_of_find?_eq_some hfind, hkey⟩, rfl⟩)⟩
    | none =>
        rw [hfind] at h
        have hfresh : ∀ r ∈ b.fees, r.idempotencyKey ≠ p.feeKey o := by
          simpa [List.find?_eq_none] using hfind
        obtain ⟨org, s, hs, h⟩ := bind_ok.mp h
        obtain ⟨rfl, hquiet⟩ := ensureFeeRevenueOrg_ok hs
        obtain ⟨id, s', hs', h⟩ := bind_ok.mp h
        obtain ⟨rfl, rfl⟩ := pure_ok.mp h
        unfold chargeFee at hs'
        obtain ⟨revenue, t, ht, h⟩ := bind_ok.mp hs'
        obtain ⟨hrevenue, rfl⟩ := readUuid_ok.mp ht
        obtain ⟨_, t, ht, h⟩ := bind_ok.mp h
        have hinsert : t.ledger = s.ledger ∧ t.transfers = s.transfers := by
          have ht := (statement_ok.mp ht).2
          unfold insertFee at ht
          obtain ⟨u, v, hv, ht⟩ := bind_ok.mp ht
          obtain ⟨rfl, rfl⟩ := get_ok.mp hv
          obtain ⟨_, v, hv, ht⟩ := bind_ok.mp ht
          obtain ⟨-, rfl⟩ := throwIf_ok.mp hv
          obtain ⟨_, v, hv, ht⟩ := bind_ok.mp ht
          obtain ⟨-, rfl⟩ := throwIf_ok.mp hv
          obtain ⟨_, v, hv, ht⟩ := bind_ok.mp ht
          obtain ⟨-, rfl⟩ := throwIf_ok.mp hv
          obtain ⟨_, v, hv, ht⟩ := bind_ok.mp ht
          obtain ⟨-, rfl⟩ := throwIf_ok.mp hv
          obtain rfl := set_ok.mp ht
          exact ⟨rfl, rfl⟩
        obtain ⟨posted, u, hu, h⟩ := bind_ok.mp h
        obtain ⟨l, hl, rfl⟩ := onLedger_ok.mp (statement_ok.mp hu).2
        rw [hinsert.1] at hl
        have hlast : s'.ledger = l ∧ s'.transfers = t.transfers := by
          cases posted with
          | none =>
              obtain ⟨-, rfl⟩ := pure_ok.mp h
              exact ⟨rfl, rfl⟩
          | some pair =>
              obtain ⟨_, v, hv, h⟩ := bind_ok.mp h
              obtain ⟨-, rfl⟩ := pure_ok.mp h
              obtain rfl := modify_ok.mp (statement_ok.mp hv).2
              exact ⟨rfl, rfl⟩
        refine ⟨?_, .inr (.inr ⟨hyes, hfresh, revenue, s.ledger, posted, hrevenue, hquiet.ledger,
          ?_⟩)⟩
        · rw [hlast.2, hinsert.2, hquiet.transfers]
        · rw [hlast.1]
          exact hl

end statements

/-! ### The transaction of a transfer -/

section transaction

variable {o : Outside} {cfg : FeeSettings} {p : Prepared} {b b' : Books} {row : TransferRow}

/-- The two organisations a transfer is inserted for differ, and its id is new. -/
theorem insertTransfer_ok (h : (insertTransfer o p).run b = .ok (row, b')) :
    o.uuid.read p.senderOrgId = some row.senderOrgId ∧
      o.uuid.read p.recipientOrgId = some row.recipientOrgId ∧
      row.senderOrgId ≠ row.recipientOrgId ∧ row.environment = p.environment ∧
      row.id = o.transferGroupId ∧ (∀ r ∈ b.transfers, r.id ≠ o.transferGroupId) ∧
      b' = { b with transfers := row :: b.transfers } := by
  unfold insertTransfer at h
  obtain ⟨sender, s, hs, h⟩ := bind_ok.mp h
  obtain ⟨hsender, rfl⟩ := readUuid_ok.mp hs
  obtain ⟨recipient, s, hs, h⟩ := bind_ok.mp h
  obtain ⟨hrecipient, rfl⟩ := readUuid_ok.mp hs
  obtain ⟨_, s, hs, h⟩ := bind_ok.mp h
  obtain ⟨hcheck, rfl⟩ := lift_ok.mp hs
  obtain ⟨t, s, hs, h⟩ := bind_ok.mp h
  obtain ⟨rfl, rfl⟩ := get_ok.mp hs
  obtain ⟨_, s, hs, h⟩ := bind_ok.mp h
  obtain ⟨hclash, rfl⟩ := throwIf_ok.mp hs
  obtain ⟨_, s, hs, h⟩ := bind_ok.mp h
  obtain ⟨-, rfl⟩ := throwIf_ok.mp hs
  obtain ⟨_, s, hs, h⟩ := bind_ok.mp h
  obtain rfl := set_ok.mp hs
  obtain ⟨rfl, rfl⟩ := pure_ok.mp h
  refine ⟨hsender, hrecipient, ?_, rfl, rfl, ?_, rfl⟩
  · unfold checkTransfer at hcheck
    split_ifs at hcheck with hlong hfits hvalues
    exact fun hsame => hvalues (.inr hsame)
  · intro r hr hid
    refine hclash (List.any_eq_true.mpr ⟨r, hr, ?_⟩)
    unfold TransferRow.clashes
    simp [hid]

theorem insertTransaction_ok {r : TransactionRow} {u : Unit}
    (h : (insertTransaction r).run b = .ok (u, b')) :
    b' = { b with transactions := r :: b.transactions } := by
  unfold insertTransaction at h
  obtain ⟨t, s, hs, h⟩ := bind_ok.mp h
  obtain ⟨rfl, rfl⟩ := get_ok.mp hs
  obtain ⟨_, s, hs, h⟩ := bind_ok.mp h
  obtain ⟨-, rfl⟩ := throwIf_ok.mp hs
  obtain ⟨_, s, hs, h⟩ := bind_ok.mp h
  obtain ⟨-, rfl⟩ := throwIf_ok.mp hs
  obtain ⟨_, s, hs, h⟩ := bind_ok.mp h
  obtain ⟨-, rfl⟩ := throwIf_ok.mp hs
  exact (set_ok.mp h).symm

/-- What the committed transaction of a transfer did to the ledger. -/
structure Transferred (o : Outside) (cfg : FeeSettings) (p : Prepared) (b b' : Books)
    (row : TransferRow) : Prop where
  sender : o.uuid.read p.senderOrgId = some row.senderOrgId
  recipient : o.uuid.read p.recipientOrgId = some row.recipientOrgId
  distinct : row.senderOrgId ≠ row.recipientOrgId
  environment : row.environment = p.environment
  made : ∃ r ∈ b'.transfers, r.id = o.transferGroupId
  new : ∀ r ∈ b.transfers, r.id ≠ o.transferGroupId
  ledger : ∃ posted l,
    (transferBody (transferParams o p row.senderOrgId row.recipientOrgId)).run b.ledger =
        .ok (posted, l) ∧
      ((p.quote.feeCharged = false ∧ b'.ledger = l) ∨
        (p.quote.feeCharged = true ∧ (∃ r ∈ b.fees, r.idempotencyKey = p.feeKey o) ∧
          b'.ledger = l) ∨
        (p.quote.feeCharged = true ∧ (∀ r ∈ b.fees, r.idempotencyKey ≠ p.feeKey o) ∧
          ∃ revenue l' r, o.uuid.read (feeOrgOf o cfg b) = some revenue ∧ SameRows l l' ∧
            (applyDayfiTransactionFee (feeParams o p row.senderOrgId revenue)).run l' =
              .ok (r, b'.ledger)))

theorem transferTx_ok (h : (transferTx o cfg p).run b = .ok (row, b')) :
    Transferred o cfg p b b' row := by
  unfold transferTx at h
  obtain ⟨inserted, s, hs, h⟩ := bind_ok.mp h
  obtain ⟨hsender, hrecipient, hdistinct, henv, hid, hnew, rfl⟩ :=
    insertTransfer_ok (statement_ok.mp hs).2
  obtain ⟨_, s, hs, h⟩ := bind_ok.mp h
  obtain rfl := insertTransaction_ok (statement_ok.mp hs).2
  obtain ⟨_, s, hs, h⟩ := bind_ok.mp h
  obtain rfl := insertTransaction_ok (statement_ok.mp hs).2
  obtain ⟨posted, s, hs, h⟩ := bind_ok.mp h
  obtain ⟨l, hl, rfl⟩ := onLedger_ok.mp (statement_ok.mp hs).2
  obtain ⟨feeId, t, ht, h⟩ := bind_ok.mp h
  obtain ⟨htransfers, hfee⟩ := recordTransferFee_ok ht
  obtain ⟨done, s', hs', h⟩ := bind_ok.mp h
  have hupdate := (statement_ok.mp hs').2
  unfold updateTransfer at hupdate
  obtain ⟨_, v, hv, hupdate⟩ := bind_ok.mp hupdate
  obtain rfl := modify_ok.mp hv
  obtain ⟨rfl, rfl⟩ := pure_ok.mp hupdate
  obtain ⟨rfl, rfl⟩ := pure_ok.mp (statement_ok.mp h).2
  refine ⟨hsender, hrecipient, hdistinct, henv, ?_, hnew, posted, l, hl, hfee⟩
  refine ⟨_, List.mem_map.mpr ⟨inserted, ?_, if_pos rfl⟩, hid⟩
  rw [htransfers]
  exact List.mem_cons_self

end transaction

/-! ### What the transaction does to the wallets -/

@[simp] theorem normalizeEnv_envText (env : Environment) : normalizeEnv (envText env) = env := by
  cases env <;> rfl

theorem parts_sum {S : Finset WalletKey} {k₀ : WalletKey} {a : ℤ} (h : k₀ ∈ S) :
    ∑ k ∈ S, (if k = k₀ then a else 0) = a := by
  rw [Finset.sum_ite_eq' S k₀ (fun _ => a), if_pos h]

/-- The formula of a transfer whose fee goes to a wallet other than the sender's, or that has
none. -/
theorem settled_of_changes {w : Parties} {l l' : Ledger} (hne : w.sender ≠ w.recipient)
    (hrows : l'.wallets w.sender ≠ none ∧ l'.wallets w.recipient ≠ none)
    (hfee : w.request.quote.feeAmount = 0 ∨
      ∃ v, w.revenue = some v ∧ v ≠ w.sender ∧ l'.wallets v ≠ none)
    (hreceived : ∀ k, received l l' k =
      if some k = w.revenue then w.request.quote.feeAmount else 0)
    (hchange : ∀ k, change l l' k =
      (if k = w.recipient then w.request.quote.transferAmount
        else if k = w.sender then -w.request.quote.transferAmount else 0) +
      (if some k = w.revenue then w.request.quote.feeAmount
        else if k = w.sender then -w.request.quote.feeAmount else 0)) :
    Settled w l l' := by
  have hsplit : ∀ k, change l l' k =
      (if k = w.recipient then w.request.quote.transferAmount else 0) +
        (if k = w.sender then -(w.request.quote.transferAmount + w.request.quote.feeAmount)
          else 0) +
        received l l' k := by
    intro k
    rw [hchange, hreceived]
    rcases hfee with hzero | ⟨v, hv, hvs, -⟩
    · rw [hzero]
      by_cases hr : k = w.recipient
      · subst hr
        simp [Ne.symm hne]
      · by_cases hs : k = w.sender <;> simp [hr, hs, hne]
    · rw [hv]
      by_cases hr : k = w.recipient
      · subst hr
        simp [Ne.symm hne]
      · by_cases hs : k = w.sender
        · subst hs
          simp [hne, Ne.symm hvs]
          ring
        · simp [hr, hs]
  refine ⟨?_, ?_, ?_, ?_, hreceived⟩
  · intro S hS
    have hzero : ∑ k ∈ S, change l l' k = 0 := by
      simp only [hsplit, Finset.sum_add_distrib, parts_sum (hS _ hrows.1),
        parts_sum (hS _ hrows.2), hreceived]
      rcases hfee with hzero | ⟨v, hv, -, hrow⟩
      · simp [hzero]
      · simp only [hv, Option.some.injEq, parts_sum (hS _ hrow)]
        ring
    have hsub : ∑ k ∈ S, change l l' k =
        ∑ k ∈ S, (l'.row k).balance.total - ∑ k ∈ S, (l.row k).balance.total := by
      unfold change
      rw [Finset.sum_sub_distrib]
    omega
  · simp [hsplit, hne]
  · simp [hsplit, Ne.symm hne]
  · intro k hs hr
    simp [hsplit, hs, hr]

/-! ### The legs -/

/-- A wallet that can take `x` more and stay exact. -/
structure Fits (l : Ledger) (k : WalletKey) (x : ℤ) : Prop where
  inRange : (l.row k).balance.InRange
  bound : (l.row k).balance.total + x < exactLimit

section legs

variable {l l' : Ledger} {k : WalletKey} {mv : AvailableMove} {a x : ℤ}

theorem SameRows.fits (h : SameRows l l') (hk : Fits l k x) : Fits l' k x := by
  obtain ⟨h1, h2⟩ := hk
  rw [← h.row] at h1 h2
  exact ⟨h1, h2⟩

/-- After a move every wallet still fits what it had room for besides. -/
theorem fits_moved (hmoves : mv.Moves l) (h : ExactMove mv l a) (hx : 0 ≤ x)
    (hk : Fits l k (a + x)) : Fits (mv.moved l) k x := by
  have hbound := hk.bound
  have hpos := h.pos
  have hrow : ((mv.moved l).row k).balance =
      if k = mv.dst then (mv.dstRow l).balance
      else if k = mv.src then (mv.srcRow l).balance else (l.row k).balance := by
    unfold AvailableMove.moved
    simp only [Ledger.row_insert, Ledger.row_setRow_eq_ite]
    split_ifs <;> rfl
  have hnonneg : ((mv.moved l).row k).balance.Nonneg := by
    rw [hrow]
    split_ifs
    · exact hmoves.dstNonneg
    · exact hmoves.srcNonneg
    · exact hk.inRange.nonneg
  have htotal : ((mv.moved l).row k).balance.total ≤ (l.row k).balance.total + a := by
    rw [hrow]
    split_ifs with hdst hsrc
    · rw [h.dst, hdst]
      simp only [Buckets.total]
      omega
    · rw [h.src, hsrc]
      simp only [Buckets.total]
      omega
    · omega
  exact ⟨⟨hnonneg, by omega⟩, by omega⟩

/-- A found pair of movements. -/
theorem bothPosted_of_find {debitKey creditKey : String} {debit credit : Movement}
    (hdebit : findMovementByIdempotency l (trim debitKey) = some debit)
    (hcredit : findMovementByIdempotency l (trim creditKey) = some credit) :
    BothPosted l debitKey creditKey :=
  ⟨by rw [hdebit]; rfl, by rw [hcredit]; rfl⟩

theorem not_bothPosted_of_fresh {debitKey creditKey : String}
    (h : findMovementByIdempotency l (trim debitKey) = none) :
    ¬ BothPosted l debitKey creditKey := by
  rintro ⟨hsome, -⟩
  rw [h] at hsome
  cases hsome

/-- The principal: both legs were there, or exactly the amount moved. -/
theorem principal_cases {p : TransferParams} {posted : PostedPair} (hx : 0 ≤ x)
    (hamount : p.amount = some (usdc a)) (hsender : Fits l p.sender (a + x))
    (hrecipient : Fits l p.recipient (a + x))
    (h : (transferBody p).run l = .ok (posted, l')) :
    (BothPosted l p.debitIdempotencyKey p.creditIdempotencyKey ∧ l' = l) ∨
      (¬ BothPosted l p.debitIdempotencyKey p.creditIdempotencyKey ∧
        ∃ amount, (p.move amount).Moves l ∧ ExactMove (p.move amount) l a ∧
          l' = (p.move amount).moved l) := by
  rcases transferBody_ok h with ⟨hdebit, hcredit, rfl⟩ | ⟨amount, ht, -, rfl⟩
  · exact .inl ⟨bothPosted_of_find hdebit hcredit, rfl⟩
  · have hparsed := ht.parsed
    rw [hamount] at hparsed
    have hbound : (l.row p.recipient).balance.total + a < exactLimit := by
      have := hrecipient.bound
      omega
    obtain ⟨hnonneg, hnum⟩ := parseAmount_usdc hparsed (le_of_total_add hrecipient.inRange hbound)
    exact .inr ⟨not_bothPosted_of_fresh ht.debitKeyFresh, amount, ht.moves,
      ht.moves.exact hsender.inRange hrecipient.inRange hnum hnonneg hbound, rfl⟩

/-- A positive fee is posted or was. -/
theorem applyFee_ne_none {p : FeeParams} {amount : ℚ} {r : Option PostedPair}
    (hparsed : parseAmount p.amount = .ok amount) (hpos : 0 < amount)
    (h : (applyDayfiTransactionFee p).run l = .ok (r, l')) : r ≠ none := by
  rintro rfl
  unfold applyDayfiTransactionFee at h
  obtain ⟨amount', s, hs, h⟩ := bind_ok.mp h
  obtain ⟨hp, rfl⟩ := lift_ok.mp hs
  rw [hparsed] at hp
  cases hp
  rw [if_neg (not_le.mpr hpos)] at h
  obtain ⟨_, s, hs, h⟩ := bind_ok.mp h
  obtain ⟨-, rfl⟩ := throwIf_ok.mp hs
  obtain ⟨_, s, hs, h⟩ := bind_ok.mp h
  obtain ⟨rfl, rfl⟩ := get_ok.mp hs
  split at h
  · obtain ⟨hr, -⟩ := pure_ok.mp h
    cases hr
  · obtain ⟨_, s, -, h⟩ := bind_ok.mp h
    obtain ⟨_, s, -, h⟩ := bind_ok.mp h
    obtain ⟨_, s, -, h⟩ := bind_ok.mp h
    obtain ⟨_, s, -, h⟩ := bind_ok.mp h
    obtain ⟨_, s, -, h⟩ := bind_ok.mp h
    obtain ⟨_, s, -, h⟩ := bind_ok.mp h
    obtain ⟨hr, -⟩ := pure_ok.mp h
    cases hr

/-- The fee: both legs were there, or exactly the fee moved. -/
theorem fee_cases {p : FeeParams} {r : Option PostedPair} (ha : 0 < a)
    (hamount : p.amount = some (usdc a)) (hpayer : Fits l p.payer 0) (hrevenue : Fits l p.revenue a)
    (h : (applyDayfiTransactionFee p).run l = .ok (r, l')) :
    (BothPosted l p.debitIdempotencyKey p.creditIdempotencyKey ∧ l' = l) ∨
      (¬ BothPosted l p.debitIdempotencyKey p.creditIdempotencyKey ∧
        ∃ amount, ExactMove (p.move amount) l a ∧ l' = (p.move amount).moved l) := by
  have hle := le_of_total_add hrevenue.inRange hrevenue.bound
  rcases applyDayfiTransactionFee_ok h with ⟨rfl, rfl⟩ | ⟨pair, rfl, hdebit, hcredit, rfl⟩ |
    ⟨amount, hcharges, -, rfl⟩
  · exfalso
    have hnext := h
    unfold applyDayfiTransactionFee at hnext
    obtain ⟨amount, s, hs, -⟩ := bind_ok.mp hnext
    obtain ⟨hparsed, rfl⟩ := lift_ok.mp hs
    have husdc := hparsed
    rw [hamount] at husdc
    obtain ⟨-, rfl⟩ := parseAmount_usdc husdc hle
    have hzero : num 0 = 0 := by
      unfold num
      simp [nearest_zero]
    have hnum : num 0 < num a :=
      (num_lt_num_iff (by decide) (by rw [abs_of_pos ha]; exact hle)).mpr ha
    rw [hzero] at hnum
    exact applyFee_ne_none hparsed hnum h rfl
  · exact .inl ⟨bothPosted_of_find hdebit hcredit, rfl⟩
  · have hparsed := hcharges.parsed
    rw [hamount] at hparsed
    obtain ⟨hnonneg, hnum⟩ := parseAmount_usdc hparsed hle
    refine .inr ⟨?_, amount, hcharges.moves.exact hpayer.inRange hrevenue.inRange hnum hnonneg
      hrevenue.bound, rfl⟩
    exact not_bothPosted_of_fresh (keyFresh_of_noClash hcharges.moves.debitFresh)

end legs

section effect

variable {o : Outside} {cfg : FeeSettings} {p : Prepared} {b b' : Books} {row : TransferRow}
  {l l' : Ledger} {k : WalletKey}

/-- No key of a principal is a key of a fee. -/
theorem principalKey_ne_feeKey (s s' : String)
    (hs : s.toList.getLast?.any (fun c => !isSpace c) = true)
    (hs' : s'.toList.getLast?.any (fun c => !isSpace c) = true) :
    trim ("internal_transfer:" ++ p.key o ++ s) ≠ trim (p.feeKey o ++ s') := by
  have hfee : p.feeKey o ++ s' = "transfer:" ++ (p.key o ++ ":fee") ++ s' := by
    unfold Prepared.feeKey
    simp only [String.append_assoc]
  rw [hfee, trim_eq_self (by decide) hs, trim_eq_self (by decide) hs', String.append_assoc,
    String.append_assoc]
  exact append_ne_append_of_heads (by decide) (by decide) _ _

/-- What the principal of a transfer did. -/
inductive PrincipalEffect (o : Outside) (p : Prepared) (w : Parties) (l l' : Ledger) : Prop where
  | replayed (found : BothPosted l (p.debitKey o) (p.creditKey o)) (same : l' = l)
  | moved (own : ¬ BothPosted l (p.debitKey o) (p.creditKey o))
      (change : ∀ k, change l l' k =
        if k = w.recipient then p.quote.transferAmount
        else if k = w.sender then -p.quote.transferAmount else 0)
      (received : ∀ k, received l l' k = 0)
      (active : Active l' w.sender ∧ Active l' w.recipient)

/-- What both cases leave for the fee. -/
structure FeeReady (o : Outside) (p : Prepared) (l l' : Ledger) : Prop where
  fits : ∀ k x, 0 ≤ x → Fits l k (p.quote.transferAmount + x) → Fits l' k x
  feeLegs : BothPosted l' (p.feeKey o ++ ":debit") (p.feeKey o ++ ":revenue") ↔
    BothPosted l (p.feeKey o ++ ":debit") (p.feeKey o ++ ":revenue")

theorem principalEffect (cfg : FeeSettings) (b : Books) {posted : PostedPair}
    {sender recipient : String}
    (ha : 0 < p.quote.transferAmount) (hf : 0 ≤ p.quote.feeAmount)
    (hsender : Fits l (usdcWallet sender p.environment)
      (p.quote.transferAmount + p.quote.feeAmount))
    (hrecipient : Fits l (usdcWallet recipient p.environment)
      (p.quote.transferAmount + p.quote.feeAmount))
    (h : (transferBody (transferParams o p sender recipient)).run l = .ok (posted, l')) :
    PrincipalEffect o p (partiesOf o cfg b p sender recipient) l l' ∧ FeeReady o p l l' := by
  have hwallets : (transferParams o p sender recipient).sender = usdcWallet sender p.environment ∧
      (transferParams o p sender recipient).recipient = usdcWallet recipient p.environment := by
    unfold TransferParams.sender TransferParams.recipient transferParams usdcWallet
    simp
  rcases principal_cases hf rfl (hwallets.1 ▸ hsender) (hwallets.2 ▸ hrecipient) h with
    ⟨hfound, rfl⟩ | ⟨hown, amount, hmoves, hexact, rfl⟩
  · refine ⟨.replayed hfound rfl, ?_, Iff.rfl⟩
    intro k x hx hk
    exact ⟨hk.inRange, by have := hk.bound; omega⟩
  · have hsrc : ((transferParams o p sender recipient).move amount).src =
        (partiesOf o cfg b p sender recipient).sender := hwallets.1
    have hdst : ((transferParams o p sender recipient).move amount).dst =
        (partiesOf o cfg b p sender recipient).recipient := hwallets.2
    refine ⟨.moved hown ?_ ?_ ?_, ?_, ?_⟩
    · intro k
      rw [change_moved hexact, hsrc, hdst]
    · intro k
      exact received_moved rfl rfl
    · rw [← hsrc, ← hdst]
      exact ⟨⟨(moved_wallets _ _).1, (moved_status _ _).trans hmoves.srcActive⟩,
        (moved_wallets _ _).2, (moved_status _ _).trans hmoves.dstActive⟩
    · intro k x hx hk
      exact fits_moved hmoves hexact hx hk
    · have hfind : ∀ s', s'.toList.getLast?.any (fun c => !isSpace c) = true →
          findMovementByIdempotency
              (((transferParams o p sender recipient).move amount).moved l)
              (trim (p.feeKey o ++ s')) =
            findMovementByIdempotency l (trim (p.feeKey o ++ s')) := by
        intro s' hs'
        apply find_moved
        · exact principalKey_ne_feeKey ":debit" s' (by decide) hs'
        · exact principalKey_ne_feeKey ":credit" s' (by decide) hs'
      unfold BothPosted
      rw [hfind ":debit" (by decide), hfind ":revenue" (by decide)]

/-- What the fee of a transfer did. -/
inductive FeeEffect (o : Outside) (b : Books) (p : Prepared) (w : Parties) (l l' : Ledger) :
    Prop where
  | nothing (used : p.quote.feeCharged = true → ¬ FeeUnused o b p)
      (change : ∀ k, change l l' k = 0) (received : ∀ k, received l l' k = 0)
      (keeps : KeepsWallets l l')
  | charged (charged : p.quote.feeCharged = true) (unused : FeeUnused o b p) (v : WalletKey)
      (revenue : w.revenue = some v)
      (change : ∀ k, change l l' k =
        if k = v then p.quote.feeAmount else if k = w.sender then -p.quote.feeAmount else 0)
      (received : ∀ k, received l l' k = if k = v then p.quote.feeAmount else 0)
      (keeps : KeepsWallets l l') (row : l'.wallets v ≠ none)

/-- Rows that read the same have the same movements under a key. -/
theorem SameRows.bothPosted (h : SameRows l l') (debitKey creditKey : String) :
    BothPosted l' debitKey creditKey ↔ BothPosted l debitKey creditKey := by
  unfold BothPosted findMovementByIdempotency
  rw [h.movements]

theorem feeEffect {sender recipient : String} (hready : FeeReady o p b.ledger l)
    (hsender : Fits b.ledger (usdcWallet sender p.environment) p.quote.transferAmount)
    (hrevenue : ∀ v, (partiesOf o cfg b p sender recipient).revenue = some v →
      Fits b.ledger v (p.quote.transferAmount + p.quote.feeAmount))
    (h : (p.quote.feeCharged = false ∧ b'.ledger = l) ∨
        (p.quote.feeCharged = true ∧ (∃ r ∈ b.fees, r.idempotencyKey = p.feeKey o) ∧
          b'.ledger = l) ∨
        (p.quote.feeCharged = true ∧ (∀ r ∈ b.fees, r.idempotencyKey ≠ p.feeKey o) ∧
          ∃ revenue l' r, o.uuid.read (feeOrgOf o cfg b) = some revenue ∧ SameRows l l' ∧
            (applyDayfiTransactionFee (feeParams o p sender revenue)).run l' =
              .ok (r, b'.ledger))) :
    FeeEffect o b p (partiesOf o cfg b p sender recipient) l b'.ledger := by
  rcases h with ⟨hno, heq⟩ | ⟨hyes, ⟨r, hr, hkey⟩, heq⟩ | ⟨hyes, hfresh, revenue, l₁, r, hread,
    hsame, hrun⟩
  · rw [heq]
    exact .nothing (fun hyes => by simp [hno] at hyes) (fun k => (SameRows.refl l).change)
      (fun k => (SameRows.refl l).received) (SameRows.refl l).keepsWallets
  · rw [heq]
    exact .nothing (fun _ hunused => hunused.record r hr hkey) (fun k => (SameRows.refl l).change)
      (fun k => (SameRows.refl l).received) (SameRows.refl l).keepsWallets
  · have hpos : 0 < p.quote.feeAmount := by
      simpa [FeeQuote.feeCharged] using hyes
    have hw : (partiesOf o cfg b p sender recipient).revenue =
        some (usdcWallet revenue p.environment) := by
      unfold partiesOf
      simp [hread]
    have hwallets : (feeParams o p sender revenue).payer = usdcWallet sender p.environment ∧
        (feeParams o p sender revenue).revenue = usdcWallet revenue p.environment := by
      unfold FeeParams.payer FeeParams.revenue feeParams usdcWallet
      simp
    have hpayer : Fits l₁ (feeParams o p sender revenue).payer 0 := by
      rw [hwallets.1]
      exact hsame.fits (hready.fits _ 0 le_rfl (by simpa using hsender))
    have hrev : Fits l₁ (feeParams o p sender revenue).revenue p.quote.feeAmount := by
      rw [hwallets.2]
      exact hsame.fits (hready.fits _ _ hpos.le (hrevenue _ hw))
    rcases fee_cases hpos rfl hpayer hrev hrun with ⟨hfound, heq⟩ | ⟨hown, amount, hexact, heq⟩
    · rw [heq]
      refine .nothing (fun _ hunused => hunused.legs ?_) (fun k => hsame.change)
        (fun k => hsame.received) hsame.keepsWallets
      rw [← hready.feeLegs, ← hsame.bothPosted]
      exact hfound
    · have hsrc : ((feeParams o p sender revenue).move amount).src =
          (partiesOf o cfg b p sender recipient).sender := hwallets.1
      have hdst : ((feeParams o p sender revenue).move amount).dst =
          usdcWallet revenue p.environment := hwallets.2
      have hunused : FeeUnused o b p := by
        refine ⟨hfresh, fun hfound => hown ?_⟩
        rw [← hready.feeLegs, ← hsame.bothPosted] at hfound
        exact hfound
      rw [heq]
      refine .charged hyes hunused _ hw ?_ ?_ ?_ ?_
      · intro k
        rw [← change_add l₁, hsame.change, change_moved hexact, hsrc, hdst, zero_add]
      · intro k
        rw [← received_add l₁, hsame.received, received_feeMoved hexact rfl rfl, hdst,
          zero_add]
      · exact hsame.keepsWallets.trans (moved_keepsWallets _)
      · rw [← hdst]
        exact (moved_wallets _ _).2

/-- The sender pays the amount and the fee, less what it receives as fee revenue. -/
def SenderPays (w : Parties) (l l' : Ledger) : Prop :=
  change l l' w.sender =
    -(w.request.quote.transferAmount + w.request.quote.feeAmount) + received l l' w.sender

/-- The request is settled between two wallets that take part in transfers. -/
structure Booked (w : Parties) (l l' : Ledger) : Prop where
  settled : Settled w l l'
  sender : Active l' w.sender
  recipient : Active l' w.recipient

/-- In the committed transaction the sender pays only with legs of its own, and with these the
request is settled. -/
theorem Transferred.books (h : Transferred o cfg p b b' row)
    (ha : 0 < p.quote.transferAmount) (hf : 0 ≤ p.quote.feeAmount)
    (hrange : InRange b (partiesOf o cfg b p row.senderOrgId row.recipientOrgId)) :
    (SenderPays (partiesOf o cfg b p row.senderOrgId row.recipientOrgId) b.ledger b'.ledger →
        OwnLegs o b (partiesOf o cfg b p row.senderOrgId row.recipientOrgId)) ∧
      (OwnLegs o b (partiesOf o cfg b p row.senderOrgId row.recipientOrgId) →
        Booked (partiesOf o cfg b p row.senderOrgId row.recipientOrgId) b.ledger b'.ledger) := by
  obtain ⟨posted, l, hrun, hfee⟩ := h.ledger
  have hfits : ∀ k, k = usdcWallet row.senderOrgId p.environment ∨
      k = usdcWallet row.recipientOrgId p.environment ∨
      some k = (partiesOf o cfg b p row.senderOrgId row.recipientOrgId).revenue →
      Fits b.ledger k (p.quote.transferAmount + p.quote.feeAmount) :=
    fun k hk => ⟨(hrange k hk).1, (hrange k hk).2⟩
  obtain ⟨hprincipal, hready⟩ := principalEffect cfg b ha hf
    (hfits _ (.inl rfl)) (hfits _ (.inr (.inl rfl))) hrun
  have hsender : Fits b.ledger (usdcWallet row.senderOrgId p.environment)
      p.quote.transferAmount := by
    have hs := hfits _ (.inl rfl)
    exact ⟨hs.inRange, by have := hs.bound; omega⟩
  have heffect := feeEffect hready hsender (fun v hv => hfits v (.inr (.inr hv.symm))) hfee
  have hquote : (partiesOf o cfg b p row.senderOrgId row.recipientOrgId).request.quote =
      p.quote := rfl
  set w := partiesOf o cfg b p row.senderOrgId row.recipientOrgId with hw
  have hne : w.sender ≠ w.recipient := by
    intro hsame
    exact h.distinct (congrArg WalletKey.orgId hsame)
  have hcharged : p.quote.feeCharged = true ↔ 0 < p.quote.feeAmount := by
    simp [FeeQuote.feeCharged]
  unfold SenderPays
  rw [← change_add l, ← received_add l, hquote]
  cases hprincipal with
  | replayed hfound hsame =>
      subst hsame
      refine ⟨fun hsum => ?_, fun hown => absurd hfound hown.principal⟩
      rw [(SameRows.refl b.ledger).change, (SameRows.refl b.ledger).received] at hsum
      cases heffect with
      | nothing _ hchange hreceived _ =>
          rw [hchange, hreceived] at hsum
          omega
      | charged _ _ v _ hchange hreceived _ _ =>
          rw [hchange, hreceived] at hsum
          split_ifs at hsum <;> omega
  | moved hown hchange hreceived hactive =>
      have hsender : change b.ledger l w.sender = -p.quote.transferAmount := by
        rw [hchange, if_neg hne, if_pos rfl]
      rw [hsender, hreceived]
      cases heffect with
      | nothing hused hchange' hreceived' hkeeps =>
          have hactive' := And.intro (hkeeps.active hactive.1) (hkeeps.active hactive.2)
          constructor
          · intro hsum
            rw [hchange', hreceived'] at hsum
            refine ⟨hown, fun hyes => ?_⟩
            have := hcharged.mp hyes
            omega
          · intro hlegs
            have hzero : p.quote.feeAmount = 0 := by
              by_contra hnz
              have hyes := hcharged.mpr (by omega)
              exact hused hyes (hlegs.fee hyes).1
            refine ⟨settled_of_changes hne ⟨hactive'.1.row, hactive'.2.row⟩ (.inl hzero) ?_ ?_,
              hactive'.1, hactive'.2⟩
            · intro k
              rw [← received_add l, hreceived, hreceived', hquote]
              simp [hzero]
            · intro k
              rw [← change_add l, hchange, hchange', hquote]
              simp [hzero]
      | charged hyes hunused v hv hchange' hreceived' hkeeps hrow =>
          have hpos := hcharged.mp hyes
          have hactive' := And.intro (hkeeps.active hactive.1) (hkeeps.active hactive.2)
          constructor
          · intro hsum
            refine ⟨hown, fun _ => ⟨hunused, ?_⟩⟩
            intro halias
            have hvs : v = w.sender := Option.some.inj (hv.symm.trans halias)
            rw [hchange', hreceived', if_pos hvs.symm, if_pos hvs.symm] at hsum
            omega
          · intro hlegs
            have hvs : v ≠ w.sender := fun heq => (hlegs.fee hyes).2 (heq ▸ hv)
            refine ⟨settled_of_changes hne ⟨hactive'.1.row, hactive'.2.row⟩
              (.inr ⟨v, hv, hvs, hrow⟩) ?_ ?_, hactive'.1, hactive'.2⟩
            · intro k
              rw [← received_add l, hreceived, hreceived', hv, hquote, zero_add]
              simp
            · intro k
              rw [← change_add l, hchange, hchange', hv, hquote]
              simp

end effect

end DayfiBackend.Infra.InternalTransfer
