import DayfiBackend.Infra.Exact

/-!
# Conservation of the ledger over whole runs

A run is a list of calls of the eight operations, each committed or failed before the next begins
(row locks serialise them). Over it every bucket stays non-negative, equals what the wallet's last
movement recorded, and the total of a wallet is the sum of its inflows minus that of its outflows
(`Conserved`). The balances pass through binary64 on the way, so this holds as long as no call
raises the total of a wallet to `exactLimit` or beyond; a small credit on a large balance is lost.

The argument is one step: a call in range is an exact posting (`Infra.Exact`), and an exact posting
moves the total of a wallet by its inflow or outflow.
-/

namespace DayfiBackend.Infra

open DayfiBackend.Found.Binary64 DayfiBackend.Found.Keys DayfiBackend.Found.Tx

/-! ### Runs -/

/-- A call of the ledger. -/
inductive LedgerCall where
  | post (op : LedgerOp) (p : LedgerWriteParams)
  | transfer (p : TransferParams)
  deriving DecidableEq, Repr

/-- The ledger a call leaves. -/
def LedgerCall.run : LedgerCall → Ledger → Ledger
  | post op p, l => (postLedger op.rule p l).2
  | transfer p, l => (transferAvailableBalance p l).2

/-- The ledger after a list of calls. -/
def Ledger.runCalls (l : Ledger) (calls : List LedgerCall) : Ledger :=
  calls.foldl (fun l c => c.run l) l

/-- A property of every call of a run, stated on the ledger before the call. -/
def Ledger.AlongCalls (φ : Ledger → LedgerCall → Prop) : Ledger → List LedgerCall → Prop
  | _, [] => True
  | l, c :: cs => φ l c ∧ AlongCalls φ (c.run l) cs

/-- Wallets just created and no movement. -/
structure Ledger.Fresh (l : Ledger) : Prop where
  noMovements : l.movements = []
  zero : ∀ k w, l.wallets k = some w → w.balance = ⟨0, 0, 0⟩

/-! ### What is conserved -/

/-- The postings that bring money into a wallet. -/
def Posting.isInflow : Posting → Bool
  | .credit | .creditPending | .transferIn | .feeRevenue => true
  | _ => false

/-- The postings that take money out of a wallet. -/
def Posting.isOutflow : Posting → Bool
  | .debit | .finalize | .transferOut | .feeDebit => true
  | _ => false

/-- The summed amounts of the movements of a wallet of some kinds. -/
def sumOf (ms : List Movement) (k : WalletKey) (kinds : Posting → Bool) : ℤ :=
  ((ms.filter fun m => m.wallet = k && kinds m.posting).map (·.amount)).sum

/-- The balances the last movement of a wallet recorded; zero before the first. -/
def lastAfter (ms : List Movement) (k : WalletKey) : Buckets ℤ :=
  ((ms.find? (·.wallet = k)).map (·.after)).getD ⟨0, 0, 0⟩

/-- No negative bucket, balances as last recorded, and the total accounted for. -/
structure ConservedAt (ms : List Movement) (k : WalletKey) (b : Buckets ℤ) : Prop where
  nonneg : b.Nonneg
  last : b = lastAfter ms k
  total : b.total = sumOf ms k Posting.isInflow - sumOf ms k Posting.isOutflow

/-- Every wallet is conserved. -/
def Conserved (l : Ledger) : Prop :=
  ∀ k w, l.wallets k = some w → ConservedAt l.movements k w.balance

/-! ### The runs considered -/

/-- The amount of a call is a decimal of at most seven places. -/
def LedgerCall.ExactAmount : LedgerCall → Prop
  | post _ p => ∃ a : ℤ, p.amount = some (usdc a)
  | transfer p => ∃ a : ℤ, p.amount = some (usdc a)

/-- A call under unused keys keeps the total of the wallet it credits below `exactLimit`. -/
def LedgerCall.InRange (l : Ledger) : LedgerCall → Prop
  | post op p => op.adds = true → findMovementByIdempotency l p.key = none →
      ∀ a : ℤ, p.amount = some (usdc a) → (l.row p.wallet).balance.total + a < exactLimit
  | transfer p => findMovementByIdempotency l (trim p.debitIdempotencyKey) = none →
      findMovementByIdempotency l (trim p.creditIdempotencyKey) = none →
      ∀ a : ℤ, p.amount = some (usdc a) → (l.row p.recipient).balance.total + a < exactLimit

/-! ### One call -/

/-- What a wallet must satisfy for the next call to be exact. -/
structure WalletInv (ms : List Movement) (k : WalletKey) (b : Buckets ℤ) : Prop
    extends ConservedAt ms k b where
  bounded : b.total < exactLimit

theorem WalletInv.inRange {ms : List Movement} {k : WalletKey} {b : Buckets ℤ}
    (h : WalletInv ms k b) : b.InRange := ⟨h.nonneg, h.bounded⟩

/-- Every wallet, created or not, satisfies the invariant. -/
def LedgerInv (l : Ledger) : Prop := ∀ k, WalletInv l.movements k (l.row k).balance

@[simp] theorem sumOf_cons (m : Movement) (ms : List Movement) (k : WalletKey)
    (kinds : Posting → Bool) :
    sumOf (m :: ms) k kinds =
      (if m.wallet = k ∧ kinds m.posting = true then m.amount else 0) + sumOf ms k kinds := by
  unfold sumOf
  by_cases h : m.wallet = k ∧ kinds m.posting = true
  · simp [h.1, h.2]
  · have h' : (decide (m.wallet = k) && kinds m.posting) = false := by simpa using h
    rw [List.filter_cons, h', if_neg h]
    simp

@[simp] theorem lastAfter_cons (m : Movement) (ms : List Movement) (k : WalletKey) :
    lastAfter (m :: ms) k = if m.wallet = k then m.after else lastAfter ms k := by
  unfold lastAfter
  by_cases h : m.wallet = k <;> simp [h]

/-- A movement on another wallet does not touch this one. -/
theorem WalletInv.frame {m : Movement} {ms : List Movement} {k : WalletKey} {b : Buckets ℤ}
    (h : WalletInv ms k b) (hm : m.wallet ≠ k) : WalletInv (m :: ms) k b where
  nonneg := h.nonneg
  last := by
    rw [lastAfter_cons, if_neg hm]
    exact h.last
  total := by
    simp only [sumOf_cons, hm, false_and, if_false, zero_add]
    exact h.total
  bounded := h.bounded

/-- A movement recording the new balances of its wallet, whose amount enters the total by its
kind. -/
theorem WalletInv.record {m : Movement} {ms : List Movement} {k : WalletKey} {b b' : Buckets ℤ}
    (h : WalletInv ms k b) (hm : m.wallet = k) (hafter : m.after = b') (hb : b'.Nonneg)
    (htotal : b'.total = b.total + (if m.posting.isInflow then m.amount else 0) -
      (if m.posting.isOutflow then m.amount else 0))
    (hbound : b'.total < exactLimit) : WalletInv (m :: ms) k b' where
  nonneg := hb
  last := by rw [lastAfter_cons, if_pos hm, hafter]
  total := by
    rw [htotal, h.total, sumOf_cons, sumOf_cons]
    simp only [hm, true_and]
    omega
  bounded := hbound

/-- How the total of the wallet moves. -/
theorem LedgerOp.total_moved (op : LedgerOp) (b : Buckets ℤ) (a : ℤ) :
    (op.rule.moved b a).total = b.total + (if op.rule.posting.isInflow then a else 0) -
      (if op.rule.posting.isOutflow then a else 0) := by
  cases op <;>
    simp only [rule, PostRule.moved, Buckets.total, creditRule, creditPendingRule,
      releasePendingRule, debitRule, lockRule, releaseRule, finalizeRule, BucketMove.sign,
      Posting.isInflow, Posting.isOutflow, if_true, if_false, Bool.false_eq_true] <;> ring

/-- The operations that raise the total are those that post an inflow. -/
theorem LedgerOp.adds_eq (op : LedgerOp) : op.adds = op.rule.posting.isInflow := by
  cases op <;> rfl

/-- An amount that keeps a total in range is in range. -/
theorem le_of_total_add {b : Buckets ℤ} {a : ℤ} (hb : b.InRange)
    (h : b.total + a < exactLimit) : a ≤ exactLimit := by
  obtain ⟨hav, hpe, hlo⟩ := hb.nonneg
  unfold Buckets.total at h
  omega

/-- Posting keeps the invariant of every wallet. -/
theorem PostsOn.ledgerInv {op : LedgerOp} {p : LedgerWriteParams} {amount : ℚ} {l : Ledger}
    (h : PostsOn op.rule p amount l) (hinv : LedgerInv l)
    (hadd : op.adds = true →
      ∃ a : ℤ, 0 ≤ a ∧ amount = num a ∧ (l.row p.wallet).balance.total + a < exactLimit) :
    LedgerInv (op.rule.posted p amount l) := by
  obtain ⟨a, hx⟩ := h.exact (hinv p.wallet).inRange hadd
  have hpos := hx.pos
  intro k
  unfold PostRule.posted
  rw [Ledger.row_insert, Ledger.insert_movements, Ledger.setRow_movements,
    Ledger.row_setRow_eq_ite]
  by_cases hk : k = p.wallet
  · subst hk
    rw [if_pos rfl]
    have htotal := op.total_moved (l.row p.wallet).balance a
    have hbound := (hinv p.wallet).bounded
    refine (hinv p.wallet).record rfl (hx.after.trans hx.columns.symm) h.nonneg ?_ ?_
    · rw [hx.columns, hx.amount, htotal]
      rfl
    · rw [hx.columns, htotal, ← op.adds_eq]
      have hadds := hx.bounded
      split_ifs with hop hout <;> simp only [hop, forall_const] at hadds <;> omega
  · rw [if_neg hk]
    exact (hinv k).frame (fun hm => hk hm.symm)

/-- Moving an amount between two wallets keeps the invariant of every wallet. -/
theorem AvailableMove.Moves.ledgerInv {mv : AvailableMove} {l : Ledger} {a : ℤ}
    (h : mv.Moves l) (hne : mv.src ≠ mv.dst) (hamount : mv.amount = num a) (ha : 0 ≤ a)
    (hbound : (l.row mv.dst).balance.total + a < exactLimit)
    (hout : mv.outPosting.isOutflow = true ∧ mv.outPosting.isInflow = false)
    (hin : mv.inPosting.isInflow = true ∧ mv.inPosting.isOutflow = false)
    (hinv : LedgerInv l) : LedgerInv (mv.moved l) := by
  have hx := h.exact (hinv mv.src).inRange (hinv mv.dst).inRange hamount ha hbound
  have sbound := (hinv mv.src).bounded
  have hpos := hx.pos
  unfold Buckets.total at sbound hbound
  intro k
  unfold moved
  simp only [Ledger.row_insert, Ledger.insert_movements, Ledger.setRow_movements,
    Ledger.row_setRow_eq_ite]
  by_cases hk : k = mv.dst
  · subst hk
    rw [if_pos rfl]
    have hframe : WalletInv (mv.debit l :: l.movements) mv.dst (l.row mv.dst).balance :=
      (hinv mv.dst).frame hne
    refine hframe.record rfl hx.creditAfter h.dstNonneg ?_ ?_
    · rw [hx.dst, hx.creditAmount]
      change _ = _ + (if mv.inPosting.isInflow then a else 0) -
        (if mv.inPosting.isOutflow then a else 0)
      simp only [hin, Buckets.total, if_true, Bool.false_eq_true, if_false]
      ring
    · rw [hx.dst]
      simp only [Buckets.total]
      omega
  · rw [if_neg hk]
    refine WalletInv.frame ?_ (fun hm => hk hm.symm)
    by_cases hs : k = mv.src
    · subst hs
      rw [if_pos rfl]
      refine (hinv mv.src).record rfl hx.debitAfter h.srcNonneg ?_ ?_
      · rw [hx.src, hx.debitAmount]
        change _ = _ + (if mv.outPosting.isInflow then a else 0) -
          (if mv.outPosting.isOutflow then a else 0)
        simp only [hout, Buckets.total, if_true, Bool.false_eq_true, if_false]
        ring
      · rw [hx.src]
        simp only [Buckets.total]
        omega
    · rw [if_neg hs]
      exact (hinv k).frame (fun hm => hs hm.symm)

/-- One call on exact amounts in range keeps the invariant. -/
theorem LedgerCall.ledgerInv {c : LedgerCall} {l : Ledger} (hexact : c.ExactAmount)
    (hrange : c.InRange l) (hinv : LedgerInv l) : LedgerInv (c.run l) := by
  cases c with
  | post op p =>
      obtain ⟨a, ha⟩ := hexact
      rcases postLedger_cases op.rule p l with ⟨e, h⟩ | ⟨m, -, h⟩ | ⟨amount, hposts, h⟩ <;>
        simp only [run, h]
      · exact hinv
      · exact hinv
      · refine hposts.toPostsOn.ledgerInv hinv fun hop => ?_
        have hlt := hrange hop hposts.keyFresh a ha
        have hparse := hposts.parsed
        rw [ha] at hparse
        have hle := le_of_total_add (hinv p.wallet).inRange hlt
        obtain ⟨hnonneg, hnum⟩ := parseAmount_usdc hparse hle
        exact ⟨a, hnonneg, hnum, hlt⟩
  | transfer p =>
      obtain ⟨a, ha⟩ := hexact
      rcases commit_cases (transferBody p) l with ⟨r, l', hrun, hc⟩ | ⟨e, -, hc⟩ <;>
        simp only [run, transferAvailableBalance, hc]
      · rcases transferBody_ok hrun with ⟨-, -, rfl⟩ | ⟨amount, ht, -, rfl⟩
        · exact hinv
        · have hparse := ht.parsed
          rw [ha] at hparse
          have hlt := hrange ht.debitKeyFresh ht.creditKeyFresh a ha
          have hle := le_of_total_add (hinv p.recipient).inRange hlt
          obtain ⟨hnonneg, hnum⟩ := parseAmount_usdc hparse hle
          have hne : p.sender ≠ p.recipient := fun h => ht.orgs (congrArg WalletKey.orgId h)
          exact ht.moves.ledgerInv hne hnum hnonneg hlt ⟨rfl, rfl⟩ ⟨rfl, rfl⟩ hinv
      · exact hinv

/-! ### Whole runs -/

/-- The invariant of fresh wallets. -/
theorem Ledger.Fresh.ledgerInv {l : Ledger} (h : l.Fresh) : LedgerInv l := by
  intro k
  have hzero : (l.row k).balance = ⟨0, 0, 0⟩ := by
    unfold Ledger.row
    cases hk : l.wallets k with
    | none => rfl
    | some w => exact h.zero k w hk
  rw [hzero, h.noMovements]
  exact ⟨⟨⟨le_rfl, le_rfl, le_rfl⟩, rfl, rfl⟩, by decide⟩

theorem LedgerInv.conserved {l : Ledger} (h : LedgerInv l) : Conserved l := by
  intro k w hk
  have hrow : l.row k = w := by simp [Ledger.row, hk]
  rw [← hrow]
  exact (h k).toConservedAt

theorem LedgerInv.runCalls {l : Ledger} (hinv : LedgerInv l) {calls : List LedgerCall}
    (hexact : ∀ c ∈ calls, c.ExactAmount)
    (hrange : l.AlongCalls (fun l c => c.InRange l) calls) : LedgerInv (l.runCalls calls) := by
  induction calls generalizing l with
  | nil => exact hinv
  | cons c cs ih =>
      exact ih (LedgerCall.ledgerInv (hexact c List.mem_cons_self) hrange.1 hinv)
        (fun c' hc' => hexact c' (List.mem_cons_of_mem _ hc')) hrange.2

/-- **Conservation.** From fresh wallets, after any list of calls with exact amounts of which none
raises a wallet's total to `exactLimit`, every wallet is conserved. -/
theorem conserved_of_inRange {l : Ledger} (hl : l.Fresh) (calls : List LedgerCall)
    (hexact : ∀ c ∈ calls, c.ExactAmount)
    (hrange : l.AlongCalls (fun l c => c.InRange l) calls) : Conserved (l.runCalls calls) :=
  (hl.ledgerInv.runCalls hexact hrange).conserved

/-- No wallet and no movement. -/
def Ledger.empty : Ledger := ⟨fun _ => none, [], 0⟩

theorem Ledger.empty_fresh : Ledger.empty.Fresh := ⟨rfl, fun _ _ h => by cases h⟩

/-- A credit of one organisation. -/
def creditCall (a : ℤ) (key : String) : LedgerCall :=
  .post .creditOrgWallet ⟨"org", "live", some (usdc a), none, key, none, none, none, none⟩

/-- The wallet it credits. -/
def creditedWallet : WalletKey := ⟨"org", .live, "USDC"⟩

theorem creditCall_exactAmount {a b : ℤ} :
    ∀ c ∈ [creditCall a "first", creditCall b "second"], c.ExactAmount := by
  intro c hc
  rcases List.mem_cons.mp hc with rfl | hc
  · exact ⟨a, rfl⟩
  · rw [List.mem_singleton.mp hc]
    exact ⟨b, rfl⟩

theorem creditCall_inRange {l : Ledger} {a : ℤ} {key : String}
    (h : (l.row creditedWallet).balance.total + a < exactLimit) :
    (creditCall a key).InRange l := by
  intro _ _ b hb
  have hab : a = b := usdc_inj.mp (Option.some.inj hb)
  subst hab
  have hw : (⟨"org", normalizeEnv "live", normalizeAsset none⟩ : WalletKey) = creditedWallet := by
    decide +kernel
  rw [← hw] at h
  exact h

/-- A run in range: a credit of 100 USDC and one of `10^-7`. -/
theorem conserved_of_inRange_hundred :
    Conserved (Ledger.empty.runCalls [creditCall (10 ^ 9) "first", creditCall 1 "second"]) :=
  conserved_of_inRange Ledger.empty_fresh _ creditCall_exactAmount
    ⟨creditCall_inRange (by decide +kernel), creditCall_inRange (by decide +kernel), trivial⟩

/-- A credit of `10^-7` USDC to a wallet of two billion posts its movement and leaves the balance:
the number nearest to the sum is the old balance. -/
theorem not_conserved_two_billion :
    Ledger.empty.Fresh ∧
      (∀ c ∈ [creditCall (2 * 10 ^ 16) "first", creditCall 1 "second"], c.ExactAmount) ∧
      ¬ Conserved
        (Ledger.empty.runCalls [creditCall (2 * 10 ^ 16) "first", creditCall 1 "second"]) := by
  refine ⟨Ledger.empty_fresh, creditCall_exactAmount, fun h => ?_⟩
  set l := Ledger.empty.runCalls [creditCall (2 * 10 ^ 16) "first", creditCall 1 "second"] with hl
  have hw : l.wallets creditedWallet = some ⟨.active, ⟨2 * 10 ^ 16, 0, 0⟩⟩ := by
    rw [hl]
    decide +kernel
  have hin : sumOf l.movements creditedWallet Posting.isInflow = 2 * 10 ^ 16 + 1 := by
    rw [hl]
    decide +kernel
  have hout : sumOf l.movements creditedWallet Posting.isOutflow = 0 := by
    rw [hl]
    decide +kernel
  have htotal := (h _ _ hw).total
  rw [hin, hout] at htotal
  exact absurd htotal (by decide)

end DayfiBackend.Infra
