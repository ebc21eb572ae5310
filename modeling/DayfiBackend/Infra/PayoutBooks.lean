import Mathlib.Algebra.BigOperators.Group.Finset.Piecewise
import Mathlib.Algebra.Order.BigOperators.Group.Finset
import DayfiBackend.Infra.Statements

/-!
# What the ledger says about payouts

A payout locks funds under the key `payout:id:lock`, and then finalizes the debit or releases the
lock under keys of their own. `heldFor` is what a payout still holds locked in a wallet. The
books are in order (`PayoutBooks`) when a finalize or a release settles the whole lock of its own
payout and no payout has both; then every payout holds what it locked or nothing, and the locked
balance of a wallet is what its payouts hold (`Accounted`).
-/

namespace DayfiBackend.Infra

open DayfiBackend.Found.Binary64 DayfiBackend.Found.Keys

/-! ### What a payout holds -/

/-- The movement of a step of a payout. -/
def Ledger.posted (l : Ledger) (step : PayoutStep) (id : ℕ) : Option Movement :=
  findMovementByIdempotency l (step.key id)

/-- The posting of a step. -/
def PayoutStep.posting (step : PayoutStep) : Posting := step.op.rule.posting

/-- A movement that consumes a lock. -/
def Movement.settles (m : Movement) : Bool := m.posting = .finalize || m.posting = .release

/-- The sum of the movements of one kind with a reference on a wallet. -/
def sumFor (ms : List Movement) (k : WalletKey) (ref : String) (kind : Posting) : ℤ :=
  ((ms.filter fun m => m.wallet = k && m.referenceId = some ref && m.posting = kind).map
    (·.amount)).sum

/-- What is locked under a reference: locked, less released, less finalized. -/
def heldFor (ms : List Movement) (k : WalletKey) (ref : String) : ℤ :=
  sumFor ms k ref .lock - sumFor ms k ref .release - sumFor ms k ref .finalize

/-- The references that occur. -/
def references (ms : List Movement) : Finset String := (ms.filterMap (·.referenceId)).toFinset

/-- The sign with which a movement enters the locked balance. -/
def Posting.lockSign : Posting → ℤ
  | .lock => 1
  | .release => -1
  | .finalize => -1
  | _ => 0

/-- The locked balance of every wallet is what is held in it. -/
def Accounted (l : Ledger) : Prop :=
  ∀ k, (l.row k).balance.locked = ∑ ref ∈ references l.movements, heldFor l.movements k ref

theorem LedgerOp.locked_sign (op : LedgerOp) :
    op.rule.moves.locked.sign = op.rule.posting.lockSign := by
  cases op <;> rfl

section sums

variable {m : Movement} {ms : List Movement} {k : WalletKey} {ref : String}

theorem sumFor_cons (kind : Posting) : sumFor (m :: ms) k ref kind =
    (if m.wallet = k ∧ m.referenceId = some ref ∧ m.posting = kind then m.amount else 0) +
      sumFor ms k ref kind := by
  unfold sumFor
  rw [List.filter_cons]
  by_cases h : m.wallet = k ∧ m.referenceId = some ref ∧ m.posting = kind
  · rw [if_pos h, if_pos (by simp [h.1, h.2.1, h.2.2])]
    simp
  · rw [if_neg h, if_neg (by simpa [and_assoc] using h), zero_add]

theorem heldFor_cons : heldFor (m :: ms) k ref =
    (if m.wallet = k ∧ m.referenceId = some ref then m.posting.lockSign * m.amount else 0) +
      heldFor ms k ref := by
  unfold heldFor
  simp only [sumFor_cons]
  by_cases h : m.wallet = k ∧ m.referenceId = some ref
  · simp only [h, true_and, if_true]
    cases m.posting <;> simp [Posting.lockSign] <;> ring
  · have hnot : ∀ kind, ¬ (m.wallet = k ∧ m.referenceId = some ref ∧ m.posting = kind) :=
      fun _ hk => h ⟨hk.1, hk.2.1⟩
    simp only [h, hnot, if_false, zero_add]

theorem heldFor_cons_of_ne (h : m.referenceId ≠ some ref) :
    heldFor (m :: ms) k ref = heldFor ms k ref := by
  rw [heldFor_cons, if_neg (fun hk => h hk.2), zero_add]

/-- Nothing is held under a reference that does not occur. -/
theorem heldFor_eq_zero (h : ref ∉ references ms) : heldFor ms k ref = 0 := by
  induction ms with
  | nil => rfl
  | cons m ms ih =>
      simp only [references, List.mem_toFinset, List.mem_filterMap, List.mem_cons] at h ih
      rw [heldFor_cons_of_ne fun hm => h ⟨m, .inl rfl, hm⟩]
      exact ih fun ⟨n, hn, href⟩ => h ⟨n, .inr hn, href⟩

theorem references_cons (h : m.referenceId = some ref) :
    references (m :: ms) = insert ref (references ms) := by
  simp [references, h]

/-- What is held in a wallet after one more movement. -/
theorem sum_heldFor_cons (h : m.referenceId = some ref) :
    ∑ r ∈ references (m :: ms), heldFor (m :: ms) k r =
      (if m.wallet = k then m.posting.lockSign * m.amount else 0) +
        ∑ r ∈ references ms, heldFor ms k r := by
  have hold : ∑ r ∈ references ms, heldFor ms k r =
      ∑ r ∈ insert ref (references ms), heldFor ms k r := by
    refine Finset.sum_subset (Finset.subset_insert ref _) fun r _ hr => ?_
    exact heldFor_eq_zero hr
  rw [references_cons h, hold]
  simp only [heldFor_cons, Finset.sum_add_distrib, h, Option.some.injEq]
  congr 1
  by_cases hk : m.wallet = k <;> simp [hk]

end sums

/-! ### One posting -/

section posting

variable {op : LedgerOp} {p : LedgerWriteParams} {amount : ℚ} {l : Ledger}

/-- A posting that does not move the locked bucket, or moves it exactly, keeps the account. -/
theorem Accounted.posted (h : Accounted l) {ref : String} (href : orNull p.referenceId = some ref)
    (hexact : op.rule.posting.lockSign = 0 ∨ ∃ a, ExactLocked op p amount l a) :
    Accounted (op.rule.posted p amount l) := by
  intro k
  have hcolumn : (op.rule.columns (l.row p.wallet) amount).locked =
      (l.row p.wallet).balance.locked +
        op.rule.posting.lockSign * (op.rule.movement p amount l).amount := by
    rcases hexact with h0 | ⟨a, ha⟩
    · rw [h0, zero_mul, add_zero]
      have hkeep : op.rule.moves.locked = .keep := by
        cases op <;> first | rfl | cases h0
      unfold PostRule.columns
      rw [hkeep]
      rfl
    · rw [ha.column, ha.posted, op.locked_sign]
  have hsum := @sum_heldFor_cons (op.rule.movement p amount l) l.movements k _ href
  unfold PostRule.posted
  rw [Ledger.row_insert, Ledger.row_setRow_eq_ite, Ledger.insert_movements,
    Ledger.setRow_movements, hsum, ← h k]
  by_cases hk : k = p.wallet
  · have hk' : (op.rule.movement p amount l).wallet = k := hk.symm
    rw [if_pos hk, if_pos hk', hk]
    simp only [PostRule.movement_posting]
    rw [hcolumn]
    ring
  · have hk' : (op.rule.movement p amount l).wallet ≠ k := Ne.symm hk
    rw [if_neg hk, if_neg hk', zero_add]

end posting

/-! ### Books in order -/

/-- The wallet of a row. -/
def TxRow.wallet (row : TxRow) : WalletKey :=
  ⟨row.orgId, normalizeEnv (asEnv row.environment), normalizeAsset none⟩

@[simp] theorem PayoutStep.params_wallet (step : PayoutStep) (row : TxRow) (amt : ℚ) :
    (step.params row amt).wallet = row.wallet := rfl

theorem PayoutStep.params_referenceId (step : PayoutStep) (row : TxRow) (amt : ℚ) :
    orNull (step.params row amt).referenceId = some (toString row.id) := by
  simp [params, orNull]

/-- The books of the payouts, each locking in a wallet of its own. -/
structure PayoutBooks (home : ℕ → WalletKey) (l : Ledger) : Prop where
  /-- What is found under a payout's key is its movement. -/
  found : ∀ step id m, l.posted step id = some m →
    m.posting = step.posting ∧ m.referenceId = some (toString id) ∧ m.wallet = home id
  /-- A movement of the locked balance is found under a payout's key. -/
  moving : ∀ m ∈ l.movements, m.posting.lockSign ≠ 0 → ∃ step id, l.posted step id = some m
  /-- A payout is settled with the amount it locked. -/
  settled : ∀ step id m, step ≠ .lock → l.posted step id = some m →
    ∃ n, l.posted .lock id = some n ∧ n.amount = m.amount
  notBoth : ∀ id, l.posted .finalize id = none ∨ l.posted .release id = none
  once : l.movements.Pairwise fun m n =>
    m.settles = true → n.settles = true → m.referenceId ≠ n.referenceId
  nonneg : ∀ k ref, 0 ≤ heldFor l.movements k ref
  /-- A payout that is not settled holds what it locked. -/
  held : ∀ id m, l.posted .lock id = some m → l.posted .finalize id = none →
    l.posted .release id = none → heldFor l.movements (home id) (toString id) = m.amount
  accounted : Accounted l

variable {home : ℕ → WalletKey} {l : Ledger} {amount : ℚ}

/-- The movements of the payouts after a step of one. -/
theorem posted_step (step step' : PayoutStep) (row : TxRow) (amt : ℚ) (id : ℕ) :
    (step.op.rule.posted (step.params row amt) amount l).posted step' id =
      if step = step' ∧ row.id = id then some (step.op.rule.movement (step.params row amt) amount l)
      else l.posted step' id := by
  unfold Ledger.posted
  rw [find_posted, PayoutStep.params_key]
  simp only [PayoutStep.key_inj]

/-- A ledger operation under another key leaves them. -/
theorem posted_of_key_ne {rule : PostRule} {p : LedgerWriteParams} {step : PayoutStep} {id : ℕ}
    (h : p.key ≠ step.key id) : (rule.posted p amount l).posted step id = l.posted step id := by
  unfold Ledger.posted
  rw [find_posted, if_neg h]

theorem heldFor_eq_zero_of_lockSign {ms : List Movement} {k : WalletKey} {ref : String}
    (h : ∀ m ∈ ms, m.referenceId = some ref → m.posting.lockSign = 0) : heldFor ms k ref = 0 := by
  induction ms with
  | nil => rfl
  | cons m ms ih =>
      rw [heldFor_cons, ih fun n hn => h n (List.mem_cons_of_mem _ hn)]
      split_ifs with hm
      · rw [h m List.mem_cons_self hm.2, zero_mul, zero_add]
      · rfl

/-- Only a payout that locked holds anything. -/
theorem PayoutBooks.heldFor_unlocked (h : PayoutBooks home l) {id : ℕ}
    (hlock : l.posted .lock id = none) (k : WalletKey) :
    heldFor l.movements k (toString id) = 0 := by
  refine heldFor_eq_zero_of_lockSign fun m hm href => ?_
  by_contra hsign
  obtain ⟨step, id', hpost⟩ := h.moving m hm hsign
  obtain ⟨-, href', -⟩ := h.found step id' m hpost
  have hid : id' = id := toString_inj.mp (Option.some.inj (href'.symm.trans href))
  subst hid
  by_cases hstep : step = .lock
  · rw [hstep, hlock] at hpost
    cases hpost
  · obtain ⟨n, hn, -⟩ := h.settled step id' m hstep hpost
    rw [hlock] at hn
    cases hn

/-- What a new lock, finalize or release must find for the books to stay in order. -/
def PayoutStep.Enabled (step : PayoutStep) (l : Ledger) (id : ℕ) (a : ℤ) : Prop :=
  step = .lock ∨ (∃ n, l.posted .lock id = some n ∧ n.amount = a) ∧
    l.posted .finalize id = none ∧ l.posted .release id = none

theorem PayoutStep.lockSign_ne_zero (step : PayoutStep) : step.posting.lockSign ≠ 0 := by
  cases step <;> decide

theorem PayoutStep.settles_iff {step : PayoutStep} {m : Movement} (h : m.posting = step.posting) :
    m.settles = true ↔ step ≠ .lock := by
  cases step <;> simp [Movement.settles, h, PayoutStep.posting, PayoutStep.op, LedgerOp.rule,
    lockRule, finalizeRule, releaseRule]

/-- **One step of a payout keeps the books.** -/
theorem PayoutBooks.step (h : PayoutBooks home l) {step : PayoutStep} {row : TxRow} {amt : ℚ}
    (hp : PostsOn step.op.rule (step.params row amt) amount l) {a : ℤ}
    (hexact : ExactLocked step.op (step.params row amt) amount l a)
    (hhome : row.wallet = home row.id) (hen : step.Enabled l row.id a) :
    PayoutBooks home (step.op.rule.posted (step.params row amt) amount l) := by
  have hpost : ∀ step' id, (step.op.rule.posted (step.params row amt) amount l).posted step' id =
      if step = step' ∧ row.id = id then some (step.op.rule.movement (step.params row amt) amount l)
      else l.posted step' id := fun step' id => posted_step step step' row amt id
  set m := step.op.rule.movement (step.params row amt) amount l with hm
  have hms : (step.op.rule.posted (step.params row amt) amount l).movements =
      m :: l.movements := rfl
  have href : m.referenceId = some (toString row.id) := step.params_referenceId row amt
  have hposting : m.posting = step.posting := rfl
  have hamount : m.amount = a := hexact.posted
  have hwallet : m.wallet = home row.id := hhome
  have hfresh : l.posted step row.id = none := by
    unfold Ledger.posted
    rw [← step.params_key row amt]
    exact hp.keyFresh
  have hother : ∀ {id k}, row.id ≠ id →
      heldFor (m :: l.movements) k (toString id) = heldFor l.movements k (toString id) := by
    intro id k hid
    refine heldFor_cons_of_ne fun hm => hid ?_
    exact toString_inj.mp (Option.some.inj (href.symm.trans hm))
  refine ⟨?found, ?moving, ?settled, ?notBoth, ?once, ?nonneg, ?held, ?accounted⟩
  case found =>
    intro step' id n hn
    rw [hpost] at hn
    split_ifs at hn with hid
    · cases hn
      rw [← hid.1, ← hid.2]
      exact ⟨hposting, href, hwallet⟩
    · exact h.found step' id n hn
  case moving =>
    intro n hn hsign
    rcases List.mem_cons.mp hn with rfl | hn
    · exact ⟨step, row.id, by rw [hpost, if_pos ⟨rfl, rfl⟩]⟩
    · obtain ⟨step', id, hfound⟩ := h.moving n hn hsign
      refine ⟨step', id, ?_⟩
      rw [hpost, if_neg, hfound]
      rintro ⟨rfl, rfl⟩
      rw [hfresh] at hfound
      cases hfound
  case settled =>
    intro step' id n hstep' hn
    rw [hpost] at hn
    have hlock : ∃ n', l.posted .lock id = some n' ∧ n'.amount = n.amount := by
      split_ifs at hn with hid
      · cases hn
        obtain ⟨rfl, rfl⟩ := hid
        rw [hamount]
        exact (hen.resolve_left hstep').1
      · exact h.settled step' id n hstep' hn
    obtain ⟨n', hn', hamt⟩ := hlock
    refine ⟨n', ?_, hamt⟩
    rw [hpost, if_neg, hn']
    rintro ⟨rfl, rfl⟩
    rw [hfresh] at hn'
    cases hn'
  case notBoth =>
    intro id
    rw [hpost, hpost]
    by_cases hid : row.id = id
    · subst hid
      rcases hen with rfl | ⟨-, hfin, hrel⟩
      · simpa using h.notBoth row.id
      · cases step <;> simp [hfin, hrel]
    · simpa [hid] using h.notBoth id
  case once =>
    refine List.pairwise_cons.mpr ⟨fun n hn hm' hn' hsame => ?_, h.once⟩
    have hstep : step ≠ .lock := (PayoutStep.settles_iff hposting).mp hm'
    obtain ⟨-, hfin, hrel⟩ := hen.resolve_left hstep
    have hsign : n.posting.lockSign ≠ 0 := by
      simp only [Movement.settles, Bool.or_eq_true, decide_eq_true_eq] at hn'
      rcases hn' with hk | hk <;> rw [hk] <;> decide
    obtain ⟨step', id, hfound⟩ := h.moving n hn hsign
    obtain ⟨hposting', href', -⟩ := h.found step' id n hfound
    have hid : row.id = id :=
      toString_inj.mp (Option.some.inj (href.symm.trans (hsame.trans href')))
    subst hid
    have hstep' := (PayoutStep.settles_iff hposting').mp hn'
    cases step' with
    | lock => exact hstep' rfl
    | finalize => rw [hfin] at hfound; cases hfound
    | release => rw [hrel] at hfound; cases hfound
  case nonneg =>
    intro k ref
    rw [hms, heldFor_cons]
    have hold := h.nonneg k ref
    split_ifs with hk
    · rcases hen with rfl | ⟨⟨n, hn, hna⟩, hfin, hrel⟩
      · have hsign : m.posting.lockSign = 1 := rfl
        have hpos := hexact.pos
        rw [hsign, hamount]
        omega
      · have hheld := h.held row.id n hn hfin hrel
        have hsame : k = home row.id ∧ ref = toString row.id :=
          ⟨hk.1.symm.trans hwallet, Option.some.inj (hk.2.symm.trans href)⟩
        have hsign : -1 ≤ m.posting.lockSign := by rw [hposting]; cases step <;> decide
        rw [hsame.1, hsame.2, hheld, hamount, hna]
        nlinarith [hexact.pos]
    · rw [zero_add]
      exact hold
  case held =>
    intro id n hn hfin hrel
    rw [hpost] at hn hfin hrel
    rw [hms]
    by_cases hid : row.id = id
    · subst hid
      cases step with
      | finalize => simp at hfin
      | release => simp at hrel
      | lock =>
          have hnm : m = n := by simpa using hn
          have hsign : m.posting.lockSign = 1 := rfl
          rw [heldFor_cons, if_pos ⟨hwallet, href⟩, h.heldFor_unlocked hfresh, hsign, ← hnm]
          ring
    · rw [if_neg fun hc => hid hc.2] at hn hfin hrel
      rw [hother hid]
      exact h.held id n hn hfin hrel
  case accounted =>
    exact h.accounted.posted (step.params_referenceId row amt) (.inr ⟨a, hexact⟩)

/-- A ledger operation that is not on the locked balance, under a key that is no payout's, keeps
the books. -/
theorem PayoutBooks.frame (h : PayoutBooks home l) {op : LedgerOp} {p : LedgerWriteParams}
    {ref : String} (href : orNull p.referenceId = some ref)
    (hsign : op.rule.posting.lockSign = 0) (hkey : ∀ step id, p.key ≠ PayoutStep.key step id) :
    PayoutBooks home (op.rule.posted p amount l) := by
  have hpost : ∀ step id, (op.rule.posted p amount l).posted step id = l.posted step id :=
    fun step id => posted_of_key_ne (hkey step id)
  have hheld : ∀ k ref', heldFor (op.rule.posted p amount l).movements k ref' =
      heldFor l.movements k ref' := by
    intro k ref'
    change heldFor (op.rule.movement p amount l :: l.movements) k ref' = _
    rw [heldFor_cons, PostRule.movement_posting, hsign]
    simp
  have hsettles : (op.rule.movement p amount l).settles = false := by
    unfold Movement.settles
    rw [PostRule.movement_posting]
    cases hk : op.rule.posting <;> first | rfl | (rw [hk] at hsign; cases hsign)
  refine ⟨?_, fun m hm hs => ?_, ?_, ?_, ?_, ?_, ?_, h.accounted.posted href (.inl hsign)⟩
  · simpa only [hpost] using h.found
  · rcases List.mem_cons.mp hm with rfl | hm
    · exact absurd hsign hs
    · simpa only [hpost] using h.moving m hm hs
  · simpa only [hpost] using h.settled
  · simpa only [hpost] using h.notBoth
  · refine List.pairwise_cons.mpr ⟨fun n _ hm => ?_, h.once⟩
    rw [hsettles] at hm
    cases hm
  · simpa only [hheld] using h.nonneg
  · simpa only [hpost, hheld] using h.held

end DayfiBackend.Infra
