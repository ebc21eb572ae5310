import DayfiBackend.Infra.PayoutBooks
import DayfiBackend.Infra.Webhooks

/-!
# Locks are accounted per payout, as long as no call posts on a stale read

`lockPayoutFunds`, `finalizePayoutDebit` and `releasePayoutLock` decide on the metadata they read
and post later, and the ledger checks only the pooled locked balance. A finalize and a release of
one payout that read before either posts both go through when another payout has funds locked
(`finalized_and_released`). While each finalize or release acts on metadata that tells of the
other, and a repeated lock asks for the amount already locked, the books of the payouts stay in
order in every run (`locks_accounted`).
-/

namespace DayfiBackend.Infra

open DayfiBackend.Found DayfiBackend.Found.Prog DayfiBackend.Found.Binary64
  DayfiBackend.Found.Keys

/-! ### Calls -/

/-- What locks, finalizes and releases payouts. -/
inductive PayoutCall where
  | lock (orgId : String) (transactionId : ℕ)
  | finalize (orgId : Option String) (transactionId : ℕ)
  | release (orgId : Option String) (transactionId : ℕ)
  | yellowCard (payload : YellowCardWebhookPayload)
  | flutterwave (payload : FlutterwavePayload)
  deriving DecidableEq, Repr

def PayoutCall.program : PayoutCall → Prog Sql Unit
  | lock orgId id => discard (lockPayoutFunds orgId id)
  | finalize orgId id => discard (finalizePayoutDebit orgId id)
  | release orgId id => discard (releasePayoutLock orgId id)
  | yellowCard payload => discard (applyInfraYellowCardWebhook payload)
  | flutterwave payload => discard (applyInfraFlutterwaveWebhook payload)

/-- Payouts as they are created: nothing locked, no amount recorded. -/
structure NewPayouts (s : Store) : Prop where
  noMoves : ∀ m ∈ s.ledger.movements, m.posting.lockSign = 0
  noKeys : ∀ step id, s.ledger.posted step id = none
  noLocks : ∀ k, (s.ledger.row k).balance.locked = 0
  ids : ∀ r ∈ s.txs, ∀ r' ∈ s.txs, r.id = r'.id → r = r'
  noAmount : ∀ r ∈ s.txs, r.direction = .payout → metaUsdc r = none

/-- Locks accounted per payout. -/
structure LocksAccounted (l : Ledger) : Prop where
  once : l.movements.Pairwise fun m n =>
    m.settles = true → n.settles = true → m.referenceId ≠ n.referenceId
  accounted : Accounted l
  nonneg : ∀ k ref, 0 ≤ heldFor l.movements k ref

/-- A finalize or release posts on metadata that tells of the other, if it is posted; a lock asks
for the amount already locked, if any, and a new one leaves the locked balance in the range of
exact amounts. -/
def ReadsCurrent {β : Type} (_pid : ℕ) (st : Sql β) (_o : Outside) (s : Store) : Prop :=
  match st with
  | .payout .lock row amt =>
      (s.ledger.posted .lock row.id).all (·.amount = minorUnits amt) = true ∧
        (s.ledger.posted .lock row.id = none →
          (s.ledger.row row.wallet).balance.locked + minorUnits amt < exactLimit)
  | .payout .finalize row _ =>
      s.ledger.posted .release row.id ≠ none → row.metadata.fundsReleased = true
  | .payout .release row _ =>
      s.ledger.posted .finalize row.id ≠ none → row.metadata.fundsFinalized = true
  | _ => True

instance {β : Type} (pid : ℕ) (st : Sql β) (o : Outside) (s : Store) :
    Decidable (ReadsCurrent pid st o s) :=
  decidable_of_bool (match st with
    | .payout .lock row amt =>
        decide ((s.ledger.posted .lock row.id).all (·.amount = minorUnits amt) = true ∧
          (s.ledger.posted .lock row.id = none →
            (s.ledger.row row.wallet).balance.locked + minorUnits amt < exactLimit))
    | .payout .finalize row _ => decide (
        s.ledger.posted .release row.id ≠ none → row.metadata.fundsReleased = true)
    | .payout .release row _ => decide (
        s.ledger.posted .finalize row.id ≠ none → row.metadata.fundsFinalized = true)
    | _ => true) (by
      cases st with
      | payout step row amt => cases step <;> exact decide_eq_true_iff
      | _ => exact iff_of_true rfl trivial)

/-! ### The invariant -/

variable {origin : ℕ → TxRow}

/-- What holds of a row, and goes on holding of a copy of it: it has the wallet and the direction
it was created with, and the amount it records is locked. -/
structure Knows (origin : ℕ → TxRow) (l : Ledger) (r : TxRow) : Prop where
  wallet : r.wallet = (origin r.id).wallet
  direction : r.direction = (origin r.id).direction
  amount : r.direction = .payout → ∀ q, metaUsdc r = some q →
    ∃ m, l.posted .lock r.id = some m ∧ m.amount = minorUnits q

/-- The invariant of the calls. -/
structure PayoutInv (origin : ℕ → TxRow) (s : Store) : Prop where
  books : PayoutBooks (fun id => (origin id).wallet) s.ledger
  range : ∀ k, (s.ledger.row k).balance.locked < exactLimit
  rows : ∀ r ∈ s.txs, Knows origin s.ledger r

/-- Movements of payouts stay. -/
def Grows (s t : Store) : Prop :=
  ∀ step id m, s.ledger.posted step id = some m → t.ledger.posted step id = some m

/-- The discipline of calls that read current metadata. -/
def lockDiscipline (origin : ℕ → TxRow) : Discipline Sql Outside Store where
  inv := PayoutInv origin
  rely _ := Grows
  cond := ReadsCurrent
  good _ _ _ _ _ _ := True
  rely_refl _ _ _ _ _ h := h
  rely_trans _ _ _ _ h h' step id m hm := h' step id m (h step id m hm)

/-- A statement that may be run: a step of a payout on a row that is known, a patch that records
no amount but the locked one. -/
def Sql.Fits (origin : ℕ → TxRow) (l : Ledger) {β : Type} : Sql β → Prop
  | .payout step row amt => row.wallet = (origin row.id).wallet ∧
      (step ≠ .lock → ∃ n, l.posted .lock row.id = some n ∧ n.amount = minorUnits amt) ∧
      (step = .finalize → row.metadata.fundsReleased = false) ∧
      (step = .release → row.metadata.fundsFinalized = false)
  | .patchTx id _ patch => (origin id).direction = .payout →
      ∀ (r : TxRow) q, metaUsdc { r with metadata := patch r.metadata } = some q →
        metaUsdc r = some q ∨ ∃ n, l.posted .lock id = some n ∧ n.amount = minorUnits q
  | .insertTx _ => False
  | _ => True

theorem Knows.mono {s t : Store} {r : TxRow} (h : Knows origin s.ledger r) (hg : Grows s t) :
    Knows origin t.ledger r where
  wallet := h.wallet
  direction := h.direction
  amount := fun hd q hq => by
    obtain ⟨m, hm, ha⟩ := h.amount hd q hq
    exact ⟨m, hg _ _ _ hm, ha⟩

/-- Books read through the same movements and rows. -/
theorem PayoutBooks.congr {home : ℕ → WalletKey} {l l' : Ledger} (h : PayoutBooks home l)
    (hm : l'.movements = l.movements) (hr : ∀ k, l'.row k = l.row k) : PayoutBooks home l' := by
  have hpost : ∀ step id, l'.posted step id = l.posted step id := fun step id => by
    unfold Ledger.posted findMovementByIdempotency
    rw [hm]
  refine ⟨?_, ?_, ?_, ?_, ?_, ?_, ?_, fun k => ?_⟩
  · simpa only [hpost] using h.found
  · simpa only [hpost, hm] using h.moving
  · simpa only [hpost] using h.settled
  · simpa only [hpost] using h.notBoth
  · simpa only [hm] using h.once
  · simpa only [hm] using h.nonneg
  · simpa only [hpost, hm] using h.held
  · rw [hr, hm]
    exact h.accounted k

/-- A wallet in order has nothing negative locked. -/
theorem PayoutBooks.locked_nonneg {home : ℕ → WalletKey} {l : Ledger} (h : PayoutBooks home l)
    (k : WalletKey) : 0 ≤ (l.row k).balance.locked := by
  rw [h.accounted k]
  exact Finset.sum_nonneg fun ref _ => h.nonneg k ref

/-- The locked balances after a posting. -/
theorem locked_posted {op : LedgerOp} {p : LedgerWriteParams} {amount : ℚ} {l : Ledger}
    (k : WalletKey) : ((op.rule.posted p amount l).row k).balance.locked =
      if k = p.wallet then (op.rule.columns (l.row p.wallet) amount).locked
      else (l.row k).balance.locked := by
  unfold PostRule.posted
  rw [Ledger.row_insert, Ledger.row_setRow_eq_ite]
  split_ifs <;> rfl

/-- A step of a payout keeps the invariant. -/
theorem PayoutInv.payout {s : Store} (h : PayoutInv origin s) {step : PayoutStep} {row : TxRow}
    {amt amount : ℚ} {pid : ℕ} {o : Outside}
    (hcond : ReadsCurrent pid (.payout step row amt) o s)
    (hfits : (Sql.payout step row amt).Fits origin s.ledger)
    (hp : PostsOn step.op.rule (step.params row amt) amount s.ledger) :
    PayoutInv origin
        { s with ledger := step.op.rule.posted (step.params row amt) amount s.ledger } ∧
      Grows s { s with ledger := step.op.rule.posted (step.params row amt) amount s.ledger } := by
  obtain ⟨hwallet, hlocked, hrel, hfin⟩ := hfits
  obtain ⟨hnonneg, hnum⟩ := parseAmount_minorUnits hp.parsed
  have hfresh : s.ledger.posted step row.id = none := by
    unfold Ledger.posted
    rw [← step.params_key row amt]
    exact hp.keyFresh
  have hen : step.Enabled s.ledger row.id (minorUnits amt) := by
    cases step with
    | lock => exact .inl rfl
    | finalize =>
        refine .inr ⟨hlocked (by decide), hfresh, ?_⟩
        by_contra hposted
        have hread : row.metadata.fundsReleased = true := hcond hposted
        rw [hrel rfl] at hread
        cases hread
    | release =>
        refine .inr ⟨hlocked (by decide), ?_, hfresh⟩
        by_contra hposted
        have hread : row.metadata.fundsFinalized = true := hcond hposted
        rw [hfin rfl] at hread
        cases hread
  have hbound : step.op.rule.moves.locked ≠ .take →
      (s.ledger.row row.wallet).balance.locked + minorUnits amt < exactLimit := by
    intro htake
    cases step with
    | lock => exact hcond.2 hfresh
    | finalize => exact absurd rfl htake
    | release => exact absurd rfl htake
  have hexact : ExactLocked step.op (step.params row amt) amount s.ledger (minorUnits amt) :=
    hp.exactLocked hnonneg hnum (h.books.locked_nonneg _) (h.range _) hbound
  have hgrows : Grows s
      { s with ledger := step.op.rule.posted (step.params row amt) amount s.ledger } := by
    intro step' id m hm
    change (step.op.rule.posted (step.params row amt) amount s.ledger).posted step' id = some m
    rw [posted_step, if_neg, hm]
    rintro ⟨rfl, rfl⟩
    rw [hfresh] at hm
    cases hm
  refine ⟨⟨h.books.step hp hexact hwallet hen, fun k => ?_, fun r hr => ?_⟩, hgrows⟩
  · change ((step.op.rule.posted _ _ _).row k).balance.locked < exactLimit
    rw [locked_posted]
    split_ifs with hk
    · rw [hexact.column]
      have hold := h.range row.wallet
      have hpos := hexact.pos
      cases step with
      | lock =>
          have hlt := hbound (by decide)
          have hsign : (PayoutStep.lock.op.rule.moves.locked).sign = 1 := rfl
          rw [hsign, PayoutStep.params_wallet]
          omega
      | finalize =>
          have hsign : (PayoutStep.finalize.op.rule.moves.locked).sign = -1 := rfl
          rw [hsign, PayoutStep.params_wallet]
          omega
      | release =>
          have hsign : (PayoutStep.release.op.rule.moves.locked).sign = -1 := rfl
          rw [hsign, PayoutStep.params_wallet]
          omega
    · exact h.range k
  · exact (h.rows r hr).mono hgrows

/-- A step of a collection keeps the invariant. -/
theorem PayoutInv.collection {s : Store} (h : PayoutInv origin s) {step : CollectionStep}
    {row : TxRow} {amt amount : ℚ} :
    PayoutInv origin
        { s with ledger := step.op.rule.posted (step.params row amt) amount s.ledger } ∧
      Grows s { s with ledger := step.op.rule.posted (step.params row amt) amount s.ledger } := by
  have hsign : step.op.rule.posting.lockSign = 0 := by cases step <;> rfl
  have hkey : ∀ step' id, (step.params row amt).key ≠ PayoutStep.key step' id := by
    intro step' id
    rw [CollectionStep.params_key]
    exact (step'.key_ne_collection step id row.id).symm
  have href : orNull (step.params row amt).referenceId = some (toString row.id) := by
    simp [CollectionStep.params, orNull]
  have hgrows : Grows s
      { s with ledger := step.op.rule.posted (step.params row amt) amount s.ledger } := by
    intro step' id m hm
    change (step.op.rule.posted (step.params row amt) amount s.ledger).posted step' id = some m
    rw [posted_of_key_ne (hkey step' id), hm]
  refine ⟨⟨h.books.frame href hsign hkey, fun k => ?_, fun r hr => ?_⟩, hgrows⟩
  · change ((step.op.rule.posted _ _ _).row k).balance.locked < exactLimit
    rw [locked_posted]
    have hkeep : (step.op.rule.columns (s.ledger.row (step.params row amt).wallet) amount).locked =
        (s.ledger.row (step.params row amt).wallet).balance.locked := by cases step <;> rfl
    split_ifs with hk
    · rw [hkeep]
      exact h.range _
    · exact h.range k
  · exact (h.rows r hr).mono hgrows

theorem Store.Same.grows {s s' : Store} (h : Store.Same s s') : Grows s s' := by
  intro step id m hm
  unfold Ledger.posted at hm ⊢
  rw [h.find, hm]

/-- **One statement keeps the invariant.** -/
theorem PayoutInv.step {s : Store} (h : PayoutInv origin s) {β : Type} {st : Sql β} {pid : ℕ}
    {o : Outside} (hcond : ReadsCurrent pid st o s) (hfits : st.Fits origin s.ledger) :
    PayoutInv origin (st.run pid o s).2 ∧ Grows s (st.run pid o s).2 := by
  by_cases hq : st.quiet = true
  · have hsame := Sql.run_same hq pid o s
    refine ⟨⟨h.books.congr hsame.movements hsame.row, fun k => ?_, fun r hr => ?_⟩, hsame.grows⟩
    · rw [hsame.row]
      exact h.range k
    · rw [hsame.txs] at hr
      exact (h.rows r hr).mono hsame.grows
  cases st with
  | insertTx draft => exact hfits.elim
  | payout step row amt =>
      change PayoutInv origin (s.post _ _).2 ∧ Grows s (s.post _ _).2
      rcases s.post_cases step.op (step.params row amt) with
        ⟨e, he⟩ | ⟨m, -, he⟩ | ⟨amount, hp, he⟩ <;> rw [he]
      · exact ⟨h, fun _ _ _ hm => hm⟩
      · exact ⟨h, fun _ _ _ hm => hm⟩
      · exact h.payout hcond hfits hp.toPostsOn
  | collection step row amt =>
      change PayoutInv origin (s.post _ _).2 ∧ Grows s (s.post _ _).2
      rcases s.post_cases step.op (step.params row amt) with
        ⟨e, he⟩ | ⟨m, -, he⟩ | ⟨amount, hp, he⟩ <;> rw [he]
      · exact ⟨h, fun _ _ _ hm => hm⟩
      · exact ⟨h, fun _ _ _ hm => hm⟩
      · exact h.collection
  | patchTx id status patch =>
      refine ⟨⟨h.books, h.range, fun r hr => ?_⟩, fun _ _ _ hm => hm⟩
      obtain ⟨r₀, hr₀, rfl⟩ := List.mem_map.mp hr
      have hknows := h.rows r₀ hr₀
      split_ifs with hid
      · refine ⟨hknows.wallet, hknows.direction, fun hd q hq => ?_⟩
        have hpayout : (origin id).direction = .payout := by
          rw [← hid, ← hknows.direction]
          exact hd
        rcases hfits hpayout r₀ q hq with hq | hq
        · exact hknows.amount hd q hq
        · rw [hid]
          exact hq
      · exact hknows
  | createPaymentRequest id seq =>
      simp only [Sql.run]
      split <;> exact ⟨⟨h.books, h.range, h.rows⟩, fun _ _ _ hm => hm⟩
  | providerFails seq => exact ⟨⟨h.books, h.range, h.rows⟩, fun _ _ _ hm => hm⟩
  | _ => exact absurd rfl hq

/-! ### The programs -/

section programs

variable {pid : ℕ} {β γ : Type} {P : Store → Prop}

/-- From `P`, the call keeps the discipline, and what it returns meets `Q`. -/
abbrev Locks (origin : ℕ → TxRow) (pid : ℕ) (P : Store → Prop) (p : Call β)
    (Q : β → Store → Prop) : Prop :=
  Triple services (lockDiscipline origin) pid P p Q fun _ _ => True

/-- The rule of a statement. -/
theorem locks_sql {st : Sql (Ans β)} {Q : β → Store → Prop}
    (hst : st.failed = .error .database) (hstable : Stable (lockDiscipline origin) pid P)
    (hfits : ∀ t, P t → st.Fits origin t.ledger)
    (hans : ∀ t o b, P t → PayoutInv origin t → ReadsCurrent pid st o t →
      (st.run pid o t).1 = .ok b → Grows t (st.run pid o t).2 →
        PayoutInv origin (st.run pid o t).2 → Q b (st.run pid o t).2) :
    Locks origin pid P (sql st) Q := by
  refine triple_sql hst hstable (fun t ht hinv o hc _ => ?_) fun _ _ _ _ _ _ => ⟨trivial, trivial⟩
  obtain ⟨hkeeps, hgrows⟩ := hinv.step hc (hfits t ht)
  refine ⟨⟨trivial, hkeeps, fun _ _ => hgrows⟩, ?_⟩
  unfold Answers
  split
  · rename_i b hb
    exact hans t o b ht hinv hc hb hgrows hkeeps
  · trivial

/-- A statement whose answer does not matter. -/
theorem locks_keep {st : Sql (Ans β)} (hst : st.failed = .error .database)
    (hstable : Stable (lockDiscipline origin) pid P)
    (hfits : ∀ t, P t → st.Fits origin t.ledger) :
    Locks origin pid P (sql st) fun _ => P :=
  locks_sql hst hstable hfits fun t _ _ ht _ _ _ hgrows _ => hstable t _ ht hgrows

theorem stable_true : Stable (lockDiscipline origin) pid fun _ => True := fun _ _ _ _ => trivial

theorem stable_knows (row : TxRow) :
    Stable (lockDiscipline origin) pid fun s => Knows origin s.ledger row :=
  fun _ _ h hg => h.mono hg

theorem loadDirected_locks (direction : TxDirection) (id : ℕ) (orgId : Option String) :
    Locks origin pid (fun _ => True) (loadDirected direction id orgId)
      fun row s => row.direction = direction ∧ Knows origin s.ledger row := by
  unfold loadDirected
  refine Triple.bind (R := fun found s => ∀ row, found = some row → Knows origin s.ledger row)
    (locks_sql rfl stable_true (fun _ _ => trivial) ?_) fun found => ?_
  · rintro t o found - - - hfound - hinv row rfl
    have hrow : (t.tx id).filter (fun r => orgId.all (r.orgId = ·)) = some row :=
      Except.ok.inj hfound
    exact hinv.rows row (Store.tx_mem (Option.filter_eq_some_iff.mp hrow).1).1
  · cases found with
    | none => exact Triple.throw fun _ _ => trivial
    | some row =>
        refine Triple.ite (fun hd => ?_) fun _ => Triple.throw fun _ _ => trivial
        exact Triple.pure fun s hs => ⟨hd, hs row rfl⟩

theorem usdcAmountOf_locks (hstable : Stable (lockDiscipline origin) pid P) (row : TxRow) :
    Locks origin pid P (usdcAmountOf row) fun _ => P := by
  unfold usdcAmountOf
  split
  · exact Triple.pure fun _ hs => hs
  · unfold resolveUsdcAmount
    refine Triple.ite (fun _ => Triple.pure fun _ hs => hs) fun _ => ?_
    exact Triple.bind (locks_keep rfl hstable fun _ _ => trivial) fun _ =>
      Triple.pure fun _ hs => hs

/-- A lock that is posted or found is for the amount asked for. -/
theorem lock_locks (row : TxRow) (amt : ℚ) :
    Locks origin pid (fun s => Knows origin s.ledger row) (sql (.payout .lock row amt))
      fun lock s => s.ledger.posted .lock row.id = some lock.movement ∧
        lock.movement.amount = minorUnits amt := by
  refine locks_sql rfl (stable_knows row)
    (fun t ht => ⟨ht.wallet, fun h => absurd rfl h, by simp, by simp⟩) ?_
  intro t o lock ht hinv hc hb hgrows _
  have hb' : (t.post PayoutStep.lock.op (PayoutStep.lock.params row amt)).1 = .ok lock := hb
  change (t.post _ _).2.ledger.posted _ _ = _ ∧ _
  rcases t.post_cases PayoutStep.lock.op (PayoutStep.lock.params row amt) with
    ⟨e, he⟩ | ⟨m, hm, he⟩ | ⟨amount, hp, he⟩ <;> rw [he] at hb' ⊢
  · cases hb'
  · cases hb'
    rw [PayoutStep.params_key] at hm
    have hfound : t.ledger.posted .lock row.id = some m := hm
    have hamt := hc.1
    rw [hfound] at hamt
    exact ⟨hfound, by simpa using hamt⟩
  · cases hb'
    have hfresh : t.ledger.posted .lock row.id = none := by
      unfold Ledger.posted
      rw [← PayoutStep.lock.params_key row amt]
      exact hp.keyFresh
    obtain ⟨hnonneg, hnum⟩ := parseAmount_minorUnits hp.parsed
    have hexact : ExactLocked PayoutStep.lock.op _ amount t.ledger (minorUnits amt) :=
      hp.toPostsOn.exactLocked hnonneg hnum (hinv.books.locked_nonneg _) (hinv.range _)
        fun _ => hc.2 hfresh
    refine ⟨?_, hexact.posted⟩
    change (PayoutStep.lock.op.rule.posted _ amount t.ledger).posted .lock row.id = _
    rw [posted_step, if_pos ⟨rfl, rfl⟩]

theorem lockPayoutFunds_locks (orgId : String) (id : ℕ) :
    Locks origin pid (fun _ => True) (lockPayoutFunds orgId id) fun _ _ => True := by
  unfold lockPayoutFunds
  refine Triple.bind (loadDirected_locks _ _ _) fun row => Triple.assume fun _ => ?_
  refine Triple.bind (usdcAmountOf_locks (stable_knows row) row) fun amt => ?_
  refine Triple.bind (lock_locks row amt) fun lock => ?_
  refine Triple.bind (R := fun _ _ => True) ?_ fun _ => ?_
  · refine Triple.mono (locks_keep rfl ?_ ?_) (fun _ hs => hs) (fun _ _ _ => trivial)
      fun _ _ he => he
    · exact fun s t hs hg => ⟨hg _ _ _ hs.1, hs.2⟩
    · intro t ht _ r q hq
      refine .inr ⟨lock.movement, ht.1, ?_⟩
      have hamt : amt = q := by
        have h := Option.filter_eq_some_iff.mp hq
        simpa [lockedPatch] using h.1
      rw [← hamt]
      exact ht.2
  · exact Triple.bind (locks_keep rfl stable_true fun _ _ => trivial) fun _ =>
      Triple.pure fun _ _ => trivial

/-- A patch that leaves the recorded amount. -/
theorem Sql.fits_patch {l : Ledger} {id : ℕ} {status : Option String} {patch : Meta → Meta}
    (h : ∀ m : Meta, (patch m).usdcAmount = m.usdcAmount ∧
      (patch m).ledgerAmount = m.ledgerAmount ∧ (patch m).settlementUsdc = m.settlementUsdc) :
    (Sql.patchTx id status patch).Fits origin l := by
  intro _ r q hq
  obtain ⟨h1, h2, h3⟩ := h r.metadata
  unfold metaUsdc at hq ⊢
  rw [h1, h2, h3] at hq
  exact .inl hq

theorem settle_locks (step : PayoutStep) {row : TxRow} {amt : ℚ} {status : String}
    (patch : ℕ → Meta → Meta)
    (hfin : step = .finalize → row.metadata.fundsReleased = false)
    (hrel : step = .release → row.metadata.fundsFinalized = false)
    (hpay : row.direction = .payout) (hamt : metaUsdc row = some amt)
    (hpatch : ∀ n m, (patch n m).usdcAmount = m.usdcAmount ∧
      (patch n m).ledgerAmount = m.ledgerAmount ∧ (patch n m).settlementUsdc = m.settlementUsdc) :
    Locks origin pid (fun s => Knows origin s.ledger row)
      (do
        let r ← sql (.payout step row amt)
        sql (.patchTx row.id (some status) (patch r.movement.id))
        let _ ← sql (.getOrgBalance row.orgId (asEnv row.environment))
        return r) fun _ _ => True := by
  refine Triple.bind (locks_keep rfl (stable_knows row) fun t ht => ?_) fun r => ?_
  · exact ⟨ht.wallet, fun _ => ht.amount hpay amt hamt, hfin, hrel⟩
  refine Triple.bind (locks_keep rfl (stable_knows row) fun t _ =>
    Sql.fits_patch (hpatch _)) fun _ => ?_
  exact Triple.bind (locks_keep rfl (stable_knows row) fun _ _ => trivial) fun _ =>
    Triple.pure fun _ _ => trivial

theorem finalizePayoutDebit_locks (orgId : Option String) (id : ℕ) :
    Locks origin pid (fun _ => True) (finalizePayoutDebit orgId id) fun _ _ => True := by
  unfold finalizePayoutDebit
  refine Triple.bind (loadDirected_locks _ _ _) fun row => Triple.assume fun hpay => ?_
  refine Triple.ite (fun _ => Triple.throw fun _ _ => trivial) fun hreleased => ?_
  split
  · exact Triple.throw fun _ _ => trivial
  · rename_i amt hamt
    exact settle_locks .finalize finalizedPatch
      (fun _ => by simpa using hreleased) (fun h => by cases h) hpay hamt
      fun _ _ => ⟨rfl, rfl, rfl⟩

theorem releasePayoutLock_locks (orgId : Option String) (id : ℕ) :
    Locks origin pid (fun _ => True) (releasePayoutLock orgId id) fun _ _ => True := by
  unfold releasePayoutLock
  refine Triple.bind (loadDirected_locks _ _ _) fun row => Triple.assume fun hpay => ?_
  refine Triple.ite (fun _ => Triple.throw fun _ _ => trivial) fun hfinalized => ?_
  split
  · exact Triple.throw fun _ _ => trivial
  · rename_i amt hamt
    exact settle_locks .release releasedPatch
      (fun h => by cases h) (fun _ => by simpa using hfinalized) hpay hamt
      fun _ _ => ⟨rfl, rfl, rfl⟩

/-- A statement of a collection's row, after which nothing is to be remembered. -/
theorem payment_locks {st : Sql (Ans β)} {row : TxRow} (hst : st.failed = .error .database)
    (hfits : ∀ l, (origin row.id).direction = .payment → st.Fits origin l)
    (hpay : row.direction = .payment) :
    Locks origin pid (fun s => Knows origin s.ledger row) (sql st)
      fun _ s => Knows origin s.ledger row :=
  locks_keep hst (stable_knows row) fun t ht => hfits t.ledger (ht.direction ▸ hpay)

/-- A funding records no amount and is on no payout. -/
theorem Sql.Funds.fits {row : TxRow} {γ : Type} {st : Sql γ} (h : st.Funds row) (l : Ledger) :
    st.Fits origin l := by
  cases st with
  | patchTx id' status patch =>
      obtain ⟨-, -, rfl⟩ := h
      exact Sql.fits_patch fun _ => ⟨rfl, rfl, rfl⟩
  | payout step row' amt => exact h.elim
  | insertTx draft => exact h.elim
  | _ => trivial

theorem fundCollectionStellarWallet_locks (row : TxRow) (amt : ℚ) :
    Locks origin pid (fun s => Knows origin s.ledger row) (fundCollectionStellarWallet row amt)
      fun _ s => Knows origin s.ledger row := by
  refine (triple_only (D := lockDiscipline origin) (fundCollectionStellarWallet_only row amt)
    (stable_knows row) (fun {γ} st hst t ht hinv o hc _ => ?_)
    fun _ _ _ => trivial).mono (fun _ hs => hs) (fun _ _ hq => hq) fun _ _ _ => trivial
  obtain ⟨hkeeps, hgrows⟩ := PayoutInv.step hinv hc (hst.fits t.ledger)
  exact ⟨⟨trivial, hkeeps, fun _ _ => hgrows⟩, ht.mono hgrows⟩

theorem settleCollectionCredit_locks (orgId : String) (id : ℕ) :
    Locks origin pid (fun _ => True) (settleCollectionCredit orgId id) fun _ _ => True := by
  unfold settleCollectionCredit
  refine Triple.bind (loadDirected_locks _ _ _) fun row => Triple.assume fun hpay => ?_
  refine Triple.bind (usdcAmountOf_locks (stable_knows row) row) fun amt => ?_
  refine Triple.bind (payment_locks rfl (fun _ _ => trivial) hpay) fun mode => ?_
  refine Triple.bind (payment_locks rfl (fun _ _ => trivial) hpay) fun credit => ?_
  refine Triple.bind (payment_locks rfl (fun _ hd h => ?_) hpay) fun _ => ?_
  · rw [hd] at h
    cases h
  refine Triple.ite (fun _ => ?_) fun _ => ?_
  · refine Triple.bind (R := fun _ _ => True) (Triple.tryCatch (F := fun _ _ => True) ?_ fun _ =>
      Triple.pure fun _ _ => trivial) fun _ => ?_
    · exact (fundCollectionStellarWallet_locks row amt).mono (fun _ hs => hs)
        (fun _ _ _ => trivial) fun _ _ he => he
    · exact Triple.bind (locks_keep rfl stable_true fun _ _ => trivial) fun _ =>
        Triple.pure fun _ _ => trivial
  · exact Triple.bind (payment_locks rfl (fun _ _ => trivial) hpay) fun _ =>
      Triple.pure fun _ _ => trivial

theorem lifecycle_locks : LifecycleRules (lockDiscipline origin) pid where
  load _ _ := locks_keep rfl stable_true fun _ _ => trivial
  loadByExternalId _ := locks_keep rfl stable_true fun _ _ => trivial
  patch _ _ := locks_keep rfl stable_true fun _ _ => Sql.fits_patch fun _ => ⟨rfl, rfl, rfl⟩
  update _ _ := locks_keep rfl stable_true fun _ _ => trivial
  settle := settleCollectionCredit_locks
  finalize := finalizePayoutDebit_locks
  release := releasePayoutLock_locks

theorem PayoutCall.verifies (c : PayoutCall) :
    Verifies (lockDiscipline origin) pid (fun _ => True) c.program := by
  cases c with
  | lock orgId id => exact discard_verifies (lockPayoutFunds_locks orgId id)
  | finalize orgId id => exact discard_verifies (finalizePayoutDebit_locks orgId id)
  | release orgId id => exact discard_verifies (releasePayoutLock_locks orgId id)
  | yellowCard payload =>
      exact discard_verifies (lifecycle_locks.applyInfraYellowCardWebhook payload)
  | flutterwave payload =>
      exact discard_verifies (lifecycle_locks.applyInfraFlutterwaveWebhook payload)

end programs

/-! ### Whole runs -/

/-- The pool of a list of calls. -/
def payoutCalls (s : Store) (calls : List PayoutCall) : Pool Sql Unit Store :=
  ⟨s, calls.map PayoutCall.program⟩

/-- The row an identifier was created with. -/
def Store.createdRow (s : Store) (id : ℕ) : TxRow :=
  (s.tx id).getD ⟨id, "", "", 0, "", "", "", .payment, none, none, none, {}, 0⟩

theorem Store.createdRow_eq {s : Store} (hids : ∀ r ∈ s.txs, ∀ r' ∈ s.txs, r.id = r'.id → r = r')
    {r : TxRow} (hr : r ∈ s.txs) : s.createdRow r.id = r := by
  unfold Store.createdRow
  cases htx : s.tx r.id with
  | none =>
      have hnone := List.find?_eq_none.mp htx r hr
      simp at hnone
  | some r' =>
      obtain ⟨hmem, hid⟩ := Store.tx_mem htx
      exact hids r' hmem r hr hid

/-- New payouts are in order. -/
theorem NewPayouts.inv {s : Store} (h : NewPayouts s) : PayoutInv s.createdRow s := by
  have hheld : ∀ k ref, heldFor s.ledger.movements k ref = 0 := fun k ref =>
    heldFor_eq_zero_of_lockSign fun m hm _ => h.noMoves m hm
  refine ⟨⟨?_, ?_, ?_, ?_, ?_, ?_, ?_, fun k => ?_⟩, fun k => ?_, fun r hr => ?_⟩
  · intro step id m hm
    rw [h.noKeys] at hm
    cases hm
  · exact fun m hm hs => absurd (h.noMoves m hm) hs
  · intro step id m _ hm
    rw [h.noKeys] at hm
    cases hm
  · exact fun id => .inl (h.noKeys _ id)
  · refine List.Pairwise.imp_of_mem (fun {m n} hm _ _ hsettles => ?_) (List.pairwise_of_forall
      (R := fun _ _ => True) fun _ _ => trivial)
    have hsign := h.noMoves m hm
    simp only [Movement.settles, Bool.or_eq_true, decide_eq_true_eq] at hsettles
    rcases hsettles with hk | hk <;> rw [hk] at hsign <;> cases hsign
  · exact fun k ref => (hheld k ref).ge
  · intro id m hm
    rw [h.noKeys] at hm
    cases hm
  · rw [h.noLocks, Finset.sum_eq_zero fun ref _ => hheld k ref]
  · rw [h.noLocks]
    decide
  · have horigin := Store.createdRow_eq h.ids hr
    refine ⟨by rw [horigin], by rw [horigin], fun hpay q hq => ?_⟩
    rw [h.noAmount r hr hpay] at hq
    cases hq

/-- **Locks are accounted per payout.** In every run of any calls, in any interleaving, in which
each posting acts on metadata that is current, no payout is settled twice, and the locked balance
of every wallet is the sum of what its payouts hold, none of it negative. -/
theorem locks_accounted {s : Store} (hs : NewPayouts s) (calls : List PayoutCall)
    (sched : List (ℕ × Outside))
    (hcurrent : Pool.Along services (Pool.CondAt ReadsCurrent) (payoutCalls s calls) sched) :
    LocksAccounted ((payoutCalls s calls).run services sched).store.ledger := by
  have hstart : Pool.Verified services (lockDiscipline s.createdRow) (fun _ _ _ => True)
      (payoutCalls s calls) := by
    refine Pool.Verified.start hs.inv fun i p hp => ?_
    obtain ⟨c, -, rfl⟩ := List.mem_map.mp (List.mem_of_getElem? hp)
    exact c.verifies s trivial
  have hbooks := (Pool.run_sound hstart sched hcurrent).1.1.books
  exact ⟨hbooks.once, hbooks.accounted, hbooks.nonneg⟩

/-- A new payout of 100 USDC. -/
def newPayout (id : ℕ) (externalId : String) : TxRow :=
  ⟨id, "org", "live", 100, "USDC", "pending", "crypto", .payout, some externalId, none, none, {}, 0⟩

/-- A wallet of 500 USDC and two new payouts. -/
def twoPayouts : Store where
  ledger := ⟨fun k => if k = (newPayout 1 "one").wallet then
    some ⟨.active, ⟨500 * 10 ^ 7, 0, 0⟩⟩ else none, [], 0⟩
  txs := [newPayout 1 "one", newPayout 2 "two"]
  settlements := []
  requests := []
  payments := []
  nextId := 3

theorem twoPayouts_new : NewPayouts twoPayouts where
  noMoves _ hm := by cases hm
  noKeys _ _ := rfl
  noLocks k := by
    unfold twoPayouts Ledger.row
    dsimp only
    split_ifs <;> rfl
  ids := by decide
  noAmount := by decide

/-- Both are locked; the first is reported as paid and as failed. -/
def paidAndFailed : List PayoutCall :=
  [.lock "org" 1, .lock "org" 2, .yellowCard ⟨none, some "one", some "complete", none⟩,
    .yellowCard ⟨none, some "one", some "failed", none⟩]

/-- Both reports in full, one after the other. -/
def reportedInTurn : List (ℕ × Outside) :=
  steps 0 4 {} ++ steps 1 4 {} ++ steps 2 5 {} ++ steps 3 5 {}

/-- Both reports read the payout before either posts. -/
def reportedAtOnce : List (ℕ × Outside) :=
  steps 0 4 {} ++ steps 1 4 {} ++ steps 2 2 {} ++ steps 3 2 {} ++ steps 2 3 {} ++ steps 3 3 {}

/-- In turn, the second report finds the payout finalized. -/
theorem locks_accounted_inTurn :
    LocksAccounted
      ((payoutCalls twoPayouts paidAndFailed).run services reportedInTurn).store.ledger :=
  locks_accounted twoPayouts_new paidAndFailed reportedInTurn (by decide +kernel)

/-- At once, the payout is finalized and released: its release consumes the lock of the other
payout. -/
theorem finalized_and_released :
    NewPayouts twoPayouts ∧ ¬ LocksAccounted
      ((payoutCalls twoPayouts paidAndFailed).run services reportedAtOnce).store.ledger := by
  refine ⟨twoPayouts_new, fun h => ?_⟩
  have hheld := h.nonneg (newPayout 1 "one").wallet "1"
  revert hheld
  decide +kernel

end DayfiBackend.Infra
