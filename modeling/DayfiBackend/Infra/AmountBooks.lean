import DayfiBackend.Infra.CollectionCredit
import DayfiBackend.Infra.PayoutLocks

/-!
# The amounts of a transaction in the ledger and on its rows

The movements of a collection and of a payout have one amount (`AmountsAgree`) while the amount a
payout's row records is the one its lock was posted with, a payout is settled only with the
amount its row records, and a collection's funding has the amount of its pending credit
(`AmountInv`). Each statement keeps this when a lock or pending credit that is already posted is
asked for again with the amount posted (`AsksPosted`, `AmountInv.step`).
-/

namespace DayfiBackend.Infra

open DayfiBackend.Found DayfiBackend.Found.Prog DayfiBackend.Found.Binary64
  DayfiBackend.Found.Keys

/-! ### Amounts -/

/-- The minor units a call that asks for `v` posts. -/
def postedAmount (v : ℚ) : ℤ := toNumeric (round7 (nearest v))

/-- The movement of a step of a collection. -/
def Ledger.collected (l : Ledger) (step : CollectionStep) (id : ℕ) : Option Movement :=
  findMovementByIdempotency l (step.key id)

/-- The amounts of each transaction agree. -/
structure AmountsAgree (l : Ledger) : Prop where
  collections : ∀ id m n, l.collected .pending id = some m → l.collected .available id = some n →
    m.amount = n.amount
  payouts : ∀ step id m n, l.posted .lock id = some m → l.posted step id = some n →
    m.amount = n.amount

/-- What moves the money of collections and payouts. -/
inductive LifecycleCall where
  | collection (d : Delivery)
  | payout (c : PayoutCall)
  deriving DecidableEq, Repr

def LifecycleCall.program : LifecycleCall → Prog Sql Unit
  | collection d => d.program
  | payout c => c.program

/-- Nothing was posted or funded. -/
structure Unposted (s : Store) : Prop where
  ids : UniqueIds s
  payouts : ∀ step id, s.ledger.posted step id = none
  collections : ∀ step id, s.ledger.collected step id = none
  fundings : s.fundings = []

/-- A lock or pending credit that is posted is asked for again with the amount posted, and
rounding a pending credit once more does not change it. -/
def AsksPosted {β : Type} (_pid : ℕ) (st : Sql β) (_o : Outside) (s : Store) : Prop :=
  match st with
  | .payout .lock row amt => (s.ledger.posted .lock row.id).all (·.amount = postedAmount amt) = true
  | .collection .pending row amt =>
      (s.ledger.collected .pending row.id).all (·.amount = postedAmount amt) = true ∧
        postedAmount (num (postedAmount amt)) = postedAmount amt
  | _ => True

instance {β : Type} (pid : ℕ) (st : Sql β) (o : Outside) (s : Store) :
    Decidable (AsksPosted pid st o s) :=
  decidable_of_bool (match st with
    | .payout .lock row amt => (s.ledger.posted .lock row.id).all (·.amount = postedAmount amt)
    | .collection .pending row amt =>
        decide ((s.ledger.collected .pending row.id).all (·.amount = postedAmount amt) = true ∧
          postedAmount (num (postedAmount amt)) = postedAmount amt)
    | _ => true) (by
      cases st with
      | payout step row amt =>
          cases step <;> first | exact Iff.rfl | exact iff_of_true rfl trivial
      | collection step row amt =>
          cases step <;> first | exact decide_eq_true_iff | exact iff_of_true rfl trivial
      | _ => exact iff_of_true rfl trivial)

/-- Amounts in the exact range pass. -/
theorem postedAmount_num {c : ℤ} (h : |c| ≤ exactLimit) : postedAmount (num c) = c := by
  unfold postedAmount
  rw [nearest_num, round7_num h, toNumeric_num h]

/-! ### The invariant -/

/-- The row of the payout records an amount that is posted as `a`. -/
def Store.Records (s : Store) (id : ℕ) (a : ℤ) : Prop :=
  ∃ r ∈ s.txs, r.id = id ∧ r.direction = .payout ∧ ∃ q, metaUsdc r = some q ∧ postedAmount q = a

theorem fundingKey_inj {id id' : ℕ} : fundingKey id = fundingKey id' ↔ id = id' := by
  constructor
  · intro h
    exact toString_inj.mp ((Keys.key_inj _ "" _ _).mp (congrArg (· ++ "") h))
  · rintro rfl
    rfl

/-- The pending credit of the collection was posted with the amount. -/
def Ledger.Pended (l : Ledger) (id : ℕ) (a : ℤ) : Prop :=
  ∃ m, l.collected .pending id = some m ∧ m.amount = a

/-- The invariant of calls that ask for the posted amounts. -/
structure AmountInv (s : Store) : Prop where
  ids : UniqueIds s
  locked : ∀ id m a, s.ledger.posted .lock id = some m → s.Records id a → m.amount = a
  settled : ∀ step id m, step ≠ .lock → s.ledger.posted step id = some m → s.Records id m.amount
  pending : ∀ id m, s.ledger.collected .pending id = some m →
    postedAmount (num m.amount) = m.amount
  available : ∀ id m, s.ledger.collected .available id = some m → s.ledger.Pended id m.amount
  funded : ∀ f ∈ s.fundings, f.id < s.nextId ∧ f.idempotencyKey = fundingKey f.collectionId ∧
    s.ledger.Pended f.collectionId f.amount
  fundingIds : ∀ f ∈ s.fundings, ∀ f' ∈ s.fundings, f.id = f'.id →
    f.collectionId = f'.collectionId

/-- What a call may count on: movements, rows, recorded amounts and fundings stay, and an amount
is recorded only once it is locked. -/
structure Follows (s t : Store) : Prop where
  movements : ∀ k m, findMovementByIdempotency s.ledger k = some m →
    findMovementByIdempotency t.ledger k = some m
  rows : KeepsRows s t
  records : ∀ id a, s.Records id a → t.Records id a
  recorded : ∀ id a, t.Records id a → s.Records id a ∨ t.ledger.posted .lock id ≠ none
  fundings : ∀ f ∈ s.fundings, ∃ f' ∈ t.fundings, f'.id = f.id ∧ f'.collectionId = f.collectionId

theorem Follows.refl (s : Store) : Follows s s :=
  ⟨fun _ _ h => h, fun _ _ h => h, fun _ _ h => h, fun _ _ h => .inl h,
    fun f hf => ⟨f, hf, rfl, rfl⟩⟩

theorem Follows.trans {s t u : Store} (h : Follows s t) (h' : Follows t u) : Follows s u where
  movements k m hm := h'.movements k m (h.movements k m hm)
  rows id dir hs := h'.rows id dir (h.rows id dir hs)
  records id a hs := h'.records id a (h.records id a hs)
  recorded id a hu := by
    rcases h'.recorded id a hu with ht | hlock
    · rcases h.recorded id a ht with hs | hlock
      · exact .inl hs
      · refine .inr fun hnone => hlock ?_
        cases hm : t.ledger.posted .lock id with
        | none => rfl
        | some m =>
            have hstay : u.ledger.posted .lock id = some m := h'.movements _ m hm
            rw [hstay] at hnone
            cases hnone
    · exact .inr hlock
  fundings f hf := by
    obtain ⟨f', hf', hid, hcol⟩ := h.fundings f hf
    obtain ⟨f'', hf'', hid', hcol'⟩ := h'.fundings f' hf'
    exact ⟨f'', hf'', hid'.trans hid, hcol'.trans hcol⟩

theorem Follows.pended {s t : Store} (h : Follows s t) {id : ℕ} {a : ℤ}
    (hp : s.ledger.Pended id a) : t.ledger.Pended id a := by
  obtain ⟨m, hm, ha⟩ := hp
  exact ⟨m, h.movements _ m hm, ha⟩

/-- The discipline of calls that ask for the posted amounts. -/
def amountDiscipline : Discipline Sql Outside Store where
  inv := AmountInv
  rely _ := Follows
  cond := AsksPosted
  good _ _ _ _ _ _ := True
  rely_refl _ := Follows.refl
  rely_trans _ _ _ _ := Follows.trans

/-- The amounts agree where the invariant holds. -/
theorem AmountInv.agree {s : Store} (h : AmountInv s) : AmountsAgree s.ledger where
  collections id m n hm hn := by
    obtain ⟨m', hm', ha⟩ := h.available id n hn
    rw [hm] at hm'
    cases hm'
    exact ha
  payouts step id m n hm hn := by
    by_cases hstep : step = .lock
    · rw [hstep, hm] at hn
      cases hn
      rfl
    · exact h.locked id m n.amount hm (h.settled step id n hstep hn)

/-- A statement that may be run. -/
def Sql.Agrees (s : Store) {β : Type} : Sql β → Prop
  | .insertTx _ => False
  | .payout .lock row amt =>
      ∀ a, s.Records row.id a → s.ledger.posted .lock row.id = none → postedAmount amt = a
  | .payout _ row amt => s.Records row.id (postedAmount amt)
  | .collection .available row amt => s.ledger.Pended row.id (postedAmount amt)
  | .patchTx id _ patch => (∀ r : TxRow, metaUsdc { r with metadata := patch r.metadata } =
      metaUsdc r) ∨ s.Has id .payment ∨
        ∃ amt n m, patch = lockedPatch amt n ∧ 0 < amt ∧ s.ledger.posted .lock id = some m ∧
          m.amount = postedAmount amt
  | .insertFunding draft => draft.idempotencyKey = fundingKey draft.collectionId ∧
      s.ledger.Pended draft.collectionId draft.amount
  | .updateFundings _ f => ∀ r, (f r).id = r.id ∧ (f r).collectionId = r.collectionId ∧
      (f r).amount = r.amount ∧ (f r).idempotencyKey = r.idempotencyKey
  | _ => True

section step

variable {s : Store}

/-- A payout has one row, so it records one amount. -/
theorem Store.Records.eq {id : ℕ} {a b : ℤ} (hids : UniqueIds s) (h : s.Records id a)
    (h' : s.Records id b) : a = b := by
  obtain ⟨r, hr, hid, -, q, hq, ha⟩ := h
  obtain ⟨r', hr', hid', -, q', hq', hb⟩ := h'
  have hrr : r = r' := hids r hr r' hr' (hid.trans hid'.symm)
  subst hrr
  rw [hq] at hq'
  cases hq'
  rw [← ha, ← hb]

/-- A step that changes no movement, no transaction and no funding. -/
theorem AmountInv.same {t : Store} (h : AmountInv s)
    (hfind : ∀ k, findMovementByIdempotency t.ledger k = findMovementByIdempotency s.ledger k)
    (htxs : t.txs = s.txs) (hfundings : t.fundings = s.fundings) (hnext : s.nextId ≤ t.nextId) :
    AmountInv t ∧ Follows s t := by
  have hpost : ∀ step id, t.ledger.posted step id = s.ledger.posted step id :=
    fun _ _ => hfind _
  have hcol : ∀ step id, t.ledger.collected step id = s.ledger.collected step id :=
    fun _ _ => hfind _
  have hrec : ∀ id a, t.Records id a ↔ s.Records id a := fun id a => by
    unfold Store.Records
    rw [htxs]
  have hpend : ∀ id a, t.ledger.Pended id a ↔ s.ledger.Pended id a := fun id a => by
    unfold Ledger.Pended
    rw [hcol]
  refine ⟨⟨?_, ?_, ?_, ?_, ?_, ?_, ?_⟩, ⟨fun k m hm => ?_, ?_, fun id a => (hrec id a).mpr,
    fun id a ha => .inl ((hrec id a).mp ha), ?_⟩⟩
  · unfold UniqueIds
    rw [htxs]
    exact h.ids
  · simpa only [hpost, hrec] using h.locked
  · simpa only [hpost, hrec] using h.settled
  · simpa only [hcol] using h.pending
  · simpa only [hcol, hpend] using h.available
  · rw [hfundings]
    exact fun f hf => ⟨(h.funded f hf).1.trans_le hnext, (h.funded f hf).2.1,
      (hpend _ _).mpr (h.funded f hf).2.2⟩
  · rw [hfundings]
    exact h.fundingIds
  · rw [hfind, hm]
  · unfold KeepsRows Store.Has
    rw [htxs]
    exact fun _ _ hs => hs
  · rw [hfundings]
    exact fun f hf => ⟨f, hf, rfl, rfl⟩

/-- The ledger after a posting, as it is looked up. -/
theorem find_post {op : LedgerOp} {p : LedgerWriteParams} {amount : ℚ} {k : String} {m : Movement}
    (hfresh : findMovementByIdempotency s.ledger p.key = none)
    (hm : findMovementByIdempotency s.ledger k = some m) :
    findMovementByIdempotency (op.rule.posted p amount s.ledger) k = some m := by
  rw [find_posted, if_neg, hm]
  rintro rfl
  rw [hfresh] at hm
  cases hm

/-- A posting follows. -/
theorem follows_post {op : LedgerOp} {p : LedgerWriteParams} {amount : ℚ}
    (hfresh : findMovementByIdempotency s.ledger p.key = none) :
    Follows s { s with ledger := op.rule.posted p amount s.ledger } where
  movements _ _ := find_post hfresh
  rows _ _ hs := hs
  records _ _ hs := hs
  recorded _ _ ha := .inl ha
  fundings f hf := ⟨f, hf, rfl, rfl⟩

/-- The amount of a posting. -/
theorem posted_amount {op : LedgerOp} {p : LedgerWriteParams} {amount v : ℚ} {l : Ledger}
    (hp : PostsOn op.rule p amount l) (hv : p.amount = some v) :
    (op.rule.movement p amount l).amount = postedAmount v := by
  have hparsed := hp.parsed
  rw [hv, parseAmount] at hparsed
  split_ifs at hparsed
  cases hparsed
  rfl

/-- A step of a payout keeps the invariant. -/
theorem AmountInv.payout (h : AmountInv s) {step : PayoutStep} {row : TxRow} {amt amount : ℚ}
    (hst : (Sql.payout step row amt).Agrees s)
    (hp : PostsOn step.op.rule (step.params row amt) amount s.ledger) :
    AmountInv { s with ledger := step.op.rule.posted (step.params row amt) amount s.ledger } := by
  have hamount := posted_amount hp (v := amt) rfl
  have hpost : ∀ step' id, Ledger.posted
      (step.op.rule.posted (step.params row amt) amount s.ledger) step' id =
        if step = step' ∧ row.id = id then
          some (step.op.rule.movement (step.params row amt) amount s.ledger)
        else s.ledger.posted step' id := fun step' id => posted_step step step' row amt id
  have hcol : ∀ step' id, Ledger.collected
      (step.op.rule.posted (step.params row amt) amount s.ledger) step' id =
        s.ledger.collected step' id := fun step' id => by
    unfold Ledger.collected
    rw [find_posted, PayoutStep.params_key, if_neg (step.key_ne_collection step' row.id id)]
  have hfresh : s.ledger.posted step row.id = none := by
    unfold Ledger.posted
    rw [← step.params_key row amt]
    exact hp.keyFresh
  refine ⟨h.ids, fun id m a hm hrec => ?_, fun step' id m hstep' hm => ?_, ?_, ?_, ?_,
    h.fundingIds⟩
  · dsimp only at hm
    rw [hpost] at hm
    split_ifs at hm with hid
    · obtain ⟨rfl, rfl⟩ := hid
      cases hm
      rw [hamount]
      exact hst a hrec hfresh
    · exact h.locked id m a hm hrec
  · dsimp only at hm
    rw [hpost] at hm
    split_ifs at hm with hid
    · obtain ⟨rfl, rfl⟩ := hid
      cases hm
      rw [hamount]
      cases step with
      | lock => exact absurd rfl hstep'
      | finalize => exact hst
      | release => exact hst
    · exact h.settled step' id m hstep' hm
  · simpa only [hcol] using h.pending
  · simpa only [Ledger.Pended, hcol] using h.available
  · simpa only [Ledger.Pended, hcol] using h.funded

/-- A step of a collection keeps the invariant. -/
theorem AmountInv.collection (h : AmountInv s) {step : CollectionStep} {row : TxRow}
    {amt amount : ℚ} {pid : ℕ} {o : Outside}
    (hcond : AsksPosted pid (.collection step row amt) o s)
    (hst : (Sql.collection step row amt).Agrees s)
    (hp : PostsOn step.op.rule (step.params row amt) amount s.ledger) :
    AmountInv { s with ledger := step.op.rule.posted (step.params row amt) amount s.ledger } := by
  have hamount := posted_amount hp (v := amt) rfl
  have hpost : ∀ step' id, Ledger.posted
      (step.op.rule.posted (step.params row amt) amount s.ledger) step' id =
        s.ledger.posted step' id := fun step' id =>
    posted_of_key_ne (by
      rw [CollectionStep.params_key]
      exact (step'.key_ne_collection step id row.id).symm)
  have hcol : ∀ step' id, Ledger.collected
      (step.op.rule.posted (step.params row amt) amount s.ledger) step' id =
        if step = step' ∧ row.id = id then
          some (step.op.rule.movement (step.params row amt) amount s.ledger)
        else s.ledger.collected step' id := fun step' id => by
    unfold Ledger.collected
    rw [find_posted, CollectionStep.params_key]
    simp only [CollectionStep.key_inj]
  have hfresh : findMovementByIdempotency s.ledger (step.params row amt).key = none := hp.keyFresh
  have hpend : ∀ {id a}, s.ledger.Pended id a →
      (step.op.rule.posted (step.params row amt) amount s.ledger).Pended id a :=
    fun hs => (follows_post hfresh).pended hs
  refine ⟨h.ids, ?_, ?_, fun id m hm => ?_, fun id m hm => ?_, fun f hf => ?_, h.fundingIds⟩
  · simp only [hpost]
    exact h.locked
  · simp only [hpost]
    exact h.settled
  · dsimp only at hm
    rw [hcol] at hm
    split_ifs at hm with hid
    · obtain ⟨rfl, rfl⟩ := hid
      cases hm
      rw [hamount]
      exact hcond.2
    · exact h.pending id m hm
  · dsimp only at hm
    rw [hcol] at hm
    split_ifs at hm with hid
    · obtain ⟨rfl, rfl⟩ := hid
      cases hm
      rw [hamount]
      exact hpend hst
    · exact hpend (h.available id m hm)
  · exact ⟨(h.funded f hf).1, (h.funded f hf).2.1, hpend (h.funded f hf).2.2⟩

/-- The amount a lock patch records. -/
theorem metaUsdc_locked {amt : ℚ} (hpos : 0 < amt) (n : ℕ) (r : TxRow) :
    metaUsdc { r with metadata := lockedPatch amt n r.metadata } = some amt := by
  unfold metaUsdc lockedPatch
  exact Option.filter_eq_some_iff.mpr ⟨rfl, by simpa using hpos⟩

/-- A patch keeps the invariant. -/
theorem AmountInv.patch (h : AmountInv s) {id : ℕ} {status : Option String}
    {patch : Meta → Meta} (hst : (Sql.patchTx id status patch).Agrees s) (i : ℕ) (o : Outside) :
    AmountInv ((Sql.patchTx id status patch).run i o s).2 ∧
      Follows s ((Sql.patchTx id status patch).run i o s).2 := by
  set f : TxRow → TxRow := fun r =>
    { r with status := status.getD r.status, metadata := patch r.metadata } with hf
  have hrows := Store.setTx_rows h.ids id (f := f) (fun _ => rfl) fun _ => rfl
  -- the amount a payout's row records after the patch
  have hafter : ∀ r ∈ s.txs, r.id = id → r.direction = .payout →
      metaUsdc (f r) = metaUsdc r ∨ ∃ amt m, metaUsdc (f r) = some amt ∧
        s.ledger.posted .lock id = some m ∧ m.amount = postedAmount amt := by
    intro r hr hid hdir
    rcases hst with hsame | ⟨r', hr', hid', hdir'⟩ | ⟨amt, n, m, rfl, hpos, hm, ha⟩
    · exact .inl (hsame r)
    · rw [h.ids r hr r' hr' (hid.trans hid'.symm), hdir'] at hdir
      cases hdir
    · exact .inr ⟨amt, m, metaUsdc_locked hpos n r, hm, ha⟩
  have hto : ∀ id' a, s.Records id' a → (s.setTx id f).Records id' a := by
    rintro id' a ⟨r, hr, hid, hdir, q, hq, ha⟩
    refine ⟨_, List.mem_map_of_mem hr, ?_⟩
    by_cases hrid : r.id = id
    · rw [if_pos hrid]
      refine ⟨hid, hdir, ?_⟩
      rcases hafter r hr hrid hdir with hsame | ⟨amt, m, hamt, hm, hma⟩
      · exact ⟨q, hsame.trans hq, ha⟩
      · refine ⟨amt, hamt, ?_⟩
        rw [← hma]
        exact h.locked id m a hm ⟨r, hr, hrid, hdir, q, hq, ha⟩
    · rw [if_neg hrid]
      exact ⟨hid, hdir, q, hq, ha⟩
  have hfrom : ∀ id' a, (s.setTx id f).Records id' a → s.Records id' a ∨
      ∃ m, s.ledger.posted .lock id' = some m ∧ m.amount = a := by
    rintro id' a ⟨r', hr', hid', hdir, q, hq, ha⟩
    obtain ⟨r, hr, rfl⟩ := List.mem_map.mp hr'
    by_cases hrid : r.id = id
    · rw [if_pos hrid] at hid' hdir hq
      have hide : r.id = id' := hid'
      rcases hafter r hr hrid hdir with hsame | ⟨amt, m, hamt, hm, hma⟩
      · exact .inl ⟨r, hr, hide, hdir, q, hsame.symm.trans hq, ha⟩
      · rw [hamt] at hq
        cases hq
        refine .inr ⟨m, ?_, hma.trans ha⟩
        rw [← hide, hrid]
        exact hm
    · rw [if_neg hrid] at hid' hdir hq
      exact .inl ⟨r, hr, hid', hdir, q, hq, ha⟩
  refine ⟨⟨hrows.1, fun id' m a hm hrec => ?_, fun step id' m hstep hm =>
    hto id' _ (h.settled step id' m hstep hm), h.pending, h.available, h.funded, h.fundingIds⟩,
    ⟨fun _ _ hm => hm, hrows.2, hto, fun id' a hrec => ?_, fun f hf => ⟨f, hf, rfl, rfl⟩⟩⟩
  · rcases hfrom id' a hrec with hs | ⟨m', hm', ha⟩
    · exact h.locked id' m a hm hs
    · have hmm : some m = some m' := hm.symm.trans hm'
      cases hmm
      exact ha
  · rcases hfrom id' a hrec with hs | ⟨m', hm', -⟩
    · exact .inl hs
    · refine .inr fun hnone => ?_
      have hmm : some m' = none := hm'.symm.trans hnone
      cases hmm

/-- A new funding keeps the invariant. -/
theorem AmountInv.insertFunding (h : AmountInv s) {draft : FundingRow}
    (hst : (Sql.insertFunding draft).Agrees s) (i : ℕ) (o : Outside) :
    AmountInv ((Sql.insertFunding draft).run i o s).2 ∧
      Follows s ((Sql.insertFunding draft).run i o s).2 := by
  simp only [Sql.run]
  split_ifs with hfull
  · exact ⟨h, .refl s⟩
  · refine ⟨⟨h.ids, h.locked, h.settled, h.pending, h.available, fun f hf => ?_,
      fun f hf f' hf' hid => ?_⟩, ⟨fun _ _ hm => hm, fun _ _ hs => hs, fun _ _ hs => hs,
      fun _ _ hs => .inl hs, fun f hf => ⟨f, List.mem_cons_of_mem _ hf, rfl, rfl⟩⟩⟩
    · rcases List.mem_cons.mp hf with rfl | hf
      · exact ⟨Nat.lt_succ_self _, hst⟩
      · exact ⟨(h.funded f hf).1.trans (Nat.lt_succ_self _), (h.funded f hf).2⟩
    · rcases List.mem_cons.mp hf with rfl | hf <;> rcases List.mem_cons.mp hf' with rfl | hf'
      · rfl
      · have hlt := (h.funded f' hf').1
        rw [← hid] at hlt
        exact absurd hlt (lt_irrefl _)
      · have hlt := (h.funded f hf).1
        rw [hid] at hlt
        exact absurd hlt (lt_irrefl _)
      · exact h.fundingIds f hf f' hf' hid

/-- An update of fundings keeps the invariant. -/
theorem AmountInv.updateFundings (h : AmountInv s) {which : FundingRow → Bool}
    {f : FundingRow → FundingRow} (hst : (Sql.updateFundings which f).Agrees s) (i : ℕ)
    (o : Outside) : AmountInv ((Sql.updateFundings which f).run i o s).2 ∧
      Follows s ((Sql.updateFundings which f).run i o s).2 := by
  set g : FundingRow → FundingRow := fun r => if which r then f r else r with hg
  have hkeep : ∀ r, (g r).id = r.id ∧ (g r).collectionId = r.collectionId ∧
      (g r).amount = r.amount ∧ (g r).idempotencyKey = r.idempotencyKey := fun r => by
    simp only [hg]
    split_ifs
    · exact hst r
    · exact ⟨rfl, rfl, rfl, rfl⟩
  refine ⟨⟨h.ids, h.locked, h.settled, h.pending, h.available, fun r hr => ?_,
    fun r hr r' hr' hid => ?_⟩, ⟨fun _ _ hm => hm, fun _ _ hs => hs, fun _ _ hs => hs,
    fun _ _ hs => .inl hs, fun r hr =>
      ⟨g r, List.mem_map_of_mem hr, (hkeep r).1, (hkeep r).2.1⟩⟩⟩
  · obtain ⟨r₀, hr₀, rfl⟩ := List.mem_map.mp hr
    obtain ⟨hid, hcol, hamt, hkey⟩ := hkeep r₀
    rw [hid, hcol, hamt, hkey]
    exact h.funded r₀ hr₀
  · obtain ⟨r₀, hr₀, rfl⟩ := List.mem_map.mp hr
    obtain ⟨r₁, hr₁, rfl⟩ := List.mem_map.mp hr'
    rw [(hkeep r₀).2.1, (hkeep r₁).2.1]
    exact h.fundingIds r₀ hr₀ r₁ hr₁ ((hkeep r₀).1.symm.trans (hid.trans (hkeep r₁).1))

/-- **One statement keeps the invariant.** -/
theorem AmountInv.step (h : AmountInv s) {β : Type} {st : Sql β} {pid : ℕ} {o : Outside}
    (hcond : AsksPosted pid st o s) (hst : st.Agrees s) :
    AmountInv (st.run pid o s).2 ∧ Follows s (st.run pid o s).2 := by
  by_cases hf : st.writesFunding = true
  · cases st with
    | insertFunding draft => exact h.insertFunding hst pid o
    | updateFundings which f => exact h.updateFundings hst pid o
    | _ => cases hf
  have hfundings := Sql.run_fundings (by simpa using hf) pid o s
  by_cases hq : st.quiet = true
  · have hsame := Sql.run_same hq pid o s
    exact h.same hsame.find hsame.txs hfundings hsame.nextId
  cases st with
  | insertTx draft => exact hst.elim
  | payout step row amt =>
      change AmountInv (s.post _ _).2 ∧ Follows s (s.post _ _).2
      rcases s.post_cases step.op (step.params row amt) with
        ⟨e, he⟩ | ⟨m, -, he⟩ | ⟨amount, hp, he⟩ <;> rw [he]
      · exact ⟨h, .refl s⟩
      · exact ⟨h, .refl s⟩
      · exact ⟨h.payout hst hp.toPostsOn, follows_post hp.keyFresh⟩
  | collection step row amt =>
      change AmountInv (s.post _ _).2 ∧ Follows s (s.post _ _).2
      rcases s.post_cases step.op (step.params row amt) with
        ⟨e, he⟩ | ⟨m, -, he⟩ | ⟨amount, hp, he⟩ <;> rw [he]
      · exact ⟨h, .refl s⟩
      · exact ⟨h, .refl s⟩
      · exact ⟨h.collection hcond hst hp.toPostsOn, follows_post hp.keyFresh⟩
  | patchTx id status patch => exact h.patch hst pid o
  | createPaymentRequest id seq =>
      simp only [Sql.run]
      split <;> exact h.same (fun _ => rfl) rfl rfl le_rfl
  | providerFails seq => exact h.same (fun _ => rfl) rfl rfl le_rfl
  | _ => exact absurd rfl hq

end step

end DayfiBackend.Infra
