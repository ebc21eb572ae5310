import DayfiBackend.Infra.AmountBooks

/-!
# The amounts of a transaction agree, as long as no retry asks for another amount

A collection's pending credit and a payout's lock are posted for an amount that is recorded on
the transaction only afterwards. A call that comes in between resolves the amount again, from a
new quote; its posting is answered by the one already there, and it records, and later steps
post, an amount nobody credited or locked (`amounts_disagree`). While a pending credit or a lock
that is already posted is asked for again with the amount posted, and a credited amount is not
changed by being rounded once more, the release of a collection has the amount of its pending
credit and the finalize or release of a payout the amount of its lock (`amounts_agree`).
-/

namespace DayfiBackend.Infra

open DayfiBackend.Found DayfiBackend.Found.Prog DayfiBackend.Found.Binary64
  DayfiBackend.Found.Keys

/-! ### The programs -/

section programs

variable {pid : ℕ} {β : Type} {P : Store → Prop}

/-- The call keeps the discipline from `P`, and what it returns meets `Q`. -/
abbrev Agreeing (pid : ℕ) (P : Store → Prop) (p : Call β) (Q : β → Store → Prop) : Prop :=
  Triple services amountDiscipline pid P p Q fun _ _ => True

/-- The rule of a statement. -/
theorem agreeing_sql {st : Sql (Ans β)} {Q : β → Store → Prop}
    (hst : st.failed = .error .database) (hstable : Stable amountDiscipline pid P)
    (hagrees : ∀ t, P t → AmountInv t → st.Agrees t)
    (hans : ∀ t o b, P t → AmountInv t → AsksPosted pid st o t → (st.run pid o t).1 = .ok b →
      Follows t (st.run pid o t).2 → Q b (st.run pid o t).2) :
    Agreeing pid P (sql st) Q := by
  refine triple_sql hst hstable (fun t ht hinv o hc _ => ?_) fun _ _ _ _ _ _ => ⟨trivial, trivial⟩
  obtain ⟨hkeeps, hfollows⟩ := AmountInv.step hinv hc (hagrees t ht hinv)
  refine ⟨⟨trivial, hkeeps, fun _ _ => hfollows⟩, ?_⟩
  unfold Answers
  split
  · rename_i b hb
    exact hans t o b ht hinv hc hb hfollows
  · trivial

/-- A statement whose answer does not matter. -/
theorem agreeing_keep {st : Sql (Ans β)} (hst : st.failed = .error .database)
    (hstable : Stable amountDiscipline pid P) (hagrees : ∀ t, P t → st.Agrees t) :
    Agreeing pid P (sql st) fun _ => P :=
  agreeing_sql hst hstable (fun t ht _ => hagrees t ht) fun t _ _ ht _ _ _ hf =>
    hstable t _ ht hf

/-- A patch of the status. -/
theorem status_agreeing (hstable : Stable amountDiscipline pid P) (i : ℕ)
    (status : Option String) :
    Agreeing pid P (sql (.patchTx i status id)) fun _ => P :=
  agreeing_keep rfl hstable fun _ _ => .inl fun _ => rfl

theorem stable_anything : Stable amountDiscipline pid fun _ => True := fun _ _ _ _ => trivial

/-- What is known of a row that was read. -/
structure ReadTx (row : TxRow) (s : Store) : Prop where
  has : s.Has row.id row.direction
  amount : row.direction = .payout → ∀ q, metaUsdc row = some q →
    s.Records row.id (postedAmount q)
  noAmount : row.direction = .payout → metaUsdc row = none → ∀ a, s.Records row.id a →
    s.ledger.posted .lock row.id ≠ none

theorem stable_readTx (row : TxRow) : Stable amountDiscipline pid (ReadTx row) := by
  intro s t h hf
  refine ⟨hf.rows _ _ h.has, fun hd q hq => hf.records _ _ (h.amount hd q hq),
    fun hd hq a ha hnone => ?_⟩
  rcases hf.recorded _ a ha with hs | hlock
  · have hposted := h.noAmount hd hq a hs
    cases hm : s.ledger.posted .lock row.id with
    | none => exact hposted hm
    | some m =>
        have hmm : some m = none := (hf.movements _ m hm).symm.trans hnone
        cases hmm
  · exact hlock hnone

theorem loadDirected_agreeing (direction : TxDirection) (id : ℕ) (orgId : Option String) :
    Agreeing pid (fun _ => True) (loadDirected direction id orgId)
      fun row s => row.direction = direction ∧ ReadTx row s := by
  unfold loadDirected
  refine Triple.bind (R := fun found s => ∀ row ∈ found, ReadTx row s)
    (agreeing_sql rfl stable_anything (fun _ _ _ => trivial) ?_) fun found => ?_
  · intro t o found _ hinv _ hfound _ row hrow
    have hopt : (t.tx id).filter (fun r => orgId.all (r.orgId = ·)) = found :=
      Except.ok.inj hfound
    rw [Option.mem_def.mp hrow] at hopt
    have hmem := (Store.tx_mem (Option.filter_eq_some_iff.mp hopt).1).1
    refine ⟨⟨row, hmem, rfl, rfl⟩, fun hd q hq => ⟨row, hmem, rfl, hd, q, hq, rfl⟩, ?_⟩
    rintro - hnone a ⟨r, hr, hid, -, q, hq, -⟩
    rw [hinv.ids r hr row hmem hid, hnone] at hq
    cases hq
  · cases found with
    | none => exact Triple.throw fun _ _ => trivial
    | some row =>
        refine Triple.ite (fun hd => ?_) fun _ => Triple.throw fun _ _ => trivial
        exact Triple.pure fun s hs => ⟨hd, hs row rfl⟩

/-- The amount resolved for a row is the recorded one, if there is one. -/
theorem usdcAmountOf_agreeing (hstable : Stable amountDiscipline pid P) (row : TxRow) :
    Agreeing pid P (usdcAmountOf row)
      fun amt s => (∀ q, metaUsdc row = some q → amt = q) ∧ P s := by
  unfold usdcAmountOf
  split
  · rename_i usdcAmount hamt
    refine Triple.pure fun s hs => ⟨fun q hq => ?_, hs⟩
    rw [hamt] at hq
    exact Option.some.inj hq
  · rename_i hnone
    have hany : ∀ (amt : ℚ) (q : ℚ), metaUsdc row = some q → amt = q := by
      intro amt q hq
      rw [hnone] at hq
      cases hq
    unfold resolveUsdcAmount
    refine Triple.ite (fun _ => Triple.pure fun _ hs => ⟨hany _, hs⟩) fun _ => ?_
    exact Triple.bind (agreeing_keep rfl hstable fun _ _ => trivial) fun _ =>
      Triple.pure fun _ hs => ⟨hany _, hs⟩

/-- A lock that is posted or found has the amount asked for. -/
theorem lock_agreeing (row : TxRow) (amt : ℚ) (hd : row.direction = .payout)
    (hamt : ∀ q, metaUsdc row = some q → amt = q) :
    Agreeing pid (ReadTx row) (sql (.payout .lock row amt))
      fun _ s => 0 < amt ∧ ∃ m, s.ledger.posted .lock row.id = some m ∧
        m.amount = postedAmount amt := by
  refine agreeing_sql rfl (stable_readTx row) (fun t ht hinv a ha hnone => ?_) ?_
  · cases hq : metaUsdc row with
    | none => exact absurd hnone (ht.noAmount hd hq a ha)
    | some q =>
        rw [hamt q hq]
        exact (ht.amount hd q hq).eq hinv.ids ha
  · intro t o lock ht hinv hc hb hf
    have hb' : (t.post PayoutStep.lock.op (PayoutStep.lock.params row amt)).1 = .ok lock := hb
    obtain ⟨amount, hparsed⟩ := Store.post_parsed hb'
    refine ⟨parseAmount_pos hparsed, ?_⟩
    change ∃ m, (t.post _ _).2.ledger.posted _ _ = some m ∧ _
    rcases t.post_cases PayoutStep.lock.op (PayoutStep.lock.params row amt) with
      ⟨e, he⟩ | ⟨m, hm, he⟩ | ⟨amount, hp, he⟩ <;> rw [he] at hb' ⊢
    · cases hb'
    · rw [PayoutStep.params_key] at hm
      have hfound : t.ledger.posted .lock row.id = some m := hm
      refine ⟨m, hfound, ?_⟩
      have hall : (t.ledger.posted .lock row.id).all (·.amount = postedAmount amt) = true := hc
      rw [hfound] at hall
      simpa using hall
    · refine ⟨_, ?_, posted_amount hp.toPostsOn (v := amt) rfl⟩
      change (PayoutStep.lock.op.rule.posted _ amount t.ledger).posted .lock row.id = _
      rw [posted_step, if_pos ⟨rfl, rfl⟩]

theorem lockPayoutFunds_agreeing (orgId : String) (id : ℕ) :
    Agreeing pid (fun _ => True) (lockPayoutFunds orgId id) fun _ _ => True := by
  unfold lockPayoutFunds
  refine Triple.bind (loadDirected_agreeing _ _ _) fun row => Triple.assume fun hd => ?_
  refine Triple.bind (usdcAmountOf_agreeing (stable_readTx row) row) fun amt => ?_
  refine Triple.assume fun hamt => ?_
  refine Triple.bind (lock_agreeing row amt hd hamt) fun lock => Triple.assume fun hpos => ?_
  refine Triple.bind (R := fun _ _ => True) ?_ fun _ => ?_
  · refine (agreeing_keep rfl ?_ fun t ht => ?_).mono (fun _ hs => hs) (fun _ _ _ => trivial)
      fun _ _ he => he
    · rintro s t ⟨m, hm, ha⟩ hf
      exact ⟨m, hf.movements _ m hm, ha⟩
    · obtain ⟨m, hm, ha⟩ := ht
      exact .inr (.inr ⟨amt, _, m, rfl, hpos, hm, ha⟩)
  · exact Triple.bind (agreeing_keep rfl stable_anything fun _ _ => trivial) fun _ =>
      Triple.pure fun _ _ => trivial

/-- A finalize or release posts the recorded amount. -/
theorem settle_agreeing (step : PayoutStep) (hstep : step ≠ .lock) {row : TxRow} {amt : ℚ}
    {status : String} (patch : ℕ → Meta → Meta) (hd : row.direction = .payout)
    (hamt : metaUsdc row = some amt)
    (hpatch : ∀ n (r : TxRow), metaUsdc { r with metadata := patch n r.metadata } = metaUsdc r) :
    Agreeing pid (ReadTx row)
      (do
        let r ← sql (.payout step row amt)
        sql (.patchTx row.id (some status) (patch r.movement.id))
        let _ ← sql (.getOrgBalance row.orgId (asEnv row.environment))
        return r) fun _ _ => True := by
  refine Triple.bind (agreeing_keep rfl (stable_readTx row) fun t ht => ?_) fun r => ?_
  · have hrecords := ht.amount hd amt hamt
    cases step with
    | lock => exact absurd rfl hstep
    | finalize => exact hrecords
    | release => exact hrecords
  refine Triple.bind (agreeing_keep rfl (stable_readTx row) fun _ _ => .inl (hpatch _)) fun _ => ?_
  exact Triple.bind (agreeing_keep rfl (stable_readTx row) fun _ _ => trivial) fun _ =>
    Triple.pure fun _ _ => trivial

theorem finalizePayoutDebit_agreeing (orgId : Option String) (id : ℕ) :
    Agreeing pid (fun _ => True) (finalizePayoutDebit orgId id) fun _ _ => True := by
  unfold finalizePayoutDebit
  refine Triple.bind (loadDirected_agreeing _ _ _) fun row => Triple.assume fun hd => ?_
  refine Triple.ite (fun _ => Triple.throw fun _ _ => trivial) fun _ => ?_
  split
  · exact Triple.throw fun _ _ => trivial
  · rename_i amt hamt
    exact settle_agreeing .finalize (by decide) finalizedPatch hd hamt fun _ _ => rfl

theorem releasePayoutLock_agreeing (orgId : Option String) (id : ℕ) :
    Agreeing pid (fun _ => True) (releasePayoutLock orgId id) fun _ _ => True := by
  unfold releasePayoutLock
  refine Triple.bind (loadDirected_agreeing _ _ _) fun row => Triple.assume fun hd => ?_
  refine Triple.ite (fun _ => Triple.throw fun _ _ => trivial) fun _ => ?_
  split
  · exact Triple.throw fun _ _ => trivial
  · rename_i amt hamt
    exact settle_agreeing .release (by decide) releasedPatch hd hamt fun _ _ => rfl

/-! ### Funding -/

/-- The pending credit of a collection was posted for the amount. -/
def Pends (row : TxRow) (amt : ℚ) (s : Store) : Prop := s.ledger.Pended row.id (postedAmount amt)

theorem stable_pends (row : TxRow) (amt : ℚ) : Stable amountDiscipline pid (Pends row amt) :=
  fun _ _ h hf => hf.pended h

/-- The funding is one of the collection. -/
def FundingOf (row : TxRow) (funding : FundingRow) (s : Store) : Prop :=
  ∃ f ∈ s.fundings, f.id = funding.id ∧ f.collectionId = row.id

theorem stable_fundingOf (row : TxRow) (funding : FundingRow) :
    Stable amountDiscipline pid (FundingOf row funding) := by
  rintro s t ⟨f, hf, hid, hcol⟩ hfollows
  obtain ⟨f', hf', hid', hcol'⟩ := hfollows.fundings f hf
  exact ⟨f', hf', hid'.trans hid, hcol'.trans hcol⟩

/-- A statement of a funding after which nothing has to be remembered. -/
theorem funding_statement {st : Sql (Ans β)} (hst : st.failed = .error .database)
    (hagrees : ∀ t, st.Agrees t) (hstable : Stable amountDiscipline pid P) :
    Agreeing pid P (sql st) fun _ => P := agreeing_keep hst hstable fun t _ => hagrees t

/-- The funding of a collection, read back, has the amount of the pending credit. -/
theorem loadFunding_agreeing (row : TxRow) (funding : FundingRow) :
    Agreeing pid (FundingOf row funding) (sql (.loadFunding funding.id))
      fun f s => s.ledger.Pended row.id (postedAmount (num f.amount)) := by
  refine agreeing_sql rfl (stable_fundingOf row funding) (fun _ _ _ => trivial) ?_
  rintro t o f ⟨f', hf', hid', hcol'⟩ hinv - hb -
  simp only [Sql.run] at hb ⊢
  split at hb
  · rename_i hfound
    cases hb
    have hmem := List.mem_of_find?_eq_some hfound
    have hid : f.id = funding.id := by simpa using List.find?_some hfound
    have hcol := hinv.fundingIds f hmem f' hf' (hid.trans hid'.symm)
    obtain ⟨-, -, m, hm, ha⟩ := hinv.funded f hmem
    rw [hcol, hcol'] at hm
    refine ⟨m, hm, ?_⟩
    rw [← ha]
    exact (hinv.pending row.id m hm).symm
  · cases hb

theorem confirmCollectionFunding_agreeing (row : TxRow) (funding : FundingRow)
    (hash : Option String) :
    Agreeing pid (fun s => s.ledger.Pended row.id (postedAmount (num funding.amount)))
      (confirmCollectionFunding row funding hash) fun _ _ => True := by
  have hstable : Stable amountDiscipline pid
      fun s => s.ledger.Pended row.id (postedAmount (num funding.amount)) :=
    fun _ _ h hf => hf.pended h
  unfold confirmCollectionFunding
  refine Triple.bind (funding_statement rfl (fun _ _ => ⟨rfl, rfl, rfl, rfl⟩) hstable)
    fun _ => ?_
  refine Triple.bind (funding_statement rfl (fun _ => trivial) hstable) fun _ => ?_
  refine Triple.bind (status_agreeing hstable _ _) fun _ => ?_
  refine Triple.bind (agreeing_keep rfl hstable fun _ hs => hs) fun _ => ?_
  exact (status_agreeing hstable _ _).mono (fun _ hs => hs) (fun _ _ _ => trivial)
    fun _ _ he => he

theorem payFunding_agreeing (row : TxRow) (funding : FundingRow) (amount : ℚ) :
    Agreeing pid (FundingOf row funding) (payFunding row funding amount) fun _ _ => True := by
  have hstable : Stable amountDiscipline pid (FundingOf row funding) :=
    stable_fundingOf row funding
  have hupdate : ∀ (which : FundingRow → Bool) (f : FundingRow → FundingRow),
      (∀ r, (f r).id = r.id ∧ (f r).collectionId = r.collectionId ∧ (f r).amount = r.amount ∧
        (f r).idempotencyKey = r.idempotencyKey) →
      Agreeing pid (FundingOf row funding) (sql (.updateFundings which f))
        fun _ => FundingOf row funding :=
    fun _ _ hf => funding_statement rfl (fun _ => hf) hstable
  have hpatch : ∀ status, Safe services amountDiscipline pid
      (sql (.patchTx row.id status id)) := fun status => status_agreeing stable_anything _ status
  unfold payFunding submitUsdcPayment
  refine Triple.bind (R := fun _ => FundingOf row funding) (Triple.tryCatch
    (F := fun _ => FundingOf row funding) ?_ fun _ => Triple.pure fun _ hs => hs)
    fun outcome => ?_
  · -- a payment that fails leaves what is known of the funding
    refine triple_sql rfl hstable (fun t ht hinv o hc _ => ?_) fun _ ht _ _ _ _ => ⟨trivial, ht⟩
    have hasks : AsksPosted pid (.submitFunding row amount) o t := hc
    have hagrees : (Sql.submitFunding row amount).Agrees t := trivial
    obtain ⟨hkeeps, hfollows⟩ := AmountInv.step hinv hasks hagrees
    exact ⟨⟨trivial, hkeeps, fun _ _ => hfollows⟩, ht⟩
  cases outcome with
  | threw =>
      refine Triple.bind (hupdate _ _ fun _ => ⟨rfl, rfl, rfl, rfl⟩) fun _ => ?_
      exact Triple.bind (hpatch _).from_any fun _ => Triple.throw fun _ _ => trivial
  | accepted confirmed =>
      refine Triple.bind (hupdate _ _ fun _ => ⟨rfl, rfl, rfl, rfl⟩) fun _ => ?_
      refine Triple.bind (loadFunding_agreeing row funding) fun f => ?_
      have hconfirm : Agreeing pid
          (fun s => s.ledger.Pended row.id (postedAmount (num f.amount)))
          (confirmCollectionFunding row f (some ("stellar-tx:" ++ toString row.id)))
          fun _ _ => True := confirmCollectionFunding_agreeing row f _
      refine Triple.ite (fun _ => Triple.bind hconfirm fun _ => Triple.pure fun _ _ => trivial)
        fun _ => ?_
      refine Triple.bind (funding_statement rfl (fun _ => trivial) fun _ _ h hf => hf.pended h)
        fun verified => ?_
      cases verified with
      | confirmed => exact Triple.bind hconfirm fun _ => Triple.pure fun _ _ => trivial
      | failed => exact Triple.bind (hpatch _).from_any fun _ => Triple.pure fun _ _ => trivial
      | unknown => exact Triple.bind (hpatch _).from_any fun _ => Triple.pure fun _ _ => trivial

/-- A funding found under its key is the collection's. -/
theorem findFunding_agreeing (row : TxRow) (amt : ℚ) :
    Agreeing pid (Pends row amt) (sql (.findFunding row.orgId (fundingKey row.id)))
      fun found s => Pends row amt s ∧ ∀ f ∈ found, FundingOf row f s := by
  refine agreeing_sql rfl (stable_pends row amt) (fun _ _ _ => trivial) ?_
  intro t o found ht hinv _ hb _
  refine ⟨ht, fun f hf => ?_⟩
  have hfound : (t.fundings.find? fun r =>
      r.orgId = row.orgId && r.idempotencyKey = fundingKey row.id) = some f := by
    rw [← Option.mem_def.mp hf]
    exact Except.ok.inj hb
  have hmem := List.mem_of_find?_eq_some hfound
  have hkey : f.idempotencyKey = fundingKey row.id := by
    have hboth := List.find?_some hfound
    simp only [Bool.and_eq_true, decide_eq_true_eq] at hboth
    exact hboth.2
  refine ⟨f, hmem, rfl, ?_⟩
  exact fundingKey_inj.mp ((hinv.funded f hmem).2.1.symm.trans hkey)

/-- A new funding has the amount of the pending credit. -/
theorem insertFunding_agreeing (row : TxRow) (amt : ℚ) (status : FundingStatus) :
    Agreeing pid (Pends row amt)
      (sql (.insertFunding (newFunding row (round7 (nearest amt)) status (fundingKey row.id))))
      fun f s => FundingOf row f s := by
  refine agreeing_sql rfl (stable_pends row amt) (fun t ht _ => ⟨rfl, ht⟩) ?_
  intro t o f _ _ _ hb _
  simp only [Sql.run] at hb ⊢
  split_ifs at hb ⊢ with hfull
  cases hb
  exact ⟨_, List.mem_cons_self, rfl, rfl⟩

theorem fundCollectionStellarWallet_agreeing (row : TxRow) (amt : ℚ) :
    Agreeing pid (Pends row amt) (fundCollectionStellarWallet row amt) fun _ _ => True := by
  have hstable : Stable amountDiscipline pid (Pends row amt) := stable_pends row amt
  have hpatch : ∀ status, Safe services amountDiscipline pid
      (sql (.patchTx row.id status id)) := fun status => status_agreeing stable_anything _ status
  unfold fundCollectionStellarWallet treasuryCovers
  refine Triple.bind (agreeing_keep rfl hstable fun _ _ => trivial) fun mode => ?_
  refine Triple.ite (fun _ => Triple.pure fun _ _ => trivial) fun _ => ?_
  refine Triple.ite (fun _ => Triple.throw fun _ _ => trivial) fun _ => ?_
  refine Triple.bind (findFunding_agreeing row amt) fun existing => ?_
  refine Triple.ite (fun _ => Triple.pure fun _ _ => trivial) fun _ => ?_
  refine Triple.ite (fun _ => Triple.pure fun _ _ => trivial) fun _ => ?_
  have hfunding : ∀ f, Stable amountDiscipline pid (FundingOf row f) := stable_fundingOf row
  have hboth : Stable amountDiscipline pid
      fun s => Pends row amt s ∧ ∀ f ∈ existing, FundingOf row f s := fun s t h hf =>
    ⟨hstable s t h.1 hf, fun f hmem => hfunding f s t (h.2 f hmem) hf⟩
  refine Triple.bind (agreeing_keep rfl hboth fun _ _ => trivial) fun _ => ?_
  refine Triple.bind (status_agreeing hboth _ _) fun _ => ?_
  refine Triple.bind (Triple.ite (fun _ => Triple.bind
    (agreeing_keep rfl hboth fun _ _ => trivial) fun _ =>
      agreeing_keep rfl hboth fun _ _ => trivial)
    fun _ => Triple.pure fun _ hs => hs) fun covered => ?_
  refine Triple.ite (fun _ => ?_) fun _ => ?_
  · unfold awaitTreasury
    refine Triple.bind (R := fun _ _ => True) ?_ fun _ => Triple.pure fun _ _ => trivial
    cases existing with
    | none =>
        exact Triple.bind ((insertFunding_agreeing row amt _).mono (fun _ hs => hs.1)
          (fun _ _ hq => hq) fun _ _ he => he) fun _ => (hpatch _).from_any
    | some funding =>
        refine Triple.bind (funding_statement rfl (fun _ _ => ⟨rfl, rfl, rfl, rfl⟩) hboth)
          fun _ => ?_
        exact Triple.bind (funding_statement rfl (fun _ => trivial) hboth) fun _ =>
          (hpatch _).from_any
  · unfold ensureFunding
    refine Triple.bind (R := fun f => FundingOf row f) ?_ fun f => payFunding_agreeing row f _
    cases existing with
    | none =>
        exact (insertFunding_agreeing row amt _).mono (fun _ hs => hs.1) (fun _ _ hq => hq)
          fun _ _ he => he
    | some funding => exact Triple.pure fun _ hs => hs.2 funding rfl

/-- A pending credit that is posted or found has the amount asked for. -/
theorem pending_agreeing (row : TxRow) (amt : ℚ) :
    Agreeing pid (ReadTx row) (sql (.collection .pending row amt))
      fun _ s => Pends row amt s ∧ s.Has row.id row.direction := by
  refine agreeing_sql rfl (stable_readTx row) (fun _ _ _ => trivial) ?_
  intro t o credit ht _ hc hb hf
  refine ⟨?_, hf.rows _ _ ht.has⟩
  have hb' : (t.post CollectionStep.pending.op (CollectionStep.pending.params row amt)).1 =
      .ok credit := hb
  change ∃ m, (t.post _ _).2.ledger.collected _ _ = some m ∧ _
  rcases t.post_cases CollectionStep.pending.op (CollectionStep.pending.params row amt) with
    ⟨e, he⟩ | ⟨m, hm, he⟩ | ⟨amount, hp, he⟩ <;> rw [he] at hb' ⊢
  · cases hb'
  · rw [CollectionStep.params_key] at hm
    have hfound : t.ledger.collected .pending row.id = some m := hm
    refine ⟨m, hfound, ?_⟩
    have hall : (t.ledger.collected .pending row.id).all (·.amount = postedAmount amt) = true :=
      hc.1
    rw [hfound] at hall
    simpa using hall
  · refine ⟨_, ?_, posted_amount hp.toPostsOn (v := amt) rfl⟩
    change (CollectionStep.pending.op.rule.posted _ amount t.ledger).collected .pending row.id = _
    unfold Ledger.collected
    rw [find_posted, CollectionStep.params_key, if_pos rfl]

theorem settleCollectionCredit_agreeing (orgId : String) (id : ℕ) :
    Agreeing pid (fun _ => True) (settleCollectionCredit orgId id) fun _ _ => True := by
  have hbalance : ∀ row : TxRow, Safe services amountDiscipline pid
      (sql (.getOrgBalance row.orgId (asEnv row.environment))) := fun _ =>
    agreeing_keep rfl stable_anything fun _ _ => trivial
  unfold settleCollectionCredit
  refine Triple.bind (loadDirected_agreeing _ _ _) fun row => Triple.assume fun hd => ?_
  refine Triple.bind (usdcAmountOf_agreeing (stable_readTx row) row) fun amt => ?_
  refine Triple.assume fun _ => ?_
  refine Triple.bind (agreeing_keep rfl (stable_readTx row) fun _ _ => trivial) fun mode => ?_
  by_cases huses : mode = .off
  · simp only [ne_eq, huses, not_true_eq_false, if_false]
    refine Triple.bind (agreeing_keep rfl (stable_readTx row) fun _ _ => trivial) fun _ => ?_
    refine Triple.bind (agreeing_keep rfl (stable_readTx row) fun t ht =>
      .inr (.inl (hd ▸ ht.has))) fun _ => ?_
    exact Triple.bind (hbalance row).from_any fun _ => Triple.pure fun _ _ => trivial
  · have hpends : Stable amountDiscipline pid (Pends row amt) := stable_pends row amt
    have hstable : Stable amountDiscipline pid
        fun s => Pends row amt s ∧ s.Has row.id row.direction :=
      fun s t h hf => ⟨hpends s t h.1 hf, hf.rows _ _ h.2⟩
    simp only [ne_eq, huses, not_false_eq_true, if_true]
    refine Triple.bind (pending_agreeing row amt) fun credit => ?_
    refine Triple.bind (agreeing_keep rfl hstable fun t ht => .inr (.inl (hd ▸ ht.2)))
      fun _ => ?_
    refine Triple.bind (R := fun _ _ => True) (Triple.tryCatch (F := fun _ _ => True)
      ((fundCollectionStellarWallet_agreeing row amt).mono (fun _ hs => hs.1)
        (fun _ _ hq => hq) fun _ _ he => he) fun _ => Triple.pure fun _ _ => trivial) fun _ => ?_
    exact Triple.bind (hbalance row) fun _ => Triple.pure fun _ _ => trivial

theorem lifecycle_agreeing : LifecycleRules amountDiscipline pid where
  load _ _ := agreeing_keep rfl stable_anything fun _ _ => trivial
  loadByExternalId _ := agreeing_keep rfl stable_anything fun _ _ => trivial
  patch i status := status_agreeing stable_anything i status
  update _ _ := agreeing_keep rfl stable_anything fun _ _ => trivial
  settle := settleCollectionCredit_agreeing
  finalize := finalizePayoutDebit_agreeing
  release := releasePayoutLock_agreeing

theorem LifecycleCall.verifies (c : LifecycleCall) :
    Verifies amountDiscipline pid (fun _ => True) c.program := by
  cases c with
  | collection d =>
      cases d with
      | settle orgId id => exact discard_verifies (settleCollectionCredit_agreeing orgId id)
      | yellowCard payload =>
          exact discard_verifies (lifecycle_agreeing.applyInfraYellowCardWebhook payload)
      | flutterwave payload =>
          exact discard_verifies (lifecycle_agreeing.applyInfraFlutterwaveWebhook payload)
      | simulate orgId env id =>
          exact discard_verifies (lifecycle_agreeing.simulateSettlement orgId env id)
  | payout c =>
      cases c with
      | lock orgId id => exact discard_verifies (lockPayoutFunds_agreeing orgId id)
      | finalize orgId id => exact discard_verifies (finalizePayoutDebit_agreeing orgId id)
      | release orgId id => exact discard_verifies (releasePayoutLock_agreeing orgId id)
      | yellowCard payload =>
          exact discard_verifies (lifecycle_agreeing.applyInfraYellowCardWebhook payload)
      | flutterwave payload =>
          exact discard_verifies (lifecycle_agreeing.applyInfraFlutterwaveWebhook payload)

end programs

/-! ### Whole runs -/

/-- The pool of a list of calls. -/
def lifecycleCalls (s : Store) (calls : List LifecycleCall) : Pool Sql Unit Store :=
  ⟨s, calls.map LifecycleCall.program⟩

theorem Unposted.inv {s : Store} (h : Unposted s) : AmountInv s := by
  refine ⟨h.ids, fun id m a hm => ?_, fun step id m _ hm => ?_, fun id m hm => ?_,
    fun id m hm => ?_, ?_, ?_⟩
  · rw [h.payouts] at hm
    cases hm
  · rw [h.payouts] at hm
    cases hm
  · rw [h.collections] at hm
    cases hm
  · rw [h.collections] at hm
    cases hm
  · rw [h.fundings]
    exact fun _ hf => by cases hf
  · rw [h.fundings]
    exact fun _ hf => by cases hf

/-- **The amounts of a transaction agree.** In every run of any calls, in any interleaving, under
any quotes, in which a repeated lock or pending credit asks for the amount posted, the movements
of every collection and of every payout have one amount. -/
theorem amounts_agree {s : Store} (hs : Unposted s) (calls : List LifecycleCall)
    (sched : List (ℕ × Outside))
    (hasks : Pool.Along services (Pool.CondAt AsksPosted) (lifecycleCalls s calls) sched) :
    AmountsAgree ((lifecycleCalls s calls).run services sched).store.ledger := by
  have hstart : Pool.Verified services amountDiscipline (fun _ _ _ => True)
      (lifecycleCalls s calls) := by
    refine Pool.Verified.start hs.inv fun i p hp => ?_
    obtain ⟨c, -, rfl⟩ := List.mem_map.mp (List.mem_of_getElem? hp)
    exact c.verifies s trivial
  exact AmountInv.agree (Pool.run_sound hstart sched hasks).1.1

/-- A collection and a payout of 100000 naira, neither with a recorded amount. -/
def inNaira : Store where
  ledger := ⟨fun k => if k = (newPayout 2 "two").wallet then
    some ⟨.active, ⟨500 * 10 ^ 7, 0, 0⟩⟩ else none, [], 0⟩
  txs := [⟨1, "org", "live", 100000, "NGN", "pending", "bank", .payment, some "one", none, none,
      {}, 0⟩,
    ⟨2, "org", "live", 100000, "NGN", "pending", "bank", .payout, some "two", none, none, {}, 0⟩]
  settlements := []
  requests := []
  payments := []
  nextId := 3

theorem inNaira_unposted : Unposted inNaira := ⟨by decide, fun _ _ => rfl, fun _ _ => rfl, rfl⟩

/-- The collection is settled twice, the payout locked twice and released. -/
def retried : List LifecycleCall :=
  [.collection (.settle "org" 1), .collection (.settle "org" 1), .payout (.lock "org" 2),
    .payout (.lock "org" 2), .payout (.release none 2)]

/-- The first settlement and the first lock stop after the ledger; the second ones are quoted
`again`. -/
def retriedAt (again : ℚ) : List (ℕ × Outside) :=
  let first : Outside := { quote := some 100, fundingMode := .mock }
  let second : Outside := { quote := some again, fundingMode := .mock }
  steps 0 4 first ++ steps 1 20 second ++ steps 2 3 first ++ steps 3 5 second ++ steps 4 4 {}

/-- The same quote: the amounts agree. -/
theorem amounts_agree_sameQuote :
    AmountsAgree ((lifecycleCalls inNaira retried).run services (retriedAt 100)).store.ledger :=
  amounts_agree inNaira_unposted retried (retriedAt 100) (by decide +kernel)

/-- Another quote: 100 is credited in pending and 80 made available, 100 is locked and 80
released. -/
theorem amounts_disagree :
    Unposted inNaira ∧ ¬ AmountsAgree
      ((lifecycleCalls inNaira retried).run services (retriedAt 80)).store.ledger := by
  refine ⟨inNaira_unposted, fun h => ?_⟩
  obtain ⟨hpending, havailable⟩ :
      (((lifecycleCalls inNaira retried).run services (retriedAt 80)).store.ledger.collected
        .pending 1).map (·.amount) = some (100 * 10 ^ 7) ∧
      (((lifecycleCalls inNaira retried).run services (retriedAt 80)).store.ledger.collected
        .available 1).map (·.amount) = some (80 * 10 ^ 7) := by decide +kernel
  obtain ⟨m, hm, hma⟩ := Option.map_eq_some_iff.mp hpending
  obtain ⟨n, hn, hna⟩ := Option.map_eq_some_iff.mp havailable
  have hagree := h.collections 1 m n hm hn
  rw [hma, hna] at hagree
  revert hagree
  decide

/-- The same of the payout: 100 is locked and 80 released. -/
example :
    (((lifecycleCalls inNaira retried).run services (retriedAt 80)).store.ledger.posted
        .lock 2).map (·.amount) = some (100 * 10 ^ 7) ∧
      (((lifecycleCalls inNaira retried).run services (retriedAt 80)).store.ledger.posted
        .release 2).map (·.amount) = some (80 * 10 ^ 7) := by decide +kernel

end DayfiBackend.Infra
