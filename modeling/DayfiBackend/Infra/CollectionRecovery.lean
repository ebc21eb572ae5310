import DayfiBackend.Found.Solo
import DayfiBackend.Infra.AmountBooks
import DayfiBackend.Infra.CollectionCredit

/-!
# A collection that crashed while its wallet was funded

`settleCollectionCredit` credits pending, has the treasury pay the organisation's Stellar wallet,
and then writes one after another: the funding is `confirmed`, the pending amount becomes available,
the transaction is `settled`. A run that stops after the first of these writes is not made good by
another one, which finds the funding confirmed and stops there
(`crash_after_confirmed`). A run that stops anywhere else is: `crash_recovers_iff` gives, for every
crash point, when a further fault-free run leaves the pending credit available and the transaction
settled.
-/

namespace DayfiBackend.Infra

open DayfiBackend.Found DayfiBackend.Found.Prog DayfiBackend.Found.Binary64
  DayfiBackend.Found.Keys

/-! ### Crash and recovery -/

/-- The funding of a collection. -/
def Store.funding? (s : Store) (orgId : String) (id : ℕ) : Option FundingRow :=
  s.fundings.find? fun f => f.orgId = orgId && f.idempotencyKey = fundingKey id

/-- The transaction is settled. -/
def Store.IsSettled (s : Store) (id : ℕ) : Prop := ∃ r, s.tx id = some r ∧ r.status = "settled"

/-- The pending credit is available, all of it, and the transaction is settled. -/
structure Recovered (id : ℕ) (s : Store) : Prop where
  settled : s.IsSettled id
  moved : ∃ m n, s.ledger.collected .pending id = some m ∧
    s.ledger.collected .available id = some n ∧ n.amount = m.amount

/-- A collection nobody has settled or funded. -/
structure NewCollection (orgId : String) (id : ℕ) (s : Store) : Prop where
  row : ∃ r, s.tx id = some r ∧ r.status.toLower ∉ ["settled", "completed", "success"]
  unposted : ∀ step, s.ledger.collected step id = none
  unfunded : s.funding? orgId id = none
  fundingIds : ∀ f ∈ s.fundings, f.id < s.nextId

/-- A step without a fault: the statement does not fail, funding is on, the treasury holds the
amount, and the network takes and confirms its payments. -/
def FaultFree {β : Type} (i : ℕ) (st : Sql β) (o : Outside) (s : Store) : Prop :=
  o.fault = false ∧
    match st with
    | .collection step row amt => (s.post step.op (step.params row amt)).1.toBool = true
    | .getOrgBalance orgId env =>
        (s.getOrgBalance ⟨orgId, normalizeEnv env, normalizeAsset none⟩).1.toBool = true
    | .insertFunding draft => ((Sql.insertFunding draft).run i o s).1.toBool = true
    | .convertAmountToUsd .. => o.quote.isSome = true
    | .external => o.allowed = true
    | .fundingMode _ => o.fundingMode ≠ .off
    | .treasuryCovers _ => o.funded = true
    | .submitFunding .. => o.submit ≠ .threw
    | .verifyPayment => o.verification = .confirmed
    | _ => True

instance {β : Type} (i : ℕ) (st : Sql β) (o : Outside) (s : Store) :
    Decidable (FaultFree i st o s) :=
  decidable_of_bool (!o.fault && match st with
    | .collection step row amt => (s.post step.op (step.params row amt)).1.toBool
    | .getOrgBalance orgId env =>
        (s.getOrgBalance ⟨orgId, normalizeEnv env, normalizeAsset none⟩).1.toBool
    | .insertFunding draft => ((Sql.insertFunding draft).run i o s).1.toBool
    | .convertAmountToUsd .. => o.quote.isSome
    | .external => o.allowed
    | .fundingMode _ => decide (o.fundingMode ≠ .off)
    | .treasuryCovers _ => o.funded
    | .submitFunding .. => decide (o.submit ≠ .threw)
    | .verifyPayment => decide (o.verification = .confirmed)
    | _ => true) (by cases st <;> simp [FaultFree])

/-- The services; when `careful`, a step with a fault is not taken. -/
def servicesIf (careful : Bool) : Machine Sql Outside Store where
  exec i st o s := if careful = true ∧ ¬ FaultFree i st o s then none else services.exec i st o s

theorem servicesIf_false : servicesIf false = services := rfl

/-! ### The states a run goes through -/

/-- The transaction of a collection: its organisation, its status and the amount it records. -/
def Store.HasRow (s : Store) (orgId : String) (id : ℕ) (status : String) (q : ℚ) : Prop :=
  ∃ r, s.tx id = some r ∧ r.orgId = orgId ∧ r.direction = .payment ∧ r.status = status ∧
    metaUsdc r = some q

/-- The collection is credited in pending and has no funding. -/
structure Credited (orgId : String) (id : ℕ) (q : ℚ) (s : Store) : Prop where
  row : s.HasRow orgId id "processing" q
  unfunded : s.funding? orgId id = none
  fundingIds : ∀ f ∈ s.fundings, f.id < s.nextId
  pending : ∃ m, s.ledger.collected .pending id = some m ∧ m.amount = postedAmount q
  unreleased : s.ledger.collected .available id = none

/-- The collection is credited in pending and has the funding `f`; `n` is the release of its
pending amount, if it was made. -/
structure Funded (orgId : String) (id : ℕ) (status : String) (f : FundingRow) (n : Option Movement)
    (s : Store) : Prop where
  row : ∃ q, s.HasRow orgId id status q ∧ 0 < round7 (nearest q)
  orgId : f.orgId = orgId
  key : f.idempotencyKey = fundingKey id
  fundings : ∃ old, s.fundings = f :: old ∧ ∀ g ∈ old, g.id ≠ f.id
  pending : ∃ m, s.ledger.collected .pending id = some m ∧ m.amount = f.amount
  available : s.ledger.collected .available id = n

/-- The pending credit of the funding `f` was released. -/
def Done (orgId : String) (id : ℕ) (f : FundingRow) (s : Store) : Prop :=
  ∃ f' n, f'.amount = f.amount ∧ f'.status = .confirmed ∧ f'.externalReference.isSome = true ∧
    n.amount = postedAmount (num f.amount) ∧ Funded orgId id "settled" f' (some n) s

/-- Where a run can stop. -/
inductive Stopped (orgId : String) (id : ℕ) (s : Store) : Prop
  | unfunded (h : s.funding? orgId id = none)
  | unconfirmed (f : FundingRow) (hf : f.status ≠ .confirmed)
      (h : Funded orgId id "processing" f none s)
  | confirmed (f : FundingRow) (n : Option Movement) (hf : f.status = .confirmed)
      (href : f.externalReference.isSome = true) (h : Funded orgId id "processing" f n s)
  | settled (f : FundingRow) (h : Done orgId id f s)

section states

variable {orgId status : String} {id : ℕ} {f : FundingRow} {n : Option Movement} {s t : Store}
  {q : ℚ}

/-- The funding is found. -/
theorem Funded.funding? (h : Funded orgId id status f n s) : s.funding? orgId id = some f := by
  obtain ⟨old, hold, -⟩ := h.fundings
  unfold Store.funding?
  rw [hold, List.find?_cons_of_pos]
  simp [h.orgId, h.key]

theorem Store.tx_setTx {g : TxRow → TxRow} {r : TxRow} (hid : ∀ r, (g r).id = r.id)
    (hr : s.tx id = some r) : (s.setTx id g).tx id = some (g r) := by
  unfold Store.tx at hr
  unfold Store.tx Store.setTx
  dsimp only
  rw [List.find?_map]
  have hcomp : ((fun r : TxRow => decide (r.id = id)) ∘ fun r => if r.id = id then g r else r) =
      fun r : TxRow => decide (r.id = id) := by
    funext r
    by_cases hr : r.id = id <;> simp [hr, hid]
  have hid' : r.id = id := by simpa using List.find?_some hr
  rw [hcomp, hr]
  simp [hid']

/-- A patch of the status. -/
theorem Store.HasRow.settle (h : s.HasRow orgId id status q) (status' : String) :
    (s.setTx id fun r => { r with status := status', metadata := r.metadata }).HasRow
      orgId id status' q := by
  obtain ⟨r, hr, horg, hdir, -, hq⟩ := h
  refine ⟨{ r with status := status' }, ?_, horg, hdir, rfl, hq⟩
  exact Store.tx_setTx (fun _ => rfl) hr

/-- A patch of the status that records an amount. -/
theorem Store.hasRow_credit {r : TxRow} (hr : s.tx id = some r) (horg : r.orgId = orgId)
    (hdir : r.direction = .payment) (hpos : 0 < q) (credit : ℕ) :
    (s.setTx id fun r => { r with
      status := status
      metadata := { r.metadata with usdcAmount := some q, ledgerCreditId := some credit } }).HasRow
      orgId id status q := by
  refine ⟨{ r with
    status := status
    metadata := { r.metadata with usdcAmount := some q, ledgerCreditId := some credit } },
    ?_, horg, hdir, rfl, ?_⟩
  · exact Store.tx_setTx (fun _ => rfl) hr
  · simp [metaUsdc, hpos]

/-- What only reads keeps. -/
def KeptByReads (P : Store → Prop) : Prop :=
  ∀ s t, Store.Same s t → t.fundings = s.fundings → P s → P t

theorem Store.Same.collected (h : Store.Same s t) (step : CollectionStep) (id : ℕ) :
    t.ledger.collected step id = s.ledger.collected step id := h.find _

theorem Store.Same.hasRow (h : Store.Same s t) (hr : s.HasRow orgId id status q) :
    t.HasRow orgId id status q := by
  obtain ⟨r, hr, hrest⟩ := hr
  refine ⟨r, ?_, hrest⟩
  unfold Store.tx at hr ⊢
  rw [h.txs]
  exact hr

theorem kept_unfunded : KeptByReads fun s => s.funding? orgId id = none := by
  intro s t _ hfundings h
  unfold Store.funding? at h ⊢
  rw [hfundings]
  exact h

theorem kept_credited : KeptByReads (Credited orgId id q) := by
  intro s t hsame hfundings h
  refine ⟨hsame.hasRow h.row, kept_unfunded s t hsame hfundings h.unfunded, ?_, ?_, ?_⟩
  · intro f hf
    rw [hfundings] at hf
    exact lt_of_lt_of_le (h.fundingIds f hf) hsame.nextId
  · rw [hsame.collected]
    exact h.pending
  · rw [hsame.collected]
    exact h.unreleased

theorem kept_funded : KeptByReads (Funded orgId id status f n) := by
  intro s t hsame hfundings h
  obtain ⟨q, hrow, hq⟩ := h.row
  refine ⟨⟨q, hsame.hasRow hrow, hq⟩, h.orgId, h.key, ?_, ?_, ?_⟩
  · rw [hfundings]
    exact h.fundings
  · rw [hsame.collected]
    exact h.pending
  · rw [hsame.collected]
    exact h.available

theorem kept_done : KeptByReads (Done orgId id f) := by
  rintro s t hsame hfundings ⟨f', m, hamount, hstatus, href, hm, h⟩
  exact ⟨f', m, hamount, hstatus, href, hm, kept_funded s t hsame hfundings h⟩

theorem kept_stopped : KeptByReads (Stopped orgId id) := by
  intro s t hsame hfundings h
  cases h with
  | unfunded h => exact .unfunded (kept_unfunded s t hsame hfundings h)
  | unconfirmed f hf h => exact .unconfirmed f hf (kept_funded s t hsame hfundings h)
  | confirmed f m hf href h => exact .confirmed f m hf href (kept_funded s t hsame hfundings h)
  | settled f h => exact .settled f (kept_done s t hsame hfundings h)

/-- An update of the funding. -/
theorem Funded.update (h : Funded orgId id status f n s) {g : FundingRow → FundingRow}
    (horg : (g f).orgId = f.orgId) (hkey : (g f).idempotencyKey = f.idempotencyKey)
    (hid : (g f).id = f.id) (hamount : (g f).amount = f.amount) :
    Funded orgId id status (g f) n
      { s with fundings := s.fundings.map fun r => if r.id = f.id then g r else r } := by
  obtain ⟨old, hold, hids⟩ := h.fundings
  refine ⟨h.row, horg.trans h.orgId, hkey.trans h.key, ⟨old, ?_, ?_⟩, ?_, h.available⟩
  · have hmap : old.map (fun r => if r.id = f.id then g r else r) = old := by
      conv_rhs => rw [← List.map_id old]
      exact List.map_congr_left fun r hr => if_neg (hids r hr)
    simp [hold, hmap]
  · rw [hid]
    exact hids
  · rw [hamount]
    exact h.pending

/-- The funding of a credited collection is inserted. -/
theorem Credited.fund (h : Credited orgId id q s) (hq : 0 < round7 (nearest q))
    {draft : FundingRow} (horg : draft.orgId = orgId) (hkey : draft.idempotencyKey = fundingKey id)
    (hamount : draft.amount = postedAmount q) :
    Funded orgId id "processing" { draft with id := s.nextId } none
      { s with
        fundings := { draft with id := s.nextId } :: s.fundings
        nextId := s.nextId + 1 } where
  row := ⟨q, h.row, hq⟩
  orgId := horg
  key := hkey
  fundings := ⟨s.fundings, rfl, fun g hg => (h.fundingIds g hg).ne⟩
  pending := by
    obtain ⟨m, hm, hma⟩ := h.pending
    exact ⟨m, hm, hma.trans hamount.symm⟩
  available := h.unreleased

end states

/-! ### Statements of a run -/

section statements

variable {careful : Bool} {orgId status : String} {c : ℕ} {f : FundingRow} {n : Option Movement}
  {β : Type} {P : Store → Prop}

/-- The call runs by itself, stops where it may be stopped, and fails only if it is not careful. -/
abbrev Going (careful : Bool) (orgId : String) (c : ℕ) (P : Store → Prop) (p : Call β)
    (Q : β → Store → Prop) : Prop :=
  Triple (servicesIf careful) (solo 0 (Stopped orgId c) fun _ => True) 0 P p Q
    fun _ _ => careful = false

/-- The rule of a statement. -/
theorem triple_statement {st : Sql (Ans β)} {Q : β → Store → Prop} {E : Err → Store → Prop}
    (hst : st.failed = .error .database) (hfault : ∀ s, P s → careful = false → E .database s)
    (h : ∀ o s, P s → Stopped orgId c s → (careful = true → FaultFree 0 st o s) →
      Stopped orgId c (st.run 0 o s).2 ∧
        match (st.run 0 o s).1 with
        | .ok b => Q b (st.run 0 o s).2
        | .error e => E e (st.run 0 o s).2) :
    Triple (servicesIf careful) (solo 0 (Stopped orgId c) fun _ => True) 0 P (sql st) Q E := by
  refine solo_perform fun s hs hstop o _ r t he => ?_
  change (if careful = true ∧ ¬ FaultFree 0 st o s then none else
    if o.fault then some (st.failed, s) else some (st.run 0 o s)) = some (r, t) at he
  split_ifs at he with hc hf
  · have hcareful : careful = false := by
      by_contra hne
      exact hc ⟨by simpa using hne, fun hff => by simp [hff.1] at hf⟩
    obtain ⟨rfl, rfl⟩ := Prod.mk.inj (Option.some.inj he)
    rw [hst]
    refine ⟨hstop, fun a ha => (by cases ha), fun e he' => ?_⟩
    cases he'
    exact hfault s hs hcareful
  · obtain ⟨hstop', hans⟩ := h o s hs hstop fun hcareful => by_contra fun hff => hc ⟨hcareful, hff⟩
    have hrun : st.run 0 o s = (r, t) := Option.some.inj he
    rw [hrun] at hstop' hans
    refine ⟨hstop', fun a ha => ?_, fun e he' => ?_⟩
    · subst ha
      exact hans
    · subst he'
      exact hans

theorem going_sql {st : Sql (Ans β)} {Q : β → Store → Prop} (hst : st.failed = .error .database)
    (h : ∀ o s, P s → Stopped orgId c s → (careful = true → FaultFree 0 st o s) →
      Stopped orgId c (st.run 0 o s).2 ∧
        match (st.run 0 o s).1 with
        | .ok b => Q b (st.run 0 o s).2
        | .error _ => careful = false) : Going careful orgId c P (sql st) Q :=
  triple_statement hst (fun _ _ hcareful => hcareful) h

/-- A statement that only reads. -/
theorem going_read {st : Sql (Ans β)} {R : β → Prop} (hst : st.failed = .error .database)
    (hq : st.quiet = true) (hw : st.writesFunding = false) (hP : KeptByReads P)
    (hans : ∀ o s, P s → (careful = true → FaultFree 0 st o s) →
      match (st.run 0 o s).1 with
      | .ok b => R b
      | .error _ => careful = false) :
    Going careful orgId c P (sql st) fun b s => R b ∧ P s := by
  refine going_sql hst fun o s hs hstop hff => ?_
  have hsame := Sql.run_same hq 0 o s
  have hfundings := Sql.run_fundings hw 0 o s
  have hP' := hP _ _ hsame hfundings hs
  refine ⟨kept_stopped _ _ hsame hfundings hstop, ?_⟩
  have h := hans o s hs hff
  revert h
  cases (st.run 0 o s).1 with
  | ok b => exact fun h => ⟨h, hP'⟩
  | error e => exact fun h => h

/-- A patch that records nothing the calls read. -/
theorem going_note (i : ℕ) :
    Going careful orgId c P (sql (.patchTx i none id)) fun _ => P := by
  have hrun : ∀ o s, (Sql.patchTx i none id).run 0 o s = (.ok (), s) := by
    intro o s
    simp [Sql.run, Store.setTx]
  refine going_sql rfl fun o s hs hstop _ => ?_
  rw [hrun]
  exact ⟨hstop, hs⟩

theorem going_external (hP : KeptByReads P) :
    Going careful orgId c P (sql .external) fun _ => P := by
  refine (going_read (R := fun _ => True) rfl rfl rfl hP fun o s _ hff => ?_).mono
    (fun _ h => h) (fun _ _ h => h.2) fun _ _ h => h
  cases ho : o.allowed with
  | true => simp [Sql.run, ho]
  | false =>
      have hcareful : careful = false := by
        by_contra hne
        have hallowed : o.allowed = true := (hff (by simpa using hne)).2
        rw [ho] at hallowed
        cases hallowed
      simp [Sql.run, ho, hcareful]

/-- Whether the treasury holds the amount; it does when nothing goes wrong. -/
theorem going_covers (hP : KeptByReads P) (mode : FundingMode) (amount : ℚ) :
    Going careful orgId c P (treasuryCovers mode amount)
      fun b s => (careful = true → b = true) ∧ P s := by
  unfold treasuryCovers
  refine Triple.ite (fun _ => ?_) fun _ => Triple.pure fun _ hs => ⟨fun _ => rfl, hs⟩
  refine Triple.bind (going_external hP) fun _ => ?_
  exact going_read rfl rfl rfl hP fun o s _ hff hcareful => (hff hcareful).2

/-- The treasury's payment; the network takes it when nothing goes wrong. -/
theorem going_submit (row : TxRow) (amount : ℚ) :
    Going careful orgId c P (submitUsdcPayment row amount)
      fun r s => (careful = true → r ≠ .threw) ∧ P s := by
  unfold submitUsdcPayment
  refine Triple.tryCatch (F := fun _ s => careful = false ∧ P s) ?_ fun e => ?_
  · refine triple_statement rfl (fun s hs hcareful => ⟨hcareful, hs⟩) fun o s hs hstop hff => ?_
    exact ⟨hstop, fun hcareful => (hff hcareful).2, hs⟩
  · refine Triple.pure fun s hs => ⟨fun hcareful => ?_, hs.2⟩
    rw [hs.1] at hcareful
    cases hcareful

/-- The funding is read back. -/
theorem going_loadFunding {i : ℕ} (hi : i = f.id) :
    Going careful orgId c (Funded orgId c status f n) (sql (.loadFunding i))
      fun b s => b = f ∧ Funded orgId c status f n s := by
  refine going_read rfl rfl rfl kept_funded fun o s hs _ => ?_
  obtain ⟨old, hold, -⟩ := hs.fundings
  simp [Sql.run, hold, hi]

/-- An update of the funding. -/
theorem going_update {i : ℕ} {g : FundingRow → FundingRow} (hi : i = f.id)
    (horg : (g f).orgId = f.orgId) (hkey : (g f).idempotencyKey = f.idempotencyKey)
    (hid : (g f).id = f.id) (hamount : (g f).amount = f.amount)
    (hstop : ∀ s, Funded orgId c status (g f) n s → Stopped orgId c s) :
    Going careful orgId c (Funded orgId c status f n)
      (sql (.updateFundings (fun r => r.id = i) g)) fun _ => Funded orgId c status (g f) n := by
  refine going_sql rfl fun o s hs _ _ => ?_
  have hfunded := hs.update horg hkey hid hamount
  have hrun : (Sql.updateFundings (fun r => r.id = i) g).run 0 o s = (.ok (), { s with
      fundings := s.fundings.map fun r => if r.id = f.id then g r else r }) := by
    simp [Sql.run, hi]
  rw [hrun]
  exact ⟨hstop _ hfunded, hfunded⟩

/-- The release of the pending credit. -/
theorem going_release {row : TxRow} (hrow : row.id = c) (hf : f.status = .confirmed)
    (href : f.externalReference.isSome = true) :
    Going careful orgId c (Funded orgId c "processing" f none)
      (sql (.collection .available row (num f.amount)))
      fun _ s => ∃ m, m.amount = postedAmount (num f.amount) ∧
        Funded orgId c "processing" f (some m) s := by
  refine going_sql rfl fun o s hs hstop hff => ?_
  have hkey : (CollectionStep.available.params row (num f.amount)).key =
      CollectionStep.available.key c := by
    rw [CollectionStep.params_key, hrow]
  have hrun : (Sql.collection .available row (num f.amount)).run 0 o s =
      s.post .releasePendingToAvailable (CollectionStep.available.params row (num f.amount)) := rfl
  rw [hrun]
  rcases s.post_cases .releasePendingToAvailable
      (CollectionStep.available.params row (num f.amount)) with
    ⟨e, he⟩ | ⟨m, hm, he⟩ | ⟨amount, hposts, he⟩
  · rw [he]
    refine ⟨hstop, ?_⟩
    by_contra hne
    have hok := (hff (by simpa using hne)).2
    have hok' : (s.post .releasePendingToAvailable
      (CollectionStep.available.params row (num f.amount))).1.toBool = true := hok
    rw [he] at hok'
    cases hok'
  · rw [hkey] at hm
    have hnone := hs.available
    unfold Ledger.collected at hnone
    rw [hnone] at hm
    cases hm
  · rw [he]
    obtain ⟨m, hm, hma⟩ := hs.pending
    set p := CollectionStep.available.params row (num f.amount) with hp
    have hfunded : Funded orgId c "processing" f
        (some (LedgerOp.releasePendingToAvailable.rule.movement p amount s.ledger))
        { s with ledger := LedgerOp.releasePendingToAvailable.rule.posted p amount s.ledger } := by
      refine ⟨hs.row, hs.orgId, hs.key, hs.fundings, ⟨m, ?_, hma⟩, ?_⟩
      · exact find_post hposts.keyFresh hm
      · unfold Ledger.collected
        rw [find_posted, if_pos hkey]
    exact ⟨.confirmed f _ hf href hfunded, _, posted_amount hposts.toPostsOn rfl, hfunded⟩

end statements

/-! ### Paying the funding -/

section funding

variable {careful : Bool} {orgId : String} {c : ℕ} {f : FundingRow}

/-- Confirming the funding releases the pending credit and settles the transaction. -/
theorem going_confirm {row : TxRow} {funding : FundingRow} (hrow : row.id = c)
    (hid : funding.id = f.id) (hamount : funding.amount = f.amount) (hash : String) :
    Going careful orgId c (Funded orgId c "processing" f none)
      (confirmCollectionFunding row funding (some hash)) fun _ => Done orgId c f := by
  unfold confirmCollectionFunding
  refine Triple.bind (going_update (g := fun r => { r with
    status := .confirmed, externalReference := some hash <|> r.externalReference }) hid rfl rfl rfl
    rfl fun s h => .confirmed _ none rfl rfl h) fun _ => ?_
  refine Triple.bind (going_loadFunding hid) fun _ => Triple.assume fun _ => ?_
  refine Triple.bind (going_note row.id) fun _ => ?_
  rw [hamount]
  refine Triple.bind (going_release hrow rfl rfl) fun _ => ?_
  refine going_sql rfl fun o s hs _ _ => ?_
  obtain ⟨m, hm, h⟩ := hs
  obtain ⟨q, hq, hpos⟩ := h.row
  have hsettled : Funded orgId c "settled" { f with
      status := .confirmed, externalReference := some hash <|> f.externalReference } (some m)
      (s.setTx row.id fun r => { r with status := "settled", metadata := r.metadata }) := by
    refine ⟨⟨q, ?_, hpos⟩, h.orgId, h.key, h.fundings, h.pending, h.available⟩
    rw [hrow]
    exact hq.settle "settled"
  have hdone : Done orgId c f
      (s.setTx row.id fun r => { r with status := "settled", metadata := r.metadata }) :=
    ⟨{ f with status := .confirmed, externalReference := some hash <|> f.externalReference }, m,
      rfl, rfl, rfl, hm, hsettled⟩
  exact ⟨.settled f hdone, hdone⟩

/-- Paying a funding that is not confirmed releases the pending credit, when nothing goes
wrong. -/
theorem going_pay {row : TxRow} {funding : FundingRow} (hrow : row.id = c)
    (hid : funding.id = f.id) (amount : ℚ) :
    Going careful orgId c (Funded orgId c "processing" f none) (payFunding row funding amount)
      fun _ s => careful = true → Done orgId c f s := by
  unfold payFunding
  refine Triple.bind (going_submit row amount) fun r => Triple.assume fun hr => ?_
  cases r with
  | threw =>
      have hcareful : careful = false := by
        by_contra hne
        exact hr (by simpa using hne) rfl
      refine Triple.bind (going_update (g := fun r => { r with status := .failed }) hid rfl rfl rfl
        rfl fun s h => .unconfirmed _ (by simp) h) fun _ => ?_
      refine Triple.bind (going_note row.id) fun _ => ?_
      exact Triple.throw fun _ _ => hcareful
  | accepted confirmed =>
      refine Triple.bind (going_update (g := fun r => { r with
        status := .submitted, externalReference := some ("stellar-tx:" ++ toString row.id) }) hid
        rfl rfl rfl rfl fun s h => .unconfirmed _ (by simp) h) fun _ => ?_
      refine Triple.bind (going_loadFunding hid) fun funding' => Triple.assume fun hfunding => ?_
      have hdone : ∀ s, Done orgId c { f with
          status := .submitted
          externalReference := some ("stellar-tx:" ++ toString row.id) } s → Done orgId c f s :=
        fun s h => h
      have hconfirm : Going careful orgId c (Funded orgId c "processing" { f with
          status := .submitted, externalReference := some ("stellar-tx:" ++ toString row.id) } none)
          (do
            confirmCollectionFunding row funding' (some ("stellar-tx:" ++ toString row.id))
            return true) fun _ s => careful = true → Done orgId c f s := by
        rw [hfunding]
        refine Triple.bind (going_confirm hrow rfl rfl _) fun _ => ?_
        exact Triple.pure fun s hs _ => hdone s hs
      refine Triple.ite (fun _ => hconfirm) fun _ => ?_
      refine Triple.bind (going_read (R := fun v => careful = true → v = .confirmed) rfl rfl rfl
        kept_funded fun o s _ hff hcareful => (hff hcareful).2) fun v => ?_
      refine Triple.assume fun hv => ?_
      cases v with
      | confirmed => exact hconfirm
      | failed =>
          refine Triple.bind (going_note row.id) fun _ => Triple.pure fun s _ hcareful => ?_
          cases hv hcareful
      | unknown =>
          refine Triple.bind (going_note row.id) fun _ => Triple.pure fun s _ hcareful => ?_
          cases hv hcareful

end funding

/-! ### The run that crashes -/

section crash

variable {orgId : String} {c : ℕ} {q : ℚ}

/-- A funding of the credited collection is inserted. -/
theorem going_insert {row : TxRow} (hrow : row.id = c) (horg : row.orgId = orgId)
    (hq : 0 < round7 (nearest q)) {status : FundingStatus} (hstatus : status ≠ .confirmed) :
    Going false orgId c (Credited orgId c q)
      (sql (.insertFunding (newFunding row (round7 (nearest q)) status (fundingKey row.id))))
      fun f s => f.status = status ∧ Funded orgId c "processing" f none s := by
  refine going_sql rfl fun o s hs hstop _ => ?_
  have hfunded : Funded orgId c "processing"
      { newFunding row (round7 (nearest q)) status (fundingKey row.id) with id := s.nextId } none
      { s with
        fundings := { newFunding row (round7 (nearest q)) status (fundingKey row.id) with
          id := s.nextId } :: s.fundings
        nextId := s.nextId + 1 } :=
    hs.fund hq horg (congrArg fundingKey hrow) rfl
  simp only [Sql.run]
  split_ifs
  · exact ⟨hstop, trivial⟩
  · exact ⟨.unconfirmed _ hstatus hfunded, rfl, hfunded⟩

/-- The funding of a collection that has none, stopped anywhere. -/
theorem crash_fund {row : TxRow} (hrow : row.id = c) (horg : row.orgId = orgId) :
    Going false orgId c (Credited orgId c q) (fundCollectionStellarWallet row q)
      fun _ _ => True := by
  unfold fundCollectionStellarWallet
  refine Triple.bind (going_read (R := fun _ => True) rfl rfl rfl kept_credited
    fun _ _ _ _ => trivial) fun mode => Triple.assume fun _ => ?_
  refine Triple.ite (fun _ => Triple.pure fun _ _ => trivial) fun _ => ?_
  refine Triple.ite (fun _ => Triple.throw fun _ _ => rfl) fun hq => ?_
  have hpos : 0 < round7 (nearest q) := not_le.mp hq
  refine Triple.bind (going_read (R := fun b => b = none) rfl rfl rfl kept_credited
    fun o s hs _ => ?_) fun existing => Triple.assume fun hexisting => ?_
  · have hfind := hs.unfunded
    unfold Store.funding? at hfind
    simp only [Sql.run, horg, hrow, hfind]
  subst hexisting
  rw [if_neg (by simp), if_neg (by simp)]
  refine Triple.bind (going_external kept_credited) fun _ => ?_
  refine Triple.bind (going_note row.id) fun _ => ?_
  refine Triple.bind (going_covers kept_credited mode _) fun covered => ?_
  refine Triple.assume fun _ => Triple.ite (fun _ => ?_) fun _ => ?_
  · unfold awaitTreasury
    refine Triple.bind (R := fun _ _ => True) ?_ fun _ => Triple.pure fun _ _ => trivial
    refine Triple.bind (going_insert hrow horg hpos (by simp)) fun f => ?_
    exact (going_note row.id).mono (fun _ h => h) (fun _ _ _ => trivial) fun _ _ h => h
  · unfold ensureFunding
    refine Triple.bind (going_insert hrow horg hpos (by simp)) fun f => ?_
    refine Triple.assume fun hf => ?_
    exact (going_pay hrow rfl _).mono (fun _ h => h) (fun _ _ _ => trivial)
      fun _ _ h => h

theorem Store.Same.tx {s t : Store} (h : Store.Same s t) (c : ℕ) : t.tx c = s.tx c := by
  unfold Store.tx
  rw [h.txs]

theorem kept_new : KeptByReads (NewCollection orgId c) := by
  intro s t hsame hfundings h
  refine ⟨?_, fun step => ?_, kept_unfunded s t hsame hfundings h.unfunded, fun f hf => ?_⟩
  · rw [hsame.tx]
    exact h.row
  · rw [hsame.collected]
    exact h.unposted step
  · rw [hfundings] at hf
    exact lt_of_lt_of_le (h.fundingIds f hf) hsame.nextId

theorem kept_read {P : Store → Prop} (hP : KeptByReads P) (row : TxRow) :
    KeptByReads fun s => s.tx c = some row ∧ P s := by
  intro s t hsame hfundings h
  rw [hsame.tx]
  exact ⟨h.1, hP s t hsame hfundings h.2⟩

/-- The collection is loaded. -/
theorem going_load {careful : Bool} {P : Store → Prop}
    (hrow : careful = true → ∀ s, P s → ∃ r, s.tx c = some r ∧ r.orgId = orgId ∧
      r.direction = .payment) :
    Going careful orgId c P (loadDirected .payment c (some orgId))
      fun row s => (row.id = c ∧ row.orgId = orgId ∧ row.direction = .payment) ∧
        s.tx c = some row ∧ P s := by
  unfold loadDirected
  refine Triple.bind (R := fun found s => (careful = true → ∃ r, found = some r ∧
    r.direction = .payment) ∧ (∀ r, found = some r → r.id = c ∧ r.orgId = orgId ∧
      s.tx c = some r) ∧ P s) (going_sql rfl fun o s hs hstop _ => ⟨hstop, ?_⟩) fun found => ?_
  · refine ⟨fun hcareful => ?_, fun r hr => ?_, hs⟩
    · obtain ⟨r, hr, horg, hdir⟩ := hrow hcareful s hs
      exact ⟨r, by simp [hr, horg], hdir⟩
    · obtain ⟨hr, horg⟩ := Option.filter_eq_some_iff.mp hr
      exact ⟨(Store.tx_mem hr).2, by simpa using horg, hr⟩
  · refine Triple.assume fun hfound => ?_
    cases found with
    | none =>
        refine Triple.throw fun _ _ => ?_
        by_contra hne
        obtain ⟨r, hr, -⟩ := hfound (by simpa using hne)
        cases hr
    | some row =>
        refine Triple.ite (fun hdir => Triple.pure fun s hs => ?_) fun hdir => ?_
        · obtain ⟨hid, horg, htx⟩ := hs.1 row rfl
          exact ⟨⟨hid, horg, hdir⟩, htx, hs.2⟩
        · refine Triple.throw fun _ _ => ?_
          by_contra hne
          obtain ⟨r, hr, hrdir⟩ := hfound (by simpa using hne)
          cases hr
          exact hdir hrdir

/-- The amount is the recorded one, if there is one. -/
theorem going_amount {careful : Bool} {P : Store → Prop} (hP : KeptByReads P) (row : TxRow) :
    Going careful orgId c P (usdcAmountOf row)
      fun q s => (∀ q', metaUsdc row = some q' → q = q') ∧ P s := by
  unfold usdcAmountOf
  cases hrow : metaUsdc row with
  | some q =>
      refine Triple.pure fun s hs => ⟨fun q' hq => ?_, hs⟩
      exact Option.some.inj hq
  | none =>
      have hnone : ∀ q q' : ℚ, (none : Option ℚ) = some q' → q = q' := fun _ _ h => by cases h
      unfold resolveUsdcAmount
      refine Triple.ite (fun _ => Triple.pure fun _ hs => ⟨hnone _, hs⟩) fun _ => ?_
      refine Triple.bind (going_read (R := fun _ => True) rfl rfl rfl hP fun o s _ hff => ?_)
        fun _ => Triple.pure fun _ hs => ⟨hnone _, hs.2⟩
      cases ho : o.quote with
      | some usd => simp [Sql.run, ho]
      | none =>
          have hcareful : careful = false := by
            by_contra hne
            have hsome : o.quote.isSome = true := (hff (by simpa using hne)).2
            rw [ho] at hsome
            cases hsome
          simp [Sql.run, ho, hcareful]

/-- The collection is credited in pending, and its row not patched yet. -/
structure Pended (orgId : String) (c : ℕ) (row : TxRow) (q : ℚ) (s : Store) : Prop where
  read : s.tx c = some row
  unfunded : s.funding? orgId c = none
  fundingIds : ∀ f ∈ s.fundings, f.id < s.nextId
  pending : ∃ m, s.ledger.collected .pending c = some m ∧ m.amount = postedAmount q
  unreleased : s.ledger.collected .available c = none

/-- The pending credit of a new collection. -/
theorem crash_pending {row : TxRow} (hrow : row.id = c) :
    Going false orgId c (fun s => s.tx c = some row ∧ NewCollection orgId c s)
      (sql (.collection .pending row q)) fun _ s =>
        (0 < q ∧ row.status.toLower ∉ ["settled", "completed", "success"]) ∧
          Pended orgId c row q s := by
  refine going_sql rfl fun o s hs hstop _ => ?_
  have hrun : (Sql.collection .pending row q).run 0 o s =
      s.post .creditOrgWalletPending (CollectionStep.pending.params row q) := rfl
  have hkey : (CollectionStep.pending.params row q).key = CollectionStep.pending.key c := by
    rw [CollectionStep.params_key, hrow]
  rw [hrun]
  rcases s.post_cases .creditOrgWalletPending (CollectionStep.pending.params row q) with
    ⟨e, he⟩ | ⟨m, hm, he⟩ | ⟨amount, hposts, he⟩
  · rw [he]
    exact ⟨hstop, rfl⟩
  · have hnone := hs.2.unposted .pending
    unfold Ledger.collected at hnone
    rw [hkey, hnone] at hm
    cases hm
  · rw [he]
    set p := CollectionStep.pending.params row q with hp
    obtain ⟨r, hr, hstatus⟩ := hs.2.row
    obtain rfl : r = row := Option.some.inj (hr.symm.trans hs.1)
    refine ⟨.unfunded hs.2.unfunded, ⟨parseAmount_pos hposts.parsed, hstatus⟩, hs.1,
      hs.2.unfunded, hs.2.fundingIds, ⟨_, ?_, posted_amount hposts.toPostsOn rfl⟩, ?_⟩
    · unfold Ledger.collected
      exact find_posted.trans (if_pos hkey)
    · have hne : p.key ≠ CollectionStep.available.key c := by
        rw [hkey]
        intro heq
        have := CollectionStep.key_inj.mp heq
        simp at this
      unfold Ledger.collected
      exact (find_posted.trans (if_neg hne)).trans (hs.2.unposted .available)

/-- The status a settlement writes when the wallet is to be funded. -/
def statusFor (mode : FundingMode) (status : String) : String :=
  if status.toLower ∈ ["settled", "completed", "success"] then status
  else if mode ≠ .off then "processing" else "settled"

/-- The patch after the pending credit of a new collection. -/
theorem crash_patch {row : TxRow} {mode : FundingMode} (hid : row.id = c) (horg : row.orgId = orgId)
    (hdir : row.direction = .payment)
    (hstatus : row.status.toLower ∉ ["settled", "completed", "success"]) (hmode : mode ≠ .off)
    (hq : 0 < q) (credit : ℕ) :
    Going false orgId c (Pended orgId c row q)
      (sql (.patchTx row.id (some (statusFor mode row.status)) fun m =>
        { m with usdcAmount := some q, ledgerCreditId := some credit }))
      fun _ => Credited orgId c q := by
  refine going_sql rfl fun o s hs hstop _ => ?_
  have hrow : (s.setTx c fun r => { r with
      status := "processing"
      metadata := { r.metadata with usdcAmount := some q, ledgerCreditId := some credit } }).HasRow
      orgId c "processing" q := Store.hasRow_credit hs.read horg hdir hq credit
  have hprocessing : statusFor mode row.status = "processing" := by
    rw [statusFor, if_neg hstatus, if_pos hmode]
  have hrun : (Sql.patchTx row.id (some (statusFor mode row.status)) fun m =>
      { m with usdcAmount := some q, ledgerCreditId := some credit }).run 0 o s =
      (.ok (), s.setTx c fun r => { r with
        status := "processing"
        metadata := { r.metadata with usdcAmount := some q, ledgerCreditId := some credit } }) := by
    rw [hprocessing, hid]
    rfl
  rw [hrun]
  exact ⟨.unfunded hs.unfunded, hrow, hs.unfunded, hs.fundingIds, hs.pending, hs.unreleased⟩

/-- The balance that is read at the end. -/
theorem going_balance {careful : Bool} {P : Store → Prop} (hP : KeptByReads P)
    (orgId' env : String) :
    Going careful orgId c P (sql (.getOrgBalance orgId' env)) fun _ => P := by
  refine (going_read (R := fun _ => True) rfl rfl rfl hP fun o s _ hff => ?_).mono
    (fun _ h => h) (fun _ _ h => h.2) fun _ _ h => h
  have hok : careful = true → ((Sql.getOrgBalance orgId' env).run 0 o s).1.toBool = true :=
    fun h => (hff h).2
  revert hok
  cases ((Sql.getOrgBalance orgId' env).run 0 o s).1 with
  | ok b => exact fun _ => trivial
  | error e =>
      intro hok
      by_contra hne
      cases hok (by simpa using hne)

/-- A statement that does not write the fundings, on a collection that has none. -/
theorem crash_unfunded {β : Type} {st : Sql (Ans β)} (hst : st.failed = .error .database)
    (hw : st.writesFunding = false) :
    Going false orgId c (fun s => s.funding? orgId c = none) (sql st)
      fun _ s => s.funding? orgId c = none := by
  refine going_sql hst fun o s hs _ _ => ?_
  have hfunding : (st.run 0 o s).2.funding? orgId c = none := by
    unfold Store.funding? at hs ⊢
    rw [Sql.run_fundings hw]
    exact hs
  refine ⟨.unfunded hfunding, ?_⟩
  cases (st.run 0 o s).1 with
  | ok b => exact hfunding
  | error e => rfl

/-- The first run on a collection, stopped anywhere. -/
theorem crash_settle :
    Going false orgId c (NewCollection orgId c) (settleCollectionCredit orgId c)
      fun _ _ => True := by
  unfold settleCollectionCredit
  refine Triple.bind (going_load fun h => (by cases h)) fun row => ?_
  refine Triple.assume fun ⟨hid, horg, hdir⟩ => ?_
  dsimp only
  refine Triple.bind (going_amount (kept_read kept_new row) row) fun q => ?_
  refine Triple.assume fun _ => ?_
  refine Triple.bind (going_read (R := fun _ => True) rfl rfl rfl (kept_read kept_new row)
    fun _ _ _ _ => trivial) fun mode => Triple.assume fun _ => ?_
  by_cases hmode : mode ≠ .off
  · rw [show (if mode ≠ .off then CollectionStep.pending else .credit) = .pending from if_pos hmode]
    refine Triple.bind (crash_pending hid) fun credit => Triple.assume fun ⟨hq, hstatus⟩ => ?_
    refine Triple.bind (crash_patch hid horg hdir hstatus hmode hq credit.movement.id) fun _ => ?_
    refine Triple.ite (fun _ => ?_) fun hoff => absurd hmode hoff
    refine Triple.bind (R := fun _ _ => True) (Triple.tryCatch (F := fun _ _ => True)
      ((crash_fund hid horg).mono (fun _ h => h) (fun _ _ _ => trivial) fun _ _ _ => trivial)
      fun _ => Triple.pure fun _ _ => trivial) fun _ => ?_
    refine Triple.bind (going_balance (fun _ _ _ _ h => h) _ _) fun _ => ?_
    exact Triple.pure fun _ _ => trivial
  · have hunfunded : ∀ s, s.tx c = some row ∧ NewCollection orgId c s →
        s.funding? orgId c = none := fun s hs => hs.2.unfunded
    refine Triple.bind ((crash_unfunded rfl rfl).mono hunfunded (fun _ _ h => h) fun _ _ h => h)
      fun credit => ?_
    refine Triple.bind (crash_unfunded rfl rfl) fun _ => ?_
    refine Triple.ite (fun hon => absurd hon hmode) fun _ => ?_
    refine Triple.bind (crash_unfunded rfl rfl) fun _ => ?_
    exact Triple.pure fun _ _ => trivial

end crash

/-! ### The run that recovers -/

section rerun

variable {orgId status : String} {c : ℕ} {f : FundingRow} {n : Option Movement}

/-- A funding that is confirmed stops the run. -/
theorem rerun_confirmed {row : TxRow} {q : ℚ} (hrow : row.id = c) (horg : row.orgId = orgId)
    (hq : 0 < round7 (nearest q)) (hf : f.status = .confirmed)
    (href : f.externalReference.isSome = true) :
    Going true orgId c (Funded orgId c status f n) (fundCollectionStellarWallet row q)
      fun _ => Funded orgId c status f n := by
  unfold fundCollectionStellarWallet
  refine Triple.bind (going_read (R := fun b => b ≠ FundingMode.off) rfl rfl rfl kept_funded
    fun o s _ hff => (hff rfl).2) fun mode => Triple.assume fun hmode => ?_
  rw [if_neg hmode]
  dsimp only
  rw [if_neg (not_le.mpr hq)]
  refine Triple.bind (going_read (R := fun b => b = some f) rfl rfl rfl kept_funded
    fun o s hs _ => ?_) fun existing => Triple.assume fun hexisting => ?_
  · have hfind := hs.funding?
    unfold Store.funding? at hfind
    simp only [Sql.run, horg, hrow, hfind]
  subst hexisting
  rw [if_pos (by simp [hf, href])]
  exact Triple.pure fun _ hs => hs

/-- A funding that is not confirmed, and does not wait for the treasury, is paid. -/
theorem rerun_unconfirmed {row : TxRow} {q : ℚ} (hrow : row.id = c) (horg : row.orgId = orgId)
    (hq : 0 < round7 (nearest q)) (hf : f.status ≠ .confirmed) (hf' : f.status ≠ .pendingTreasury) :
    Going true orgId c (Funded orgId c "processing" f none) (fundCollectionStellarWallet row q)
      fun _ => Done orgId c f := by
  unfold fundCollectionStellarWallet
  refine Triple.bind (going_read (R := fun b => b ≠ FundingMode.off) rfl rfl rfl kept_funded
    fun o s _ hff => (hff rfl).2) fun mode => Triple.assume fun hmode => ?_
  rw [if_neg hmode]
  dsimp only
  rw [if_neg (not_le.mpr hq)]
  refine Triple.bind (going_read (R := fun b => b = some f) rfl rfl rfl kept_funded
    fun o s hs _ => ?_) fun existing => Triple.assume fun hexisting => ?_
  · have hfind := hs.funding?
    unfold Store.funding? at hfind
    simp only [Sql.run, horg, hrow, hfind]
  subst hexisting
  rw [if_neg (by simp [hf]), if_neg (by simp [hf'])]
  refine Triple.bind (going_external kept_funded) fun _ => ?_
  refine Triple.bind (going_note row.id) fun _ => ?_
  refine Triple.bind (going_covers kept_funded mode _) fun covered => ?_
  refine Triple.assume fun hcovered => ?_
  rw [if_neg (by simp [hcovered rfl])]
  refine Triple.bind (R := fun b s => b = f ∧ Funded orgId c "processing" f none s)
    (Triple.pure fun s hs => ⟨rfl, hs⟩) fun funding => Triple.assume fun hfunding => ?_
  subst hfunding
  exact (going_pay hrow rfl _).mono (fun _ h => h) (fun _ _ h => h rfl) fun _ _ h => h

/-- The pending credit, asked for again. -/
theorem rerun_pending {row : TxRow} {q : ℚ} (hrow : row.id = c) :
    Going true orgId c (fun s => s.tx c = some row ∧ Funded orgId c status f n s)
      (sql (.collection .pending row q))
      fun _ s => s.tx c = some row ∧ Funded orgId c status f n s := by
  refine going_sql rfl fun o s hs hstop hff => ?_
  have hrun : (Sql.collection .pending row q).run 0 o s =
      s.post .creditOrgWalletPending (CollectionStep.pending.params row q) := rfl
  have hkey : (CollectionStep.pending.params row q).key = CollectionStep.pending.key c := by
    rw [CollectionStep.params_key, hrow]
  obtain ⟨m, hm, -⟩ := hs.2.pending
  rw [hrun]
  rcases s.post_cases .creditOrgWalletPending (CollectionStep.pending.params row q) with
    ⟨e, he⟩ | ⟨m', -, he⟩ | ⟨amount, hposts, -⟩
  · have hok : (s.post .creditOrgWalletPending
      (CollectionStep.pending.params row q)).1.toBool = true := (hff rfl).2
    rw [he] at hok
    cases hok
  · rw [he]
    exact ⟨hstop, hs⟩
  · have hfresh := hposts.keyFresh
    unfold Ledger.collected at hm
    rw [hkey, hm] at hfresh
    cases hfresh

theorem metaUsdc_pos {row : TxRow} {q : ℚ} (h : metaUsdc row = some q) : 0 < q := by
  unfold metaUsdc at h
  simpa using (Option.filter_eq_some_iff.mp h).2

/-- The patch of a further run. -/
theorem rerun_patch {row : TxRow} {mode : FundingMode} {q : ℚ} (hid : row.id = c)
    (horg : row.orgId = orgId) (hdir : row.direction = .payment)
    (hstatus : statusFor mode row.status = status)
    (hstop : ∀ s, Funded orgId c status f n s → Stopped orgId c s) (hq : 0 < q)
    (hpos : 0 < round7 (nearest q)) (credit : ℕ) :
    Going true orgId c (fun s => s.tx c = some row ∧ Funded orgId c status f n s)
      (sql (.patchTx row.id (some (statusFor mode row.status)) fun m =>
        { m with usdcAmount := some q, ledgerCreditId := some credit }))
      fun _ => Funded orgId c status f n := by
  refine going_sql rfl fun o s hs _ _ => ?_
  have hrow : (s.setTx c fun r => { r with
      status := status
      metadata := { r.metadata with usdcAmount := some q, ledgerCreditId := some credit } }).HasRow
      orgId c status q := Store.hasRow_credit hs.1 horg hdir hq credit
  have hfunded : Funded orgId c status f n (s.setTx c fun r => { r with
      status := status
      metadata := { r.metadata with usdcAmount := some q, ledgerCreditId := some credit } }) :=
    ⟨⟨q, hrow, hpos⟩, hs.2.orgId, hs.2.key, hs.2.fundings, hs.2.pending, hs.2.available⟩
  have hrun : (Sql.patchTx row.id (some (statusFor mode row.status)) fun m =>
      { m with usdcAmount := some q, ledgerCreditId := some credit }).run 0 o s =
      (.ok (), s.setTx c fun r => { r with
        status := status
        metadata := { r.metadata with usdcAmount := some q, ledgerCreditId := some credit } }) := by
    rw [hstatus, hid]
    rfl
  rw [hrun]
  exact ⟨hstop _ hfunded, hfunded⟩

/-- A further run, by what its funding does. -/
theorem rerun_settle {Q : Store → Prop} (hQ : KeptByReads Q)
    (hstatus : ∀ mode : FundingMode, mode ≠ .off → statusFor mode status = status)
    (hstop : ∀ s, Funded orgId c status f n s → Stopped orgId c s)
    (hfund : ∀ (row : TxRow) (q : ℚ), row.id = c → row.orgId = orgId → 0 < round7 (nearest q) →
      Going true orgId c (Funded orgId c status f n) (fundCollectionStellarWallet row q)
        fun _ => Q) :
    Going true orgId c (Funded orgId c status f n) (settleCollectionCredit orgId c)
      fun _ => Q := by
  unfold settleCollectionCredit
  refine Triple.bind (going_load fun _ s hs => ?_) fun row => ?_
  · obtain ⟨q, ⟨r, hr, horg, hdir, -⟩, -⟩ := hs.row
    exact ⟨r, hr, horg, hdir⟩
  refine Triple.assume fun ⟨hid, horg, hdir⟩ => ?_
  dsimp only
  -- the row that was read has the recorded amount and the status
  have hread : ∀ s, s.tx c = some row ∧ Funded orgId c status f n s →
      (∃ q, (metaUsdc row = some q ∧ 0 < round7 (nearest q)) ∧ row.status = status) := by
    rintro s ⟨hr, hs⟩
    obtain ⟨q, ⟨r, hr', -, -, hstatus', hq⟩, hpos⟩ := hs.row
    obtain rfl : r = row := Option.some.inj (hr'.symm.trans hr)
    exact ⟨q, ⟨hq, hpos⟩, hstatus'⟩
  intro s hs
  obtain ⟨q, ⟨hq, hpos⟩, hrowStatus⟩ := hread s hs
  revert s
  refine Triple.bind (going_amount (kept_read kept_funded row) row) fun q' => ?_
  refine Triple.assume fun hq' => ?_
  obtain rfl : q' = q := hq' q hq
  refine Triple.bind (going_read (R := fun b => b ≠ FundingMode.off) rfl rfl rfl
    (kept_read kept_funded row) fun _ _ _ hff => (hff rfl).2) fun mode => ?_
  refine Triple.assume fun hmode => ?_
  rw [show (if mode ≠ .off then CollectionStep.pending else .credit) = .pending from if_pos hmode]
  refine Triple.bind (rerun_pending hid) fun credit => ?_
  refine Triple.bind (rerun_patch hid horg hdir ?_ hstop (metaUsdc_pos hq) hpos credit.movement.id)
    fun _ => ?_
  · rw [hrowStatus]
    exact hstatus mode hmode
  · refine Triple.ite (fun _ => ?_) fun hoff => absurd hmode hoff
    refine Triple.bind (R := fun _ => Q) (Triple.tryCatch (F := fun _ _ => False)
      ((hfund row q' hid horg hpos).mono (fun _ h => h) (fun _ _ h => h) fun _ _ h => by cases h)
      fun _ s h => h.elim) fun _ => ?_
    exact Triple.bind (going_balance hQ _ _) fun _ => Triple.pure fun _ h => h

/-- What is settled or being settled is written back as it was. -/
theorem statusFor_processing {mode : FundingMode} (h : mode ≠ .off) :
    statusFor mode "processing" = "processing" := by
  unfold statusFor
  rw [if_neg (by decide +kernel), if_pos h]

theorem statusFor_settled (mode : FundingMode) : statusFor mode "settled" = "settled" := by
  unfold statusFor
  rw [if_pos (by decide +kernel)]

/-- A further run pays the funding that is not confirmed. -/
theorem rerun_of_unconfirmed (hf : f.status ≠ .confirmed) (hf' : f.status ≠ .pendingTreasury) :
    Going true orgId c (Funded orgId c "processing" f none) (settleCollectionCredit orgId c)
      fun _ => Done orgId c f :=
  rerun_settle kept_done (fun _ => statusFor_processing) (fun _ h => .unconfirmed f hf h)
    fun _ _ hid horg hq => rerun_unconfirmed hid horg hq hf hf'

/-- A further run stops at the funding that is confirmed. -/
theorem rerun_of_confirmed (hf : f.status = .confirmed) (href : f.externalReference.isSome = true)
    (hstatus : ∀ mode : FundingMode, mode ≠ .off → statusFor mode status = status)
    (hstop : ∀ s, Funded orgId c status f n s → Stopped orgId c s) :
    Going true orgId c (Funded orgId c status f n) (settleCollectionCredit orgId c)
      fun _ => Funded orgId c status f n :=
  rerun_settle kept_funded hstatus hstop
    fun _ _ hid horg hq => rerun_confirmed hid horg hq hf href

end rerun

/-! ### Every crash -/

section recovery

variable {orgId status : String} {c : ℕ} {f : FundingRow} {n : Option Movement} {s t : Store}

/-- The run finished without a fault. -/
theorem careful_result {β : Type} {P : Store → Prop} {p : Call β} {Q : β → Store → Prop}
    {os : List Outside} {res : Except Err β} (h : Going true orgId c P p Q) (hs : P s)
    (hstop : Stopped orgId c s)
    (hrun : p.run.advance (servicesIf true) 0 os s = (.ret res, t)) : ∃ b, Q b t := by
  have hos : ∀ o ∈ os, True := fun _ _ => trivial
  have hsound := (advance_sound hos (h s hs) hstop).2 res
  rw [hrun] at hsound
  have hres := hsound rfl
  cases res with
  | ok b => exact ⟨b, hres⟩
  | error e => cases hres

theorem Store.HasRow.isSettled {q : ℚ} (h : s.HasRow orgId c status q) :
    s.IsSettled c ↔ status = "settled" := by
  obtain ⟨r, hr, -, -, hstatus, -⟩ := h
  constructor
  · rintro ⟨r', hr', hsettled⟩
    obtain rfl : r = r' := Option.some.inj (hr.symm.trans hr')
    rw [← hstatus]
    exact hsettled
  · intro hsettled
    exact ⟨r, hr, hstatus.trans hsettled⟩

/-- A collection that is not settled has not recovered. -/
theorem Funded.not_recovered (h : Funded orgId c "processing" f n s) : ¬ Recovered c s := by
  intro hr
  obtain ⟨q, hrow, -⟩ := h.row
  exact absurd (hrow.isSettled.mp hr.settled) (by simp)

/-- A settled collection has recovered when it released what its funding is for. -/
theorem Funded.recovered_iff {m : Movement} (h : Funded orgId c "settled" f (some m) s) :
    Recovered c s ↔ m.amount = f.amount := by
  obtain ⟨q, hrow, -⟩ := h.row
  obtain ⟨p, hp, hpa⟩ := h.pending
  constructor
  · rintro ⟨-, p', m', hp', hm', heq⟩
    obtain rfl : p = p' := Option.some.inj (hp.symm.trans hp')
    obtain rfl : m = m' := Option.some.inj (h.available.symm.trans hm')
    exact heq.trans hpa
  · intro heq
    exact ⟨hrow.isSettled.mpr rfl, p, m, hp, h.available, heq.trans hpa.symm⟩

theorem Done.recovered_iff (h : Done orgId c f s) :
    Recovered c s ↔ postedAmount (num f.amount) = f.amount := by
  obtain ⟨f', m, hamount, -, -, hm, hfunded⟩ := h
  rw [hfunded.recovered_iff, hm, hamount]

/-- **The first run of `settleCollectionCredit` on a new collection is stopped anywhere, with a
funding recorded that does not wait for the treasury. A further run without a fault leaves the
pending credit available and the transaction settled exactly when the funding is not confirmed yet,
or the transaction is settled already, and rounding the credited amount once more does not change
it.** -/
theorem crash_recovers_iff {s₀ s₁ s₂ : Store} {os₁ os₂ : List Outside}
    {res : Except Err Posted}
    (hnew : NewCollection orgId c s₀)
    (hcrash : s₁ = ((settleCollectionCredit orgId c).run.advance services 0 os₁ s₀).2)
    (hfunding : s₁.funding? orgId c = some f) (hpaid : f.status ≠ .pendingTreasury)
    (hrerun : (settleCollectionCredit orgId c).run.advance (servicesIf true) 0 os₂ s₁ =
      (.ret res, s₂)) :
    Recovered c s₂ ↔
      (f.status = .confirmed → s₁.IsSettled c) ∧ postedAmount (num f.amount) = f.amount := by
  have hos : ∀ o ∈ os₁, True := fun _ _ => trivial
  have hstopped : Stopped orgId c s₁ := by
    rw [hcrash]
    exact (advance_sound hos (crash_settle s₀ hnew) (.unfunded hnew.unfunded)).1
  cases hstopped with
  | unfunded h =>
      rw [h] at hfunding
      cases hfunding
  | unconfirmed g hg h =>
      obtain rfl : g = f := Option.some.inj (h.funding?.symm.trans hfunding)
      obtain ⟨-, hdone⟩ := careful_result (rerun_of_unconfirmed hg hpaid) h (.unconfirmed g hg h)
        hrerun
      rw [hdone.recovered_iff]
      exact ⟨fun heq => ⟨fun hconfirmed => absurd hconfirmed hg, heq⟩, fun heq => heq.2⟩
  | confirmed g m hg href h =>
      obtain rfl : g = f := Option.some.inj (h.funding?.symm.trans hfunding)
      obtain ⟨-, hfunded⟩ := careful_result (rerun_of_confirmed hg href
        (fun _ => statusFor_processing) fun _ h => .confirmed g m hg href h) h
        (.confirmed g m hg href h) hrerun
      obtain ⟨q, hrow, -⟩ := h.row
      refine ⟨fun hr => absurd hr hfunded.not_recovered, fun heq => ?_⟩
      exact absurd (hrow.isSettled.mp (heq.1 hg)) (by simp)
  | settled g h =>
      have hdone := h
      obtain ⟨f', m, hamount, hf', href, hm, h⟩ := h
      obtain rfl : f' = f := Option.some.inj (h.funding?.symm.trans hfunding)
      have hstop : ∀ s, Funded orgId c "settled" f' (some m) s → Stopped orgId c s :=
        fun s h => .settled g ⟨f', m, hamount, hf', href, hm, h⟩
      obtain ⟨-, hfunded⟩ := careful_result (rerun_of_confirmed hf' href
        (fun mode _ => statusFor_settled mode) hstop) h (.settled g hdone) hrerun
      obtain ⟨q, hrow, -⟩ := h.row
      rw [hfunded.recovered_iff, hm, hamount]
      exact ⟨fun heq => ⟨fun _ => hrow.isSettled.mpr rfl, heq⟩, fun heq => heq.2⟩

end recovery

/-- The collection `collected`, after so many steps of a run without a fault. -/
def crashedAfter (steps : ℕ) : Store :=
  ((settleCollectionCredit "org" 1).run.advance services 0 (List.replicate steps
    { fundingMode := .live, quote := some 100, funded := true, verification := .confirmed })
    collected).2

/-- A further run without a fault. -/
def rerunFrom (s : Store) : Prog Sql (Except Err Posted) × Store :=
  (settleCollectionCredit "org" 1).run.advance (servicesIf true) 0 (List.replicate 25
    { fundingMode := .live, quote := some 100, funded := true, verification := .confirmed }) s

theorem collected_new : NewCollection "org" 1 collected where
  row := ⟨_, rfl, by decide +kernel⟩
  unposted step := by cases step <;> rfl
  unfunded := rfl
  fundingIds f hf := by cases hf

/-- A crash after the payment was recorded as submitted is made good. -/
theorem crash_recovers_submitted : Recovered 1 (rerunFrom (crashedAfter 13)).2 := by
  obtain ⟨f, hf, hsubmitted, hamount⟩ : ∃ f, (crashedAfter 13).funding? "org" 1 = some f ∧
      f.status = .submitted ∧ postedAmount (num f.amount) = f.amount := by
    have hsome : ((crashedAfter 13).funding? "org" 1).any (fun f =>
        decide (f.status = .submitted ∧ postedAmount (num f.amount) = f.amount)) = true := by
      decide +kernel
    obtain ⟨f, hf, hp⟩ := Option.any_eq_true _ _ |>.mp hsome
    exact ⟨f, hf, by simpa using hp⟩
  obtain ⟨b, hb⟩ : ∃ b, (rerunFrom (crashedAfter 13)).1.returned? = some b :=
    Option.isSome_iff_exists.mp (by decide +kernel)
  refine (crash_recovers_iff collected_new rfl hf (by simp [hsubmitted])
    (Prod.ext (eq_ret_of_returned hb) rfl)).mpr ⟨fun hconfirmed => ?_, hamount⟩
  rw [hsubmitted] at hconfirmed
  cases hconfirmed

/-- A crash after the payment was recorded as confirmed is not: the further run returns, nothing is
released and the transaction stays `processing`. -/
theorem crash_after_confirmed :
    NewCollection "org" 1 collected ∧
      ((crashedAfter 15).funding? "org" 1).map (·.status) = some .confirmed ∧
      (rerunFrom (crashedAfter 15)).1.returned?.isSome = true ∧
      ((rerunFrom (crashedAfter 15)).2.tx 1).map (·.status) = some "processing" ∧
      ¬ Recovered 1 (rerunFrom (crashedAfter 15)).2 := by
  have hnone : (rerunFrom (crashedAfter 15)).2.ledger.collected .available 1 = none := by
    decide +kernel
  refine ⟨collected_new, by decide +kernel, by decide +kernel, by decide +kernel, fun hr => ?_⟩
  obtain ⟨m, n, -, hn, -⟩ := hr.moved
  rw [hnone] at hn
  cases hn

end DayfiBackend.Infra
