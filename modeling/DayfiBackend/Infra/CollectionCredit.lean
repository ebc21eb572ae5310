import DayfiBackend.Infra.Webhooks

/-!
# A collection is credited once, as long as the funding mode stays

A settled collection is credited in available (key `collection:id:credit`) when the Stellar
funding mode is `off`, and in pending (key `collection:id:pending`) otherwise. The two keys differ
and so do the movement types, so nothing stops both from being posted when the mode changes
between two deliveries (`credited_twice`). While every delivery of a collection reads the same
mode, its credits share one key, and it is credited at most once (`credited_at_most_once`).
-/

namespace DayfiBackend.Infra

open DayfiBackend.Found DayfiBackend.Found.Prog DayfiBackend.Found.Keys

/-! ### Deliveries -/

/-- What may credit a collection. -/
inductive Delivery where
  | settle (orgId : String) (transactionId : ℕ)
  | yellowCard (payload : YellowCardWebhookPayload)
  | flutterwave (payload : FlutterwavePayload)
  | simulate (orgId env : String) (transactionId : ℕ)
  deriving DecidableEq, Repr

def Delivery.program : Delivery → Prog Sql Unit
  | settle orgId id => discard (settleCollectionCredit orgId id)
  | yellowCard payload => discard (applyInfraYellowCardWebhook payload)
  | flutterwave payload => discard (applyInfraFlutterwaveWebhook payload)
  | simulate orgId env id => discard (simulateSettlement orgId env id)

/-- A movement that credits a collection to the organisation's wallet. -/
def Movement.isCollectionCredit (m : Movement) : Bool :=
  (m.posting = .credit || m.posting = .creditPending) && m.referenceType = some "collection"

/-- The movements that credit one collection. -/
def creditsOf (l : Ledger) (id : ℕ) : List Movement :=
  l.movements.filter fun m => m.isCollectionCredit && m.referenceId = some (toString id)

/-- The unique index on the idempotency key. -/
def Ledger.KeysUnique (l : Ledger) : Prop :=
  l.movements.Pairwise fun m n => m.idempotencyKey ≠ n.idempotencyKey

/-- No collection has been credited. -/
structure NoCredits (s : Store) : Prop where
  keys : s.ledger.KeysUnique
  none : ∀ m ∈ s.ledger.movements, m.isCollectionCredit = false

/-- Every read of the funding mode for a collection tells the same: whether it uses wallet
funding. -/
def ReadsMode (uses : ℕ → Bool) {β : Type} (_pid : ℕ) (st : Sql β) (o : Outside)
    (_s : Store) : Prop :=
  match st with
  | .fundingMode row => decide (o.fundingMode ≠ .off) = uses row.id
  | _ => True

instance (uses : ℕ → Bool) {β : Type} (pid : ℕ) (st : Sql β) (o : Outside) (s : Store) :
    Decidable (ReadsMode uses pid st o s) :=
  decidable_of_bool (match st with
    | .fundingMode row => decide (decide (o.fundingMode ≠ .off) = uses row.id)
    | _ => true) (by
      cases st <;> first | exact decide_eq_true_iff | exact iff_of_true rfl trivial)

/-! ### The invariant -/

/-- The step that credits a collection. -/
def CollectionStep.ofMode (usesWalletFunding : Bool) : CollectionStep :=
  if usesWalletFunding then .pending else .credit

/-- Every credit of a collection is posted under the one key its mode gives. -/
structure OneCreditKey (uses : ℕ → Bool) (l : Ledger) : Prop where
  keys : l.KeysUnique
  credits : ∀ m ∈ l.movements, m.isCollectionCredit = true →
    ∃ id, m.referenceId = some (toString id) ∧
      m.idempotencyKey = (CollectionStep.ofMode (uses id)).key id

/-- The discipline of deliveries that read one mode. -/
def modeDiscipline (uses : ℕ → Bool) : Discipline Sql Outside Store where
  inv s := OneCreditKey uses s.ledger
  rely _ _ _ := True
  cond := ReadsMode uses
  good _ _ _ _ _ _ := True
  rely_refl _ _ := trivial
  rely_trans _ _ _ _ _ _ := trivial

/-- A statement that credits credits as the mode says. -/
def Sql.Keeps (uses : ℕ → Bool) {β : Type} : Sql β → Prop
  | .collection step row _ => step = .available ∨ step = .ofMode (uses row.id)
  | _ => True

variable {uses : ℕ → Bool}

/-- An unused key differs from that of every movement. -/
theorem Ledger.KeysUnique.posted {rule : PostRule} {p : LedgerWriteParams} {amount : ℚ}
    {l : Ledger} (h : l.KeysUnique) (hp : PostsOn rule p amount l) :
    (rule.posted p amount l).KeysUnique := by
  refine List.pairwise_cons.mpr ⟨fun n hn hkey => ?_, h⟩
  have hnone := List.find?_eq_none.mp hp.keyFresh n hn
  exact hnone (by simpa using hkey.symm)

theorem OneCreditKey.step {s : Store} (h : OneCreditKey uses s.ledger) {β : Type} {st : Sql β}
    (hst : st.Keeps uses) (i : ℕ) (o : Outside) : OneCreditKey uses (st.run i o s).2.ledger := by
  rcases st.run_ledger i o s with ⟨hm, -⟩ | ⟨op, p, amount, hcall, hp, hs⟩
  · exact ⟨by simpa [Ledger.KeysUnique, hm] using h.keys, by simpa [hm] using h.credits⟩
  rw [hs]
  refine ⟨h.keys.posted hp.toPostsOn, fun m hm hcredit => ?_⟩
  rcases List.mem_cons.mp hm with rfl | hm
  · cases st with
    | payout step row amt =>
        cases hcall
        cases step <;> simp [Movement.isCollectionCredit, PayoutStep.op, LedgerOp.rule, lockRule,
          finalizeRule, releaseRule] at hcredit
    | collection step row amt =>
        cases hcall
        refine ⟨row.id, ?_, ?_⟩
        · simp [CollectionStep.params, orNull]
        · rcases hst with rfl | rfl
          · simp [Movement.isCollectionCredit, CollectionStep.op, LedgerOp.rule,
              releasePendingRule] at hcredit
          · exact CollectionStep.params_key _ row amt
    | _ => cases hcall
  · exact h.credits m hm hcredit

/-- Two credits of one collection would share their key. -/
theorem OneCreditKey.length_creditsOf {l : Ledger} (h : OneCreditKey uses l) (id : ℕ) :
    (creditsOf l id).length ≤ 1 := by
  have hpair : (creditsOf l id).Pairwise fun m n => m.idempotencyKey ≠ n.idempotencyKey :=
    h.keys.sublist List.filter_sublist
  have hkey : ∀ m ∈ creditsOf l id,
      m.idempotencyKey = (CollectionStep.ofMode (uses id)).key id := by
    intro m hm
    obtain ⟨hmem, hc⟩ := List.mem_filter.mp hm
    simp only [Bool.and_eq_true, decide_eq_true_eq] at hc
    obtain ⟨id', href, hk⟩ := h.credits m hmem hc.1
    have hid : id' = id := by
      rw [hc.2] at href
      exact (toString_inj.mp (Option.some.inj href)).symm
    rw [hk, hid]
  exact length_le_one_of_pairwise hpair fun m hm n hn hne =>
    hne ((hkey m hm).trans (hkey n hn).symm)

/-! ### The programs -/

section programs

variable {pid : ℕ} {β : Type}

/-- The program keeps the invariant, and what it returns meets `R`. -/
abbrev Runs (uses : ℕ → Bool) (pid : ℕ) (p : Call β) (R : β → Prop) : Prop :=
  Triple services (modeDiscipline uses) pid (fun _ => True) p (fun b _ => R b) fun _ _ => True

/-- The rule of a statement. -/
theorem runs_sql {st : Sql (Ans β)} {R : β → Prop} (hst : st.failed = .error .database)
    (hkeeps : st.Keeps uses)
    (hR : ∀ o s b, ReadsMode uses pid st o s → (st.run pid o s).1 = .ok b → R b) :
    Runs uses pid (sql st) R := by
  refine triple_sql hst (fun _ _ _ _ => trivial) (fun t _ hinv o hc _ => ?_)
    fun _ _ _ _ _ _ => ⟨trivial, trivial⟩
  refine ⟨⟨trivial, OneCreditKey.step hinv hkeeps pid o, fun _ _ => trivial⟩, ?_⟩
  unfold Answers
  split
  · rename_i b hb
    exact hR o t b hc hb
  · trivial

/-- A statement whose answer does not matter. -/
theorem runs_any {st : Sql (Ans β)} (hst : st.failed = .error .database)
    (hkeeps : st.Keeps uses) : Runs uses pid (sql st) fun _ => True :=
  runs_sql hst hkeeps fun _ _ _ _ _ => trivial

theorem runs_mode (row : TxRow) :
    Runs uses pid (sql (.fundingMode row)) fun mode => decide (mode ≠ .off) = uses row.id := by
  refine runs_sql rfl trivial fun o s mode hc hb => ?_
  cases hb
  exact hc

theorem runs_return {R : β → Prop} {b : β} (h : R b) :
    Runs uses pid (pure b : Call β) R := Triple.pure fun _ _ => h

theorem runs_throw {R : β → Prop} {e : Err} : Runs uses pid (throw e : Call β) R :=
  Triple.throw fun _ _ => trivial

/-- Sequencing on what the first part returns. -/
theorem runs_bind {γ : Type} {R : γ → Prop} {R' : β → Prop} {p : Call γ} {f : γ → Call β}
    (hp : Runs uses pid p R) (hf : ∀ c, R c → Runs uses pid (f c) R') :
    Runs uses pid (p >>= f) R' :=
  Triple.bind hp fun c s hs => hf c hs s trivial

theorem loadDirected_runs (direction : TxDirection) (id : ℕ) (orgId : Option String) :
    Runs uses pid (loadDirected direction id orgId) fun _ => True := by
  unfold loadDirected
  refine runs_bind (runs_any rfl trivial) fun row _ => ?_
  cases row with
  | none => exact runs_throw
  | some row => exact Triple.ite (fun _ => runs_return trivial) fun _ => runs_throw

theorem usdcAmountOf_runs (row : TxRow) :
    Runs uses pid (usdcAmountOf row) fun _ => True := by
  unfold usdcAmountOf
  split
  · exact runs_return trivial
  · unfold resolveUsdcAmount
    exact Triple.ite (fun _ => runs_return trivial) fun _ =>
      runs_bind (runs_any rfl trivial) fun _ _ => runs_return trivial

/-- A call made of statements that keep the keys. -/
theorem runs_only {p : Call β} (hp : OnlyE (Sql.Keeps uses) p) : Runs uses pid p fun _ => True :=
  (triple_only (D := modeDiscipline uses) hp (fun _ _ _ _ => trivial)
    (fun _ hst _ _ hinv o _ _ =>
      ⟨⟨trivial, OneCreditKey.step hinv hst pid o, fun _ _ => trivial⟩, trivial⟩)
    fun _ _ _ => trivial).mono (fun _ hs => hs) (fun _ _ hq => hq) fun _ _ he => he

theorem fundCollectionStellarWallet_runs (row : TxRow) (amt : ℚ) :
    Runs uses pid (fundCollectionStellarWallet row amt) fun _ => True := by
  refine runs_only ((fundCollectionStellarWallet_only row amt).mono fun st hst => ?_)
  cases st with
  | collection step row' q => exact .inl hst.1
  | _ => trivial

theorem settleCollectionCredit_runs (orgId : String) (id : ℕ) :
    Runs uses pid (settleCollectionCredit orgId id) fun _ => True := by
  unfold settleCollectionCredit
  refine runs_bind (loadDirected_runs _ _ _) fun row _ => ?_
  refine runs_bind (usdcAmountOf_runs row) fun amt _ => ?_
  refine runs_bind (runs_mode row) fun mode hmode => ?_
  refine runs_bind (runs_any rfl (.inr ?_)) fun credit _ => ?_
  · rw [← hmode]
    by_cases h : mode = .off <;> simp [CollectionStep.ofMode, h]
  refine runs_bind (runs_any rfl trivial) fun _ _ => ?_
  refine Triple.ite (fun _ => ?_) fun _ => ?_
  · refine runs_bind (Triple.tryCatch (fundCollectionStellarWallet_runs row amt)
      fun _ => runs_return trivial) fun _ _ => ?_
    exact runs_bind (runs_any rfl trivial) fun _ _ => runs_return trivial
  · exact runs_bind (runs_any rfl trivial) fun _ _ => runs_return trivial

/-- The calls on payouts credit no collection. -/
theorem runs_payout {step : PayoutStep} {p : Call β} (hp : OnlyE (Sql.OfPayout step) p) :
    Runs uses pid p fun _ => True :=
  runs_only (hp.mono fun st _ => by cases st <;> trivial)

theorem lifecycle_runs : LifecycleRules (modeDiscipline uses) pid where
  load _ _ := runs_any rfl trivial
  loadByExternalId _ := runs_any rfl trivial
  patch _ _ := runs_any rfl trivial
  update _ _ := runs_any rfl trivial
  settle := settleCollectionCredit_runs
  finalize orgId id := runs_payout (finalizePayoutDebit_only orgId id)
  release orgId id := runs_payout (releasePayoutLock_only orgId id)

theorem Delivery.verifies (d : Delivery) :
    Verifies (modeDiscipline uses) pid (fun _ => True) d.program := by
  cases d with
  | settle orgId id => exact discard_verifies (settleCollectionCredit_runs orgId id)
  | yellowCard payload =>
      exact discard_verifies (lifecycle_runs.applyInfraYellowCardWebhook payload)
  | flutterwave payload =>
      exact discard_verifies (lifecycle_runs.applyInfraFlutterwaveWebhook payload)
  | simulate orgId env id =>
      exact discard_verifies (lifecycle_runs.simulateSettlement orgId env id)

end programs

/-! ### Whole runs -/

/-- The pool of a list of deliveries. -/
def deliveries (s : Store) (ds : List Delivery) : Pool Sql Unit Store :=
  ⟨s, ds.map Delivery.program⟩

/-- **A collection is credited once.** In every run of any deliveries, in any interleaving, in
which every delivery of a collection reads the same use of wallet funding, no collection has two
credits. -/
theorem credited_at_most_once {s : Store} (hs : NoCredits s) (ds : List Delivery)
    (sched : List (ℕ × Outside)) (uses : ℕ → Bool)
    (hmode : Pool.Along services (Pool.CondAt (ReadsMode uses)) (deliveries s ds) sched) (id : ℕ) :
    (creditsOf ((deliveries s ds).run services sched).store.ledger id).length ≤ 1 := by
  have hstart : Pool.Verified services (modeDiscipline uses) (fun _ _ _ => True)
      (deliveries s ds) := by
    refine Pool.Verified.start ⟨hs.keys, fun m hm hc => ?_⟩ fun i p hp => ?_
    · rw [hs.none m hm] at hc
      cases hc
    · obtain ⟨d, -, rfl⟩ := List.mem_map.mp (List.mem_of_getElem? hp)
      exact d.verifies s trivial
  have hrun := Pool.run_sound hstart sched hmode
  exact hrun.1.1.length_creditsOf id

/-- A collection of 100 USDC, not settled yet. -/
def collected : Store where
  ledger := ⟨fun _ => none, [], 0⟩
  txs := [⟨1, "org", "live", 100, "USDC", "pending", "bank", .payment, some "seq", none, none,
    {}, 0⟩]
  settlements := []
  requests := []
  payments := []
  nextId := 2

theorem collected_noCredits : NoCredits collected := ⟨.nil, fun _ hm => by cases hm⟩

/-- Two deliveries of its settlement. -/
def settledTwice : List Delivery :=
  [.settle "org" 1, .yellowCard ⟨none, some "seq", some "complete", none⟩]

/-- Both deliveries in full, each under its own funding mode. -/
def underModes (first second : FundingMode) : List (ℕ × Outside) :=
  steps 0 6 { fundingMode := first } ++ steps 1 9 { fundingMode := second }

/-- Both deliveries read `off`: one credit. -/
theorem credited_at_most_once_off :
    (creditsOf ((deliveries collected settledTwice).run services
      (underModes .off .off)).store.ledger 1).length ≤ 1 :=
  credited_at_most_once collected_noCredits settledTwice (underModes .off .off) (fun _ => false)
    (by decide +kernel) 1

/-- The mode changes from `off` to `live` between the deliveries: credited in available, and once
more in pending. -/
theorem credited_twice :
    NoCredits collected ∧
      ((creditsOf ((deliveries collected settledTwice).run services
        (underModes .off .live)).store.ledger 1).map fun m => (m.posting, m.amount)) =
          [(.creditPending, 100 * 10 ^ 7), (.credit, 100 * 10 ^ 7)] :=
  ⟨collected_noCredits, by decide +kernel⟩

end DayfiBackend.Infra
