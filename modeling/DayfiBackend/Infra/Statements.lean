import DayfiBackend.Infra.Exact
import DayfiBackend.Infra.Lifecycle

/-!
# What one statement does

The rule for a statement of a call (`triple_sql`), the keys the payout and collection steps post
under, and what each kind of statement leaves of the store: a quiet one leaves every table a
later argument is about (`Sql.run_same`), and a ledger operation either leaves the ledger or
posts one movement under a fresh key (`Store.post_cases`).
-/

namespace DayfiBackend.Infra

open DayfiBackend.Found DayfiBackend.Found.Prog DayfiBackend.Found.Binary64
  DayfiBackend.Found.Keys DayfiBackend.Found.Tx

/-! ### The rule of statements -/

section rule

variable {D : Discipline Sql Outside Store} {pid : ℕ} {β : Type} {P : Store → Prop}
  {Q : β → Store → Prop} {E : Err → Store → Prop}

/-- What a step must keep. -/
structure StepOk (D : Discipline Sql Outside Store) (pid : ℕ) {γ : Type} (st : Sql γ)
    (o : Outside) (s : Store) (r : γ × Store) : Prop where
  good : D.good pid st o s r.1 r.2
  inv : D.inv r.2
  rely : ∀ j, j ≠ pid → D.rely j s r.2

/-- Where the answer of a statement leads. -/
def Answers (Q : β → Store → Prop) (E : Err → Store → Prop) (r : Ans β × Store) : Prop :=
  match r.1 with
  | .ok b => Q b r.2
  | .error e => E e r.2

/-- An assertion that the steps of the others do not disturb. -/
def Stable (D : Discipline Sql Outside Store) (pid : ℕ) (P : Store → Prop) : Prop :=
  ∀ s t, P s → D.rely pid s t → P t

/-- The rule of a statement: what it does when it runs, and that it may fail without effect. -/
theorem triple_sql {st : Sql (Ans β)} (hst : st.failed = .error .database)
    (hstable : Stable D pid P)
    (hrun : ∀ t, P t → D.inv t → ∀ o, D.cond pid st o t → o.fault = false →
      StepOk D pid st o t (st.run pid o t) ∧ Answers Q E (st.run pid o t))
    (hfault : ∀ t, P t → D.inv t → ∀ o, D.cond pid st o t → o.fault = true →
      D.good pid st o t st.failed t ∧ E .database t) :
    Triple services D pid P (sql st) Q E := by
  intro s hs
  refine (wp_perform _ _ _ _ _ _).mpr fun t hr hi o hc b s' he => ?_
  have ht := hstable s t hs hr
  change (if o.fault then some (st.failed, t) else some (st.run pid o t)) = some (b, s') at he
  by_cases hf : o.fault = true
  · rw [if_pos hf] at he
    cases he
    obtain ⟨hgood, hE⟩ := hfault t ht hi o hc hf
    refine ⟨hgood, hi, fun j _ => D.rely_refl j t, ?_⟩
    simpa [hst] using hE
  · rw [if_neg hf] at he
    obtain ⟨hok, hans⟩ := hrun t ht hi o hc (by simpa using hf)
    have hb : st.run pid o t = (b, s') := Option.some.inj he
    rw [hb] at hok hans
    refine ⟨hok.good, hok.inv, hok.rely, ?_⟩
    cases b <;> simpa [Answers] using hans

/-- The rule of a call all of whose statements keep `P`. -/
theorem triple_only {φ : {γ : Type} → Sql γ → Prop} {p : Call β} (hp : OnlyE φ p)
    (hstable : Stable D pid P)
    (hrun : ∀ {γ : Type} (st : Sql γ), φ st → ∀ t, P t → D.inv t → ∀ o, D.cond pid st o t →
      o.fault = false → StepOk D pid st o t (st.run pid o t) ∧ P (st.run pid o t).2)
    (hfault : ∀ {γ : Type} (st : Sql γ) t o, D.good pid st o t st.failed t) :
    Triple services D pid P p (fun _ => P) fun _ => P := by
  refine Triple.of_only hp fun {γ} st hst s hs t hr hi o hc b u he => ?_
  have ht := hstable s t hs hr
  change (if o.fault then some (st.failed, t) else some (st.run pid o t)) = some (b, u) at he
  by_cases hf : o.fault = true
  · rw [if_pos hf] at he
    cases he
    exact ⟨hfault st t o, hi, fun j _ => D.rely_refl j t, ht⟩
  · rw [if_neg hf] at he
    obtain ⟨hok, hu⟩ := hrun st hst t ht hi o hc (by simpa using hf)
    have hb : st.run pid o t = (b, u) := Option.some.inj he
    rw [hb] at hok hu
    exact ⟨hok.good, hok.inv, hok.rely, hu⟩

/-- A program that runs under the discipline from every state of `P`. -/
def Verifies (D : Discipline Sql Outside Store) (pid : ℕ) (P : Store → Prop)
    (p : Prog Sql Unit) : Prop :=
  ∀ s, P s → wp services D pid p (fun _ _ => True) s

/-- A call whose result nobody reads. -/
theorem discard_verifies {p : Call β} (h : Triple services D pid P p Q E) :
    Verifies D pid P (discard p) := h.map_unit

end rule

/-- A list whose elements have to differ in a way that no two do. -/
theorem length_le_one_of_pairwise {α : Type} {R : α → α → Prop} {l : List α} (h : l.Pairwise R)
    (hnot : ∀ a ∈ l, ∀ b ∈ l, ¬ R a b) : l.length ≤ 1 := by
  match l with
  | [] => simp
  | [a] => simp
  | a :: b :: rest =>
      exact absurd ((List.pairwise_cons.mp h).1 b (by simp)) (hnot a (by simp) b (by simp))

/-- A list of at most one element has no two different ones. -/
theorem eq_of_length_le_one {α : Type} {l : List α} (h : l.length ≤ 1) {a b : α} (ha : a ∈ l)
    (hb : b ∈ l) : a = b := by
  match l with
  | [c] => rw [List.mem_singleton.mp ha, List.mem_singleton.mp hb]
  | c :: d :: rest =>
      simp at h

/-- A schedule: process `i` takes `n` steps, the outside being `o`. -/
def steps (i n : ℕ) (o : Outside) : List (ℕ × Outside) := List.replicate n (i, o)

/-! ### The calls on payouts -/

/-- The patches that record a step of a payout. -/
def PayoutStep.Records : PayoutStep → (Meta → Meta) → Prop
  | .lock, patch => ∃ amt n, patch = lockedPatch amt n
  | .finalize, patch => ∃ n, patch = finalizedPatch n
  | .release, patch => ∃ n, patch = releasedPatch n

/-- The statements a call that takes one step of a payout is made of. -/
def Sql.OfPayout (step : PayoutStep) {β : Type} : Sql β → Prop
  | .payout step' .. => step' = step
  | .patchTx _ _ patch => step.Records patch
  | .loadTx .. | .convertAmountToUsd .. | .getOrgBalance .. => True
  | _ => False

/-- The statements of the calls on collections. -/
def Sql.OfCollection {β : Type} : Sql β → Prop
  | .loadTx .. | .convertAmountToUsd .. | .fundingMode .. => True
  | .collection .. | .patchTx .. | .getOrgBalance .. => True
  | .findFunding .. | .loadFunding .. | .insertFunding .. | .updateFundings .. => True
  | .external | .treasuryCovers .. | .submitFunding .. | .verifyPayment => True
  | _ => False

/-- The statements that fund the collection of a row. -/
def Sql.Funds (row : TxRow) {β : Type} : Sql β → Prop
  | .collection step row' _ => step = .available ∧ row' = row
  | .patchTx id' status patch => id' = row.id ∧ (status = none ∨ status = some "settled") ∧
      patch = id
  | .insertFunding draft => draft.collectionId = row.id
  | .fundingMode .. | .findFunding .. | .loadFunding .. | .updateFundings .. => True
  | .external | .treasuryCovers .. | .submitFunding .. | .verifyPayment => True
  | _ => False

section payout

variable {β : Type}

theorem sql_only {φ : {γ : Type} → Sql γ → Prop} {st : Sql (Ans β)} (h : φ st) :
    OnlyE φ (sql st) := by
  unfold OnlyE
  exact ⟨h, fun _ => trivial⟩

theorem loadDirected_only {φ : {γ : Type} → Sql γ → Prop} (direction : TxDirection) (id : ℕ)
    (orgId : Option String) (h : φ (.loadTx id orgId)) :
    OnlyE φ (loadDirected direction id orgId) := by
  unfold loadDirected
  refine .bind (sql_only h) fun found => ?_
  cases found with
  | none => exact .throw _
  | some row => exact .ite (.pure _) (.throw _)

theorem usdcAmountOf_only {φ : {γ : Type} → Sql γ → Prop} (row : TxRow)
    (h : ∀ amt cur, φ (.convertAmountToUsd amt cur)) : OnlyE φ (usdcAmountOf row) := by
  unfold usdcAmountOf resolveUsdcAmount
  cases metaUsdc row with
  | some amt => exact .pure _
  | none => exact .ite (.pure _) (.bind (sql_only (h _ _)) fun _ => .pure _)

theorem lockPayoutFunds_only (orgId : String) (id : ℕ) :
    OnlyE (Sql.OfPayout .lock) (lockPayoutFunds orgId id) := by
  unfold lockPayoutFunds
  refine .bind (loadDirected_only _ _ _ trivial) fun row => ?_
  refine .bind (usdcAmountOf_only row fun _ _ => trivial) fun amt => ?_
  refine .bind (sql_only rfl) fun lock => .bind (sql_only ⟨_, _, rfl⟩) fun _ => ?_
  exact .bind (sql_only trivial) fun _ => .pure _

theorem finalizePayoutDebit_only (orgId : Option String) (id : ℕ) :
    OnlyE (Sql.OfPayout .finalize) (finalizePayoutDebit orgId id) := by
  unfold finalizePayoutDebit
  refine .bind (loadDirected_only _ _ _ trivial) fun row => .ite (.throw _) ?_
  cases metaUsdc row with
  | none => exact .throw _
  | some amt =>
      refine .bind (sql_only rfl) fun finalize => .bind (sql_only ⟨_, rfl⟩) fun _ => ?_
      exact .bind (sql_only trivial) fun _ => .pure _

theorem releasePayoutLock_only (orgId : Option String) (id : ℕ) :
    OnlyE (Sql.OfPayout .release) (releasePayoutLock orgId id) := by
  unfold releasePayoutLock
  refine .bind (loadDirected_only _ _ _ trivial) fun row => .ite (.throw _) ?_
  cases metaUsdc row with
  | none => exact .throw _
  | some amt =>
      refine .bind (sql_only rfl) fun release => .bind (sql_only ⟨_, rfl⟩) fun _ => ?_
      exact .bind (sql_only trivial) fun _ => .pure _

theorem confirmCollectionFunding_only (row : TxRow) (funding : FundingRow)
    (hash : Option String) :
    OnlyE (Sql.Funds row) (confirmCollectionFunding row funding hash) := by
  unfold confirmCollectionFunding
  refine .bind (sql_only trivial) fun _ => .bind (sql_only trivial) fun _ => ?_
  refine .bind (sql_only ⟨rfl, .inl rfl, rfl⟩) fun _ => ?_
  exact .bind (sql_only ⟨rfl, rfl⟩) fun _ => sql_only ⟨rfl, .inr rfl, rfl⟩

theorem payFunding_only (row : TxRow) (funding : FundingRow) (amount : ℚ) :
    OnlyE (Sql.Funds row) (payFunding row funding amount) := by
  have hpatch : OnlyE (Sql.Funds row) (sql (.patchTx row.id none id)) :=
    sql_only ⟨rfl, .inl rfl, rfl⟩
  have hupdate : ∀ which f, OnlyE (Sql.Funds row) (sql (.updateFundings which f)) :=
    fun _ _ => sql_only trivial
  unfold payFunding submitUsdcPayment
  refine .bind (.tryCatch (sql_only trivial) fun _ => .pure _) fun outcome => ?_
  cases outcome with
  | threw => exact .bind (hupdate _ _) fun _ => .bind hpatch fun _ => .throw _
  | accepted confirmed =>
      refine .bind (hupdate _ _) fun _ => .bind (sql_only trivial) fun funding => ?_
      have hconfirm := confirmCollectionFunding_only row funding
        (some ("stellar-tx:" ++ toString row.id))
      refine .ite (.bind hconfirm fun _ => .pure _) (.bind (sql_only trivial) fun verified => ?_)
      cases verified with
      | confirmed => exact .bind hconfirm fun _ => .pure _
      | failed => exact .bind hpatch fun _ => .pure _
      | unknown => exact .bind hpatch fun _ => .pure _

theorem fundCollectionStellarWallet_only (row : TxRow) (usdcAmount : ℚ) :
    OnlyE (Sql.Funds row) (fundCollectionStellarWallet row usdcAmount) := by
  have hpatch : OnlyE (Sql.Funds row) (sql (.patchTx row.id none id)) :=
    sql_only ⟨rfl, .inl rfl, rfl⟩
  have hexternal : OnlyE (Sql.Funds row) (sql .external) := sql_only trivial
  have hinsert : ∀ amount status key,
      OnlyE (Sql.Funds row) (sql (.insertFunding (newFunding row amount status key))) :=
    fun _ _ _ => sql_only rfl
  unfold fundCollectionStellarWallet treasuryCovers
  refine .bind (sql_only trivial) fun mode => .ite (.pure _) (.ite (.throw _) ?_)
  refine .bind (sql_only trivial) fun existing => .ite (.pure _) (.ite (.pure _) ?_)
  refine .bind hexternal fun _ => .bind hpatch fun _ => ?_
  refine .bind (.ite (.bind hexternal fun _ => sql_only trivial) (.pure _)) fun covered => ?_
  refine .ite (.bind ?_ fun _ => .pure _) (.bind ?_ fun funding => payFunding_only _ _ _)
  · unfold awaitTreasury
    cases existing with
    | none => exact .bind (hinsert _ _ _) fun _ => hpatch
    | some funding =>
        exact .bind (sql_only trivial) fun _ => .bind (sql_only trivial) fun _ => hpatch
  · unfold ensureFunding
    cases existing with
    | none => exact hinsert _ _ _
    | some funding => exact .pure _

theorem Sql.Funds.ofCollection {row : TxRow} {γ : Type} {st : Sql γ} (h : st.Funds row) :
    st.OfCollection := by
  cases st <;> trivial

theorem settleCollectionCredit_only (orgId : String) (id : ℕ) :
    OnlyE Sql.OfCollection (settleCollectionCredit orgId id) := by
  have hbalance : ∀ row : TxRow, OnlyE Sql.OfCollection
      (sql (.getOrgBalance row.orgId (asEnv row.environment))) := fun _ => sql_only trivial
  unfold settleCollectionCredit
  refine .bind (loadDirected_only _ _ _ trivial) fun row => ?_
  refine .bind (usdcAmountOf_only row fun _ _ => trivial) fun amt => ?_
  refine .bind (sql_only trivial) fun mode => .bind (sql_only trivial) fun credit => ?_
  refine .bind (sql_only trivial) fun _ => ?_
  refine .ite (.bind (.tryCatch ?_ fun _ => .pure _) fun _ => ?_) ?_
  · exact (fundCollectionStellarWallet_only row amt).mono fun _ => Sql.Funds.ofCollection
  · exact .bind (hbalance row) fun _ => .pure _
  · exact .bind (hbalance row) fun _ => .pure _

end payout

/-! ### Keys -/

namespace PayoutStep

theorem trim_key (step : PayoutStep) (id : ℕ) : trim (step.key id) = step.key id := by
  cases step <;> exact trim_eq_self (by decide) (by decide)

theorem key_inj {step step' : PayoutStep} {id id' : ℕ} :
    step.key id = step'.key id' ↔ step = step' ∧ id = id' := by
  constructor
  · intro h
    cases step <;> cases step' <;>
      first
      | exact ⟨rfl, toString_inj.mp ((Keys.key_inj _ _ _ _).mp h)⟩
      | exact absurd h (append_ne_of_not_suffix (by decide) (by decide) _ _)
  · rintro ⟨rfl, rfl⟩
    rfl

@[simp] theorem params_key (step : PayoutStep) (row : TxRow) (amt : ℚ) :
    (step.params row amt).key = step.key row.id := step.trim_key row.id

end PayoutStep

namespace CollectionStep

theorem trim_key (step : CollectionStep) (id : ℕ) : trim (step.key id) = step.key id := by
  cases step <;> exact trim_eq_self (by decide) (by decide)

theorem key_inj {step step' : CollectionStep} {id id' : ℕ} :
    step.key id = step'.key id' ↔ step = step' ∧ id = id' := by
  constructor
  · intro h
    cases step <;> cases step' <;>
      first
      | exact ⟨rfl, toString_inj.mp ((Keys.key_inj _ _ _ _).mp h)⟩
      | exact absurd h (append_ne_of_not_suffix (by decide) (by decide) _ _)
  · rintro ⟨rfl, rfl⟩
    rfl

@[simp] theorem params_key (step : CollectionStep) (row : TxRow) (amt : ℚ) :
    (step.params row amt).key = step.key row.id := step.trim_key row.id

end CollectionStep

/-- A payout and a collection never share a key. -/
theorem PayoutStep.key_ne_collection (step : PayoutStep) (step' : CollectionStep) (id id' : ℕ) :
    step.key id ≠ step'.key id' := by
  unfold PayoutStep.key CollectionStep.key
  rw [String.append_assoc, String.append_assoc]
  exact append_ne_append_of_heads (by decide) (by decide) _ _

/-! ### Looking a key up -/

section find

variable {l : Ledger} {m : Movement} {k : String}

theorem find_insert : findMovementByIdempotency (l.insert m) k =
    if m.idempotencyKey = k then some m else findMovementByIdempotency l k := by
  unfold findMovementByIdempotency
  rw [Ledger.insert_movements, List.find?_cons]
  by_cases h : m.idempotencyKey = k <;> simp [h]

theorem find_setRow {w : WalletKey} {row : WalletAccount} :
    findMovementByIdempotency (l.setRow w row) k = findMovementByIdempotency l k := rfl

theorem find_mem (h : findMovementByIdempotency l k = some m) :
    m ∈ l.movements ∧ m.idempotencyKey = k :=
  ⟨List.mem_of_find?_eq_some h, by simpa using List.find?_some h⟩

theorem find_posted {rule : PostRule} {p : LedgerWriteParams} {amount : ℚ} :
    findMovementByIdempotency (rule.posted p amount l) k =
      if p.key = k then some (rule.movement p amount l) else findMovementByIdempotency l k :=
  find_insert

end find

theorem Store.tx_mem {s : Store} {id : ℕ} {row : TxRow} (h : s.tx id = some row) :
    row ∈ s.txs ∧ row.id = id :=
  ⟨List.mem_of_find?_eq_some h, by simpa using List.find?_some h⟩

/-! ### What a statement leaves unchanged -/

/-- Stores that agree on the ledger as it is read, the transactions and the requests. -/
structure Store.Same (s s' : Store) : Prop where
  movements : s'.ledger.movements = s.ledger.movements
  row : ∀ k, s'.ledger.row k = s.ledger.row k
  txs : s'.txs = s.txs
  requests : s'.requests = s.requests
  nextId : s.nextId ≤ s'.nextId

theorem Store.Same.refl (s : Store) : Store.Same s s := ⟨rfl, fun _ => rfl, rfl, rfl, le_rfl⟩

theorem Store.Same.find {s s' : Store} (h : Store.Same s s') (k : String) :
    findMovementByIdempotency s'.ledger k = findMovementByIdempotency s.ledger k := by
  unfold findMovementByIdempotency
  rw [h.movements]

/-- The statements that write neither the ledger, nor the transactions, nor the requests. -/
def Sql.quiet {β : Type} : Sql β → Bool
  | .insertTx .. | .patchTx .. | .payout .. | .collection .. => false
  | .createPaymentRequest .. | .providerFails .. => false
  | _ => true

/-- Reading a balance creates the wallet at most. -/
theorem Store.getOrgBalance_same (s : Store) (k : WalletKey) :
    Store.Same s (s.getOrgBalance k).2 := by
  unfold Store.getOrgBalance
  rcases commit_cases (ensureWalletAccount k) s.ledger with ⟨row, l, hrun, hc⟩ | ⟨e, -, hc⟩
  · obtain ⟨rfl, rfl⟩ := ensureWalletAccount_ok hrun
    have hsame : Store.Same s { s with ledger := s.ledger.setRow k (s.ledger.row k) } :=
      ⟨rfl, fun _ => Ledger.row_setRow_row, rfl, rfl, le_rfl⟩
    rw [hc]
    dsimp only
    split_ifs <;> exact hsame
  · rw [hc]
    exact Store.Same.refl s

theorem Sql.run_same {β : Type} {st : Sql β} (hq : st.quiet = true) (i : ℕ) (o : Outside)
    (s : Store) : Store.Same s (st.run i o s).2 := by
  cases st with
  | insertTx draft => cases hq
  | patchTx id status patch => cases hq
  | payout step row amt => cases hq
  | collection step row amt => cases hq
  | createPaymentRequest id seq => cases hq
  | providerFails seq => cases hq
  | getOrgBalance orgId env => exact s.getOrgBalance_same _
  | convertAmountToUsd amt cur => simp only [run]; split <;> exact Store.Same.refl s
  | fetchPayment seq => simp only [run]; split <;> exact Store.Same.refl s
  | randomUUID => exact ⟨rfl, fun _ => rfl, rfl, rfl, Nat.le_succ _⟩
  | insertSettlement draft =>
      simp only [run]
      split_ifs
      · exact Store.Same.refl s
      · exact ⟨rfl, fun _ => rfl, rfl, rfl, Nat.le_succ _⟩
  | updateSettlements which f => exact ⟨rfl, fun _ => rfl, rfl, rfl, le_rfl⟩
  | submitPayment row => exact ⟨rfl, fun _ => rfl, rfl, rfl, le_rfl⟩
  | loadTx id orgId => exact Store.Same.refl s
  | loadTxByExternalId ext => exact Store.Same.refl s
  | findIdempotentTx orgId env key => exact Store.Same.refl s
  | fundingMode row => exact Store.Same.refl s
  | offrampMode => exact Store.Same.refl s
  | findFunding orgId key => exact Store.Same.refl s
  | loadFunding id => simp only [run]; split <;> exact Store.Same.refl s
  | insertFunding draft =>
      simp only [run]
      split_ifs
      · exact Store.Same.refl s
      · exact ⟨rfl, fun _ => rfl, rfl, rfl, Nat.le_succ _⟩
  | updateFundings which f => exact ⟨rfl, fun _ => rfl, rfl, rfl, le_rfl⟩
  | treasuryCovers amount => exact Store.Same.refl s
  | submitFunding row amount => exact Store.Same.refl s
  | external => exact Store.Same.refl s
  | isConfigured => exact Store.Same.refl s
  | resolveDestination recipientId => exact Store.Same.refl s
  | forceProviderFail => exact Store.Same.refl s
  | loadSettlement orgId id => exact Store.Same.refl s
  | findSettlement orgId key => exact Store.Same.refl s
  | findSettlementForPayout orgId id => exact Store.Same.refl s
  | findSettlementByRail id rail => exact Store.Same.refl s
  | verifyPayment => exact Store.Same.refl s

/-- The statements that write the fundings. -/
def Sql.writesFunding {β : Type} : Sql β → Bool
  | .insertFunding .. | .updateFundings .. => true
  | _ => false

theorem Sql.run_fundings {β : Type} {st : Sql β} (hst : st.writesFunding = false) (i : ℕ)
    (o : Outside) (s : Store) : (st.run i o s).2.fundings = s.fundings := by
  have hpost : ∀ op p, (s.post op p).2.fundings = s.fundings := fun op p => by
    unfold Store.post
    split <;> rfl
  cases st with
  | insertFunding draft => cases hst
  | updateFundings which f => cases hst
  | payout step row amt => exact hpost _ _
  | collection step row amt => exact hpost _ _
  | getOrgBalance orgId env =>
      simp only [run, Store.getOrgBalance]
      split
      · rfl
      · split_ifs <;> rfl
  | insertTx draft => simp only [run]; split_ifs <;> rfl
  | insertSettlement draft => simp only [run]; split_ifs <;> rfl
  | convertAmountToUsd amt cur => simp only [run]; split <;> rfl
  | fetchPayment seq => simp only [run]; split <;> rfl
  | createPaymentRequest id seq => simp only [run]; split <;> rfl
  | loadFunding id => simp only [run]; split <;> rfl
  | _ => rfl

/-! ### Rows -/

/-- Identifiers are unique. -/
def UniqueIds (s : Store) : Prop := ∀ r ∈ s.txs, ∀ r' ∈ s.txs, r.id = r'.id → r = r'

instance (s : Store) : Decidable (UniqueIds s) := by
  unfold UniqueIds
  infer_instance

/-- The table has a row with an identifier and a direction. -/
def Store.Has (s : Store) (id : ℕ) (direction : TxDirection) : Prop :=
  ∃ r ∈ s.txs, r.id = id ∧ r.direction = direction

/-- Rows stay, with their direction. -/
def KeepsRows (s t : Store) : Prop := ∀ id direction, s.Has id direction → t.Has id direction

section rows

variable {s : Store}

/-- The rows after an update. -/
theorem Store.setTx_rows (h : UniqueIds s) (id : ℕ) {f : TxRow → TxRow}
    (hid : ∀ r, (f r).id = r.id) (hdir : ∀ r, (f r).direction = r.direction) :
    UniqueIds (s.setTx id f) ∧ KeepsRows s (s.setTx id f) := by
  set g : TxRow → TxRow := fun r => if r.id = id then f r else r with hg
  have hgid : ∀ r, (g r).id = r.id := fun r => by
    simp only [hg]
    split_ifs
    · exact hid r
    · rfl
  have hgdir : ∀ r, (g r).direction = r.direction := fun r => by
    simp only [hg]
    split_ifs
    · exact hdir r
    · rfl
  constructor
  · intro r hr r' hr' heq
    obtain ⟨r₀, hr₀, rfl⟩ := List.mem_map.mp hr
    obtain ⟨r₁, hr₁, rfl⟩ := List.mem_map.mp hr'
    have hrr : r₀ = r₁ := h r₀ hr₀ r₁ hr₁ ((hgid r₀).symm.trans (heq.trans (hgid r₁)))
    rw [hrr]
  · rintro id' dir ⟨r, hr, hrid, hrdir⟩
    exact ⟨g r, List.mem_map_of_mem hr, (hgid r).trans hrid, (hgdir r).trans hrdir⟩

end rows

/-! ### Ledger operations -/

/-- A ledger operation on the store: it fails, answers with the movement that has the key, or
posts. -/
theorem Store.post_cases (s : Store) (op : LedgerOp) (p : LedgerWriteParams) :
    (∃ e, s.post op p = (.error e, s)) ∨
      (∃ m, findMovementByIdempotency s.ledger p.key = some m ∧
        s.post op p = (.ok ⟨m, true⟩, s)) ∨
      ∃ amount, Posts op.rule p amount s.ledger ∧
        s.post op p = (.ok ⟨op.rule.movement p amount s.ledger, false⟩,
          { s with ledger := op.rule.posted p amount s.ledger }) := by
  unfold Store.post
  rcases postLedger_cases op.rule p s.ledger with ⟨e, h⟩ | ⟨m, hm, h⟩ | ⟨amount, hp, h⟩ <;> rw [h]
  · exact .inl ⟨.ledger e, rfl⟩
  · exact .inr (.inl ⟨m, hm, rfl⟩)
  · exact .inr (.inr ⟨amount, hp, rfl⟩)

/-- An operation that answers had an amount to post. -/
theorem Store.post_parsed {s : Store} {op : LedgerOp} {p : LedgerWriteParams} {r : Posted}
    (h : (s.post op p).1 = .ok r) : ∃ amount, parseAmount p.amount = .ok amount := by
  cases hp : parseAmount p.amount with
  | ok amount => exact ⟨amount, rfl⟩
  | error e =>
      unfold Store.post postLedger at h
      rw [hp] at h
      cases h

theorem parseAmount_pos {v amount : ℚ} (h : parseAmount (some v) = .ok amount) : 0 < v := by
  rw [parseAmount] at h
  split_ifs at h with hpos
  by_contra hle
  exact hpos (nearest_nonpos (not_lt.mp hle))

theorem Store.post_txs (s : Store) (op : LedgerOp) (p : LedgerWriteParams) :
    (s.post op p).2.txs = s.txs := by
  rcases s.post_cases op p with ⟨e, he⟩ | ⟨m, -, he⟩ | ⟨amount, -, he⟩ <;> rw [he]

/-- The ledger operation a statement is. -/
def Sql.ledgerCall {β : Type} : Sql β → Option (LedgerOp × LedgerWriteParams)
  | .payout step row amt => some (step.op, step.params row amt)
  | .collection step row amt => some (step.op, step.params row amt)
  | _ => none

/-- A statement leaves the ledger as it is read, or is a ledger operation that posts. -/
theorem Sql.run_ledger {β : Type} (st : Sql β) (i : ℕ) (o : Outside) (s : Store) :
    ((st.run i o s).2.ledger.movements = s.ledger.movements ∧
        ∀ k, (st.run i o s).2.ledger.row k = s.ledger.row k) ∨
      ∃ op p amount, st.ledgerCall = some (op, p) ∧ Posts op.rule p amount s.ledger ∧
        (st.run i o s).2 = { s with ledger := op.rule.posted p amount s.ledger } := by
  have hpost : ∀ op p, ((s.post op p).2.ledger.movements = s.ledger.movements ∧
        ∀ k, (s.post op p).2.ledger.row k = s.ledger.row k) ∨
      ∃ amount, Posts op.rule p amount s.ledger ∧
        (s.post op p).2 = { s with ledger := op.rule.posted p amount s.ledger } := by
    intro op p
    rcases s.post_cases op p with ⟨e, h⟩ | ⟨m, -, h⟩ | ⟨amount, hp, h⟩ <;> rw [h]
    · exact .inl ⟨rfl, fun _ => rfl⟩
    · exact .inl ⟨rfl, fun _ => rfl⟩
    · exact .inr ⟨amount, hp, rfl⟩
  by_cases hq : st.quiet = true
  · exact .inl ⟨(run_same hq i o s).movements, (run_same hq i o s).row⟩
  cases st with
  | payout step row amt =>
      exact (hpost _ _).imp_right fun ⟨amount, hp, h⟩ => ⟨_, _, amount, rfl, hp, h⟩
  | collection step row amt =>
      exact (hpost _ _).imp_right fun ⟨amount, hp, h⟩ => ⟨_, _, amount, rfl, hp, h⟩
  | patchTx id status patch => exact .inl ⟨rfl, fun _ => rfl⟩
  | providerFails seq => exact .inl ⟨rfl, fun _ => rfl⟩
  | insertTx draft => simp only [run]; split_ifs <;> exact .inl ⟨rfl, fun _ => rfl⟩
  | createPaymentRequest id seq => simp only [run]; split <;> exact .inl ⟨rfl, fun _ => rfl⟩
  | _ => exact absurd rfl hq

end DayfiBackend.Infra
