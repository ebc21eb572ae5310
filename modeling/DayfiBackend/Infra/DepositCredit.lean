import DayfiBackend.Infra.Deposits
import DayfiBackend.Infra.CollectionCredit

/-!
# An external deposit is credited once

`Traced s hash` is what the tables say of one deposit: at most one movement of each of its ledger
steps, at most one row of `infra_transactions`, which the movements and the deposit row both refer
to, and both steps posted once the deposit is confirmed. The keys of the movements and the unique
hash of the deposit row are enough for the credit, but nothing in the database keeps a second row
of `infra_transactions` out: `ensureDepositTransaction` looks for the row and then inserts it, and
two runs may both find none (`deposit_traced_twice`). In every run in which no transaction row of
the deposit is inserted while it has one, the deposit is credited once and traced
(`deposit_credited_once`).
-/

namespace DayfiBackend.Infra.Deposits

open DayfiBackend.Found DayfiBackend.Found.Keys DayfiBackend.Found.Prog

/-! ### The property -/

/-- The movements of a step of a deposit. -/
def movementsOf (l : Ledger) (step : DepositStep) (hash : String) : List Movement :=
  l.movements.filter (·.idempotencyKey = step.key hash)

/-- `infra_transactions` has a row of the deposit with this id. -/
def Tables.HasTransaction (s : Tables) (hash : String) (txId : ℕ) : Prop :=
  ∃ t ∈ s.transactionsOf hash, t.id = txId

/-- The deposit row has this `transaction_id`. -/
def Tables.Assigned (s : Tables) (hash : String) (txId : ℕ) : Prop :=
  ∃ d, s.deposits hash = some d ∧ d.transactionId = some txId

/-- One movement of each step, and one row of `infra_transactions`. -/
structure Credited (s : Tables) (hash : String) : Prop where
  movements : ∀ step, (movementsOf s.ledger step hash).length = 1
  transactions : (s.transactionsOf hash).length = 1

/-- The deposit is credited at most once, under the one transaction the deposit row names, and
once when it is confirmed. -/
structure Traced (s : Tables) (hash : String) : Prop where
  movements : ∀ step, (movementsOf s.ledger step hash).length ≤ 1
  transactions : (s.transactionsOf hash).length ≤ 1
  reference : ∀ step, ∀ m ∈ movementsOf s.ledger step hash, ∃ txId,
    s.Assigned hash txId ∧ s.HasTransaction hash txId ∧ m.referenceId = some (toString txId)
  confirmed : ∀ d, s.deposits hash = some d → d.status = .confirmed → Credited s hash

/-- A run of the service. -/
inductive DepositRun where
  | process (cfg : Config) (r : DepositRequest)
  | poll (cfg : Config) (orgId environment : String) (limit : Option ℕ)
  deriving DecidableEq, Repr

/-- What a run returns. -/
inductive Answer where
  | processed (p : Processed)
  | polled (r : PollResult)
  deriving DecidableEq, Repr

def DepositRun.program : DepositRun → Prog Query (Except DepositError Answer)
  | .process cfg r => (do
      let p ← processExternalDepositByHash cfg r
      pure (.processed p) : Call Answer).run
  | .poll cfg orgId environment limit => (do
      let r ← pollOrgStellarDeposits cfg orgId environment limit
      pure (.polled r) : Call Answer).run

/-- The run says that the deposit is available. -/
def Answer.Credits (hash : String) : Answer → Prop
  | .processed p => p.ledgerPhase = .available ∧ p.verified.stellarTxHash = hash
  | .polled r => ∃ d, some d ∈ r.deposits ∧ d.stellarTxHash = hash

/-- The hash is written the way it is looked up. -/
def VerifiedDepositPayment.Canonical (v : VerifiedDepositPayment) : Prop :=
  normalizeHash v.stellarTxHash = v.stellarTxHash

instance (v : VerifiedDepositPayment) : Decidable v.Canonical :=
  inferInstanceAs (Decidable (_ = _))

/-- The payment supplied in mock mode is written with such a hash. -/
def DepositRun.Canonical : DepositRun → Prop
  | .process _ r => ∀ v ∈ r.mockPayment, v.Canonical
  | .poll .. => True

instance : (r : DepositRun) → Decidable r.Canonical
  | .process _ r => inferInstanceAs (Decidable (∀ v ∈ r.mockPayment, v.Canonical))
  | .poll .. => inferInstanceAs (Decidable True)

/-- Nothing has been recorded of the deposit. -/
structure Unseen (s : Tables) (hash : String) : Prop where
  keys : s.ledger.KeysUnique
  keyed : ∀ k d, s.deposits k = some d → d.stellarTxHash = k
  deposit : s.deposits hash = none
  transactions : s.transactionsOf hash = []
  movements : ∀ step : DepositStep, findMovementByIdempotency s.ledger (step.key hash) = none

/-- No transaction row of the deposit is inserted while it has one. -/
def InsertsFirst (hash : String) {β : Type} (_pid : ℕ) (st : Query β)
    (_o : Except DepositError Outside) (s : Tables) : Prop :=
  match st with
  | .insertTransaction row => row.stellarTxHash = hash → s.transactionsOf hash = []
  | _ => True

instance (hash : String) {β : Type} (pid : ℕ) (st : Query β) (o : Except DepositError Outside)
    (s : Tables) : Decidable (InsertsFirst hash pid st o s) := by
  unfold InsertsFirst
  split <;> infer_instance

/-! ### The hash -/

theorem toNat_of_hexDigit {c : Char}
    (h : (('a' ≤ c && c ≤ 'f') || ('0' ≤ c && c ≤ '9')) = true) :
    (97 ≤ c.toNat ∧ c.toNat ≤ 102) ∨ (48 ≤ c.toNat ∧ c.toNat ≤ 57) := by
  simpa [Char.le_def, UInt32.le_iff_toNat_le] using h

/-- A transaction hash is written the way it is looked up. -/
theorem normalizeHash_of_isTxHash {hash : String} (h : isTxHash hash = true) :
    normalizeHash hash = hash := by
  have hdigit : ∀ c ∈ hash.toList, (97 ≤ c.toNat ∧ c.toNat ≤ 102) ∨ (48 ≤ c.toNat ∧ c.toNat ≤ 57) :=
    fun c hc => toNat_of_hexDigit (List.all_eq_true.mp (Bool.and_eq_true_iff.mp h).2 c hc)
  have htrim : trim hash = hash := by
    refine trim_eq_of_forall fun c hc => ?_
    have := hdigit c hc
    unfold isSpace
    simp
    omega
  have hlower : ∀ c ∈ hash.toList, c.toLower = c := by
    intro c hc
    unfold Char.toLower
    refine dif_neg fun hup => ?_
    have hA : 65 ≤ c.toNat := hup.1
    have hZ : c.toNat ≤ 90 := hup.2
    have := hdigit c hc
    omega
  unfold normalizeHash
  have hmap : hash.toLower = hash.map Char.toLower := rfl
  rw [htrim, hmap, String.map_eq_internal, List.map_congr_left hlower, List.map_id',
    String.ofList_toList]

/-! ### The keys -/

namespace DepositStep

theorem trim_key (step : DepositStep) (hash : String) : trim (step.key hash) = step.key hash := by
  cases step <;> exact trim_eq_self (by decide) (by decide)

theorem key_inj {step step' : DepositStep} {hash hash' : String} :
    step.key hash = step'.key hash' ↔ step = step' ∧ hash = hash' := by
  constructor
  · intro h
    cases step <;> cases step' <;>
      first
      | exact ⟨rfl, (Keys.key_inj _ _ _ _).mp h⟩
      | exact absurd h (append_ne_of_not_suffix (by decide) (by decide) _ _)
  · rintro ⟨rfl, rfl⟩
    rfl

@[simp] theorem params_key (step : DepositStep) (orgId environment : String)
    (v : VerifiedDepositPayment) (txId : ℕ) :
    (step.params orgId environment v txId).key = step.key v.stellarTxHash :=
  step.trim_key v.stellarTxHash

@[simp] theorem params_referenceId (step : DepositStep) (orgId environment : String)
    (v : VerifiedDepositPayment) (txId : ℕ) :
    orNull (step.params orgId environment v txId).referenceId = some (toString txId) := by
  simp [params, orNull]

end DepositStep

/-! ### The invariant -/

/-- The step of the deposit is posted. -/
def Tables.HasPosted (s : Tables) (hash : String) (step : DepositStep) : Prop :=
  ∃ m, findMovementByIdempotency s.ledger (step.key hash) = some m

/-- What holds between any two steps. -/
structure Sound (hash : String) (s : Tables) : Prop where
  keys : s.ledger.KeysUnique
  keyed : ∀ k d, s.deposits k = some d → d.stellarTxHash = k
  transactions : (s.transactionsOf hash).length ≤ 1
  assigned : ∀ txId, s.Assigned hash txId → s.HasTransaction hash txId
  traced : ∀ step m, findMovementByIdempotency s.ledger (DepositStep.key step hash) = some m →
    ∃ txId, s.Assigned hash txId ∧ m.referenceId = some (toString txId)
  confirmed : ∀ d, s.deposits hash = some d → d.status = .confirmed →
    ∀ step, s.HasPosted hash step

/-- What no step undoes. -/
structure Keeps (hash : String) (s t : Tables) : Prop where
  deposit : (s.deposits hash).isSome → (t.deposits hash).isSome
  transactions : ∀ txId, s.HasTransaction hash txId → t.HasTransaction hash txId
  assigned : ∀ txId, s.Assigned hash txId → t.Assigned hash txId
  posted : ∀ step, s.HasPosted hash step → t.HasPosted hash step

variable {hash : String}

theorem Keeps.refl (s : Tables) : Keeps hash s s :=
  ⟨id, fun _ h => h, fun _ h => h, fun _ h => h⟩

theorem Keeps.trans {s t u : Tables} (h : Keeps hash s t) (h' : Keeps hash t u) :
    Keeps hash s u where
  deposit hd := h'.deposit (h.deposit hd)
  transactions txId hx := h'.transactions txId (h.transactions txId hx)
  assigned txId hx := h'.assigned txId (h.assigned txId hx)
  posted step hx := h'.posted step (h.posted step hx)

/-- The discipline of the runs, seen from one deposit. -/
def depositDiscipline (hash : String) : Discipline Query (Except DepositError Outside) Tables where
  inv := Sound hash
  rely _ := Keeps hash
  cond := InsertsFirst hash
  good _ _ _ s _ t := Keeps hash s t
  rely_refl _ := Keeps.refl
  rely_trans _ _ _ _ := Keeps.trans

namespace Tables

variable {s : Tables} {k k' : String} {f : DepositRow → DepositRow} {d : DepositRow}

@[simp] theorem setDeposit_deposits : (s.setDeposit k f).deposits k' =
    if k' = k then (s.deposits k').map f else s.deposits k' := by
  show Function.update s.deposits k ((s.deposits k).map f) k' = _
  split_ifs with hk
  · rw [hk, Function.update_self]
  · exact Function.update_of_ne hk _ _

theorem setDeposit_of_some (h : s.deposits k' = some d) :
    (s.setDeposit k f).deposits k' = some (if k' = k then f d else d) := by
  rw [setDeposit_deposits, h]
  split_ifs <;> rfl

theorem setDeposit_some (h : (s.setDeposit k f).deposits k' = some d) :
    ∃ d', s.deposits k' = some d' ∧ d = if k' = k then f d' else d' := by
  rw [setDeposit_deposits] at h
  split_ifs at h with hk
  · obtain ⟨d', hd', rfl⟩ := Option.map_eq_some_iff.mp h
    exact ⟨d', hd', by rw [if_pos hk]⟩
  · exact ⟨d, h, by rw [if_neg hk]⟩

/-- A ledger operation on the tables: it fails, answers with the movement that has the key, or
posts. -/
theorem post_cases (s : Tables) (op : LedgerOp) (p : LedgerWriteParams) :
    (∃ e, s.post op p = (.error e, s)) ∨
      (∃ m, findMovementByIdempotency s.ledger p.key = some m ∧
        s.post op p = (.ok ⟨m, true⟩, s)) ∨
      ∃ amount, Posts op.rule p amount s.ledger ∧
        s.post op p = (.ok ⟨op.rule.movement p amount s.ledger, false⟩,
          { s with ledger := op.rule.posted p amount s.ledger }) := by
  unfold post
  rcases postLedger_cases op.rule p s.ledger with ⟨e, h⟩ | ⟨m, hm, h⟩ | ⟨amount, hp, h⟩ <;> rw [h]
  · exact .inl ⟨.ledger e, rfl⟩
  · exact .inr (.inl ⟨m, hm, rfl⟩)
  · exact .inr (.inr ⟨amount, hp, rfl⟩)

/-- Reading a balance may insert the wallet. -/
theorem getOrgBalance_cases (s : Tables) (k : WalletKey) :
    ∃ l, l.movements = s.ledger.movements ∧ (s.getOrgBalance k).2 = { s with ledger := l } := by
  unfold getOrgBalance
  rcases Tx.commit_cases (ensureWalletAccount k) s.ledger with ⟨row, l, hrun, hc⟩ | ⟨e, -, hc⟩
  · obtain ⟨rfl, rfl⟩ := ensureWalletAccount_ok hrun
    refine ⟨s.ledger.setRow k (s.ledger.row k), rfl, ?_⟩
    rw [hc]
    dsimp only
    split_ifs <;> rfl
  · refine ⟨s.ledger, rfl, ?_⟩
    rw [hc]

end Tables

namespace Sound

variable {s : Tables}

theorem start (h : Unseen s hash) : Sound hash s where
  keys := h.keys
  keyed := h.keyed
  transactions := by simp [h.transactions]
  assigned txId hx := by
    obtain ⟨d, hd, -⟩ := hx
    rw [h.deposit] at hd
    cases hd
  traced step m hm := by
    rw [h.movements step] at hm
    cases hm
  confirmed d hd := by
    rw [h.deposit] at hd
    cases hd

/-- The deposit has at most one transaction. -/
theorem transaction_unique (h : Sound hash s) {txId txId' : ℕ} (hx : s.HasTransaction hash txId)
    (hx' : s.HasTransaction hash txId') : txId = txId' := by
  obtain ⟨t, ht, rfl⟩ := hx
  obtain ⟨t', ht', rfl⟩ := hx'
  rw [eq_of_length_le_one h.transactions ht ht']

/-- Two movements of a step would share their key. -/
theorem length_movementsOf (h : Sound hash s) (step : DepositStep) :
    (movementsOf s.ledger step hash).length ≤ 1 := by
  have hpair : (movementsOf s.ledger step hash).Pairwise fun m n =>
      m.idempotencyKey ≠ n.idempotencyKey := h.keys.sublist List.filter_sublist
  refine length_le_one_of_pairwise hpair fun m hm n hn hne => hne ?_
  have hm := (List.mem_filter.mp hm).2
  have hn := (List.mem_filter.mp hn).2
  rw [of_decide_eq_true hm, of_decide_eq_true hn]

/-- Both steps are posted: the deposit is credited. -/
theorem credited (h : Sound hash s) (hposted : ∀ step, s.HasPosted hash step) :
    Credited s hash where
  movements step := by
    obtain ⟨m, hm⟩ := hposted step
    obtain ⟨hmem, hkey⟩ := find_mem hm
    have hmem' : m ∈ movementsOf s.ledger step hash := by simp [movementsOf, hmem, hkey]
    exact le_antisymm (h.length_movementsOf step) (List.length_pos_of_mem hmem')
  transactions := by
    obtain ⟨m, hm⟩ := hposted .pending
    obtain ⟨txId, hx, -⟩ := h.traced .pending m hm
    obtain ⟨t, ht, -⟩ := h.assigned txId hx
    exact le_antisymm h.transactions (List.length_pos_of_mem ht)

theorem traced_of_mem (h : Sound hash s) {step : DepositStep} {m : Movement}
    (hm : m ∈ movementsOf s.ledger step hash) : ∃ txId,
      s.Assigned hash txId ∧ s.HasTransaction hash txId ∧ m.referenceId = some (toString txId) := by
  obtain ⟨hmem, hkey⟩ := List.mem_filter.mp hm
  have hkey' : m.idempotencyKey = step.key hash := of_decide_eq_true hkey
  have hfound : ∃ n, findMovementByIdempotency s.ledger (step.key hash) = some n := by
    refine Option.isSome_iff_exists.mp (List.find?_isSome.mpr ⟨m, hmem, by simpa using hkey'⟩)
  obtain ⟨n, hn⟩ := hfound
  obtain ⟨hnmem, hnkey⟩ := find_mem hn
  have hnm : n = m := by
    refine eq_of_length_le_one (h.length_movementsOf step) ?_ hm
    simp [movementsOf, hnmem, hnkey]
  obtain ⟨txId, hx, href⟩ := h.traced step n hn
  exact ⟨txId, hx, h.assigned txId hx, hnm ▸ href⟩

theorem deposit_traced (h : Sound hash s) : Traced s hash where
  movements := h.length_movementsOf
  transactions := h.transactions
  reference _ _ hm := h.traced_of_mem hm
  confirmed d hd hc := h.credited (h.confirmed d hd hc)

/-- The tables change in nothing the invariant reads. -/
theorem congr (h : Sound hash s) {t : Tables} (hm : t.ledger.movements = s.ledger.movements)
    (hd : t.deposits = s.deposits)
    (hx : (t.transactionsOf hash).map (·.id) = (s.transactionsOf hash).map (·.id)) :
    Sound hash t ∧ Keeps hash s t := by
  have hfind : ∀ k, findMovementByIdempotency t.ledger k = findMovementByIdempotency s.ledger k :=
    fun k => by unfold findMovementByIdempotency; rw [hm]
  have hrow : ∀ txId, t.HasTransaction hash txId ↔ s.HasTransaction hash txId := by
    intro txId
    have := congrArg (txId ∈ ·) hx
    simpa [Tables.HasTransaction] using this
  have hassigned : ∀ txId, t.Assigned hash txId ↔ s.Assigned hash txId := by
    intro txId
    unfold Tables.Assigned
    rw [hd]
  have hposted : ∀ step, t.HasPosted hash step ↔ s.HasPosted hash step := by
    intro step
    unfold Tables.HasPosted
    rw [hfind]
  refine ⟨⟨?_, ?_, ?_, ?_, ?_, ?_⟩, ⟨fun h => hd ▸ h, fun _ => (hrow _).mpr,
    fun _ => (hassigned _).mpr, fun _ => (hposted _).mpr⟩⟩
  · unfold Ledger.KeysUnique
    rw [hm]
    exact h.keys
  · rw [hd]
    exact h.keyed
  · have := congrArg List.length hx
    rw [List.length_map, List.length_map] at this
    exact this ▸ h.transactions
  · exact fun txId hx => (hrow txId).mpr (h.assigned txId ((hassigned txId).mp hx))
  · intro step m hm
    rw [hfind] at hm
    obtain ⟨txId, hx, href⟩ := h.traced step m hm
    exact ⟨txId, (hassigned txId).mpr hx, href⟩
  · rw [hd]
    exact fun d hd hc step => (hposted step).mpr (h.confirmed d hd hc step)

/-- The row of a deposit is updated: it keeps its hash, and names the deposit's transaction
afterwards. -/
theorem setDeposit (h : Sound hash s) {k : String} {f : DepositRow → DepositRow}
    (hkey : ∀ d, (f d).stellarTxHash = d.stellarTxHash)
    (hf : k = hash → ∀ d, s.deposits hash = some d →
      (∃ txId, s.HasTransaction hash txId ∧ (f d).transactionId = some txId) ∧
        ((f d).status = .confirmed → ∀ step, s.HasPosted hash step)) :
    Sound hash (s.setDeposit k f) ∧ Keeps hash s (s.setDeposit k f) := by
  have hassigned : ∀ txId, s.Assigned hash txId → (s.setDeposit k f).Assigned hash txId := by
    rintro txId ⟨d, hd, hx⟩
    refine ⟨_, Tables.setDeposit_of_some hd, ?_⟩
    split_ifs with hk
    · obtain ⟨⟨txId', hrow, hx'⟩, -⟩ := hf hk.symm d hd
      rw [hx', h.transaction_unique hrow (h.assigned txId ⟨d, hd, hx⟩)]
    · exact hx
  have hdeposit : (s.deposits hash).isSome → ((s.setDeposit k f).deposits hash).isSome := by
    intro hd
    rw [Tables.setDeposit_deposits]
    split_ifs
    · rwa [Option.isSome_map]
    · exact hd
  refine ⟨⟨h.keys, ?_, h.transactions, ?_, ?_, ?_⟩,
    ⟨hdeposit, fun _ hx => hx, hassigned, fun _ hp => hp⟩⟩
  · intro k' d hd
    obtain ⟨d', hd', rfl⟩ := Tables.setDeposit_some hd
    split_ifs with hk
    · exact (hkey d').trans (h.keyed k' d' hd')
    · exact h.keyed k' d' hd'
  · rintro txId ⟨d, hd, hx⟩
    obtain ⟨d', hd', rfl⟩ := Tables.setDeposit_some hd
    split_ifs at hx with hk
    · obtain ⟨⟨txId', hrow, hx'⟩, -⟩ := hf hk.symm d' hd'
      rw [hx] at hx'
      cases hx'
      exact hrow
    · exact h.assigned txId ⟨d', hd', hx⟩
  · intro step m hm
    obtain ⟨txId, hx, href⟩ := h.traced step m hm
    exact ⟨txId, hassigned txId hx, href⟩
  · intro d hd hc
    obtain ⟨d', hd', rfl⟩ := Tables.setDeposit_some hd
    split_ifs at hc with hk
    · exact (hf hk.symm d' hd').2 hc
    · exact h.confirmed d' hd' hc

/-- A deposit row is inserted, without a transaction. -/
theorem insertDeposit (h : Sound hash s) {row : DepositRow} (htx : row.transactionId = none)
    (hstatus : row.status ≠ .confirmed) :
    Sound hash (s.insertDeposit row).2 ∧ Keeps hash s (s.insertDeposit row).2 := by
  unfold Tables.insertDeposit
  split_ifs with h₁ h₂ hfresh
  · exact ⟨h, .refl s⟩
  · exact ⟨h, .refl s⟩
  · exact ⟨h, .refl s⟩
  have hnone : s.deposits row.stellarTxHash = none := by simpa using hfresh
  have hcases : ∀ k d, Function.update s.deposits row.stellarTxHash (some row) k = some d →
      (d = row ∧ k = row.stellarTxHash) ∨ s.deposits k = some d := by
    intro k d hd
    by_cases hk : k = row.stellarTxHash
    · subst hk
      rw [Function.update_self] at hd
      exact .inl ⟨(Option.some.inj hd).symm, rfl⟩
    · rw [Function.update_of_ne hk] at hd
      exact .inr hd
  have hassigned : ∀ txId, s.Assigned hash txId →
      Tables.Assigned { s with
        deposits := Function.update s.deposits row.stellarTxHash (some row) } hash txId := by
    rintro txId ⟨d, hd, hx⟩
    have hne : hash ≠ row.stellarTxHash := by
      rintro rfl
      rw [hnone] at hd
      cases hd
    exact ⟨d, (Function.update_of_ne hne _ _).trans hd, hx⟩
  have hdeposit : (s.deposits hash).isSome →
      (Function.update s.deposits row.stellarTxHash (some row) hash).isSome := by
    intro hd
    by_cases hk : hash = row.stellarTxHash
    · rw [hk, Function.update_self]
      rfl
    · rwa [Function.update_of_ne hk]
  refine ⟨⟨h.keys, ?_, h.transactions, ?_, ?_, ?_⟩,
    ⟨hdeposit, fun _ hx => hx, hassigned, fun _ hp => hp⟩⟩
  · intro k d hd
    rcases hcases k d hd with ⟨rfl, rfl⟩ | hd
    · rfl
    · exact h.keyed k d hd
  · rintro txId ⟨d, hd, hx⟩
    rcases hcases hash d hd with ⟨rfl, -⟩ | hd
    · rw [htx] at hx
      cases hx
    · exact h.assigned txId ⟨d, hd, hx⟩
  · intro step m hm
    obtain ⟨txId, hx, href⟩ := h.traced step m hm
    exact ⟨txId, hassigned txId hx, href⟩
  · intro d hd hc
    rcases hcases hash d hd with ⟨rfl, -⟩ | hd
    · exact absurd hc hstatus
    · exact h.confirmed d hd hc

/-- A transaction row is inserted, for another deposit or as the first of this one. -/
theorem insertTransaction (h : Sound hash s) (row : DepositTransaction)
    (hfirst : row.stellarTxHash = hash → s.transactionsOf hash = []) (n : ℕ) :
    let t := { s with transactions := row :: s.transactions, nextId := n }
    Sound hash t ∧ Keeps hash s t := by
  intro t
  have hrows : t.transactionsOf hash =
      if row.stellarTxHash = hash then [row] else s.transactionsOf hash := by
    show List.filter _ (row :: s.transactions) = _
    rw [List.filter_cons]
    by_cases hx : row.stellarTxHash = hash
    · have := hfirst hx
      simp only [hx, decide_true, if_true]
      rw [show List.filter (fun r => decide (r.stellarTxHash = hash)) s.transactions = []
        from this]
    · simp only [hx, decide_false, Bool.false_eq_true, if_false]
      rfl
  have hmono : ∀ txId, s.HasTransaction hash txId → t.HasTransaction hash txId := by
    rintro txId ⟨r, hr, hid⟩
    refine ⟨r, ?_, hid⟩
    rw [hrows, if_neg fun hx => ?_]
    · exact hr
    · rw [hfirst hx] at hr
      cases hr
  refine ⟨⟨h.keys, h.keyed, ?_, fun txId hx => hmono txId (h.assigned txId hx), h.traced,
    h.confirmed⟩, ⟨id, hmono, fun _ hx => hx, fun _ hp => hp⟩⟩
  rw [hrows]
  split_ifs
  · exact le_rfl
  · exact h.transactions

/-- A step of a deposit is posted, under its transaction. -/
theorem post (h : Sound hash s) {step : DepositStep} {orgId environment : String}
    {v : VerifiedDepositPayment} {txId : ℕ}
    (hx : v.stellarTxHash = hash → s.Assigned hash txId) :
    let t := (s.post step.op (step.params orgId environment v txId)).2
    Sound hash t ∧ Keeps hash s t := by
  rcases s.post_cases step.op (step.params orgId environment v txId) with
    ⟨e, he⟩ | ⟨m, -, he⟩ | ⟨amount, hp, he⟩ <;> rw [he]
  · exact ⟨h, .refl s⟩
  · exact ⟨h, .refl s⟩
  have hposted : ∀ step', s.HasPosted hash step' → Tables.HasPosted { s with
      ledger := step.op.rule.posted (step.params orgId environment v txId) amount s.ledger }
      hash step' := by
    rintro step' ⟨m, hm⟩
    unfold Tables.HasPosted
    rw [find_posted]
    split_ifs
    · exact ⟨_, rfl⟩
    · exact ⟨m, hm⟩
  refine ⟨⟨h.keys.posted hp.toPostsOn, h.keyed, h.transactions, h.assigned, ?_,
    fun d hd hc step' => hposted step' (h.confirmed d hd hc step')⟩,
    ⟨id, fun _ hx => hx, fun _ hx => hx, hposted⟩⟩
  intro step' m hm
  rw [find_posted] at hm
  split_ifs at hm with hkey
  · rw [DepositStep.params_key, DepositStep.key_inj] at hkey
    cases hm
    exact ⟨txId, hx hkey.2, DepositStep.params_referenceId step orgId environment v txId⟩
  · exact h.traced step' m hm

end Sound

/-! ### The statements -/

/-- What a statement needs in order to keep the invariant. -/
def Query.Fits (hash : String) (s : Tables) {β : Type} : Query β → Prop
  | .insertDeposit row => row.transactionId = none ∧ row.status ≠ .confirmed
  | .insertTransaction row => row.stellarTxHash = hash → s.transactionsOf hash = []
  | .assignTransaction k txId => k = hash → s.HasTransaction hash txId
  | .recordPending k _ txId => k = hash → s.Assigned hash txId
  | .confirmDeposit k _ => k = hash → ∀ step, s.HasPosted hash step
  | .post _ _ _ v txId => v.stellarTxHash = hash → s.Assigned hash txId
  | _ => True

theorem Sound.step {s : Tables} (h : Sound hash s) {β : Type} {st : Query β}
    (hfit : st.Fits hash s) (o : Outside) :
    Sound hash (st.run o s).2 ∧ Keeps hash s (st.run o s).2 := by
  cases st with
  | transaction k =>
      unfold Query.run
      cases o.successful <;> exact ⟨h, .refl s⟩
  | getOrgBalance orgId environment =>
      obtain ⟨l, hm, hs⟩ :=
        s.getOrgBalance_cases ⟨orgId, normalizeEnv environment, normalizeAsset none⟩
      rw [show (Query.run (.getOrgBalance orgId environment) o s).2 = _ from hs]
      exact h.congr hm rfl rfl
  | insertDeposit row => exact h.insertDeposit hfit.1 hfit.2
  | insertTransaction row => exact h.insertTransaction { row with id := s.nextId } hfit _
  | assignTransaction k txId =>
      exact h.setDeposit (fun _ => rfl) fun hk d _ => ⟨⟨txId, hfit hk, rfl⟩, fun hc => by cases hc⟩
  | recordPending k movementId txId =>
      refine h.setDeposit (fun _ => rfl) fun hk d hd => ⟨⟨txId, h.assigned txId (hfit hk), ?_⟩, ?_⟩
      · obtain ⟨d', hd', hx⟩ := hfit hk
        rw [hd] at hd'
        cases hd'
        simp [hx]
      · intro hc
        have hconf : d.status = .confirmed := by
          by_contra hne
          simp [hne] at hc
        exact h.confirmed d hd hconf
  | confirmDeposit k movementId =>
      refine h.setDeposit (fun _ => rfl) fun hk d hd => ⟨?_, fun _ => hfit hk⟩
      obtain ⟨m, hm⟩ := hfit hk .pending
      obtain ⟨txId, ⟨d', hd', hx⟩, -⟩ := h.traced .pending m hm
      rw [hd] at hd'
      cases hd'
      exact ⟨txId, h.assigned txId ⟨d, hd, hx⟩, hx⟩
  | settleTransaction txId =>
      refine h.congr rfl rfl ?_
      show List.map _ (List.filter _ (List.map _ s.transactions)) = _
      rw [List.filter_map, List.map_map]
      unfold Tables.transactionsOf
      congr 1
      · funext t
        show DepositTransaction.id (if t.id = txId then _ else t) = t.id
        split_ifs <;> rfl
      · congr 1
        funext t
        show decide (DepositTransaction.stellarTxHash (if t.id = txId then _ else t) = hash) = _
        split_ifs <;> rfl
  | post step orgId environment v txId => exact h.post hfit
  | _ => exact ⟨h, .refl s⟩

/-! ### The programs -/

section programs

variable {i : ℕ} {β : Type}

/-- The program keeps the invariant, and what it returns meets `Q`. -/
abbrev Credits (hash : String) (i : ℕ) (P : Tables → Prop) (p : Call β) (Q : β → Tables → Prop) :
    Prop :=
  Triple backend.machine (depositDiscipline hash) i P p Q fun _ _ => True

/-- Nothing a step of any run does makes it false. -/
def Lasts (hash : String) (P : Tables → Prop) : Prop := ∀ s t, P s → Keeps hash s t → P t

theorem lasts_true : Lasts hash fun _ => True := fun _ _ _ _ => trivial

/-- The rule of a statement. -/
theorem credits_sql {st : Query (Ans β)} {P : Tables → Prop} {Q : β → Tables → Prop}
    (hst : ∀ e, st.fail e = .error e) (hP : Lasts hash P)
    (hfit : ∀ s o, P s → InsertsFirst hash i st o s → st.Fits hash s)
    (hQ : ∀ s o b, Sound hash s → P s → (st.run o s).1 = .ok b →
      P (st.run o s).2 → Q b (st.run o s).2) :
    Credits hash i P (sql st) Q := by
  refine Backend.triple_call hst hP (fun s e _ _ => ⟨.refl s, trivial⟩) fun s o hs hinv hc => ?_
  obtain ⟨hsound, hkeeps⟩ := Sound.step hinv (hfit s (.ok o) hs hc) o
  refine ⟨hkeeps, hsound, fun _ _ => hkeeps, ?_⟩
  have hstay := hP _ _ hs hkeeps
  cases hb : (st.run o s).1 with
  | error e =>
      rw [show (backend.run i st o s).1 = .error e from hb]
      trivial
  | ok b =>
      rw [show (backend.run i st o s).1 = .ok b from hb]
      exact hQ s o b hinv hs hb hstay

/-- A statement whose answer does not matter. -/
theorem credits_any {st : Query (Ans β)} {P : Tables → Prop} (hst : ∀ e, st.fail e = .error e)
    (hP : Lasts hash P) (hfit : ∀ s o, P s → InsertsFirst hash i st o s → st.Fits hash s) :
    Credits hash i P (sql st) fun _ => P :=
  credits_sql hst hP hfit fun _ _ _ _ _ _ h => h

/-- What a run knows of a deposit row it has read or inserted. -/
def Known (hash : String) (v : VerifiedDepositPayment) (d : DepositRow) (s : Tables) : Prop :=
  d.stellarTxHash = v.stellarTxHash ∧ (v.stellarTxHash = hash → (s.deposits hash).isSome ∧
    (∀ txId, d.transactionId = some txId → s.Assigned hash txId) ∧
      (d.status = .confirmed → ∀ step, s.HasPosted hash step))

/-- What a run knows of the transaction it credits under. -/
def AssignedTo (hash : String) (v : VerifiedDepositPayment) (txId : ℕ) (s : Tables) : Prop :=
  v.stellarTxHash = hash → s.Assigned hash txId

/-- What a run knows of a step it has posted. -/
def PostedTo (hash : String) (v : VerifiedDepositPayment) (step : DepositStep) (s : Tables) :
    Prop :=
  v.stellarTxHash = hash → s.HasPosted hash step

variable {v : VerifiedDepositPayment} {d : DepositRow} {txId : ℕ} {step : DepositStep}
  {P : Tables → Prop}

theorem lasts_known : Lasts hash (Known hash v d) := fun _ _ h hk =>
  ⟨h.1, fun hv => ⟨hk.deposit (h.2 hv).1, fun txId hx => hk.assigned txId ((h.2 hv).2.1 txId hx),
    fun hc step => hk.posted step ((h.2 hv).2.2 hc step)⟩⟩

theorem lasts_assigned : Lasts hash (AssignedTo hash v txId) := fun _ _ h hk hv =>
  hk.assigned txId (h hv)

theorem lasts_posted : Lasts hash (PostedTo hash v step) := fun _ _ h hk hv =>
  hk.posted step (h hv)

theorem Lasts.and {P' : Tables → Prop} (h : Lasts hash P) (h' : Lasts hash P') :
    Lasts hash fun s => P s ∧ P' s := fun _ _ hs hk => ⟨h _ _ hs.1 hk, h' _ _ hs.2 hk⟩

/-- Reading the deposit row. -/
theorem credits_read (hv : v.Canonical) (hP : Lasts hash P) :
    Credits hash i P (getDepositByHash v.stellarTxHash) fun r s =>
      P s ∧ ∀ d ∈ r, Known hash v d s := by
  unfold getDepositByHash
  rw [show normalizeHash v.stellarTxHash = v.stellarTxHash from hv]
  refine credits_sql (fun _ => rfl) hP (fun _ _ _ _ => trivial) fun s o r hs _ hr hP' => ⟨hP', ?_⟩
  intro d hd
  have hrow : s.deposits v.stellarTxHash = some d := by
    rw [← Option.mem_def.mp hd]
    exact Except.ok.inj hr
  refine ⟨hs.keyed _ d hrow, ?_⟩
  rintro rfl
  exact ⟨by simp [Query.run, hrow], fun txId hx => ⟨d, hrow, hx⟩, hs.confirmed d hrow⟩

theorem credits_account (publicKey : String) (hP : Lasts hash P) :
    Credits hash i P (findOrgStellarAccountByPublicKey publicKey) fun _ => P := by
  unfold findOrgStellarAccountByPublicKey
  exact Triple.ite (fun _ => credits_any (fun _ => rfl) hP fun _ _ _ _ => trivial)
    fun _ => Triple.pure fun _ h => h

theorem credits_balance (orgId environment : String) (hP : Lasts hash P) :
    Credits hash i P (sql (.getOrgBalance orgId environment)) fun _ => P :=
  credits_any (fun _ => rfl) hP fun _ _ _ _ => trivial

/-- The deposit row a run goes on with. -/
def usable : Option DepositRow → Call DepositRow
  | none => throw .depositCreateFailed
  | some d => if d.status = .rejected ∨ d.status = .failed then throw .depositRejected else pure d

/-- The row a run goes on with is that of its hash. -/
theorem credits_ensureDeposit (hv : v.Canonical) (orgId environment : String)
    (existing : Option DepositRow) :
    Credits hash i (fun s => ∀ d ∈ existing, Known hash v d s)
      (ensureDeposit v orgId environment existing) fun d => Known hash v d := by
  unfold ensureDeposit
  have hcont : ∀ existing : Option DepositRow,
      Credits hash i (fun s => ∀ d ∈ existing, Known hash v d s) (usable existing)
        fun d => Known hash v d := by
    intro existing
    cases existing with
    | none => exact Triple.throw fun _ _ => trivial
    | some d =>
        exact Triple.ite (fun _ => Triple.throw fun _ _ => trivial)
          fun _ => Triple.pure fun s h => h d rfl
  cases existing with
  | some d => exact hcont (some d)
  | none =>
      refine Triple.bind (R := fun r s => ∀ d ∈ r, Known hash v d s) ?_ hcont
      refine Triple.tryCatch (F := fun _ _ => True) ?_ fun e => ?_
      · refine Triple.bind (R := fun d => Known hash v d) (Triple.mono (P := fun _ => True)
          (credits_sql (fun _ => rfl) lasts_true (fun _ _ _ _ => ⟨rfl, fun h => by cases h⟩) ?_)
          (fun _ _ => trivial) (fun _ _ h => h) fun _ _ h => h) fun d => Triple.pure fun s h => ?_
        · intro s o d _ _ hd _
          have hd' : (s.insertDeposit (v.row orgId environment)).1 = .ok d := hd
          have hs : ((Query.insertDeposit (v.row orgId environment)).run o s).2 =
            (s.insertDeposit (v.row orgId environment)).2 := rfl
          rw [hs]
          unfold Tables.insertDeposit at hd' ⊢
          split_ifs at hd' ⊢
          cases hd'
          refine ⟨rfl, ?_⟩
          rintro rfl
          refine ⟨?_, (fun txId hx => by cases hx), fun hc => by cases hc⟩
          show (Function.update s.deposits _ _ _).isSome
          rw [show (v.row orgId environment).stellarTxHash = v.stellarTxHash from rfl,
            Function.update_self]
          rfl
        · intro d' hd'
          cases hd'
          exact h
      · refine Triple.ite (fun _ => ?_) fun _ => Triple.throw fun _ _ => trivial
        exact (credits_read hv lasts_true).mono (fun _ h => h) (fun _ _ h => h.2) fun _ _ h => h

/-- The transaction of a deposit, found or inserted. -/
theorem credits_ensureDepositTransaction (orgId environment : String) (hP : Lasts hash P) :
    Credits hash i P (ensureDepositTransaction orgId environment v) fun txId s =>
      P s ∧ (v.stellarTxHash = hash → s.HasTransaction hash txId) := by
  unfold ensureDepositTransaction
  refine Triple.bind (R := fun r s => P s ∧
    ∀ txId ∈ r, v.stellarTxHash = hash → s.HasTransaction hash txId) ?_ fun r => ?_
  · refine credits_sql (fun _ => rfl) hP (fun _ _ _ _ => trivial)
      fun s o r _ _ hr hP' => ⟨hP', fun txId hx hv => ?_⟩
    obtain rfl := Except.ok.inj hr
    obtain ⟨t, ht, rfl⟩ := Option.map_eq_some_iff.mp (Option.mem_def.mp hx)
    have hmem := List.mem_of_find?_eq_some ht
    have hprop := List.find?_some ht
    simp only [Bool.and_eq_true, decide_eq_true_eq] at hprop
    exact ⟨t, List.mem_filter.mpr ⟨hmem, decide_eq_true (hprop.2.trans hv)⟩, rfl⟩
  · cases r with
    | some txId => exact Triple.pure fun s h => ⟨h.1, h.2 txId rfl⟩
    | none =>
        refine Triple.mono (P := P) (credits_sql (fun _ => rfl) hP (fun _ _ _ hc => hc) ?_)
          (fun _ h => h.1) (fun _ _ h => h) fun _ _ h => h
        intro s o txId _ _ hr hP'
        refine ⟨hP', fun hv => ?_⟩
        cases hr
        refine ⟨_, List.mem_filter.mpr ⟨List.mem_cons_self, decide_eq_true hv⟩, rfl⟩

/-- The transaction a run credits under is the one its deposit row names. -/
theorem credits_assignedTransaction (orgId environment : String) :
    Credits hash i (Known hash v d) (assignedTransaction v orgId environment d)
      fun txId s => Known hash v d s ∧ AssignedTo hash v txId s := by
  unfold assignedTransaction
  cases hx : d.transactionId with
  | some txId => exact Triple.pure fun s h => ⟨h, fun hv => (h.2 hv).2.1 txId hx⟩
  | none =>
      refine Triple.bind (credits_ensureDepositTransaction orgId environment lasts_known)
        fun txId => ?_
      have hlasts : Lasts hash fun s => Known hash v d s ∧
          (v.stellarTxHash = hash → s.HasTransaction hash txId) :=
        lasts_known.and fun _ _ h hk hv => hk.transactions txId (h hv)
      refine Triple.bind (R := fun _ s => Known hash v d s ∧ AssignedTo hash v txId s)
        (credits_sql (fun _ => rfl) hlasts (fun s _ h _ hk => h.2 (h.1.1.symm.trans hk)) ?_)
        fun _ => Triple.pure fun _ h => h
      intro s o _ _ h _ hstay
      refine ⟨hstay.1, fun hv => ?_⟩
      obtain ⟨d', hd'⟩ := Option.isSome_iff_exists.mp (h.1.2 hv).1
      refine ⟨_, Tables.setDeposit_of_some hd', ?_⟩
      rw [if_pos (hv.symm.trans h.1.1.symm)]

/-- A posted step. -/
theorem credits_post (orgId environment : String) (hP : Lasts hash P)
    (hassigned : ∀ s, P s → AssignedTo hash v txId s) :
    Credits hash i P (sql (.post step orgId environment v txId)) fun _ s =>
      P s ∧ PostedTo hash v step s := by
  refine credits_sql (fun _ => rfl) hP (fun s _ h _ => hassigned s h) fun s o r _ _ hr hP' => ?_
  refine ⟨hP', fun hv => ?_⟩
  have hs : ((Query.post step orgId environment v txId).run o s) =
    s.post step.op (step.params orgId environment v txId) := rfl
  rw [hs] at hr ⊢
  rcases s.post_cases step.op (step.params orgId environment v txId) with
    ⟨e, he⟩ | ⟨m, hm, he⟩ | ⟨amount, -, he⟩ <;> rw [he] at hr ⊢
  · cases hr
  · rw [DepositStep.params_key, hv] at hm
    exact ⟨m, hm⟩
  · unfold Tables.HasPosted
    rw [find_posted, DepositStep.params_key, hv, if_pos rfl]
    exact ⟨_, rfl⟩

/-- What a credit that returns says is so. -/
def CreditKnown (hash : String) (v : VerifiedDepositPayment) (stop : Bool) (c : Credit)
    (s : Tables) : Prop :=
  (∀ d ∈ c.deposit, d.stellarTxHash = v.stellarTxHash) ∧
    (stop = false → c.ledgerPhase = .available) ∧
    (c.ledgerPhase = .available → ∀ step, PostedTo hash v step s)

theorem credits_releaseDeposit (hv : v.Canonical) (orgId environment : String) (pending : Posted)
    (stop : Bool) :
    Credits hash i (fun s => (Known hash v d s ∧ AssignedTo hash v txId s) ∧
        PostedTo hash v .pending s)
      (releaseDeposit v orgId environment d txId pending) (CreditKnown hash v stop) := by
  have hlasts : Lasts hash fun s => (Known hash v d s ∧ AssignedTo hash v txId s) ∧
      PostedTo hash v .pending s := (lasts_known.and lasts_assigned).and lasts_posted
  have hboth : Lasts hash fun s => Known hash v d s ∧ ∀ step, PostedTo hash v step s :=
    lasts_known.and fun _ _ h hk step => lasts_posted _ _ (h step) hk
  unfold releaseDeposit
  refine Triple.bind (credits_post orgId environment hlasts fun _ h => h.1.2) fun available => ?_
  refine Triple.mono (P := fun s => Known hash v d s ∧ ∀ step, PostedTo hash v step s) ?_
    (fun s h => ⟨h.1.1.1, fun step => ?_⟩) (fun _ _ h => h) fun _ _ h => h
  · refine Triple.bind (credits_any (fun _ => rfl) hboth fun s _ h _ hk step =>
      h.2 step (h.1.1.symm.trans hk)) fun _ => ?_
    refine Triple.bind (credits_any (fun _ => rfl) hboth fun _ _ _ _ => trivial) fun _ => ?_
    refine Triple.bind (credits_read hv hboth) fun deposit => ?_
    have hlast : Lasts hash fun s => (∀ d ∈ deposit, Known hash v d s) ∧
        ∀ step, PostedTo hash v step s :=
      Lasts.and (fun _ _ h hk d hd => lasts_known _ _ (h d hd) hk)
        fun _ _ h hk step => lasts_posted _ _ (h step) hk
    refine Triple.bind (Triple.mono (credits_balance orgId environment hlast)
      (fun s h => ⟨h.2, h.1.2⟩) (fun _ _ h => h) fun _ _ h => h) fun balance => ?_
    exact Triple.pure fun s h => ⟨fun d hd => (h.1 d hd).1, fun _ => rfl, fun _ => h.2⟩
  · cases step with
    | pending => exact h.1.2
    | available => exact h.2

/-- A credit from the lookup of the account on. -/
def creditAccount (v : VerifiedDepositPayment) (existing : Option DepositRow) (stop : Bool) :
    Option OrgStellarAccount → Call Credit
  | none => throw .unknownDestination
  | some a =>
      if a.status ≠ "active" then throw .walletNotActive
      else if a.publicKey ≠ v.destinationPublicKey then throw .wrongDestination
      else do
        let env := asEnv a.environment
        let existing ← ensureDeposit v a.orgId env existing
        let txId ← assignedTransaction v a.orgId env existing
        let pending ← sql (.post .pending a.orgId env v txId)
        sql (.recordPending existing.stellarTxHash pending.movement.id txId)
        if stop then do
          let balance ← sql (.getOrgBalance a.orgId env)
          let deposit ← getDepositByHash v.stellarTxHash
          pure ⟨deposit, .pending, balance, pending.duplicate⟩
        else releaseDeposit v a.orgId env existing txId pending

theorem credits_creditVerifiedDeposit (hv : v.Canonical) (orgAccount : Option OrgStellarAccount)
    (stop : Bool) :
    Credits hash i (fun _ => True) (creditVerifiedDeposit v orgAccount stop)
      (CreditKnown hash v stop) := by
  unfold creditVerifiedDeposit
  refine Triple.bind (credits_read hv lasts_true) fun existing => ?_
  have hread : Lasts hash fun s => True ∧ ∀ d ∈ existing, Known hash v d s := fun _ _ h hk =>
    ⟨trivial, fun d hd => lasts_known _ _ (h.2 d hd) hk⟩
  cases hconf : existing.filter (·.status = .confirmed) with
  | some d =>
      obtain ⟨hd, hstatus⟩ := Option.filter_eq_some_iff.mp hconf
      refine Triple.bind (credits_balance d.orgId d.environment hread) fun balance => ?_
      refine Triple.pure fun s h => ⟨fun d' hd' => ?_, fun _ => rfl, fun _ step hvh => ?_⟩
      · cases hd'
        exact (h.2 d hd).1
      · exact ((h.2 d hd).2 hvh).2.2 (of_decide_eq_true hstatus) step
  | none =>
      -- from the lookup of the account on
      have hcont : ∀ account : Option OrgStellarAccount,
          Credits hash i (fun s => True ∧ ∀ d ∈ existing, Known hash v d s)
            (creditAccount v existing stop account)
            (CreditKnown hash v stop) := by
        intro account
        cases account with
        | none => exact Triple.throw fun _ _ => trivial
        | some a =>
            dsimp only [creditAccount]
            refine Triple.ite (fun _ => Triple.throw fun _ _ => trivial) fun _ => ?_
            refine Triple.ite (fun _ => Triple.throw fun _ _ => trivial) fun _ => ?_
            refine Triple.bind (Triple.mono (credits_ensureDeposit hv _ _ existing)
              (fun _ h => h.2) (fun _ _ h => h) fun _ _ h => h) fun d => ?_
            refine Triple.bind (credits_assignedTransaction _ _) fun txId => ?_
            refine Triple.bind (credits_post _ _ (lasts_known.and lasts_assigned)
              fun _ h => h.2) fun pending => ?_
            have hlasts : Lasts hash fun s => (Known hash v d s ∧ AssignedTo hash v txId s) ∧
              PostedTo hash v .pending s := (lasts_known.and lasts_assigned).and lasts_posted
            refine Triple.bind (credits_any (fun _ => rfl) hlasts fun s _ h _ hk =>
              h.1.2 (h.1.1.1.symm.trans hk)) fun _ => ?_
            cases stop with
            | false => exact credits_releaseDeposit hv _ _ pending false
            | true =>
                refine Triple.bind (credits_balance _ _ hlasts) fun balance => ?_
                refine Triple.bind (credits_read hv hlasts) fun deposit => ?_
                exact Triple.pure fun s h => ⟨fun d hd => (h.2 d hd).1, (fun hs => by cases hs),
                  fun hp => by cases hp⟩
      cases orgAccount with
      | some a => exact hcont (some a)
      | none => exact Triple.bind (credits_account _ hread) hcont

/-- What is verified on Horizon is written with the hash it is looked up by. -/
theorem credits_verify (cfg : Config) (r : DepositRequest) :
    Credits hash i (fun _ => True) (verifyExternalUsdcDeposit cfg r) fun v _ => v.Canonical := by
  unfold verifyExternalUsdcDeposit
  dsimp only
  refine Triple.ite (fun _ => Triple.throw fun _ _ => trivial) fun hhash => ?_
  refine Triple.ite (fun _ => Triple.throw fun _ _ => trivial) fun _ => ?_
  refine Triple.bind (R := fun _ _ => True) (Triple.tryCatch (F := fun _ _ => True)
    (credits_any (fun _ => rfl) lasts_true fun _ _ _ _ => trivial)
    fun _ => Triple.throw fun _ _ => trivial) fun successful => ?_
  refine Triple.ite (fun _ => Triple.throw fun _ _ => trivial) fun _ => ?_
  refine Triple.bind (credits_any (fun _ => rfl) lasts_true fun _ _ _ _ => trivial) fun ops => ?_
  cases ops.find? fun op => op.type = "payment" && op.assetCode.toUpper = "USDC" &&
      op.assetIssuer = cfg.usdcIssuer with
  | none => exact Triple.throw fun _ _ => trivial
  | some payment =>
      cases hcheck : checkPayment cfg (normalizeHash r.stellarTxHash) r payment with
      | error e =>
          dsimp only
          rw [hcheck]
          exact Triple.throw fun _ _ => trivial
      | ok v =>
          dsimp only
          rw [hcheck]
          refine Triple.pure fun _ _ => ?_
          have hv : v.stellarTxHash = normalizeHash r.stellarTxHash := by
            unfold checkPayment at hcheck
            dsimp only at hcheck
            cases hamount : payment.amount.map round7 with
            | none =>
                rw [hamount] at hcheck
                cases hcheck
            | some amount =>
                rw [hamount] at hcheck
                dsimp only at hcheck
                split_ifs at hcheck
                cases hcheck
                rfl
          unfold VerifiedDepositPayment.Canonical
          rw [hv]
          exact normalizeHash_of_isTxHash (by simpa using hhash)

theorem credits_process (cfg : Config) {r : DepositRequest}
    (hr : ∀ v ∈ r.mockPayment, v.Canonical) :
    Credits hash i (fun _ => True) (processExternalDepositByHash cfg r) fun p =>
      CreditKnown hash p.verified r.stopAfterPending p.toCredit := by
  unfold processExternalDepositByHash
  refine Triple.ite (fun _ => Triple.throw fun _ _ => trivial) fun _ => ?_
  have hcont : ∀ v : VerifiedDepositPayment, Credits hash i (fun _ => v.Canonical)
      (do
        let credit ← creditVerifiedDeposit v none r.stopAfterPending
        pure (⟨credit, v⟩ : Processed)) fun p =>
      CreditKnown hash p.verified r.stopAfterPending p.toCredit := by
    intro v s hv
    refine Triple.bind (credits_creditVerifiedDeposit hv none r.stopAfterPending)
      (fun credit => ?_) s trivial
    exact Triple.pure (a := (⟨credit, v⟩ : Processed)) fun _ h => h
  cases hmock : r.mockPayment.filter fun _ => cfg.mode = .mock with
  | some v => exact fun s _ => hcont v s (hr v (Option.filter_eq_some_iff.mp hmock).1)
  | none => exact Triple.bind (credits_verify cfg r) hcont

/-- The deposits of a poll that are the deposit's are credited. -/
def PollKnown (hash : String) (r : PollResult) (s : Tables) : Prop :=
  ∀ d, some d ∈ r.deposits → d.stellarTxHash = hash → ∀ step, s.HasPosted hash step

theorem credits_pollRecords (cfg : Config) (publicKey : String) (records : List PaymentRecord)
    (result : PollResult) :
    Credits hash i (PollKnown hash result) (pollRecords cfg publicKey records result)
      (PollKnown hash) := by
  induction records generalizing result with
  | nil => exact Triple.pure fun _ h => h
  | cons record records ih =>
      unfold pollRecords
      dsimp only
      refine Triple.ite (fun _ => (ih _).mono (fun _ h => h) (fun _ _ h => h) fun _ _ h => h)
        fun _ => ?_
      have hprocess : Credits hash i (fun _ => True)
          (processExternalDepositByHash cfg
            ⟨record.transactionHash.toLower, some publicKey, none, false, none⟩)
          fun p => CreditKnown hash p.verified false p.toCredit :=
        credits_process cfg fun v hv => by cases hv
      have hframe := Triple.frame (F := PollKnown hash result) hprocess
        (fun s t h hk d hd hh step => hk.posted step (h d hd hh step))
        fun _ _ s _ t hk h d hd hh step => hk.posted step (h d hd hh step)
      refine Triple.bind (R := PollKnown hash) (Triple.tryCatch
        (F := fun _ => PollKnown hash result) ?_ fun e => Triple.pure fun _ h => h) ih
      refine Triple.bind (hframe.mono (fun s h => ⟨trivial, h⟩) (fun _ _ h => h) fun _ _ h => h.2)
        fun processed => Triple.pure fun s h d hd hh step => ?_
      rcases List.mem_append.mp hd with hd | hd
      · exact h.2 d hd hh step
      · have hd' : processed.deposit = some d := (List.mem_singleton.mp hd).symm
        obtain ⟨hdeposit, hphase, hposted⟩ := h.1
        exact hposted (hphase rfl) step ((hdeposit d hd').symm.trans hh)

theorem credits_poll (cfg : Config) (orgId environment : String) (limit : Option ℕ) :
    Credits hash i (fun _ => True) (pollOrgStellarDeposits cfg orgId environment limit)
      (PollKnown hash) := by
  have hempty : ∀ note s, PollKnown hash { errors := note } s := fun _ _ d hd => by cases hd
  unfold pollOrgStellarDeposits
  refine Triple.ite (fun _ => Triple.pure fun _ _ => hempty _ _) fun _ => ?_
  refine Triple.bind (credits_any (fun _ => rfl) lasts_true fun _ _ _ _ => trivial)
    fun account => ?_
  cases account with
  | none => exact Triple.pure fun _ _ => hempty _ _
  | some account =>
      refine Triple.ite (fun _ => Triple.pure fun _ _ => hempty _ _) fun _ => ?_
      refine Triple.ite (fun _ => Triple.pure fun _ _ => hempty _ _) fun _ => ?_
      refine Triple.ite (fun _ => Triple.throw fun _ _ => trivial) fun _ => ?_
      refine Triple.bind (credits_any (fun _ => rfl) lasts_true fun _ _ _ _ => trivial)
        fun records => ?_
      exact (credits_pollRecords cfg account.publicKey records {}).mono
        (fun s _ => hempty [] s) (fun _ _ h => h) fun _ _ h => h

/-- A deposit a run says to be available is credited. -/
def Says (hash : String) (answer : Answer) (t : Tables) : Prop :=
  answer.Credits hash → ∀ step, t.HasPosted hash step

/-- What a run returns is so. -/
theorem credits_run {r : DepositRun} (hr : r.Canonical) (s : Tables) :
    wp backend.machine (depositDiscipline hash) i r.program
      (fun a t => ∀ answer, a = .ok answer → Says hash answer t) s := by
  cases r with
  | process cfg r =>
      have h : Credits hash i (fun _ => True) _ (Says hash) :=
        Triple.bind (credits_process cfg hr) fun p => Triple.pure (a := Answer.processed p)
          (Q := Says hash) fun t h hc step => h.2.2 hc.1 step hc.2
      refine wp_mono (fun a t ha answer heq => ?_) _ _ (h s trivial)
      subst heq
      exact ha
  | poll cfg orgId environment limit =>
      have h : Credits hash i (fun _ => True) _ (Says hash) :=
        Triple.bind (credits_poll cfg orgId environment limit) fun p => Triple.pure
          (a := Answer.polled p) (Q := Says hash) fun t h hc step => by
            obtain ⟨d, hd, hh⟩ := hc
            exact h d hd hh step
      refine wp_mono (fun a t ha answer heq => ?_) _ _ (h s trivial)
      subst heq
      exact ha

end programs

/-! ### Whole runs -/

/-- The pool of a list of runs. -/
def depositPool (s : Tables) (runs : List DepositRun) :
    Pool Query (Except DepositError Answer) Tables :=
  ⟨s, runs.map DepositRun.program⟩

/-- **A deposit is credited once, and can be traced.** In every run of the poller and of the
processing by hash, in any interleaving and with any failures, in which no transaction row of the
deposit is inserted while it has one, the deposit is traced in every state, and credited once some
run has said so. -/
theorem deposit_credited_once {s : Tables} (hs : Unseen s hash) (runs : List DepositRun)
    (hruns : ∀ r ∈ runs, r.Canonical) (sched : List (ℕ × Except DepositError Outside))
    (hfirst : Pool.Along backend.machine (Pool.CondAt (InsertsFirst hash)) (depositPool s runs)
      sched) :
    Traced ((depositPool s runs).run backend.machine sched).store hash ∧
      ∀ (i : ℕ) (answer : Answer), ((depositPool s runs).run backend.machine sched).procs[i]? =
          some (Prog.ret (.ok answer)) → answer.Credits hash →
        Credited ((depositPool s runs).run backend.machine sched).store hash := by
  have hstart : Pool.Verified backend.machine (depositDiscipline hash)
      (fun _ a t => ∀ answer, a = .ok answer → Says hash answer t) (depositPool s runs) := by
    refine Pool.Verified.start (Sound.start hs) fun i p hp => ?_
    obtain ⟨r, hr, rfl⟩ := List.mem_map.mp (List.mem_of_getElem? hp)
    exact credits_run (hruns r hr) s
  have hrun := (Pool.run_sound hstart sched hfirst).1
  have hsound : Sound hash ((depositPool s runs).run backend.machine sched).store := hrun.1
  refine ⟨hsound.deposit_traced, fun i answer hp hc => hsound.credited fun step => ?_⟩
  obtain ⟨t, ht, hk⟩ := hrun.result hp
  exact Keeps.posted hk step (ht answer rfl hc step)

/-- Nothing is recorded at all. -/
def noDeposits : Tables where
  ledger := ⟨fun _ => none, [], 0⟩

theorem noDeposits_unseen (hash : String) : Unseen noDeposits hash :=
  ⟨.nil, (fun _ _ h => by cases h), rfl, rfl, fun _ => rfl⟩

/-- The public key of an organisation's Stellar wallet. -/
def walletKey : String := "GDAYFIORGANISATIONWALLETPUBLICKEY00000000000000000000001"

/-- Two requests for one deposit of 25 USDC. -/
def sameDepositTwice : List DepositRun :=
  List.replicate 2 (.process ⟨.mock, true, "issuer"⟩ {
    stellarTxHash := "ab12"
    mockPayment := some ⟨"ab12", none, walletKey, 25, "issuer", .testnet⟩ })

/-- The turns of the processes; the account of the wallet is active all along. -/
def depositTurns (turns : List (ℕ × ℕ)) : List (ℕ × Except DepositError Outside) :=
  turns.flatMap fun t => List.replicate t.2
    (t.1, .ok { account := some ⟨"org", "test", walletKey, "active"⟩ })

/-- The tables after both requests have taken these turns. -/
def afterTurns (turns : List (ℕ × ℕ)) : Tables :=
  ((depositPool noDeposits sameDepositTwice).run backend.machine (depositTurns turns)).store

/-- The second request reads the deposit row and its transaction while the first goes on. -/
theorem deposit_credited_once_interleaved :
    Credited (afterTurns [(0, 5), (1, 3), (0, 8), (1, 8)]) "ab12" := by
  have htraced : Traced (afterTurns [(0, 5), (1, 3), (0, 8), (1, 8)]) "ab12" :=
    (deposit_credited_once (noDeposits_unseen "ab12") sameDepositTwice (by decide +kernel)
      (depositTurns [(0, 5), (1, 3), (0, 8), (1, 8)]) (by decide +kernel)).1
  have hstatus : ((afterTurns [(0, 5), (1, 3), (0, 8), (1, 8)]).deposits "ab12").map (·.status) =
      some .confirmed := by decide +kernel
  obtain ⟨d, hd, hconfirmed⟩ := Option.map_eq_some_iff.mp hstatus
  exact htraced.confirmed d hd hconfirmed

/-- The rows of `infra_transactions`, the one the deposit row names, and those its movements refer
to. -/
def references (s : Tables) (hash : String) : List ℕ × Option ℕ × List (Option String) :=
  ((s.transactionsOf hash).map (·.id), (s.deposits hash).bind (·.transactionId),
    s.ledger.movements.map (·.referenceId))

/-- Both requests look for the transaction of the deposit before either inserts it: the deposit
row ends up with a transaction its movements do not refer to. -/
theorem deposit_traced_twice :
    references (afterTurns [(0, 4), (1, 3), (0, 3), (1, 2)]) "ab12" =
        ([2, 1], some 2, [some "1"]) ∧
      ¬ Traced (afterTurns [(0, 4), (1, 3), (0, 3), (1, 2)]) "ab12" := by
  have h : references (afterTurns [(0, 4), (1, 3), (0, 3), (1, 2)]) "ab12" =
      ([2, 1], some 2, [some "1"]) := by decide +kernel
  refine ⟨h, fun htraced => ?_⟩
  have hlength := congrArg (fun r => r.1.length) h
  have := htraced.transactions
  simp only [references, List.length_map, List.length_cons, List.length_nil] at hlength
  omega

end DayfiBackend.Infra.Deposits
