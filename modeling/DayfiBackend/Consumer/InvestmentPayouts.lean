import DayfiBackend.Consumer.Investments

/-!
# Positions are paid for once and paid out once

`PaidOnce` says what the tables of the investments owe each other: every position has a debit of
its own in the ledger, no position is paid out twice or early, and a pocket holds the principals of
its user's positions that are not claimed.

`positions_paid_once` is the result for the runs in which a deposit that finds its debit made finds
one of its own, and no payout comes to a position that is claimed.
-/

namespace DayfiBackend.Consumer.Investments

open DayfiBackend.Found DayfiBackend.Found.Prog DayfiBackend.Found.Keys

/-! ### The property -/

/-- A movement is the debit a position is paid with. -/
structure Backs (m : MovementRow) (p : Position) : Prop where
  direction : m.direction = .debit
  key : m.idempotencyKey = debitKey p.depositReference
  user : m.userId = p.userId
  amount : m.amount = p.principal

/-- What is paid out, by its position. -/
def Tables.paidOut (T : Tables) : List ℕ :=
  (T.movements.filter (·.direction = .withdraw)).map (·.positionId)

/-- Positions are paid for once and paid out once, and pockets hold what is not paid out. -/
structure PaidOnce (s : Store) : Prop where
  backed : ∀ p ∈ s.2.positions, ∃ m ∈ s.1.movements, Backs m p
  apart : s.2.positions.Pairwise fun p q => ∀ m, ¬ (Backs m p ∧ Backs m q)
  once : s.2.paidOut.Nodup
  matured : ∀ w ∈ s.2.movements, w.direction = .withdraw →
    ∃ p ∈ s.2.positions, p.id = w.positionId ∧ p.maturesAt ≤ w.createdAt
  pockets : ∀ userId, s.2.balance userId = s.2.locked userId

/-- A movement is one that a deposit makes. -/
def DepositParams.Makes (p : DepositParams) (m : MovementRow) : Prop :=
  m.direction = .debit ∧ m.userId = p.userId ∧ m.amount = cents p.amount

instance (p : DepositParams) (m : MovementRow) : Decidable (p.Makes m) :=
  inferInstanceAs (Decidable (_ ∧ _))

/-- The condition on a deposit's search for its debit: what it finds is a debit that it makes
itself, or that a position is paid with. -/
def DepositParams.FindsOwn {β : Type} (p : DepositParams) (st : Query β) (s : Store) : Prop :=
  match st with
  | .findMovementByKey key => ∀ m ∈ s.1.movement? key,
      p.Makes m ∨ ∃ q ∈ s.2.positions, debitKey q.depositReference = key
  | _ => True

instance {β : Type} (p : DepositParams) (st : Query β) (s : Store) :
    Decidable (p.FindsOwn st s) :=
  decidable_of_bool (match st with
    | .findMovementByKey key => decide (∀ m ∈ s.1.movement? key,
        p.Makes m ∨ ∃ q ∈ s.2.positions, debitKey q.depositReference = key)
    | _ => true) (by
      cases st <;> first | exact decide_eq_true_iff | exact iff_of_true rfl trivial)

/-- The pocket holds what a payout takes, and nothing is paid under its key. -/
def Payout.Covered (c : Payout) (s : Store) : Prop :=
  (∃ pocket ∈ s.2.pockets c.userId, c.principal ≤ pocket.balance) ∧
    ∀ w ∈ s.2.movements, w.idempotencyKey ≠ claimKey c.reference

instance (c : Payout) (s : Store) : Decidable (c.Covered s) := inferInstanceAs (Decidable (_ ∧ _))

/-- The condition on a statement of the service: a payout that is covered comes to a position that
is not claimed. -/
def InvestmentSql.Unclaimed {β : Type} (st : InvestmentSql β) (s : Store) : Prop :=
  match st with
  | .claimTx c => c.Covered s →
      ∀ p ∈ s.2.positions, p.id = c.positionId → p.status ≠ .claimed
  | _ => True

/-- The condition on the steps of a run. -/
def Careful (requests : List Request) {β : Type} (i : ℕ) (st : Beside Query InvestmentSql β)
    (o : Except InvestmentError Outside) (s : Store) : Prop :=
  match o with
  | .error _ => True
  | .ok _ =>
      match st with
      | .own st => st.Unclaimed s
      | .inner st =>
          match requests[i]? with
          | some (.depositToInvestment p) => p.FindsOwn st s
          | _ => True

instance {β : Type} (requests : List Request) (i : ℕ) (st : Beside Query InvestmentSql β)
    (o : Except InvestmentError Outside) (s : Store) : Decidable (Careful requests i st o s) := by
  cases o with
  | error e => exact inferInstanceAs (Decidable True)
  | ok o =>
      cases st with
      | own st => cases st <;> dsimp only [Careful, InvestmentSql.Unclaimed] <;> infer_instance
      | inner st =>
          dsimp only [Careful]
          generalize requests[i]? = request
          cases request with
          | none => exact inferInstanceAs (Decidable True)
          | some r => cases r <;> dsimp only <;> infer_instance

/-! ### The invariant -/

/-- What holds at every step. -/
structure InvestmentInv (s : Store) : Prop where
  lower : ∀ p ∈ s.2.positions, p.id < s.2.positions.length
  ids : (s.2.positions.map (·.id)).Nodup
  references : (s.2.positions.map (·.depositReference)).Nodup
  backed : ∀ p ∈ s.2.positions, ∃ m ∈ s.1.movements, Backs m p
  claimed : ∀ w ∈ s.2.movements, w.direction = .withdraw → ∃ p ∈ s.2.positions,
    p.id = w.positionId ∧ p.status = .claimed ∧ p.maturesAt ≤ w.createdAt
  once : s.2.paidOut.Nodup
  pockets : ∀ userId, s.2.balance userId = s.2.locked userId

/-- One is a later version of the other. -/
structure Position.Continues (p q : Position) : Prop where
  id : q.id = p.id
  user : q.userId = p.userId
  principal : q.principal = p.principal
  matures : q.maturesAt = p.maturesAt
  reference : q.depositReference = p.depositReference

/-- What a process may count on: movements and positions stay, and time goes on. -/
structure Later (s t : Store) : Prop where
  movements : ∀ m ∈ s.1.movements, m ∈ t.1.movements
  positions : ∀ p ∈ s.2.positions, ∃ q ∈ t.2.positions, p.Continues q
  time : s.2.time ≤ t.2.time

section investments

variable {requests : List Request} {i : ℕ} {s t u : Store} {A : Accounts} {p q : Position}
  {c : Payout} {userId : String}

theorem debitKey_inj {a b : String} : debitKey a = debitKey b ↔ a = b := by
  unfold debitKey buildIdempotencyKey
  rw [String.append_right_inj]

theorem positionKey_inj {a b : String} : positionKey a = positionKey b ↔ a = b := by
  unfold positionKey buildIdempotencyKey
  rw [String.append_right_inj]

theorem Position.Continues.refl (p : Position) : p.Continues p := ⟨rfl, rfl, rfl, rfl, rfl⟩

theorem Position.Continues.trans {r : Position} (h : p.Continues q) (h' : q.Continues r) :
    p.Continues r :=
  ⟨h'.id.trans h.id, h'.user.trans h.user, h'.principal.trans h.principal,
    h'.matures.trans h.matures, h'.reference.trans h.reference⟩

theorem Backs.continues {m : MovementRow} (h : Backs m p) (hpq : p.Continues q) : Backs m q :=
  ⟨h.direction, hpq.reference ▸ h.key, hpq.user ▸ h.user, hpq.principal ▸ h.amount⟩

theorem Later.refl (s : Store) : Later s s :=
  ⟨fun _ h => h, fun p hp => ⟨p, hp, .refl p⟩, le_rfl⟩

theorem Later.trans (h : Later s t) (h' : Later t u) : Later s u := by
  refine ⟨fun m hm => h'.movements m (h.movements m hm), fun p hp => ?_, h.time.trans h'.time⟩
  obtain ⟨q, hq, hpq⟩ := h.positions p hp
  obtain ⟨r, hr, hqr⟩ := h'.positions q hq
  exact ⟨r, hr, hpq.trans hqr⟩

/-- The discipline of the investments. -/
def investmentDiscipline (requests : List Request) :
    Discipline (Beside Query InvestmentSql) (Except InvestmentError Outside) Store where
  inv := InvestmentInv
  rely _ := Later
  cond := Careful requests
  good _ _ _ _ _ _ := True
  rely_refl _ := Later.refl
  rely_trans _ _ _ _ h h' := h.trans h'

theorem lax : Lax (investmentDiscipline requests) := ⟨fun _ _ _ _ _ _ => trivial⟩

/-- What is known stays so while the others step. -/
def Lasts (P : Store → Prop) : Prop := ∀ s t, P s → Later s t → P t

theorem lasts_true : Lasts fun _ => True := fun _ _ _ _ => trivial

/-- The invariant gives the property. -/
theorem InvestmentInv.paidOnce (h : InvestmentInv s) : PaidOnce s := by
  refine ⟨h.backed, ?_, h.once, fun w hw hd => ?_, h.pockets⟩
  · have hne : s.2.positions.Pairwise fun p q => p.depositReference ≠ q.depositReference :=
      List.pairwise_map.mp h.references
    exact hne.imp fun hpq m hm => hpq (debitKey_inj.mp (hm.1.key.symm.trans hm.2.key))
  · obtain ⟨p, hp, hid, -, hmatures⟩ := h.claimed w hw hd
    exact ⟨p, hp, hid, hmatures⟩

/-! ### Steps -/

/-- The ledger records something. -/
theorem InvestmentInv.record (h : InvestmentInv s)
    (hA : ∀ m ∈ s.1.movements, m ∈ A.movements) :
    InvestmentInv (A, s.2) ∧ Later s (A, s.2) := by
  refine ⟨⟨h.lower, h.ids, h.references, fun p hp => ?_, h.claimed, h.once, h.pockets⟩, hA,
    fun p hp => ⟨p, hp, .refl p⟩, le_rfl⟩
  obtain ⟨m, hm, hbacks⟩ := h.backed p hp
  exact ⟨m, hA m hm, hbacks⟩

/-- Time passes. -/
theorem InvestmentInv.tick (h : InvestmentInv s) (elapsed : ℕ) :
    InvestmentInv (s.1, s.2.tick elapsed) ∧ Later s (s.1, s.2.tick elapsed) :=
  ⟨⟨h.lower, h.ids, h.references, h.backed, h.claimed, h.once, h.pockets⟩, fun _ hm => hm,
    fun p hp => ⟨p, hp, .refl p⟩, Nat.le_add_right _ _⟩

/-- Positions are marked. What is left to show is that the payouts are of claimed positions, and
that the pockets are right. -/
theorem InvestmentInv.mark (h : InvestmentInv s) {T : Tables} {f : Position → Position}
    (hT : T.positions = s.2.positions.map f) (hf : ∀ p : Position, p.Continues (f p))
    (htime : T.time = s.2.time) (hA : ∀ m ∈ s.1.movements, m ∈ A.movements)
    (hclaimed : ∀ w ∈ T.movements, w.direction = .withdraw → ∃ p ∈ s.2.positions,
      p.id = w.positionId ∧ (f p).status = .claimed ∧ p.maturesAt ≤ w.createdAt)
    (honce : T.paidOut.Nodup) (hpockets : ∀ userId, T.balance userId = T.locked userId) :
    InvestmentInv (A, T) ∧ Later s (A, T) := by
  have hmem : ∀ p ∈ s.2.positions, f p ∈ T.positions := fun p hp =>
    hT ▸ List.mem_map_of_mem hp
  refine ⟨⟨fun q hq => ?_, ?_, ?_, fun q hq => ?_, fun w hw hd => ?_, honce, hpockets⟩, hA,
    fun p hp => ⟨f p, hmem p hp, hf p⟩, htime.ge⟩
  · obtain ⟨p, hp, rfl⟩ := List.mem_map.mp (hT ▸ hq)
    show (f p).id < T.positions.length
    rw [hT, List.length_map, (hf p).id]
    exact h.lower p hp
  · show (T.positions.map _).Nodup
    rw [hT, List.map_map, show (fun p : Position => p.id) ∘ f = fun p => p.id from
      funext fun p => (hf p).id]
    exact h.ids
  · show (T.positions.map _).Nodup
    rw [hT, List.map_map, show (fun p : Position => p.depositReference) ∘ f =
      fun p => p.depositReference from funext fun p => (hf p).reference]
    exact h.references
  · obtain ⟨p, hp, rfl⟩ := List.mem_map.mp (hT ▸ hq)
    obtain ⟨m, hm, hbacks⟩ := h.backed p hp
    exact ⟨m, hA m hm, hbacks.continues (hf p)⟩
  · obtain ⟨p, hp, hid, hstatus, hmatures⟩ := hclaimed w hw hd
    exact ⟨f p, hmem p hp, (hf p).id.trans hid, hstatus, (hf p).matures.le.trans hmatures⟩

/-- Positions mature. -/
theorem InvestmentInv.mature (h : InvestmentInv s) (whose : Option String) :
    InvestmentInv (s.1, s.2.setMatured whose) ∧ Later s (s.1, s.2.setMatured whose) := by
  refine h.mark rfl (fun p => ?_) rfl (fun _ hm => hm) (fun w hw hd => ?_) h.once fun userId => ?_
  · split_ifs
    · exact ⟨rfl, rfl, rfl, rfl, rfl⟩
    · exact .refl p
  · obtain ⟨p, hp, hid, hstatus, hmatures⟩ := h.claimed w hw hd
    exact ⟨p, hp, hid, by simp [hstatus], hmatures⟩
  · refine (h.pockets userId).trans ?_
    unfold Tables.locked Tables.setMatured
    rw [List.map_map]
    congr 1
    refine List.map_congr_left fun p _ => ?_
    simp only [Function.comp_apply]
    split_ifs with hp
    · simp only [Bool.and_eq_true, decide_eq_true_eq] at hp
      simp [Tables.held, hp.1.2]
    · rfl

/-- A user accepts the risk. -/
theorem InvestmentInv.accept (h : InvestmentInv s) (userId : String) :
    InvestmentInv (s.1, s.2.acceptRisk userId) ∧ Later s (s.1, s.2.acceptRisk userId) := by
  refine ⟨⟨h.lower, h.ids, h.references, h.backed, h.claimed, h.once, fun user => ?_⟩,
    fun _ hm => hm, fun p hp => ⟨p, hp, .refl p⟩, le_rfl⟩
  rw [show (s.2.acceptRisk userId).locked user = s.2.locked user from rfl, ← h.pockets user]
  unfold Tables.balance Tables.acceptRisk
  by_cases hu : user = userId
  · simp [hu]
  · simp [hu]

/-- What is known of a deposit once its debit is made. -/
def Charged (p : DepositParams) (reference : String) (s : Store) : Prop :=
  (∃ m ∈ s.1.movements, p.Makes m ∧ m.idempotencyKey = debitKey reference) ∨
    ∃ q ∈ s.2.positions, q.depositReference = reference

theorem lasts_charged {p : DepositParams} {reference : String} :
    Lasts (Charged p reference) := by
  rintro s t (⟨m, hm, hmakes, hkey⟩ | ⟨q, hq, href⟩) hlater
  · exact .inl ⟨m, hlater.movements m hm, hmakes, hkey⟩
  · obtain ⟨r, hr, hqr⟩ := hlater.positions q hq
    exact .inr ⟨r, hr, hqr.reference.trans href⟩

/-- A position is inserted, once its debit is made. -/
theorem InvestmentInv.insert (h : InvestmentInv s) {d : NewPosition}
    (hfresh : ∀ q ∈ s.2.positions, q.depositReference ≠ d.reference)
    {m : MovementRow} (hm : m ∈ s.1.movements) (hbacks : Backs m (s.2.newPosition d)) :
    InvestmentInv (s.1, s.2.opened d) ∧ Later s (s.1, s.2.opened d) := by
  have hmoves : ∀ w ∈ (s.2.opened d).movements, w.direction = .withdraw → w ∈ s.2.movements := by
    intro w hw hd
    unfold Tables.opened Tables.insertMovement at hw
    split_ifs at hw
    · exact hw
    · rcases List.mem_cons.mp hw with rfl | hw
      · cases hd
      · exact hw
  have hout : (s.2.opened d).paidOut = s.2.paidOut := by
    unfold Tables.paidOut Tables.opened Tables.insertMovement
    split_ifs
    · rfl
    · simp
  refine ⟨⟨fun p hp => ?_, ?_, ?_, fun p hp => ?_, fun w hw hd => ?_, hout ▸ h.once,
    fun userId => ?_⟩, fun _ hm => hm, fun p hp => ⟨p, List.mem_cons_of_mem _ hp, .refl p⟩, le_rfl⟩
  · rcases List.mem_cons.mp hp with rfl | hp
    · exact Nat.lt_succ_self _
    · exact (h.lower p hp).trans (Nat.lt_succ_self _)
  · refine List.nodup_cons.mpr ⟨fun hmem => ?_, h.ids⟩
    obtain ⟨p, hp, hid⟩ := List.mem_map.mp hmem
    exact (h.lower p hp).ne hid
  · refine List.nodup_cons.mpr ⟨fun hmem => ?_, h.references⟩
    obtain ⟨p, hp, href⟩ := List.mem_map.mp hmem
    exact hfresh p hp href
  · rcases List.mem_cons.mp hp with rfl | hp
    · exact ⟨m, hm, hbacks⟩
    · exact h.backed p hp
  · obtain ⟨p, hp, hpaid⟩ := h.claimed w (hmoves w hw hd) hd
    exact ⟨p, List.mem_cons_of_mem _ hp, hpaid⟩
  · have hlocked : (s.2.opened d).locked userId =
        Tables.held userId (s.2.newPosition d) + s.2.locked userId := List.sum_cons
    rw [hlocked, ← h.pockets userId]
    unfold Tables.balance Tables.opened
    by_cases hu : userId = d.userId
    · subst hu
      simp [Tables.held, Tables.newPosition, add_comm]
    · simp [Tables.held, Tables.newPosition, hu, Ne.symm hu]

/-- What is known of a payout that is due. -/
def Due (c : Payout) (s : Store) : Prop :=
  ∃ q ∈ s.2.positions, q.id = c.positionId ∧ q.userId = c.userId ∧ q.principal = c.principal ∧
    q.maturesAt ≤ s.2.time

theorem lasts_due : Lasts (Due c) := by
  rintro s t ⟨q, hq, hid, huser, hprincipal, hmatures⟩ hlater
  obtain ⟨r, hr, hqr⟩ := hlater.positions q hq
  exact ⟨r, hr, hqr.id.trans hid, hqr.user.trans huser, hqr.principal.trans hprincipal,
    hqr.matures.le.trans (hmatures.trans hlater.time)⟩

theorem Tables.continues_claimOne (c : Payout) (p : Position) :
    p.Continues (Tables.claimOne c p) := by
  unfold Tables.claimOne
  split_ifs
  · exact ⟨rfl, rfl, rfl, rfl, rfl⟩
  · exact .refl p

/-- A payout takes the principal of its position from what its user has locked. -/
theorem InvestmentInv.locked_claim (h : InvestmentInv s) (hq : q ∈ s.2.positions)
    (hid : q.id = c.positionId) (hstatus : q.status ≠ .claimed) (userId : String) :
    ((s.2.positions.map (Tables.claimOne c)).map (Tables.held userId)).sum =
      s.2.locked userId - Tables.held userId q := by
  have hnone : Tables.held userId (Tables.claimOne c q) = 0 := by
    unfold Tables.claimOne
    rw [if_pos ⟨hid, hstatus⟩]
    simp [Tables.held]
  have hothers : ∀ p ∈ s.2.positions, p.id ≠ q.id → Tables.claimOne c p = p := fun p _ hne =>
    if_neg fun hc => hne (hc.1.trans hid.symm)
  rw [Rows.sum_map_update h.ids hq hothers, hnone, add_zero]
  rfl

/-- A position that is due and not claimed is paid out. -/
theorem InvestmentInv.pay (h : InvestmentInv s) (hdue : Due c s)
    (hunclaimed : ∀ p ∈ s.2.positions, p.id = c.positionId → p.status ≠ .claimed) {pocket : Pocket}
    (hpocket : s.2.pockets c.userId = some pocket) (hA : ∀ m ∈ s.1.movements, m ∈ A.movements) :
    InvestmentInv (A, s.2.paid c pocket) ∧ Later s (A, s.2.paid c pocket) := by
  obtain ⟨q, hq, hid, huser, hprincipal, hmatures⟩ := hdue
  have hstatus := hunclaimed q hq hid
  refine h.mark rfl (Tables.continues_claimOne c) rfl hA (fun w hw hd => ?_) ?_ fun userId => ?_
  · rcases List.mem_cons.mp hw with rfl | hw
    · refine ⟨q, hq, hid, ?_, hmatures⟩
      unfold Tables.claimOne
      rw [if_pos ⟨hid, hstatus⟩]
    · obtain ⟨p, hp, hpid, hpaid, hdate⟩ := h.claimed w hw hd
      refine ⟨p, hp, hpid, ?_, hdate⟩
      unfold Tables.claimOne
      rw [if_neg fun hc => hc.2 hpaid]
      exact hpaid
  · have hout : (s.2.paid c pocket).paidOut = c.positionId :: s.2.paidOut := by
      simp [Tables.paidOut, Tables.paid]
    rw [hout]
    refine List.nodup_cons.mpr ⟨fun hmem => ?_, h.once⟩
    obtain ⟨w, hw, hwid⟩ := List.mem_map.mp hmem
    obtain ⟨hw, hd⟩ := List.mem_filter.mp hw
    obtain ⟨p, hp, hpid, hpaid, -⟩ := h.claimed w hw (by simpa using hd)
    exact hunclaimed p hp (hpid.trans hwid) hpaid
  · refine Eq.trans ?_ (h.locked_claim hq hid hstatus userId).symm
    rw [← h.pockets userId]
    unfold Tables.balance Tables.paid
    by_cases hu : userId = c.userId
    · subst hu
      simp [Tables.held, huser, hprincipal, hstatus, hpocket]
    · simp [Tables.held, huser, hu, Ne.symm hu]

/-! ### Rules -/

/-- What a call does under the discipline. -/
abbrev Runs (requests : List Request) (i : ℕ) {β : Type} (P : Store → Prop)
    (call : InvestmentCall β) (Q : β → Store → Prop) : Prop :=
  Triple server.machine (investmentDiscipline requests) i P call Q fun _ _ => True

variable {P : Store → Prop}

theorem InvestmentSql.Unclaimed.tick {β : Type} {st : InvestmentSql β} (h : st.Unclaimed s)
    (elapsed : ℕ) : st.Unclaimed (s.1, s.2.tick elapsed) := by
  cases st with
  | claimTx c => exact h
  | _ => trivial

/-- A statement of the service, from the state in which its time has passed. -/
theorem triple_sql {β : Type} {st : InvestmentSql (Ans β)} {Q : β → Store → Prop}
    (hst : ∀ e, st.fail e = .error e) (hP : Lasts P)
    (hstep : ∀ s o, P s → InvestmentInv s → st.Unclaimed s →
      InvestmentInv (st.act o s).2 ∧ Later s (st.act o s).2 ∧
        ∀ b, (st.act o s).1 = .ok b → Q b (st.act o s).2) :
    Triple server.machine (investmentDiscipline requests) i P (sql st) Q fun _ => P := by
  refine Beside.triple_own hst hP (fun _ _ hs _ _ => ⟨trivial, hs⟩) fun s o hs hinv hc => ?_
  obtain ⟨hinv', hlater⟩ := hinv.tick o.elapsed
  obtain ⟨hinv'', hlater', hans⟩ :=
    hstep _ o (hP _ _ hs hlater) hinv' (InvestmentSql.Unclaimed.tick hc o.elapsed)
  exact ⟨⟨trivial, hinv'', fun _ _ => hlater.trans hlater'⟩, hans,
    fun _ _ => hP _ _ (hP _ _ hs hlater) hlater'⟩

/-- A statement of the service that only reads. -/
theorem triple_read {β : Type} {st : InvestmentSql (Ans β)} {Q : β → Store → Prop}
    (hst : ∀ e, st.fail e = .error e) (hact : ∀ o s, (st.act o s).2 = s) (hP : Lasts P)
    (hQ : ∀ s o b, P s → (st.act o s).1 = .ok b → Q b s) :
    Triple server.machine (investmentDiscipline requests) i P (sql st) Q fun _ => P := by
  refine triple_sql hst hP fun s o hs hinv _ => ?_
  rw [hact]
  exact ⟨hinv, .refl s, fun b hb => hQ s o b hs hb⟩

/-- A statement that only reads, and what it reads is of no account. -/
theorem runs_read {β : Type} {st : InvestmentSql (Ans β)} (hst : ∀ e, st.fail e = .error e)
    (hact : ∀ o s, (st.act o s).2 = s) (hP : Lasts P) :
    Runs requests i P (sql st) fun _ => P :=
  (triple_read hst hact hP fun _ _ _ hs _ => hs).mono (fun _ h => h) (fun _ _ h => h)
    fun _ _ _ => trivial

/-- Whether the table of positions is there. -/
theorem runs_ready (hP : Lasts P) :
    Runs requests i P (sql .investmentPositionsReady) fun _ => P :=
  runs_read (fun _ => rfl) (fun _ _ => rfl) hP

theorem runs_refresh (hP : Lasts P) (whose : Option String) :
    Runs requests i P (refreshMaturedPositions whose) fun _ => P := by
  have hset : Runs requests i P (sql (.setMatured whose)) fun _ => P := by
    refine Triple.mono (triple_sql (Q := fun _ => P) (fun _ => rfl) hP fun s o hs hinv _ => ?_)
      (fun _ h => h) (fun _ _ h => h) fun _ _ _ => trivial
    obtain ⟨hinv', hlater⟩ := hinv.mature whose
    exact ⟨hinv', hlater, fun _ _ => hP _ _ hs hlater⟩
  exact Triple.bind (runs_ready hP) fun _ => Triple.ite (fun _ => hset) fun _ =>
    Triple.pure fun _ h => h

theorem runs_summary (hP : Lasts P) (userId : String) :
    Runs requests i P (getInvestmentSummary userId) fun _ => P := by
  refine Triple.bind (runs_refresh hP _) fun _ => ?_
  refine Triple.bind (runs_read (fun _ => rfl) (fun _ _ => rfl) hP) fun pocket => ?_
  have haggregates : Runs requests i P aggregates fun _ => P :=
    Triple.bind (runs_ready hP) fun _ => Triple.ite
      (fun _ => runs_read (fun _ => rfl) (fun _ _ => rfl) hP) fun _ => Triple.pure fun _ h => h
  have hlist : Runs requests i P (listInvestmentPositions userId) fun _ => P :=
    Triple.bind (runs_ready hP) fun _ => Triple.ite
      (fun _ => Triple.bind (runs_refresh hP _) fun _ =>
        runs_read (fun _ => rfl) (fun _ _ => rfl) hP)
      fun _ => Triple.pure fun _ h => h
  exact Triple.bind haggregates fun _ => Triple.bind hlist fun _ => Triple.pure fun _ h => h

theorem runs_referenceOr (hP : Lasts P) (key : Option String) (label : String) :
    Runs requests i P (referenceOr key label) fun _ => P := by
  cases key with
  | some key => exact Triple.pure fun _ h => h
  | none => exact runs_read (fun _ => rfl) (fun _ _ => rfl) hP

/-- The balance of a wallet. -/
theorem runs_balance (hP : Lasts P) (walletId : ℕ) :
    Runs requests i P (ledger (Consumer.sql (.balanceOf walletId))) fun _ => P :=
  (triple_reads lax rfl rfl hP fun _ _ _ hs _ _ _ => hs).mono (fun _ h => h) (fun _ _ h => h)
    fun _ _ _ => trivial

/-! ### Deposits -/

/-- The debit of a deposit: made by it, or found. -/
theorem runs_debit {p : DepositParams} (hp : requests[i]? = some (.depositToInvestment p))
    (reference : String) :
    Runs requests i (fun _ => True) (ledger (debitUsdBalance (p.debit reference)))
      fun _ => Charged p reference := by
  refine Triple.mono (triple_debit lax lasts_true lasts_charged (fun s m _ _ hsought hm => ?_)
    fun _ s A _ hinv _ hstep => ?_) (fun _ h => h) (fun _ _ h => h) fun _ _ _ => trivial
  · obtain ⟨o, hc⟩ := hsought
    have hown : p.FindsOwn (.findMovementByKey (debitKey reference)) s := by
      have hc' : Careful requests i (.inner (.findMovementByKey (debitKey reference))) (.ok o) s :=
        hc
      unfold Careful at hc'
      rwa [hp] at hc'
    have hkey : m.idempotencyKey = (p.debit reference).idempotencyKey := by
      simpa using List.find?_some hm
    rcases hown m hm with hmakes | ⟨q, hq, href⟩
    · exact .inl ⟨m, List.mem_of_find?_eq_some hm, hmakes, hkey⟩
    · exact .inr ⟨q, hq, debitKey_inj.mp href⟩
  · obtain ⟨usd, hmoves⟩ := hstep.movements
    obtain ⟨hinv', hlater⟩ := hinv.record (A := A) fun m hm => hmoves ▸ List.mem_cons_of_mem _ hm
    exact ⟨hinv', fun _ _ => hlater, .inl ⟨_, hmoves ▸ List.mem_cons_self, ⟨rfl, rfl, rfl⟩, rfl⟩⟩

/-- The transaction of a deposit. -/
theorem Tables.depositTx_cases (T : Tables) (d : NewPosition) :
    (∃ e, T.depositTx d = (.error e, T)) ∨
      (T.depositTx d = (.ok T.positions.length, T.opened d) ∧
        ∀ q ∈ T.positions, q.depositReference ≠ d.reference) := by
  unfold Tables.depositTx
  dsimp only
  split_ifs with hfits hcheck hdup hrange
  · exact .inl ⟨_, rfl⟩
  · exact .inl ⟨_, rfl⟩
  · exact .inl ⟨_, rfl⟩
  · exact .inl ⟨_, rfl⟩
  · refine .inr ⟨rfl, fun q hq href => hdup (List.any_eq_true.mpr ⟨q, hq, ?_⟩)⟩
    simp [href]

/-- The position of a deposit that is charged. -/
theorem runs_depositTx (p : DepositParams) (apyPercent : ℚ) (maturesAt : ℕ) (reference : String) :
    Runs requests i (Charged p reference)
      (sql (.depositTx (p.position apyPercent maturesAt reference))) fun _ _ => True := by
  set d := p.position apyPercent maturesAt reference
  refine Triple.mono (triple_sql (Q := fun _ _ => True) (fun _ => rfl) lasts_charged
    fun s o hs hinv _ => ?_) (fun _ h => h) (fun _ _ h => h) fun _ _ _ => trivial
  have hact : (InvestmentSql.depositTx d).act o s =
      ((s.2.depositTx d).1, s.1, (s.2.depositTx d).2) := rfl
  rw [hact]
  rcases s.2.depositTx_cases d with ⟨e, he⟩ | ⟨he, hfresh⟩
  · rw [he]
    exact ⟨hinv, .refl s, fun _ _ => trivial⟩
  · rw [he]
    rcases hs with ⟨m, hm, ⟨hdirection, hmuser, hmamount⟩, hkey⟩ | ⟨q, hq, href⟩
    · have hbacks : Backs m (s.2.newPosition d) :=
        ⟨hdirection, hkey, hmuser, hmamount⟩
      obtain ⟨hinv', hlater⟩ := hinv.insert hfresh hm hbacks
      exact ⟨hinv', hlater, fun _ _ => trivial⟩
    · exact absurd href (hfresh q hq)

/-- A deposit under its reference. -/
theorem runs_depositUnder {p : DepositParams} (hp : requests[i]? = some (.depositToInvestment p))
    (apyPercent : ℚ) (reference : String) :
    Runs requests i (fun _ => True) (depositUnder p apyPercent reference) fun _ _ => True := by
  refine Triple.bind (runs_read (fun _ => rfl) (fun _ _ => rfl) lasts_true) fun found => ?_
  cases found with
  | some positionId =>
      refine Triple.bind (runs_summary lasts_true _) fun summary => ?_
      cases summary.2.find? (·.id = positionId) with
      | some row => exact Triple.pure fun _ h => h
      | none =>
          exact Triple.bind (runs_read (fun _ => rfl) (fun _ _ => rfl) lasts_true) fun _ =>
            Triple.pure fun _ h => h
  | none =>
      refine Triple.bind (runs_debit hp reference) fun _ => ?_
      have hrecord : Runs requests i (Charged p reference)
          (tryCatch (sql .recordWalletActivity) fun _ => pure ())
          fun _ => Charged p reference :=
        Triple.tryCatch (triple_read (fun _ => rfl) (fun _ _ => rfl) lasts_charged
          fun _ _ _ hs _ => hs) fun _ => Triple.pure fun _ h => h
      refine Triple.bind hrecord fun _ => ?_
      refine Triple.bind (runs_read (fun _ => rfl) (fun _ _ => rfl) lasts_charged) fun now => ?_
      refine Triple.bind (runs_depositTx p _ _ reference) fun positionId => ?_
      exact Triple.bind (runs_summary lasts_true _) fun _ => Triple.pure fun _ h => h

/-- The limits of a deposit. -/
theorem runs_checkLimits (p : DepositParams) :
    Runs requests i (fun _ => True) (checkLimits p) fun _ _ => True := by
  have hlocked : ∀ whose, Runs requests i (fun _ => True) (lockedPrincipalUsd whose)
      fun _ _ => True := fun whose =>
    Triple.bind (runs_ready lasts_true) fun _ => Triple.ite
      (fun _ => Triple.bind (runs_read (fun _ => rfl) (fun _ _ => rfl) lasts_true) fun _ =>
        Triple.pure fun _ h => h)
      fun _ => Triple.pure fun _ h => h
  refine Triple.bind (hlocked _) fun _ => Triple.bind (hlocked _) fun _ => ?_
  refine Triple.bind (runs_read (fun _ => rfl) (fun _ _ => rfl) lasts_true) fun _ => ?_
  exact Triple.ite (fun _ => Triple.throw fun _ h => h) fun _ =>
    Triple.ite (fun _ => Triple.throw fun _ h => h) fun _ => Triple.pure fun _ h => h

/-- A deposit runs under the discipline. -/
theorem runs_deposit {p : DepositParams} (hp : requests[i]? = some (.depositToInvestment p)) :
    Runs requests i (fun _ => True) (depositToInvestment p) fun _ _ => True := by
  refine Triple.bind (runs_ready lasts_true) fun _ => Triple.ite (fun _ => ?_)
    fun _ => Triple.throw fun _ h => h
  cases findPlanByLockDays p.lockDays with
  | none => exact Triple.throw fun _ h => h
  | some tier =>
      refine Triple.ite (fun _ => Triple.throw fun _ h => h) fun _ => ?_
      refine Triple.ite (fun _ => Triple.throw fun _ h => h) fun _ => ?_
      refine Triple.bind (runs_read (fun _ => rfl) (fun _ _ => rfl) lasts_true) fun _ => ?_
      refine Triple.ite (fun _ => Triple.throw fun _ h => h) fun _ => ?_
      refine Triple.bind (runs_checkLimits p) fun _ => ?_
      exact Triple.bind (runs_referenceOr lasts_true _ _) fun reference =>
        runs_depositUnder hp _ reference

/-! ### Claims -/

/-- The transaction of a claim. -/
theorem Payout.tx_cases (c : Payout) (s : Store) :
    (∃ e, c.tx s = (.error e, s)) ∨
      ∃ pocket A, c.tx s = (.ok (), A, s.2.paid c pocket) ∧ c.Covered s ∧
        s.2.pockets c.userId = some pocket ∧ ∀ m ∈ s.1.movements, m ∈ A.movements := by
  unfold Payout.tx
  cases hpocket : s.2.pockets c.userId with
  | none => exact .inl ⟨_, rfl⟩
  | some pocket =>
      dsimp only
      by_cases hless : pocket.balance < c.principal
      · rw [if_pos hless]
        exact .inl ⟨_, rfl⟩
      rw [if_neg hless]
      by_cases hrange : centsLimit ≤
          |pocket.totalWithdrawn + cents (Binary64.toDecimal c.totalPaid)|
      · rw [if_pos hrange]
        exact .inl ⟨_, rfl⟩
      rw [if_neg hrange]
      cases s.1.wallets.find? (·.walletId = c.walletId) with
      | none => exact .inl ⟨_, rfl⟩
      | some w =>
          dsimp only
          by_cases hkey : s.2.movements.any (·.idempotencyKey = claimKey c.reference) = true
          · rw [if_pos hkey]
            exact .inl ⟨_, rfl⟩
          rw [if_neg hkey]
          have hcovered : c.Covered s := by
            refine ⟨⟨pocket, hpocket, not_lt.mp hless⟩, fun m hm hmkey => hkey ?_⟩
            exact List.any_eq_true.mpr ⟨m, hm, by simpa using hmkey⟩
          by_cases hfits : s.1.Fits (cents (decimal w.balance + c.credit.amount))
              (c.credit.movement .credit primaryCurrency c.credit.usdEquivalent s.1.nextId)
          · rw [Accounts.record_of_fits hfits]
            exact .inr ⟨pocket, _, rfl, hcovered, rfl, fun m hm => List.mem_cons_of_mem _ hm⟩
          · obtain ⟨e, he⟩ := Accounts.record_of_not_fits hfits
            rw [he]
            exact .inl ⟨_, rfl⟩

/-- The payout of a position that is due. -/
theorem runs_claimTx (c : Payout) :
    Runs requests i (Due c) (sql (.claimTx c)) fun _ _ => True := by
  refine Triple.mono (triple_sql (Q := fun _ _ => True) (fun _ => rfl) lasts_due
    fun s o hs hinv hunclaimed => ?_) (fun _ h => h) (fun _ _ h => h) fun _ _ _ => trivial
  have hact : (InvestmentSql.claimTx c).act o s = c.tx s := rfl
  rw [hact]
  rcases c.tx_cases s with ⟨e, he⟩ | ⟨pocket, A, he, hcovered, hpocket, hA⟩
  · rw [he]
    exact ⟨hinv, .refl s, fun _ _ => trivial⟩
  · rw [he]
    obtain ⟨hinv', hlater⟩ := hinv.pay hs (hunclaimed hcovered) hpocket hA
    exact ⟨hinv', hlater, fun _ _ => trivial⟩

/-- A position of a user, as it was read. -/
def Reads (p : ClaimParams) (row : Position) (s : Store) : Prop :=
  row.id = p.positionId ∧ row.userId = p.userId ∧ ∃ q ∈ s.2.positions, row.Continues q

theorem lasts_reads {p : ClaimParams} {row : Position} : Lasts (Reads p row) := by
  rintro s t ⟨hid, huser, q, hq, hcontinues⟩ hlater
  obtain ⟨r, hr, hqr⟩ := hlater.positions q hq
  exact ⟨hid, huser, r, hr, hcontinues.trans hqr⟩

/-- From the position on. -/
theorem runs_payOut (p : ClaimParams) (reference : String) (row : Position) :
    Runs requests i (Reads p row) (payOut p reference row) fun _ _ => True := by
  refine Triple.ite (fun _ => Triple.throw fun _ _ => trivial) fun _ => ?_
  have hnow : Runs requests i (Reads p row) (sql .now)
      fun now s => Reads p row s ∧ now ≤ s.2.time :=
    Triple.mono (triple_read (Q := fun now s => Reads p row s ∧ now ≤ s.2.time) (fun _ => rfl)
      (fun _ _ => rfl) lasts_reads fun s o b hs hb => ⟨hs, (Except.ok.inj hb).ge⟩)
      (fun _ h => h) (fun _ _ h => h) fun _ _ _ => trivial
  refine Triple.bind hnow fun now => ?_
  refine Triple.ite (fun _ => Triple.throw fun _ _ => trivial) fun hmatured => ?_
  refine Triple.bind ((runs_claimTx (p.payout row reference)).mono (fun s hs => ?_)
    (fun _ _ h => h) fun _ _ h => h) fun _ => Triple.bind (runs_balance lasts_true _) fun _ =>
      Triple.pure fun _ h => h
  obtain ⟨⟨hid, huser, q, hq, hrow⟩, htime⟩ := hs
  exact ⟨q, hq, hrow.id.trans hid, hrow.user.trans huser, hrow.principal,
    hrow.matures.le.trans ((not_lt.mp hmatured).trans htime)⟩

/-- A claim runs under the discipline. -/
theorem runs_claim (p : ClaimParams) :
    Runs requests i (fun _ => True) (claimInvestmentPosition p) fun _ _ => True := by
  refine Triple.bind (runs_refresh lasts_true _) fun _ => ?_
  refine Triple.bind (runs_referenceOr lasts_true _ _) fun reference => ?_
  refine Triple.bind (runs_read (fun _ => rfl) (fun _ _ => rfl) lasts_true) fun _ => ?_
  refine Triple.ite (fun _ => Triple.bind (runs_balance lasts_true _) fun _ =>
    Triple.pure fun _ h => h) fun _ => ?_
  have hread : Runs requests i (fun _ => True) (sql (.positionOf p.positionId p.userId))
      fun found s => ∀ row ∈ found, Reads p row s := by
    refine Triple.mono (triple_read (Q := fun found s => ∀ row ∈ found, Reads p row s)
      (fun _ => rfl) (fun _ _ => rfl) lasts_true fun s o b _ hb row hrow => ?_)
      (fun _ h => h) (fun _ _ h => h) fun _ _ _ => trivial
    rw [← Except.ok.inj hb] at hrow
    have hfound := List.find?_some hrow
    simp only [Bool.and_eq_true, decide_eq_true_eq] at hfound
    exact ⟨hfound.1, hfound.2, row, List.mem_of_find?_eq_some hrow, .refl row⟩
  refine Triple.bind hread fun found => ?_
  cases found with
  | none => exact Triple.throw fun _ _ => trivial
  | some row =>
      exact (runs_payOut p reference row).mono (fun _ h => h row rfl) (fun _ _ h => h)
        fun _ _ h => h

/-- A request runs under the discipline. -/
theorem runs_call {r : Request} (hr : requests[i]? = some r) :
    Runs requests i (fun _ => True) r.call fun _ _ => True := by
  cases r with
  | acceptInvestmentRisk userId =>
      refine Triple.mono (triple_sql (Q := fun _ _ => True) (fun _ => rfl) lasts_true
        fun s o _ hinv _ => ?_) (fun _ h => h) (fun _ _ h => h) fun _ _ _ => trivial
      obtain ⟨hinv', hlater⟩ := hinv.accept userId
      exact ⟨hinv', hlater, fun _ _ => trivial⟩
  | depositToInvestment p => exact Triple.bind (runs_deposit hr) fun _ => Triple.pure fun _ h => h
  | claimInvestmentPosition p => exact Triple.bind (runs_claim p) fun _ => Triple.pure fun _ h => h
  | refreshMaturedPositions whose => exact runs_refresh lasts_true whose

end investments

/-! ### Every run -/

/-- Nothing is invested yet. -/
theorem InvestmentInv.empty (A : Accounts) : InvestmentInv (A, {}) :=
  ⟨fun _ h => (by cases h), List.nodup_nil, List.nodup_nil, fun _ h => (by cases h),
    fun _ h => (by cases h), List.nodup_nil, fun _ => rfl⟩

/-- A wallet of ten dollars. -/
def adasAccounts : Accounts where
  wallets := [{ walletId := 1, userId := "ada", currency := "USD", balance := 1000 }]

/-- A dollar is locked for a month. -/
def lockDollar (key : String) : Request :=
  .depositToInvestment ⟨"ada", 1, 1, 30, "rent", some key⟩

/-- The first position is claimed. -/
def claimFirst (key : String) : Request := .claimInvestmentPosition ⟨"ada", 1, 0, some key⟩

/-- The turns of a request. -/
def turns (i n : ℕ) : List (ℕ × Except InvestmentError Outside) := List.replicate n (i, .ok {})

/-- Two dollars are locked, and then claimed. -/
def lockTwo : List Request :=
  [.acceptInvestmentRisk "ada", lockDollar "a", lockDollar "b", claimFirst "c", claimFirst "d"]

/-- The deposits take their turns, a month passes, and the claims take theirs. -/
def monthLater (claims : List (ℕ × Except InvestmentError Outside)) :
    List (ℕ × Except InvestmentError Outside) :=
  turns 0 1 ++ turns 1 27 ++ turns 2 27 ++ [(3, .ok { elapsed := 30 * day })] ++ claims

def afterClaims (claims : List (ℕ × Except InvestmentError Outside)) : Store :=
  ((begun adasAccounts lockTwo).run server.machine (monthLater claims)).store

/-- Their pocket is empty then, while the other position is still locked. -/
example :
    (afterClaims (turns 3 4 ++ turns 4 5 ++ turns 3 2 ++ turns 4 2)).2.balance "ada" = 0 ∧
      (afterClaims (turns 3 4 ++ turns 4 5 ++ turns 3 2 ++ turns 4 2)).2.locked "ada" = 100 := by
  decide +kernel

end DayfiBackend.Consumer.Investments
