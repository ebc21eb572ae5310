import DayfiBackend.Flow.Flows

/-!
# What has happened to the flows

The record beside a run of the flows: the rows as each call has read them, the payments whose run
has not written its flow since, and the credits whose call has not. `triple_flow` is the rule of a
statement beside the record, under a discipline in which calls count on their own part of it.
-/

namespace DayfiBackend.Flow

open DayfiBackend.Found DayfiBackend.Found.Prog
open DayfiBackend.Consumer (decimal cents)

/-- A credit whose call has not written the flow since; and whether a payment has followed it. -/
structure OpenCredit where
  caller : ℕ
  flowId : String
  amount : ℤ
  paid : Bool
  deriving DecidableEq, Repr

/-- A payment whose run has not written the flow since. -/
structure OpenPayment where
  caller : ℕ
  payment : SchedulePayment
  deriving DecidableEq, Repr

/-- The record. -/
structure Record where
  rows : ℕ → List FlowRow := fun _ => []
  payments : List OpenPayment := []
  credits : List OpenCredit := []

/-- The credits of a call for a flow are paid. -/
def OpenCredit.pay (i : ℕ) (flowId : String) (c : OpenCredit) : OpenCredit :=
  if c.caller = i && c.flowId = flowId then { c with paid := true } else c

/-- What the record is after a statement. -/
def FlowSql.record {β : Type} (st : FlowSql β) (i : ℕ) (o : Outside) (b : β) (R : Record) :
    Record :=
  match st, b with
  | .dueFlows _, .ok rows => { R with rows := Function.update R.rows i rows }
  | .flowForUser .., .ok row => { R with rows := Function.update R.rows i row.toList }
  | .pay p, .ok _ =>
      { R with
        payments := if o.moves then ⟨i, p⟩ :: R.payments else R.payments
        credits := R.credits.map (OpenCredit.pay i p.flowId) }
  | .pay p, .error _ =>
      { R with payments := if o.moves then ⟨i, p⟩ :: R.payments else R.payments }
  | .credit p, .ok _ => { R with credits := ⟨i, p.flowId, cents p.amount, false⟩ :: R.credits }
  | .saveRun id _ _ _, .ok _ =>
      { R with
        payments := R.payments.filter fun x => !(x.caller = i && x.payment.flowId = id)
        credits := R.credits.filter fun c => !(c.caller = i && c.flowId = id) }
  | .setCancelled _ id _, .ok _ =>
      { R with credits := R.credits.filter fun c => !(c.caller = i && c.flowId = id) }
  | _, _ => R

/-- What has happened is recorded. -/
def recording {β : Type} (i : ℕ) (st : FlowSql β) (o : Except FlowError Outside) (_ : Tables)
    (b : β) (_ : Tables) (R : Record) : Record :=
  match o with
  | .ok o => st.record i o b R
  | .error _ => R

/-- The tables, and the record. -/
abbrev Watched := Tables × Record

/-- The statements over the tables, beside the record. -/
def watchedFlows : Machine FlowSql (Except FlowError Outside) Watched := flows.keeping recording

/-- The requests beside an empty record. -/
def watched (C : Calendar) (T : Tables) (requests : List Request) :
    Pool FlowSql Outcome Watched := (begun C T requests).beside {}

/-- The row of a flow is as a call has read it. -/
def Watched.AsRead (i : ℕ) (id : String) (s : Watched) : Prop :=
  ∀ r ∈ s.2.rows i, r.id = id → r ∈ s.1.flows

instance (i : ℕ) (id : String) (s : Watched) : Decidable (Watched.AsRead i id s) := by
  unfold Watched.AsRead
  infer_instance

/-! ### What a call counts on -/

/-- What a call may count on: its part of the record is its own, and time does not go back. -/
structure Counts (i : ℕ) (s t : Watched) : Prop where
  rows : t.2.rows i = s.2.rows i
  payments : t.2.payments.filter (·.caller = i) = s.2.payments.filter (·.caller = i)
  credits : t.2.credits.filter (·.caller = i) = s.2.credits.filter (·.caller = i)
  time : s.1.time ≤ t.1.time

/-- What is known stays so while the others step. -/
def Stays (i : ℕ) (P : Watched → Prop) : Prop := ∀ s t, P s → Counts i s t → P t

section watch

variable {i j : ℕ} {s t u : Watched} {T : Tables} {R : Record} {α : Type}

theorem Counts.refl (i : ℕ) (s : Watched) : Counts i s s := ⟨rfl, rfl, rfl, le_rfl⟩

theorem Counts.trans (h : Counts i s t) (h' : Counts i t u) : Counts i s u :=
  ⟨h'.rows.trans h.rows, h'.payments.trans h.payments, h'.credits.trans h.credits,
    h.time.trans h'.time⟩

theorem stays_true : Stays i fun _ => True := fun _ _ _ _ => trivial

theorem Stays.and {P P' : Watched → Prop} (h : Stays i P) (h' : Stays i P') :
    Stays i fun s => P s ∧ P' s := fun s t hs hst => ⟨h s t hs.1 hst, h' s t hs.2 hst⟩

/-- No statement turns the time back. -/
theorem FlowSql.time_act {β : Type} (st : FlowSql β) (o : Outside) (T : Tables) :
    (st.act o T).2.time = T.time := by
  cases st with
  | credit p =>
      unfold act
      dsimp only
      split_ifs <;> rfl
  | pay p =>
      unfold act
      dsimp only
      split_ifs <;> rfl
  | setCancelled userId id release =>
      unfold act
      dsimp only
      split <;> rfl
  | saveSchedules userId id schedules nextRunAt =>
      unfold act
      dsimp only
      split <;> rfl
  | _ => rfl

theorem filter_others {α : Type} {p q : α → Bool} (l : List α) (h : ∀ x, p x = true → q x = true) :
    (l.filter q).filter p = l.filter p := by
  rw [List.filter_filter]
  refine List.filter_congr fun x _ => ?_
  cases hp : p x with
  | false => rfl
  | true => rw [h x hp]; rfl

theorem filter_pay (hj : j ≠ i) (flowId : String) (credits : List OpenCredit) :
    (credits.map (OpenCredit.pay i flowId)).filter (·.caller = j) =
      credits.filter (·.caller = j) := by
  induction credits with
  | nil => rfl
  | cons c cs ih =>
      by_cases hc : c.caller = j
      · have hi : c.caller ≠ i := fun he => hj (hc.symm.trans he)
        have hpay : OpenCredit.pay i flowId c = c := by simp [OpenCredit.pay, hi]
        rw [List.map_cons, hpay, List.filter_cons, List.filter_cons, ih]
      · have hpay : (OpenCredit.pay i flowId c).caller ≠ j := by
          unfold OpenCredit.pay
          split_ifs <;> exact hc
        simp [hc, hpay, ih]

/-- A statement leaves to the others what is theirs. -/
theorem FlowSql.counts_record {β : Type} (st : FlowSql β) (o : Outside) (b : β) (hj : j ≠ i)
    {T' : Tables} (htime : T.time ≤ T'.time) : Counts j (T, R) (T', st.record i o b R) := by
  have hsave : ∀ (id : String) (c : OpenCredit), decide (c.caller = j) = true →
      (!(decide (c.caller = i) && decide (c.flowId = id))) = true := by
    intro id c hc
    have hne : c.caller ≠ i := fun he => hj ((of_decide_eq_true hc).symm.trans he)
    simp [hne]
  have hsave' : ∀ (id : String) (x : OpenPayment), decide (x.caller = j) = true →
      (!(decide (x.caller = i) && decide (x.payment.flowId = id))) = true := by
    intro id x hx
    have hne : x.caller ≠ i := fun he => hj ((of_decide_eq_true hx).symm.trans he)
    simp [hne]
  have hpaid : ∀ p : SchedulePayment,
      (if o.moves then (⟨i, p⟩ : OpenPayment) :: R.payments else R.payments).filter
        (·.caller = j) = R.payments.filter (·.caller = j) := by
    intro p
    split_ifs
    · rw [List.filter_cons_of_neg (by simpa using hj.symm)]
    · rfl
  cases st with
  | dueFlows userId =>
      cases b with
      | error e => exact ⟨rfl, rfl, rfl, htime⟩
      | ok rows => exact ⟨Function.update_of_ne hj .., rfl, rfl, htime⟩
  | flowForUser userId id =>
      cases b with
      | error e => exact ⟨rfl, rfl, rfl, htime⟩
      | ok row => exact ⟨Function.update_of_ne hj .., rfl, rfl, htime⟩
  | pay p =>
      cases b with
      | error e => exact ⟨rfl, hpaid p, rfl, htime⟩
      | ok x => exact ⟨rfl, hpaid p, filter_pay hj p.flowId R.credits, htime⟩
  | credit p =>
      cases b with
      | error e => exact ⟨rfl, rfl, rfl, htime⟩
      | ok x => exact ⟨rfl, rfl, List.filter_cons_of_neg (by simpa using hj.symm), htime⟩
  | saveRun id schedules spent nextRunAt =>
      cases b with
      | error e => exact ⟨rfl, rfl, rfl, htime⟩
      | ok x => exact ⟨rfl, filter_others _ (hsave' id), filter_others _ (hsave id), htime⟩
  | setCancelled userId id release =>
      cases b with
      | error e => exact ⟨rfl, rfl, rfl, htime⟩
      | ok x => exact ⟨rfl, rfl, filter_others _ (hsave id), htime⟩
  | _ => exact ⟨rfl, rfl, rfl, htime⟩

/-- What a step does: it fails and leaves everything, or it runs once some time has passed. -/
theorem watched_cases {β : Type} {st : FlowSql β} {o : Except FlowError Outside} {b : β}
    (h : watchedFlows.exec i st o s = some (b, t)) :
    (∃ e, o = .error e ∧ st.may (.error e) = true ∧ b = st.fail e ∧ t = s) ∨
      ∃ o', o = .ok o' ∧ b = (st.act o' (s.1.tick o'.elapsed)).1 ∧
        t = ((st.act o' (s.1.tick o'.elapsed)).2,
          st.record i o' (st.act o' (s.1.tick o'.elapsed)).1 s.2) := by
  obtain ⟨hexec, hrecord⟩ := Machine.keeping_exec h
  obtain ⟨hmay, hexec⟩ := Machine.guarded_exec hexec
  rcases Backend.exec_cases hexec with ⟨e, rfl, rfl, ht⟩ | ⟨o, rfl, rfl, ht⟩
  · exact .inl ⟨e, rfl, hmay, rfl, Prod.ext ht hrecord⟩
  · exact .inr ⟨o, rfl, rfl, Prod.ext ht hrecord⟩

/-- The others may count on what they know, whatever a call does. -/
theorem watched_counts {β : Type} {st : FlowSql β} {o : Except FlowError Outside} {b : β}
    (h : watchedFlows.exec i st o s = some (b, t)) (hj : j ≠ i) : Counts j s t := by
  rcases watched_cases h with ⟨e, -, -, -, rfl⟩ | ⟨o, -, -, rfl⟩
  · exact .refl j t
  · refine st.counts_record o _ hj ?_
    rw [FlowSql.time_act]
    exact Nat.le_add_right _ _

/-! ### What a call has read -/

/-- A statement that reads no flows. -/
def FlowSql.Blind {β : Type} : FlowSql β → Prop
  | .dueFlows _ | .flowForUser .. => False
  | _ => True

theorem FlowSql.Blind.record_rows {β : Type} {st : FlowSql β} (h : st.Blind) (o : Outside) (b : β)
    (R : Record) : (st.record i o b R).rows = R.rows := by
  cases st with
  | dueFlows userId => exact h.elim
  | flowForUser userId id => exact h.elim
  | pay p => cases b <;> rfl
  | credit p => cases b <;> rfl
  | saveRun id schedules spent nextRunAt => cases b <;> rfl
  | setCancelled userId id release => cases b <;> rfl
  | _ => rfl

/-- The flows that a call has read. -/
def Reads (i : ℕ) (rows : List FlowRow) (s : Watched) : Prop := s.2.rows i = rows

theorem stays_reads (i : ℕ) (rows : List FlowRow) : Stays i (Reads i rows) :=
  fun _ _ hs h => h.rows.trans hs

theorem dueFlows_active {userId : String} {flow : FlowRow} (h : flow ∈ T.dueFlows userId) :
    flow.status = .active := by
  obtain ⟨-, hdue⟩ := List.mem_filter.mp ((List.mem_insertionSort _).mp h)
  simp only [Tables.isDue, Bool.and_eq_true, decide_eq_true_eq] at hdue
  exact hdue.2.1

theorem only_sql {φ : {β : Type} → FlowSql β → Prop} {st : FlowSql (Ans α)} (h : φ st) :
    OnlyE φ (sql st) := by
  unfold OnlyE
  exact ⟨h, fun _ => trivial⟩

/-! ### The rule of a statement -/

/-- A discipline of the flows. -/
def flowDiscipline (inv : Tables → Record → Prop)
    (cond : {β : Type} → ℕ → FlowSql β → Except FlowError Outside → Watched → Prop)
    (good : {β : Type} → ℕ → FlowSql β → Except FlowError Outside → Watched → β → Watched → Prop) :
    Discipline FlowSql (Except FlowError Outside) Watched where
  inv s := inv s.1 s.2
  rely := Counts
  cond := cond
  good := good
  rely_refl := Counts.refl
  rely_trans _ _ _ _ := Counts.trans

variable {inv : Tables → Record → Prop}
  {cond : {β : Type} → ℕ → FlowSql β → Except FlowError Outside → Watched → Prop}
  {good : {β : Type} → ℕ → FlowSql β → Except FlowError Outside → Watched → β → Watched → Prop}

/-- The rule of a statement. -/
theorem triple_flow {st : FlowSql (Ans α)} {P : Watched → Prop} {Q : α → Watched → Prop}
    {E : FlowError → Watched → Prop} (hst : ∀ e, st.fail e = .error e) (hP : Stays i P)
    (hfail : ∀ s e, P s → st.may (.error e) = true → cond i st (.error e) s →
      good i st (.error e) s (.error e) s ∧ E e s)
    (hrun : ∀ T R o, P (T.tick o.elapsed, R) → inv T R → cond i st (.ok o) (T, R) →
      let b := (st.act o (T.tick o.elapsed)).1
      let t : Watched := ((st.act o (T.tick o.elapsed)).2, st.record i o b R)
      good i st (.ok o) (T, R) b t ∧ inv t.1 t.2 ∧ match b with
        | .ok b => Q b t
        | .error e => E e t) :
    Triple watchedFlows (flowDiscipline inv cond good) i P (sql st) Q E := by
  refine Triple.perform hP fun s hs hinv o hc r t he => ?_
  have hcounts : ∀ j, j ≠ i → Counts j s t := fun j hj => watched_counts he hj
  rcases watched_cases he with ⟨e, rfl, hmay, rfl, rfl⟩ | ⟨o, rfl, rfl, rfl⟩
  · obtain ⟨hgood, hE⟩ := hfail t e hs hmay hc
    rw [hst]
    exact ⟨hgood, hinv, hcounts, hE⟩
  · have hticked : Counts i s (s.1.tick o.elapsed, s.2) :=
      ⟨rfl, rfl, rfl, Nat.le_add_right _ _⟩
    obtain ⟨hgood, hinv', hans⟩ := hrun s.1 s.2 o (hP _ _ hs hticked) hinv hc
    refine ⟨hgood, hinv', hcounts, ?_⟩
    cases hb : (st.act o (s.1.tick o.elapsed)).1 with
    | error e =>
        rw [hb] at hans
        exact hans
    | ok b =>
        rw [hb] at hans
        exact hans

end watch

end DayfiBackend.Flow
