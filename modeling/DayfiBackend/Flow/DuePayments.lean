import DayfiBackend.Flow.Watch

/-!
# Due payments are made once

A schedule is due at its `nextRunAt`, and a run that pays it writes the next one back when it is
done with the flow. `PaidOnce` says that no schedule is paid twice for the time it was due at, and
that what is written to a flow is never older than a payment already made. Nothing keeps two runs
from reading the same row, nor an edit from writing back what it has read before a payment;
`due_payments_are_made_once` is the result for the runs in which nobody else has a hand in a flow
between a payment and the write after it.
-/

namespace DayfiBackend.Flow

open DayfiBackend.Found DayfiBackend.Found.Prog

/-! ### The property -/

/-- What a payment is of: a schedule, and the time it was due at. -/
def SchedulePayment.occurrence (p : SchedulePayment) : String × ℕ × ℕ :=
  (p.flowId, p.index, p.dueAt)

/-- The schedules of a flow are not older than a payment: it is counted, and the schedule is next
due later, if at all. -/
def Covers (schedules : List Schedule) (p : SchedulePayment) : Prop :=
  ∃ s ∈ schedules[p.index]?, p.runs < s.runs ∧ ∀ n ∈ s.nextRunAt, p.dueAt < n

instance (schedules : List Schedule) (p : SchedulePayment) : Decidable (Covers schedules p) := by
  unfold Covers
  infer_instance

/-- What is written to a flow is not older than the payments of its schedules. -/
def FlowSql.KeepsPaid {β : Type} (st : FlowSql β) (T : Tables) : Prop :=
  match st with
  | .saveRun id schedules _ _ => ∀ p ∈ T.paid, p.flowId = id → Covers schedules p
  | .saveSchedules _ id schedules _ => ∀ p ∈ T.paid, p.flowId = id → Covers schedules p
  | _ => True

/-- A step writes nothing that is older. -/
def KeepsPaid {β : Type} (st : FlowSql β) (o : Except FlowError Outside) (T : Tables) : Prop :=
  match o with
  | .ok _ => st.KeepsPaid T
  | .error _ => True

/-- Due payments are made once, in every state and at every step of a run. -/
structure PaidOnce (C : Calendar) (T : Tables) (requests : List Request)
    (sched : List (ℕ × Except FlowError Outside)) : Prop where
  once : (((begun C T requests).run flows sched).store.paid.map (·.occurrence)).Nodup
  kept : Pool.Along flows (Pool.GoodAt flows fun _ st o T _ _ => KeepsPaid st o T)
    (begun C T requests) sched

/-! ### The condition -/

/-- A call is alone with a flow: the row is as it has read it, and no other call has a payment to
write. -/
def Watched.Alone (i : ℕ) (id : String) (s : Watched) : Prop :=
  s.AsRead i id ∧ ∀ x ∈ s.2.payments, x.payment.flowId = id → x.caller = i

instance (i : ℕ) (id : String) (s : Watched) : Decidable (s.Alone i id) := by
  unfold Watched.Alone
  infer_instance

/-- The condition on the steps of a run: a call is alone with a flow when it pays from it or writes
its schedules, and a payment that throws has not moved money. -/
def PaysAlone {β : Type} (i : ℕ) (st : FlowSql β) (o : Except FlowError Outside) (s : Watched) :
    Prop :=
  match st, o with
  | .pay p, .ok o => s.Alone i p.flowId ∧ (o.answer.isOk = false → o.moves = false)
  | .saveRun id _ _ _, .ok _ => s.Alone i id
  | .saveSchedules _ id _ _, .ok _ => s.Alone i id
  | _, _ => True

instance {β : Type} (i : ℕ) (st : FlowSql β) (o : Except FlowError Outside) (s : Watched) :
    Decidable (PaysAlone i st o s) := by
  unfold PaysAlone
  split <;> infer_instance

/-! ### The invariant -/

/-- What holds at every step: no occurrence is paid twice, and every payment is still to be written
by its run, or covered by its row. -/
structure DueInv (T : Tables) (R : Record) : Prop where
  once : (T.paid.map (·.occurrence)).Nodup
  covered : ∀ p ∈ T.paid, (∃ x ∈ R.payments, x.payment = p) ∨
    ∃ r ∈ T.flows, r.id = p.flowId ∧ Covers r.schedules p

/-- The discipline of due payments. -/
def dueDiscipline : Discipline FlowSql (Except FlowError Outside) Watched :=
  flowDiscipline DueInv PaysAlone fun _ st o s _ _ => KeepsPaid st o s.1

/-- What a call knows: the rows it has read, and what its payments still to be written are like. -/
structure Known (i : ℕ) (rows : List FlowRow) (φ : SchedulePayment → Prop) (s : Watched) :
    Prop where
  reads : s.2.rows i = rows
  payments : ∀ x ∈ s.2.payments, x.caller = i → φ x.payment

/-- A schedule later on: no fewer runs, and next due no earlier, if at all. -/
structure Schedule.Later (s s' : Schedule) : Prop where
  runs : s.runs ≤ s'.runs
  nextRunAt : ∀ n' ∈ s'.nextRunAt, ∃ n ∈ s.nextRunAt, n ≤ n'

section due

variable {C : Calendar} {i : ℕ} {s t : Watched} {T T' : Tables} {R : Record} {rows : List FlowRow}
  {φ ψ : SchedulePayment → Prop} {α : Type} {schedules schedules' : List Schedule}
  {p : SchedulePayment}

theorem Schedule.Later.refl (s : Schedule) : s.Later s := ⟨le_rfl, fun n hn => ⟨n, hn, le_rfl⟩⟩

theorem lt_of_computeNextRunAt {frequency : BudgetFrequency} {now n : ℕ}
    (h : n ∈ computeNextRunAt C frequency now) : now < n := by
  cases frequency with
  | once => cases h
  | weekly =>
      obtain rfl := Option.some.inj h
      exact C.lt_addDays 7 now (by norm_num)
  | biweekly =>
      obtain rfl := Option.some.inj h
      exact C.lt_addDays 14 now (by norm_num)
  | monthly =>
      obtain rfl := Option.some.inj h
      exact C.lt_addMonth now

/-- A schedule that was due and is paid is later than the payment. -/
theorem Schedule.later_succeeded {s : Schedule} {dueAt now : ℕ} (hdue : s.nextRunAt = some dueAt)
    (hnow : dueAt ≤ now) : s.Later (s.succeeded C now) := by
  refine ⟨Nat.le_succ _, fun n' hn' => ⟨dueAt, hdue, ?_⟩⟩
  exact hnow.trans (lt_of_computeNextRunAt hn').le

theorem Schedule.later_failed (s : Schedule) (now : ℕ) (error : String) :
    s.Later (s.failed now error) := ⟨Nat.le_succ _, fun n hn => ⟨n, hn, le_rfl⟩⟩

theorem Schedule.later_patch (s : Schedule) (patch : SchedulePatch) :
    s.Later (mergeSchedulePatch s patch) := ⟨le_rfl, fun n hn => ⟨n, hn, le_rfl⟩⟩

/-- Later schedules cover what the earlier ones cover. -/
theorem Covers.later (h : Covers schedules p)
    (hlater : List.Forall₂ Schedule.Later schedules schedules') : Covers schedules' p := by
  obtain ⟨s, hs, hruns, hnext⟩ := h
  obtain ⟨hlt, hget⟩ := List.getElem?_eq_some_iff.mp hs
  have hlt' : p.index < schedules'.length := hlater.length_eq ▸ hlt
  have hs' : s.Later schedules'[p.index] := by
    rw [← hget]
    exact List.forall₂_iff_get.mp hlater |>.2 p.index hlt hlt'
  refine ⟨schedules'[p.index], List.getElem?_eq_getElem hlt', hruns.trans_le hs'.runs, ?_⟩
  intro n' hn'
  obtain ⟨n, hn, hle⟩ := hs'.nextRunAt n' hn'
  exact (hnext n hn).trans_le hle

theorem Covers.append (h : Covers schedules p) (more : List Schedule) :
    Covers (schedules ++ more) p := by
  obtain ⟨s, hs, hcovers⟩ := h
  refine ⟨s, ?_, hcovers⟩
  have hlt := (List.getElem?_eq_some_iff.mp hs).1
  rw [List.getElem?_append_left hlt]
  exact hs

theorem Known.mono (h : Known i rows φ s) (himp : ∀ p, φ p → ψ p) : Known i rows ψ s :=
  ⟨h.reads, fun x hx hi => himp _ (h.payments x hx hi)⟩

theorem stays_known (i : ℕ) (rows : List FlowRow) (φ : SchedulePayment → Prop) :
    Stays i (Known i rows φ) := by
  intro s t hs h
  refine ⟨h.rows.trans hs.reads, fun x hx hi => ?_⟩
  have hmem : x ∈ s.2.payments.filter (·.caller = i) := by
    rw [← h.payments]
    exact List.mem_filter.mpr ⟨hx, by simpa using hi⟩
  exact hs.payments x (List.mem_filter.mp hmem).1 hi

/-! ### Steps -/

/-- Rows are written, none with older schedules. -/
theorem DueInv.map (h : DueInv T R) {f : FlowRow → FlowRow} {T' : Tables}
    (hflows : T'.flows = T.flows.map f) (hpaid : T'.paid = T.paid) (hid : ∀ r, (f r).id = r.id)
    (hschedules : ∀ r, (f r).schedules = r.schedules) : DueInv T' R := by
  refine ⟨hpaid ▸ h.once, fun p hp => ?_⟩
  rcases h.covered p (hpaid ▸ hp) with hopen | ⟨r, hr, hrid, hcovers⟩
  · exact .inl hopen
  · refine .inr ⟨f r, hflows ▸ List.mem_map_of_mem hr, (hid r).trans hrid, ?_⟩
    rw [hschedules]
    exact hcovers

/-- A payment is made of an occurrence that nothing was paid for. -/
theorem DueInv.pay (h : DueInv T R) {p : SchedulePayment} (i : ℕ)
    (hnew : ∀ p' ∈ T.paid, p'.occurrence ≠ p.occurrence) {R' : Record}
    (hR : R'.payments = ⟨i, p⟩ :: R.payments) : DueInv { T with paid := p :: T.paid } R' := by
  refine ⟨List.nodup_cons.mpr ⟨fun hmem => ?_, h.once⟩, fun p' hp' => ?_⟩
  · obtain ⟨p', hp', he⟩ := List.mem_map.mp hmem
    exact hnew p' hp' he
  · rw [hR]
    rcases List.mem_cons.mp hp' with rfl | hp'
    · exact .inl ⟨⟨i, p'⟩, List.mem_cons_self, rfl⟩
    · rcases h.covered p' hp' with ⟨x, hx, he⟩ | hrow
      · exact .inl ⟨x, List.mem_cons_of_mem _ hx, he⟩
      · exact .inr hrow

/-- The schedules of a flow are written, and they cover all of its payments. -/
theorem DueInv.save (h : DueInv T R) (id : String) (schedules : List Schedule)
    {f : FlowRow → FlowRow} {T' : Tables} {R' : Record} (hflows : T'.flows = T.flows.map f)
    (hpaid : T'.paid = T.paid)
    (hid : ∀ r, (f r).id = r.id) (hothers : ∀ r, r.id ≠ id → f r = r)
    (hrow : ∃ r ∈ T.flows, r.id = id ∧ (f r).schedules = schedules)
    (hcovers : ∀ p ∈ T.paid, p.flowId = id → Covers schedules p)
    (hR : ∀ x ∈ R.payments, x.payment.flowId ≠ id → x ∈ R'.payments) : DueInv T' R' := by
  refine ⟨hpaid ▸ h.once, fun p hp => ?_⟩
  rw [hpaid] at hp
  by_cases hpid : p.flowId = id
  · obtain ⟨r, hr, hrid, hschedules⟩ := hrow
    refine .inr ⟨f r, hflows ▸ List.mem_map_of_mem hr, ?_, ?_⟩
    · rw [hid, hrid, hpid]
    · rw [hschedules]
      exact hcovers p hp hpid
  · rcases h.covered p hp with ⟨x, hx, rfl⟩ | ⟨r, hr, hrid, hcovers⟩
    · exact .inl ⟨x, hR x hx hpid, rfl⟩
    · refine .inr ⟨f r, hflows ▸ List.mem_map_of_mem hr, ?_, ?_⟩
      · exact (hid r).trans hrid
      · rw [hothers r (hrid ▸ hpid)]
        exact hcovers

/-! ### Statements -/

/-- A statement that neither reads nor writes flows, nor pays. -/
def FlowSql.Still {β : Type} : FlowSql β → Prop
  | .dueFlows _ | .flowForUser .. | .pay _ | .saveRun .. | .setCancelled .. => False
  | .saveSchedules .. => False
  | _ => True

theorem FlowSql.Still.act {β : Type} {st : FlowSql β} (h : st.Still) (o : Outside) (T : Tables) :
    (st.act o T).2.flows = T.flows ∧ (st.act o T).2.paid = T.paid := by
  cases st with
  | credit p =>
      unfold FlowSql.act
      dsimp only
      split_ifs <;> exact ⟨rfl, rfl⟩
  | dueFlows _ | flowForUser _ _ | pay _ | saveRun _ _ _ _ | setCancelled _ _ _ => exact h.elim
  | saveSchedules _ _ _ _ => exact h.elim
  | _ => exact ⟨rfl, rfl⟩

theorem FlowSql.Still.record {β : Type} {st : FlowSql β} (h : st.Still) (o : Outside) (b : β)
    (R : Record) :
    (st.record i o b R).rows = R.rows ∧ (st.record i o b R).payments = R.payments := by
  cases st with
  | credit p => cases b <;> exact ⟨rfl, rfl⟩
  | dueFlows _ | flowForUser _ _ | pay _ | saveRun _ _ _ _ | setCancelled _ _ _ => exact h.elim
  | saveSchedules _ _ _ _ => exact h.elim
  | _ => exact ⟨rfl, rfl⟩

/-- The invariant looks at flows and payments only. -/
theorem DueInv.congr (h : DueInv T R) {T' : Tables} {R' : Record} (hflows : T'.flows = T.flows)
    (hpaid : T'.paid = T.paid) (hpayments : R'.payments = R.payments) : DueInv T' R' := by
  refine ⟨hpaid ▸ h.once, ?_⟩
  rw [hflows, hpaid, hpayments]
  exact h.covered

/-- What a call knows, from a time on. -/
def KnownAt (i : ℕ) (rows : List FlowRow) (φ : SchedulePayment → Prop) (now : ℕ) (s : Watched) :
    Prop := Known i rows φ s ∧ now ≤ s.1.time

theorem stays_knownAt (i : ℕ) (rows : List FlowRow) (φ : SchedulePayment → Prop) (now : ℕ) :
    Stays i (KnownAt i rows φ now) := fun s t hs h =>
  ⟨stays_known i rows φ s t hs.1 h, hs.2.trans h.time⟩

/-- What a call does under the discipline. -/
abbrev Dues (i : ℕ) (P : Watched → Prop) (call : FlowCall α) (Q : α → Watched → Prop)
    (E : FlowError → Watched → Prop) : Prop :=
  Triple watchedFlows dueDiscipline i P call Q E

/-- A call that neither reads nor writes flows, nor pays. -/
theorem due_still {call : FlowCall α} (h : OnlyE FlowSql.Still call) (now : ℕ) :
    Dues i (KnownAt i rows φ now) call (fun _ => KnownAt i rows φ now)
      fun _ => KnownAt i rows φ now := by
  refine Triple.of_only h fun {β} st hst s hs t hr hinv o hc b u he => ?_
  have ht : KnownAt i rows φ now t := stays_knownAt i rows φ now s t hs hr
  have hgood : KeepsPaid st o t.1 := by
    cases o with
    | error e => trivial
    | ok o =>
        cases st with
        | saveRun _ _ _ _ | saveSchedules _ _ _ _ => exact hst.elim
        | _ => trivial
  have hcounts : ∀ j, j ≠ i → Counts j t u := fun j hj => watched_counts he hj
  rcases watched_cases he with ⟨e, -, -, -, rfl⟩ | ⟨o, -, -, rfl⟩
  · exact ⟨hgood, hinv, hcounts, ht⟩
  · obtain ⟨hflows, hpaid⟩ := hst.act o (t.1.tick o.elapsed)
    obtain ⟨hrows, hpayments⟩ := hst.record (i := i) o (st.act o (t.1.tick o.elapsed)).1 t.2
    refine ⟨hgood, DueInv.congr hinv hflows hpaid hpayments, hcounts, ⟨?_, fun x hx => ?_⟩, ?_⟩
    · exact (congrFun hrows i).trans ht.1.reads
    · exact ht.1.payments x (hpayments ▸ hx)
    · rw [FlowSql.time_act]
      exact ht.2.trans (Nat.le_add_right _ _)

/-- The clock is looked at. -/
theorem due_clock (now : ℕ) {E : FlowError → Watched → Prop} :
    Dues i (KnownAt i rows φ now) clock
      (fun later s => KnownAt i rows φ later s ∧ now ≤ later) E := by
  refine triple_flow (fun _ => rfl) (stays_knownAt i rows φ now)
    (fun _ _ _ hmay _ => by cases hmay) fun T R o hs hinv _ => ⟨trivial, ?_, ?_⟩
  · exact hinv.congr rfl rfl rfl
  · exact ⟨⟨hs.1, le_rfl⟩, hs.2⟩

/-- A call that is alone with a flow finds its row as it has read it. -/
theorem Known.row (h : Known i rows φ (T, R)) (halone : Watched.Alone i p.flowId (T, R))
    {flow : FlowRow} (hflow : flow ∈ rows) (hid : flow.id = p.flowId) : flow ∈ T.flows := by
  refine halone.1 flow ?_ hid
  rw [show R.rows i = rows from h.reads]
  exact hflow

/-- What was paid from a flow that a call is alone with is its own, or covered by the row that it
has read. -/
theorem DueInv.alone (h : DueInv T R) (hknown : Known i rows φ (T, R)) {flow : FlowRow}
    (halone : Watched.Alone i flow.id (T, R)) (hflow : flow ∈ rows) {p : SchedulePayment}
    (hp : p ∈ T.paid) (hpid : p.flowId = flow.id) : φ p ∨ Covers flow.schedules p := by
  rcases h.covered p hp with ⟨x, hx, rfl⟩ | ⟨r, hr, hrid, hcovers⟩
  · exact .inl (hknown.payments x hx (halone.2 x hx hpid))
  · have hmem : flow ∈ T.flows := halone.1 flow (by
      rw [show R.rows i = rows from hknown.reads]
      exact hflow) rfl
    obtain rfl : r = flow := List.inj_on_of_nodup_map T.ids hr hmem (hrid.trans hpid)
    exact .inr hcovers

/-- What a call knows once it has made a payment. -/
theorem Known.pay (h : Known i rows φ (T, R)) {R' : Record} (hrows : R'.rows = R.rows)
    {moves : Bool} (hpayments : R'.payments = if moves then ⟨i, p⟩ :: R.payments else R.payments) :
    Known i rows (fun q => φ q ∨ q = p) (T', R') := by
  refine ⟨(congrFun hrows i).trans h.reads, fun x hx hi => ?_⟩
  have hx' : x ∈ if moves then ⟨i, p⟩ :: R.payments else R.payments := hpayments ▸ hx
  split_ifs at hx'
  · rcases List.mem_cons.mp hx' with rfl | hx'
    · exact .inr rfl
    · exact .inl (h.payments x hx' hi)
  · exact .inl (h.payments x hx' hi)

/-- A schedule is paid. -/
theorem due_pay {flow : FlowRow} (hflow : flow ∈ rows) (hid : p.flowId = flow.id) {s : Schedule}
    (hs : s ∈ flow.schedules[p.index]?) (hdue : s.nextRunAt = some p.dueAt)
    (hown : ∀ q, φ q → q.index ≠ p.index) (now : ℕ) :
    Dues i (KnownAt i rows φ now) (sql (.pay p))
      (fun _ => KnownAt i rows (fun q => φ q ∨ q = p) now) fun _ => KnownAt i rows φ now := by
  refine triple_flow (fun _ => rfl) (stays_knownAt i rows φ now)
    (fun t e ht _ _ => ⟨trivial, ht⟩) fun T R o hknown hinv hc => ⟨trivial, ?_, ?_⟩
  · -- nothing was paid for this occurrence
    by_cases hmoves : o.moves = true
    · have hnew : ∀ q ∈ T.paid, q.occurrence ≠ p.occurrence := by
        intro q hq he
        simp only [SchedulePayment.occurrence, Prod.mk.injEq] at he
        obtain ⟨hflowId, hindex, hdueAt⟩ := he
        have hknown' : Known i rows φ (T, R) := ⟨hknown.1.reads, hknown.1.payments⟩
        rcases hinv.alone hknown' (hid ▸ hc.1) hflow hq (hflowId.trans hid) with hφ | hcovers
        · exact hown q hφ hindex
        · obtain ⟨s', hs', -, hlater⟩ := hcovers
          rw [hindex] at hs'
          obtain rfl : s' = s := Option.some.inj (hs'.symm.trans hs)
          exact (hlater p.dueAt hdue).ne hdueAt
      have hticked : DueInv (T.tick o.elapsed) R := hinv.congr rfl rfl rfl
      have hpay : (FlowSql.act (.pay p) o (T.tick o.elapsed)).2 =
          { T.tick o.elapsed with paid := p :: (T.tick o.elapsed).paid } := if_pos hmoves
      rw [hpay]
      refine hticked.pay i hnew ?_
      cases (FlowSql.act (.pay p) o (T.tick o.elapsed)).1 <;> simp [FlowSql.record, hmoves]
    · have hpay : (FlowSql.act (.pay p) o (T.tick o.elapsed)).2 = T.tick o.elapsed :=
        if_neg hmoves
      rw [hpay]
      refine hinv.congr rfl rfl ?_
      cases (FlowSql.act (.pay p) o (T.tick o.elapsed)).1 <;> simp [FlowSql.record, hmoves]
  · have htime : now ≤ (FlowSql.act (.pay p) o (T.tick o.elapsed)).2.time := by
      rw [FlowSql.time_act]
      exact hknown.2
    cases ha : o.answer with
    | ok x =>
        have hb : (FlowSql.act (.pay p) o (T.tick o.elapsed)).1 = .ok x := by
          show o.answer.mapError FlowError.payment = _
          rw [ha]
          rfl
        rw [hb]
        exact ⟨hknown.1.pay rfl rfl, htime⟩
    | error message =>
        -- a payment that throws has not moved money
        have hb : (FlowSql.act (.pay p) o (T.tick o.elapsed)).1 = .error (.payment message) := by
          show o.answer.mapError FlowError.payment = _
          rw [ha]
          rfl
        have hmoves : o.moves = false := hc.2 (by rw [ha]; rfl)
        rw [hb]
        refine ⟨⟨hknown.1.reads, fun x hx => hknown.1.payments x ?_⟩, htime⟩
        simpa [FlowSql.record, hmoves] using hx

/-! ### A run of a flow -/

theorem still_sql {st : FlowSql (Ans α)} (h : st.Still) : OnlyE FlowSql.Still (sql st) := only_sql h

theorem still_release (ctx : PayContext) (s : Schedule) :
    OnlyE FlowSql.Still (release ctx s) := by
  refine OnlyE.bind (still_sql trivial) fun _ => OnlyE.bind (still_sql trivial) fun usdAmount =>
    OnlyE.bind (OnlyE.bind (still_sql trivial) fun existing => ?_) fun _ => OnlyE.pure _
  cases existing with
  | some existing => exact OnlyE.pure _
  | none => exact OnlyE.bind (still_sql trivial) fun _ => OnlyE.pure _

/-- A payment of a schedule that is due. -/
structure Makes (flow : FlowRow) (index dueAt : ℕ) (s : Schedule) (q : SchedulePayment) :
    Prop where
  flowId : q.flowId = flow.id
  index : q.index = index
  dueAt : q.dueAt = dueAt
  runs : q.runs = s.runs

section schedule

variable {flow : FlowRow} {index dueAt now : ℕ} {s : Schedule}

/-- A schedule is paid, once the money is there. -/
theorem due_paySchedule {ctx : PayContext} (hflow : ctx.flow ∈ rows)
    (hs : s ∈ ctx.flow.schedules[index]?) (hdue : s.nextRunAt = some dueAt)
    (hown : ∀ q, φ q → q.index ≠ index) :
    Dues i (KnownAt i rows φ now) (paySchedule ctx index dueAt s)
      (fun _ => KnownAt i rows (fun q => φ q ∨ Makes ctx.flow index dueAt s q) now)
        fun _ => KnownAt i rows φ now := by
  have hpay : ∀ payment : Payment, Dues i (KnownAt i rows φ now)
      (sql (.pay ⟨ctx.flow.id, index, dueAt, s.runs, payment⟩))
      (fun _ => KnownAt i rows (fun q => φ q ∨ Makes ctx.flow index dueAt s q) now)
        fun _ => KnownAt i rows φ now := by
    intro payment
    refine (due_pay hflow rfl hs hdue hown now).mono (fun _ h => h)
      (fun _ _ h => ⟨h.1.mono ?_, h.2⟩) fun _ _ h => h
    rintro q (hq | rfl)
    · exact .inl hq
    · exact .inr ⟨rfl, rfl, rfl, rfl⟩
  unfold paySchedule
  dsimp only
  split
  · exact hpay _
  · split
    · exact Triple.throw fun _ h => h
    · refine Triple.ite (fun _ => Triple.throw fun _ h => h) fun _ => ?_
      refine Triple.ite (fun _ => ?_) fun _ => hpay _
      refine Triple.bind (due_still ?_ now) fun _ => hpay _
      exact still_sql trivial
  · split
    · exact Triple.throw fun _ h => h
    · exact hpay _

theorem due_executeSchedulePayment {ctx : PayContext} (hflow : ctx.flow ∈ rows)
    (hs : s ∈ ctx.flow.schedules[index]?) (hdue : s.nextRunAt = some dueAt)
    (hown : ∀ q, φ q → q.index ≠ index) :
    Dues i (KnownAt i rows φ now) (executeSchedulePayment ctx index dueAt s)
      (fun _ => KnownAt i rows (fun q => φ q ∨ Makes ctx.flow index dueAt s q) now)
        fun _ => KnownAt i rows φ now := by
  refine Triple.ite (fun _ => Triple.throw fun _ h => h) fun _ => ?_
  refine Triple.ite (fun _ => due_paySchedule hflow hs hdue hown) fun _ => ?_
  exact Triple.bind (due_still (still_release ctx s) now) fun _ =>
    due_paySchedule hflow hs hdue hown

/-- A payment of a run that has come so far: it is covered by the schedules that are done. -/
structure Owned (flow : FlowRow) (done : List Schedule) (p : Progress) (q : SchedulePayment) :
    Prop where
  flowId : q.flowId = flow.id
  covers : Covers done q
  changed : p.changed = true

theorem Owned.index_lt {done : List Schedule} {p : Progress} {q : SchedulePayment}
    (h : Owned flow done p q) : q.index < done.length := by
  obtain ⟨_, hs, -⟩ := h.covers
  exact (List.getElem?_eq_some_iff.mp hs).1

/-- One schedule more is done, and nothing was paid for it. -/
theorem Owned.more {done : List Schedule} {p p' : Progress} {q : SchedulePayment}
    (h : Owned flow done p q) (s' : Schedule) (hp : p.changed = true → p'.changed = true) :
    Owned flow (done ++ [s']) p' q := ⟨h.flowId, h.covers.append _, hp h.changed⟩

/-- One schedule more is done, and it is paid. -/
theorem Makes.owned {done : List Schedule} {p : Progress} {q : SchedulePayment}
    (h : Makes flow done.length dueAt s q) (hnow : dueAt ≤ now) (hchanged : p.changed = true) :
    Owned flow (done ++ [s.succeeded C now]) p q := by
  refine ⟨h.flowId, ⟨s.succeeded C now, ?_, ?_, fun n hn => ?_⟩, hchanged⟩
  · rw [h.index]
    simp
  · rw [h.runs]
    exact Nat.lt_succ_self _
  · rw [h.dueAt]
    exact hnow.trans_lt (lt_of_computeNextRunAt hn)

/-- What is known once a schedule is done. -/
def Done (i : ℕ) (rows : List FlowRow) (flow : FlowRow) (done : List Schedule) (s : Schedule)
    (r : Schedule × Progress) (t : Watched) : Prop :=
  KnownAt i rows (Owned flow (done ++ [r.1]) r.2) 0 t ∧ s.Later r.1

variable {done : List Schedule} {p : Progress}

/-- A schedule is not paid. -/
theorem due_failed (error : String) {p' : Progress} (hp : p.changed = true → p'.changed = true)
    {E : FlowError → Watched → Prop} :
    Dues i (KnownAt i rows (Owned flow done p) now)
      (do let now ← clock; pure (s.failed now error, p')) (Done i rows flow done s) E := by
  refine Triple.bind (due_clock now) fun later => Triple.pure fun t ht => ?_
  exact ⟨⟨ht.1.1.mono fun q hq => hq.more _ hp, Nat.zero_le _⟩, s.later_failed later error⟩

/-- A schedule that is due is run. -/
theorem due_runDue {ctx : RunContext} (hflow : ctx.flow ∈ rows)
    (hs : s ∈ ctx.flow.schedules[done.length]?) (hdue : s.nextRunAt = some dueAt)
    (hnow : dueAt ≤ now) {E : FlowError → Watched → Prop} :
    Dues i (KnownAt i rows (Owned ctx.flow done p) now) (runDue C ctx done.length dueAt s p)
      (Done i rows ctx.flow done s) E := by
  unfold runDue
  split
  · exact due_failed _ fun _ => rfl
  · split
    · exact due_failed _ fun _ => rfl
    · rename_i wallet hwallet
      refine Triple.tryCatch (F := fun _ => KnownAt i rows (Owned ctx.flow done p) now)
        (Triple.bind (due_executeSchedulePayment
          (show (PayContext.mk ctx.userId wallet.walletId ctx.flow).flow ∈ rows from hflow) hs hdue
            fun q hq => hq.index_lt.ne) fun _ => ?_) fun e => due_failed _ fun _ => rfl
      refine Triple.bind (due_clock now) fun later =>
        Triple.pure fun t ht => ⟨⟨?_, Nat.zero_le _⟩, ?_⟩
      · refine ht.1.1.mono fun q hq => ?_
        rcases hq with hq | hq
        · exact hq.more _ fun _ => rfl
        · exact hq.owned (hnow.trans ht.2) rfl
      · exact Schedule.later_succeeded hdue (hnow.trans ht.2)

/-- A schedule is run, if it is due. -/
theorem due_runSchedule {ctx : RunContext} (hflow : ctx.flow ∈ rows)
    (hs : s ∈ ctx.flow.schedules[done.length]?) {E : FlowError → Watched → Prop} :
    Dues i (KnownAt i rows (Owned ctx.flow done p) 0) (runSchedule C ctx done.length s p)
      (Done i rows ctx.flow done s) E := by
  have hskip : ∀ t, KnownAt i rows (Owned ctx.flow done p) 0 t →
      Done i rows ctx.flow done s (s, p) t :=
    fun t ht => ⟨⟨ht.1.mono fun q hq => hq.more _ id, ht.2⟩, .refl s⟩
  refine Triple.ite (fun _ => Triple.pure hskip) fun _ => ?_
  split
  · exact Triple.pure hskip
  · rename_i dueAt hdue
    refine Triple.bind (due_clock 0) fun now => ?_
    refine Triple.ite (fun _ => Triple.pure fun t ht => hskip t ⟨ht.1.1, Nat.zero_le _⟩)
      fun hnow => ?_
    exact (due_runDue hflow hs hdue (not_lt.mp hnow)).mono (fun _ ht => ht.1) (fun _ _ h => h)
      fun _ _ h => h

end schedule

/-- The schedules of a flow are run, from a place on: by induction on those that are left. -/
theorem due_runSchedules {ctx : RunContext} (hflow : ctx.flow ∈ rows) (rest : List Schedule) :
    ∀ (pre done : List Schedule) (p : Progress), ctx.flow.schedules = pre ++ rest →
      pre.length = done.length →
      Dues i (KnownAt i rows (Owned ctx.flow done p) 0) (runSchedules C ctx done.length rest p)
        (fun r t => KnownAt i rows (Owned ctx.flow (done ++ r.1) r.2) 0 t ∧
          List.Forall₂ Schedule.Later rest r.1) fun _ _ => True := by
  induction rest with
  | nil =>
      intro pre done p _ _
      exact Triple.pure fun t ht => ⟨by simpa using ht, .nil⟩
  | cons s rest ih =>
      intro pre done p hschedules hlength
      have hs : s ∈ ctx.flow.schedules[done.length]? := by
        rw [hschedules, ← hlength]
        simp
      refine Triple.bind (due_runSchedule hflow hs) fun first => ?_
      intro t ht
      have hrest := ih (pre ++ [s]) (done ++ [first.1]) first.2 (by simp [hschedules])
        (by simp [hlength])
      rw [List.length_append] at hrest
      refine Triple.bind hrest (fun others => Triple.pure fun u hu => ⟨?_, ?_⟩) t ht.1
      · simpa using hu.1
      · exact .cons ht.2 hu.2

/-- A flow that was run is written. -/
theorem due_saveRun {flow : FlowRow} (hflow : flow ∈ rows)
    (hlater : List.Forall₂ Schedule.Later flow.schedules schedules) (p : Progress) (spent : ℚ)
    (nextRunAt : Option ℕ) (now : ℕ) :
    Dues i (KnownAt i rows (Owned flow schedules p) now)
      (sql (.saveRun flow.id schedules spent nextRunAt))
      (fun _ => KnownAt i rows (fun _ => False) 0) fun _ _ => True := by
  refine triple_flow (fun _ => rfl) (stays_knownAt i rows _ now)
    (fun _ _ _ _ _ => ⟨trivial, trivial⟩) fun T R o hknown hinv hc => ?_
  have hknown' : Known i rows (Owned flow schedules p) (T, R) :=
    ⟨hknown.1.reads, hknown.1.payments⟩
  have hcovers : ∀ q ∈ T.paid, q.flowId = flow.id → Covers schedules q := by
    intro q hq hid
    rcases hinv.alone hknown' hc hflow hq hid with howned | hrow
    · exact howned.covers
    · exact hrow.later hlater
  have hmem : flow ∈ T.flows := hc.1 flow (by
    rw [show R.rows i = rows from hknown.1.reads]
    exact hflow) rfl
  refine ⟨hcovers, ?_, ⟨⟨hknown.1.reads, fun x hx hi => ?_⟩, Nat.zero_le _⟩⟩
  · refine hinv.save flow.id schedules rfl rfl (fun r => ?_)
      (fun r hr => ?_) ⟨flow, hmem, rfl, ?_⟩ hcovers fun x hx hne => ?_
    · dsimp only
      split_ifs <;> rfl
    · exact if_neg (by simpa using hr)
    · simp
    · exact List.mem_filter.mpr ⟨hx, by simp [hne]⟩
  · -- its payments were of this flow, and are written
    obtain ⟨hx, hkept⟩ := List.mem_filter.mp hx
    have hid := (hknown.1.payments x hx hi).flowId
    simp [hi, hid] at hkept

/-- A flow that was run is written, if anything has changed. -/
theorem due_saveFlow {flow : FlowRow} (hflow : flow ∈ rows)
    (hlater : List.Forall₂ Schedule.Later flow.schedules schedules) (p : Progress) :
    Dues i (KnownAt i rows (Owned flow schedules p) 0) (saveFlow C flow schedules p)
      (fun _ => KnownAt i rows (fun _ => False) 0) fun _ _ => True := by
  refine Triple.ite (fun hsame => Triple.pure fun t ht => ⟨ht.1.mono fun q hq => ?_, ht.2⟩)
    fun _ => ?_
  · rw [hq.changed] at hsame
    cases hsame
  · refine Triple.bind (due_clock 0) fun now => ?_
    exact (due_saveRun hflow hlater p _ _ now).mono (fun _ ht => ht.1) (fun _ _ h => h)
      fun _ _ h => h

/-- A flow is run. -/
theorem due_runFlow (userId : String) (usdWallet : Wallet) {flow : FlowRow} (hflow : flow ∈ rows)
    (r : RunOutcome) :
    Dues i (KnownAt i rows (fun _ => False) 0) (runFlow C userId usdWallet flow r)
      (fun _ => KnownAt i rows (fun _ => False) 0) fun _ _ => True := by
  have hwallet : OnlyE FlowSql.Still (flowWallet userId usdWallet flow) :=
    OnlyE.ite (OnlyE.pure _) (still_sql trivial)
  refine Triple.bind ((due_still hwallet 0).mono (fun _ h => h) (fun _ _ h => h)
    fun _ _ _ => trivial) fun wallet => ?_
  have hrun := due_runSchedules (C := C) (i := i)
    (show (RunContext.mk userId flow wallet).flow ∈ rows from hflow) flow.schedules [] [] {} rfl rfl
  refine Triple.bind (hrun.mono (fun t ht => ⟨ht.1.mono fun q hq => hq.elim, ht.2⟩)
    (fun _ _ h => h) fun _ _ h => h) fun done => ?_
  intro t ht
  have hsave : Dues i (KnownAt i rows (Owned flow done.1 done.2) 0)
      (do saveFlow C flow done.1 done.2; pure (r.add done.2))
      (fun _ => KnownAt i rows (fun _ => False) 0) fun _ _ => True :=
    Triple.bind (due_saveFlow hflow ht.2 done.2) fun _ => Triple.pure fun _ h => h
  exact hsave t ht.1

theorem due_runFlows (userId : String) (usdWallet : Wallet) (flows : List FlowRow)
    (r : RunOutcome) (hflows : ∀ flow ∈ flows, flow ∈ rows) :
    Dues i (KnownAt i rows (fun _ => False) 0) (runFlows C userId usdWallet flows r)
      (fun _ => KnownAt i rows (fun _ => False) 0) fun _ _ => True := by
  induction flows generalizing r with
  | nil => exact Triple.pure fun _ h => h
  | cons flow rest ih =>
      exact Triple.bind (due_runFlow userId usdWallet (hflows flow List.mem_cons_self) r)
        fun r' => ih r' fun flow' h => hflows flow' (List.mem_cons_of_mem _ h)

/-! ### Requests -/

/-- A call that has written all of its payments. -/
def Free (i : ℕ) (s : Watched) : Prop := ∃ rows, KnownAt i rows (fun _ => False) 0 s

theorem stays_free (i : ℕ) : Stays i (Free i) := fun s t ⟨rows, hs⟩ h =>
  ⟨rows, stays_knownAt i rows _ 0 s t hs h⟩

theorem due_free {call : FlowCall α} (h : OnlyE FlowSql.Still call) :
    Dues i (Free i) call (fun _ => Free i) fun _ _ => True := by
  rintro s ⟨rows, hs⟩
  exact (due_still h 0).mono (fun _ h => h) (fun _ _ h => ⟨rows, h⟩) (fun _ _ _ => trivial) s hs

/-- The flows that are due are read. -/
theorem due_dueFlows (userId : String) :
    Dues i (Free i) (sql (.dueFlows userId)) (fun flows => KnownAt i flows (fun _ => False) 0)
      fun _ _ => True := by
  refine triple_flow (fun _ => rfl) (stays_free i) (fun _ _ _ _ _ => ⟨trivial, trivial⟩)
    fun T R o hs hinv _ => ⟨trivial, hinv.congr rfl rfl rfl, ⟨⟨?_, ?_⟩, Nat.zero_le _⟩⟩
  · exact Function.update_self ..
  · obtain ⟨rows, hknown, -⟩ := hs
    exact hknown.payments

/-- The row of a user's flow is read. -/
theorem due_flowForUser (userId flowId : String) :
    Dues i (Free i) (sql (.flowForUser userId flowId))
      (fun found s => KnownAt i found.toList (fun _ => False) 0 s ∧
        ∀ row ∈ found, row.id = flowId ∧ row.userId = userId) fun _ _ => True := by
  refine triple_flow (fun _ => rfl) (stays_free i) (fun _ _ _ _ _ => ⟨trivial, trivial⟩)
    fun T R o hs hinv _ => ⟨trivial, hinv.congr rfl rfl rfl, ⟨⟨?_, ?_⟩, Nat.zero_le _⟩, ?_⟩
  · exact Function.update_self ..
  · obtain ⟨rows, hknown, -⟩ := hs
    exact hknown.payments
  · intro row hrow
    have hfound := List.find?_some hrow
    simp only [Bool.and_eq_true, decide_eq_true_eq] at hfound
    exact ⟨hfound.2, hfound.1⟩

theorem due_runDueSchedulesForUser (userId : String) :
    Dues i (Free i) (runDueSchedulesForUser C userId) (fun _ => Free i) fun _ _ => True := by
  refine Triple.bind (due_free (still_sql trivial)) fun ready => ?_
  refine Triple.ite (fun _ => Triple.pure fun _ h => h) fun _ => ?_
  refine Triple.bind (due_free (still_sql trivial)) fun wallet => ?_
  cases wallet with
  | none => exact Triple.pure fun _ h => h
  | some usdWallet =>
      refine Triple.bind (due_dueFlows userId) fun flows => ?_
      exact (due_runFlows userId usdWallet flows {} fun _ h => h).mono (fun _ h => h)
        (fun _ _ h => ⟨flows, h⟩) fun _ _ h => h

theorem due_runUsers (users : List String) (r : AllOutcome) :
    Dues i (Free i) (runUsers C users r) (fun _ => Free i) fun _ _ => True := by
  induction users generalizing r with
  | nil => exact Triple.pure fun _ h => h
  | cons userId rest ih => exact Triple.bind (due_runDueSchedulesForUser userId) fun outcome => ih _

/-- An edit is written. -/
theorem due_saveSchedules {row : FlowRow} (hlater : List.Forall₂ Schedule.Later row.schedules
    schedules) (nextRunAt : Option ℕ) (now : ℕ) :
    Dues i (KnownAt i [row] (fun _ => False) now)
      (sql (.saveSchedules row.userId row.id schedules nextRunAt))
      (fun _ _ => True) fun _ _ => True := by
  refine triple_flow (fun _ => rfl) (stays_knownAt i _ _ now)
    (fun _ _ _ _ _ => ⟨trivial, trivial⟩) fun T R o hknown hinv hc => ?_
  have hknown' : Known i [row] (fun _ => False) (T, R) := ⟨hknown.1.reads, hknown.1.payments⟩
  have hcovers : ∀ q ∈ T.paid, q.flowId = row.id → Covers schedules q := by
    intro q hq hid
    rcases hinv.alone hknown' hc List.mem_cons_self hq hid with hown | hrow
    · exact hown.elim
    · exact hrow.later hlater
  have hmem : row ∈ T.flows := hc.1 row (by
    rw [show R.rows i = [row] from hknown.1.reads]
    exact List.mem_cons_self) rfl
  refine ⟨hcovers, ?_, ?_⟩
  · unfold FlowSql.act
    dsimp only
    split
    · refine hinv.save row.id schedules rfl rfl (fun r => ?_)
        (fun r hr => ?_) ⟨row, hmem, rfl, ?_⟩ hcovers fun x hx _ => hx
      · dsimp only
        split_ifs <;> rfl
      · exact if_neg (by simp [hr])
      · simp
    · exact hinv.congr rfl rfl rfl
  · split <;> trivial

/-- A schedule is edited. -/
theorem due_updateFlowSchedule (userId flowId scheduleId : String) (patch : SchedulePatch) :
    Dues i (Free i) (updateFlowSchedule C userId flowId scheduleId patch)
      (fun _ _ => True) fun _ _ => True := by
  refine Triple.bind (due_free (still_sql trivial)) fun ready => ?_
  refine Triple.ite (fun _ => Triple.throw fun _ _ => trivial) fun _ => ?_
  refine Triple.bind (due_flowForUser userId flowId) fun found => ?_
  cases found with
  | none => exact Triple.throw fun _ _ => trivial
  | some row =>
      intro s hs
      obtain ⟨rfl, rfl⟩ := hs.2 row rfl
      refine Triple.ite (fun _ => Triple.throw fun _ _ => trivial) (fun _ => ?_) s hs.1
      split
      · exact Triple.throw fun _ _ => trivial
      · rename_i idx hidx
        have hlater : List.Forall₂ Schedule.Later row.schedules
            (row.schedules.modify idx (mergeSchedulePatch · patch)) := by
          refine List.forall₂_iff_get.mpr ⟨(List.length_modify ..).symm, fun k hk hk' => ?_⟩
          simp only [List.get_eq_getElem, List.getElem_modify]
          split_ifs
          · exact Schedule.later_patch _ patch
          · exact .refl _
        refine Triple.bind (due_clock 0) fun now => ?_
        exact (due_saveSchedules hlater _ now).mono (fun _ ht => ht.1) (fun _ _ h => h)
          fun _ _ h => h

/-- A flow is cancelled. -/
theorem due_setCancelled (userId flowId : String) (release : Option ℕ) :
    Dues i (Free i) (sql (.setCancelled userId flowId release)) (fun _ _ => True)
      fun _ _ => True := by
  refine triple_flow (fun _ => rfl) (stays_free i) (fun _ _ _ _ _ => ⟨trivial, trivial⟩)
    fun T R o hs hinv _ => ⟨trivial, ?_, ?_⟩
  · have hrecord : ∀ b, ((FlowSql.setCancelled userId flowId release).record i o b R).payments =
        R.payments := fun b => by cases b <;> rfl
    unfold FlowSql.act
    dsimp only
    split
    · have hmapped : DueInv ((T.tick o.elapsed).setCancelled userId flowId release) R := by
        refine hinv.map rfl rfl (fun r => ?_) fun r => ?_
        · dsimp only
          split_ifs <;> rfl
        · dsimp only
          split_ifs <;> rfl
      exact hmapped.congr rfl rfl (hrecord _)
    · exact hinv.congr rfl rfl (hrecord _)
  · split <;> trivial

theorem due_cancelFlow (userId flowId : String) :
    Dues i (Free i) (cancelFlow userId flowId) (fun _ _ => True) fun _ _ => True := by
  refine Triple.bind (due_free (still_sql trivial)) fun ready => ?_
  refine Triple.ite (fun _ => Triple.throw fun _ _ => trivial) fun _ => ?_
  refine Triple.bind ((due_flowForUser userId flowId).mono (fun _ h => h)
    (fun found _ h => (⟨found.toList, h.1⟩ : Free i _)) fun _ _ h => h) fun found => ?_
  cases found with
  | none => exact Triple.throw fun _ _ => trivial
  | some row =>
      refine Triple.ite (fun _ => Triple.pure fun _ _ => trivial) fun _ => ?_
      have hreturn : OnlyE FlowSql.Still (returnHold userId flowId row) := by
        refine OnlyE.ite (OnlyE.bind (still_sql trivial) fun wallet => ?_) (OnlyE.pure _)
        cases wallet with
        | none => exact OnlyE.throw _
        | some wallet =>
            refine OnlyE.bind (still_sql trivial) fun _ => OnlyE.bind (still_sql trivial) fun _ =>
              OnlyE.bind (OnlyE.bind (still_sql trivial) fun existing => ?_) fun _ => OnlyE.pure _
            cases existing with
            | some existing => exact OnlyE.pure _
            | none => exact OnlyE.bind (still_sql trivial) fun _ => OnlyE.pure _
      refine Triple.bind (due_free hreturn) fun releaseMovementId => ?_
      refine Triple.bind (due_free (still_sql trivial)) fun _ => ?_
      exact Triple.bind (due_setCancelled userId flowId releaseMovementId) fun _ =>
        Triple.pure fun _ _ => trivial

theorem due_call (r : Request) :
    Dues i (Free i) (r.call C) (fun _ _ => True) fun _ _ => True := by
  have hdone : ∀ {β : Type} {call : FlowCall β} {Q : β → Watched → Prop},
      Dues i (Free i) call Q (fun _ _ => True) →
        Dues i (Free i) (do let _ ← call) (fun _ _ => True) fun _ _ => True :=
    fun h => Triple.bind h fun _ => Triple.pure fun _ _ => trivial
  cases r with
  | runDueSchedulesForUser userId => exact hdone (due_runDueSchedulesForUser userId)
  | runDueSchedulesForAllUsers =>
      refine hdone (Q := fun _ => Free i) (Triple.bind (due_free (still_sql trivial))
        fun ready => ?_)
      refine Triple.ite (fun _ => Triple.pure fun _ h => h) fun _ => ?_
      exact Triple.bind (due_free (still_sql trivial)) fun rows => due_runUsers rows _
  | updateFlowSchedule userId flowId scheduleId patch =>
      exact hdone (due_updateFlowSchedule userId flowId scheduleId patch)
  | cancelFlow userId flowId => exact hdone (due_cancelFlow userId flowId)

end due

/-! ### Runs -/

/-- **Due payments are made once** in every run in which a call is alone with a flow when it pays
from it or writes its schedules, and a payment that throws has not moved money. -/
theorem due_payments_are_made_once (C : Calendar) (T : Tables) (hpaid : T.paid = [])
    (requests : List Request) (sched : List (ℕ × Except FlowError Outside))
    (hc : Pool.Along watchedFlows (Pool.CondAt PaysAlone) (watched C T requests) sched) :
    PaidOnce C T requests sched := by
  have hinv : DueInv T {} := by
    refine ⟨?_, ?_⟩
    · simp [hpaid]
    · simp [hpaid]
  have hstart : Pool.Verified watchedFlows dueDiscipline (fun _ _ _ => True)
      (watched C T requests) := by
    refine Pool.Verified.start hinv fun i p hp => ?_
    obtain ⟨r, -, rfl⟩ := Option.map_eq_some_iff.mp ((List.getElem?_map ..).symm.trans hp)
    refine Prog.wp_mono (fun _ _ _ => trivial) _ _ (due_call r _ ⟨[], ⟨rfl, ?_⟩, Nat.zero_le _⟩)
    intro x hx
    cases hx
  obtain ⟨hend, hgood⟩ := Pool.run_sound hstart sched hc
  have hrun : ((watched C T requests).run watchedFlows sched).bare =
      (begun C T requests).run flows sched := Pool.keeping_run _ sched
  refine ⟨?_, Pool.along_of_keeping (fun P e hP => ?_) hgood⟩
  · rw [← hrun]
    exact hend.1.once
  · exact Pool.goodAt_of_keeping P e hP

/-! ### Two runs side by side -/

/-- The scheduler and the user run the flows. -/
def twoRuns : List Request := [.runDueSchedulesForAllUsers, .runDueSchedulesForUser "u1"]

/-- Both read the flow as due before either writes it. -/
def sideBySide : List (ℕ × Except FlowError Outside) :=
  turns 0 5 ++ turns 1 3 ++ turns 0 8 ++ turns 1 8

/-- Every payment is made twice. -/
theorem two_runs_pay_twice : ¬ PaidOnce utc (tablesOf home) twoRuns sideBySide := by
  intro h
  have hpaid : ¬ (((begun utc (tablesOf home) twoRuns).run flows sideBySide).store.paid.map
      (·.occurrence)).Nodup := by
    decide +kernel
  exact hpaid h.once

/-- Runs one after the other, an edit between them, and a second run when the next payments are
due. -/
theorem due_payments_are_made_once_after_all :
    PaidOnce utc (tablesOf home) (twoRuns ++ [.updateFlowSchedule "u1" "f1" "Rent"
        { amount := some 120 }, .runDueSchedulesForUser "u1"])
      (turns 0 13 ++ turns 1 3 ++ turns 2 4 ++
        [(3, .ok { elapsed := 8 * 24 * 60 * 60 * 1000 })] ++ turns 3 10) :=
  due_payments_are_made_once _ _ rfl _ _ (by decide +kernel)

end DayfiBackend.Flow
