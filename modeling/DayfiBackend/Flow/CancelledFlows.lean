import DayfiBackend.Flow.Watch

/-!
# Cancelled flows pay nothing

A run pays the schedules of the flows that it has read as due, and does not look at a flow again.
`CancelledForGood` says that a flow that is cancelled stays so and is not paid from; the first holds
of every run, and `cancelled_flows_pay_nothing` is the result for the runs in which a flow is paid
from only as long as its row is as the run has read it.
-/

namespace DayfiBackend.Flow

open DayfiBackend.Found DayfiBackend.Found.Prog

/-! ### The property -/

/-- The flow that a statement begins a payment of: with the payment itself, or with the release of
the money held for it. -/
def FlowSql.paysFrom {β : Type} : FlowSql β → Option String
  | .pay p => some p.flowId
  | .credit p =>
      match p.key with
      | .executionRelease flowId _ => some flowId
      | .release _ => none
  | _ => none

/-- A flow is cancelled. -/
def Tables.Cancelled (T : Tables) (id : String) : Prop :=
  ∃ r ∈ T.flows, r.id = id ∧ r.status = .cancelled

instance (T : Tables) (id : String) : Decidable (T.Cancelled id) := by
  unfold Tables.Cancelled
  infer_instance

/-- A step pays from no cancelled flow, and leaves the cancelled flows cancelled. -/
structure LeavesCancelled {β : Type} (st : FlowSql β) (T T' : Tables) : Prop where
  unpaid : ∀ id ∈ st.paysFrom, ¬ T.Cancelled id
  stays : ∀ r ∈ T.flows, r.status = .cancelled → T'.Cancelled r.id

instance {β : Type} (st : FlowSql β) (T T' : Tables) : Decidable (LeavesCancelled st T T') :=
  decidable_of_iff ((∀ id ∈ st.paysFrom, ¬ T.Cancelled id) ∧
      ∀ r ∈ T.flows, r.status = .cancelled → T'.Cancelled r.id)
    ⟨fun h => ⟨h.1, h.2⟩, fun h => ⟨h.1, h.2⟩⟩

/-- A cancelled flow pays nothing more and stays cancelled, at every step of a run. -/
def CancelledForGood (C : Calendar) (T : Tables) (requests : List Request)
    (sched : List (ℕ × Except FlowError Outside)) : Prop :=
  Pool.Along flows (Pool.GoodAt flows fun _ st _ T _ T' => LeavesCancelled st T T')
    (begun C T requests) sched

/-! ### The condition -/

/-- The condition on the steps of a run: a flow that is paid from is as the run has read it. -/
def PaysAsRead {β : Type} (i : ℕ) (st : FlowSql β) (_ : Except FlowError Outside) (s : Watched) :
    Prop := ∀ id ∈ st.paysFrom, s.AsRead i id

instance {β : Type} (i : ℕ) (st : FlowSql β) (o : Except FlowError Outside) (s : Watched) :
    Decidable (PaysAsRead i st o s) := by
  unfold PaysAsRead
  infer_instance

/-! ### What a statement does to cancelled flows -/

section cancelled

variable {i : ℕ} {s t : Watched} {T : Tables} {rows : List FlowRow} {α : Type}

/-- Rows are written, and none loses the status. -/
theorem Tables.Cancelled.of_map {T' : Tables} {id : String} (h : T.Cancelled id)
    {f : FlowRow → FlowRow} (hrows : T'.flows = T.flows.map f)
    (hf : ∀ r, (f r).id = r.id ∧ (r.status = .cancelled → (f r).status = .cancelled)) :
    T'.Cancelled id := by
  obtain ⟨r, hr, hid, hcancelled⟩ := h
  exact ⟨f r, hrows ▸ List.mem_map_of_mem hr, (hf r).1.trans hid, (hf r).2 hcancelled⟩

/-- No statement takes the status away from a cancelled flow. -/
theorem FlowSql.cancelled_act {β : Type} (st : FlowSql β) (o : Outside) {id : String}
    (h : T.Cancelled id) : (st.act o T).2.Cancelled id := by
  cases st with
  | credit p =>
      unfold act
      dsimp only
      split_ifs <;> exact h
  | pay p =>
      unfold act
      dsimp only
      split_ifs <;> exact h
  | saveRun flowId schedules spent nextRunAt =>
      exact h.of_map rfl fun r => by split_ifs <;> simp
  | setCancelled userId flowId release =>
      unfold act
      dsimp only
      split
      · exact h.of_map rfl fun r => by split_ifs <;> simp
      · exact h
  | saveSchedules userId flowId schedules nextRunAt =>
      unfold act
      dsimp only
      split
      · exact h.of_map rfl fun r => by split_ifs <;> simp
      · exact h
  | _ => exact h

/-- A flow that is as a call has read it, active, is not cancelled. -/
theorem not_cancelled {flow : FlowRow} (hflow : flow ∈ T.flows) (hactive : flow.status = .active) :
    ¬ T.Cancelled flow.id := by
  rintro ⟨r, hr, hid, hcancelled⟩
  obtain rfl : r = flow := List.inj_on_of_nodup_map T.ids hr hflow hid
  rw [hactive] at hcancelled
  cases hcancelled

/-! ### Calls -/

/-- The discipline of cancelled flows. -/
def cancelDiscipline : Discipline FlowSql (Except FlowError Outside) Watched :=
  flowDiscipline (fun _ _ => True) PaysAsRead fun _ st _ s _ t => LeavesCancelled st s.1 t.1

/-- A statement that reads no flows, and pays at most from the given one. -/
structure FlowSql.From (flow : FlowRow) {β : Type} (st : FlowSql β) : Prop where
  blind : st.Blind
  pays : ∀ id ∈ st.paysFrom, id = flow.id

/-- Cancelled flows stay cancelled at every step. -/
theorem cancelled_exec {β : Type} {st : FlowSql β} {o : Except FlowError Outside} {b : β}
    (h : watchedFlows.exec i st o s = some (b, t)) {id : String} (hs : s.1.Cancelled id) :
    t.1.Cancelled id := by
  rcases watched_cases h with ⟨e, -, -, -, rfl⟩ | ⟨o, -, -, rfl⟩
  · exact hs
  · exact st.cancelled_act o hs

/-- A call that pays at most from a flow that was read, active. -/
theorem cancel_only {call : FlowCall α} {flow : FlowRow} (h : OnlyE (FlowSql.From flow) call)
    (hflow : flow ∈ rows) (hactive : flow.status = .active) :
    Triple watchedFlows cancelDiscipline i (Reads i rows) call (fun _ => Reads i rows)
      fun _ => Reads i rows := by
  refine Triple.of_only h fun {β} st hst s hs t hr _ o hc b u he => ?_
  have ht : Reads i rows t := hr.rows.trans hs
  refine ⟨⟨fun id hid => ?_, fun r hr hcancelled => cancelled_exec he ⟨r, hr, rfl, hcancelled⟩⟩,
    trivial, fun j hj => watched_counts he hj, ?_⟩
  · obtain rfl := hst.pays id hid
    have hread : t.AsRead i flow.id := hc flow.id hid
    have hmem : flow ∈ t.2.rows i := by
      rw [show t.2.rows i = rows from ht]
      exact hflow
    exact not_cancelled (hread flow hmem rfl) hactive
  · rcases watched_cases he with ⟨e, -, -, -, rfl⟩ | ⟨o, -, -, rfl⟩
    · exact ht
    · exact (congrFun (hst.blind.record_rows o _ t.2) i).trans ht

/-! ### What a run of a flow consists of -/

/-- A statement that reads no flows and pays nothing. -/
theorem from_idle {flow : FlowRow} {st : FlowSql (Ans α)} (h : st.Blind)
    (hpays : st.paysFrom = none) : OnlyE (FlowSql.From flow) (sql st) :=
  only_sql ⟨h, by simp [hpays]⟩

theorem from_credit {flow : FlowRow} {p : CreditParams}
    (h : ∀ id ∈ (FlowSql.credit p).paysFrom, id = flow.id) :
    OnlyE (FlowSql.From flow) (creditWalletBalance p) := by
  refine OnlyE.bind (from_idle trivial rfl) fun existing => ?_
  cases existing with
  | some existing => exact OnlyE.pure _
  | none => exact OnlyE.bind (only_sql ⟨trivial, h⟩) fun _ => OnlyE.pure _

theorem from_pay {flow : FlowRow} {p : SchedulePayment} (h : p.flowId = flow.id) :
    OnlyE (FlowSql.From flow) (sql (.pay p)) :=
  only_sql ⟨trivial, fun _ hid => (Option.some.inj hid).symm.trans h⟩

theorem from_paySchedule (ctx : PayContext) (index dueAt : ℕ) (s : Schedule) :
    OnlyE (FlowSql.From ctx.flow) (paySchedule ctx index dueAt s) := by
  unfold paySchedule
  dsimp only
  split
  · exact from_pay rfl
  · split
    · exact OnlyE.throw _
    · refine OnlyE.ite (OnlyE.throw _) (OnlyE.ite ?_ (from_pay rfl))
      exact OnlyE.bind (from_idle trivial rfl) fun _ => from_pay rfl
  · split
    · exact OnlyE.throw _
    · exact from_pay rfl

theorem from_release (ctx : PayContext) (s : Schedule) :
    OnlyE (FlowSql.From ctx.flow) (release ctx s) := by
  refine OnlyE.bind (from_idle trivial rfl) fun _ => OnlyE.bind (from_idle trivial rfl)
    fun usdAmount => OnlyE.bind (from_credit fun _ hid => ?_) fun _ => OnlyE.pure _
  exact (Option.some.inj hid).symm

theorem from_executeSchedulePayment (ctx : PayContext) (index dueAt : ℕ) (s : Schedule) :
    OnlyE (FlowSql.From ctx.flow) (executeSchedulePayment ctx index dueAt s) :=
  OnlyE.ite (OnlyE.throw _) (OnlyE.ite (from_paySchedule ctx index dueAt s)
    (OnlyE.bind (from_release ctx s) fun _ => from_paySchedule ctx index dueAt s))

theorem from_runDue (C : Calendar) (ctx : RunContext) (index dueAt : ℕ) (s : Schedule)
    (p : Progress) : OnlyE (FlowSql.From ctx.flow) (runDue C ctx index dueAt s p) := by
  have hclock : OnlyE (FlowSql.From ctx.flow) clock := from_idle trivial rfl
  unfold runDue
  split
  · exact OnlyE.bind hclock fun _ => OnlyE.pure _
  · split
    · exact OnlyE.bind hclock fun _ => OnlyE.pure _
    · rename_i wallet hwallet
      refine OnlyE.tryCatch (OnlyE.bind (from_executeSchedulePayment
        ⟨ctx.userId, wallet.walletId, ctx.flow⟩ index dueAt s) fun _ => ?_) fun e => ?_
      · exact OnlyE.bind hclock fun _ => OnlyE.pure _
      · exact OnlyE.bind hclock fun _ => OnlyE.pure _

theorem from_runSchedule (C : Calendar) (ctx : RunContext) (index : ℕ) (s : Schedule)
    (p : Progress) : OnlyE (FlowSql.From ctx.flow) (runSchedule C ctx index s p) := by
  refine OnlyE.ite (OnlyE.pure _) ?_
  split
  · exact OnlyE.pure _
  · exact OnlyE.bind (from_idle trivial rfl) fun _ =>
      OnlyE.ite (OnlyE.pure _) (from_runDue C ctx index _ s p)

/-- By induction on the schedules that are left. -/
theorem from_runSchedules (C : Calendar) (ctx : RunContext) (index : ℕ) (schedules : List Schedule)
    (p : Progress) : OnlyE (FlowSql.From ctx.flow) (runSchedules C ctx index schedules p) := by
  induction schedules generalizing index p with
  | nil => exact OnlyE.pure _
  | cons s rest ih =>
      exact OnlyE.bind (from_runSchedule C ctx index s p) fun first =>
        OnlyE.bind (ih (index + 1) first.2) fun _ => OnlyE.pure _

theorem from_runFlow (C : Calendar) (userId : String) (usdWallet : Wallet) (flow : FlowRow)
    (r : RunOutcome) : OnlyE (FlowSql.From flow) (runFlow C userId usdWallet flow r) := by
  refine OnlyE.bind (OnlyE.ite (OnlyE.pure _) (from_idle trivial rfl)) fun wallet => ?_
  refine OnlyE.bind (from_runSchedules C ⟨userId, flow, wallet⟩ 0 flow.schedules {}) fun done => ?_
  refine OnlyE.bind (OnlyE.ite (OnlyE.pure _) ?_) fun _ => OnlyE.pure _
  exact OnlyE.bind (from_idle trivial rfl) fun _ => from_idle trivial rfl

/-! ### Requests -/

/-- A statement that pays nothing. -/
theorem cancel_idle {call : FlowCall α}
    (h : OnlyE (fun {β} (st : FlowSql β) => st.paysFrom = none) call) :
    Safe watchedFlows cancelDiscipline i call := by
  refine Triple.of_only h fun {β} st hst s hs t hr _ o hc b u he => ?_
  refine ⟨⟨fun id hid => ?_, fun r hr hcancelled => cancelled_exec he ⟨r, hr, rfl, hcancelled⟩⟩,
    trivial, fun j hj => watched_counts he hj, trivial⟩
  rw [hst] at hid
  cases hid

/-- The flows that are due are read. -/
theorem cancel_dueFlows (userId : String) :
    Triple watchedFlows cancelDiscipline i (fun _ => True) (sql (.dueFlows userId))
      (fun flows s => Reads i flows s ∧ ∀ flow ∈ flows, flow.status = .active) fun _ _ => True := by
  refine triple_flow (fun _ => rfl) stays_true
    (fun _ _ _ _ _ => ⟨⟨fun _ hid => (by cases hid), fun r hr h => ⟨r, hr, rfl, h⟩⟩, trivial⟩)
      fun T R o _ _ _ =>
        ⟨⟨fun _ hid => (by cases hid), fun r hr h => ⟨r, hr, rfl, h⟩⟩, trivial, ?_, ?_⟩
  · exact Function.update_self ..
  · exact fun flow hflow => dueFlows_active hflow

theorem cancel_runFlows (C : Calendar) (userId : String) (usdWallet : Wallet)
    (flows : List FlowRow) (r : RunOutcome) (hflows : ∀ flow ∈ flows, flow ∈ rows)
    (hactive : ∀ flow ∈ rows, flow.status = .active) :
    Triple watchedFlows cancelDiscipline i (Reads i rows) (runFlows C userId usdWallet flows r)
      (fun _ _ => True) fun _ _ => True := by
  induction flows generalizing r with
  | nil => exact Triple.pure fun _ _ => trivial
  | cons flow rest ih =>
      have hflow := hflows flow List.mem_cons_self
      refine Triple.bind ((cancel_only (from_runFlow C userId usdWallet flow r) hflow
        (hactive flow hflow)).mono (fun _ hs => hs) (fun _ _ hs => hs) fun _ _ _ => trivial)
          fun r' => ih r' fun flow' h => hflows flow' (List.mem_cons_of_mem _ h)

theorem cancel_runDueSchedulesForUser (C : Calendar) (userId : String) :
    Safe watchedFlows cancelDiscipline i (runDueSchedulesForUser C userId) := by
  refine Safe.bind (cancel_idle (only_sql rfl)) fun ready => ?_
  refine Safe.ite (Safe.pure _) (Safe.bind (cancel_idle (only_sql rfl)) fun wallet => ?_)
  cases wallet with
  | none => exact Safe.pure _
  | some usdWallet =>
      refine Triple.bind (cancel_dueFlows userId) fun flows => ?_
      intro s hs
      exact cancel_runFlows C userId usdWallet flows {} (fun _ h => h) hs.2 s hs.1

theorem cancel_runUsers (C : Calendar) (users : List String) (r : AllOutcome) :
    Safe watchedFlows cancelDiscipline i (runUsers C users r) := by
  induction users generalizing r with
  | nil => exact Safe.pure _
  | cons userId rest ih =>
      exact Safe.bind (cancel_runDueSchedulesForUser C userId) fun outcome => ih _

theorem idle_updateFlowSchedule (C : Calendar) (userId flowId scheduleId : String)
    (patch : SchedulePatch) :
    OnlyE (fun {β} (st : FlowSql β) => st.paysFrom = none)
      (updateFlowSchedule C userId flowId scheduleId patch) := by
  refine OnlyE.bind (only_sql rfl) fun ready => OnlyE.ite (OnlyE.throw _) ?_
  refine OnlyE.bind (only_sql rfl) fun found => ?_
  split
  · exact OnlyE.throw _
  · refine OnlyE.ite (OnlyE.throw _) ?_
    split
    · exact OnlyE.throw _
    · exact OnlyE.bind (only_sql rfl) fun _ => only_sql rfl

theorem idle_cancelFlow (userId flowId : String) :
    OnlyE (fun {β} (st : FlowSql β) => st.paysFrom = none) (cancelFlow userId flowId) := by
  have hcredit : ∀ (row : FlowRow), OnlyE (fun {β} (st : FlowSql β) => st.paysFrom = none)
      (returnHold userId flowId row) := by
    intro row
    refine OnlyE.ite (OnlyE.bind (only_sql rfl) fun wallet => ?_) (OnlyE.pure _)
    cases wallet with
    | none => exact OnlyE.throw _
    | some wallet =>
        refine OnlyE.bind (only_sql rfl) fun _ => OnlyE.bind (only_sql rfl) fun _ =>
          OnlyE.bind (OnlyE.bind (only_sql rfl) fun existing => ?_) fun _ => OnlyE.pure _
        cases existing with
        | some existing => exact OnlyE.pure _
        | none => exact OnlyE.bind (only_sql rfl) fun _ => OnlyE.pure _
  refine OnlyE.bind (only_sql rfl) fun ready => OnlyE.ite (OnlyE.throw _) ?_
  refine OnlyE.bind (only_sql rfl) fun found => ?_
  split
  · exact OnlyE.throw _
  · refine OnlyE.ite (OnlyE.pure _) (OnlyE.bind (hcredit _) fun _ => ?_)
    exact OnlyE.bind (only_sql rfl) fun _ => OnlyE.bind (only_sql rfl) fun _ => OnlyE.pure _

theorem cancel_call (C : Calendar) (r : Request) :
    Safe watchedFlows cancelDiscipline i (r.call C) := by
  have hdone : ∀ {β : Type} {call : FlowCall β}, Safe watchedFlows cancelDiscipline i call →
      Safe watchedFlows cancelDiscipline i (do let _ ← call) :=
    fun h => Safe.bind h fun _ => Safe.pure _
  cases r with
  | runDueSchedulesForUser userId => exact hdone (cancel_runDueSchedulesForUser C userId)
  | runDueSchedulesForAllUsers =>
      refine hdone (Safe.bind (cancel_idle (only_sql rfl)) fun ready => ?_)
      refine Safe.ite (Safe.pure _) (Safe.bind (cancel_idle (only_sql rfl)) fun rows => ?_)
      exact cancel_runUsers C rows _
  | updateFlowSchedule userId flowId scheduleId patch =>
      exact hdone (cancel_idle (idle_updateFlowSchedule C userId flowId scheduleId patch))
  | cancelFlow userId flowId => exact hdone (cancel_idle (idle_cancelFlow userId flowId))

end cancelled

/-! ### Runs -/

/-- **A cancelled flow pays nothing** in every run in which a flow is paid from only as long as its
row is as the run has read it. -/
theorem cancelled_flows_pay_nothing (C : Calendar) (T : Tables) (requests : List Request)
    (sched : List (ℕ × Except FlowError Outside))
    (hc : Pool.Along watchedFlows (Pool.CondAt PaysAsRead) (watched C T requests) sched) :
    CancelledForGood C T requests sched := by
  have hstart : Pool.Verified watchedFlows cancelDiscipline (fun _ _ _ => True)
      (watched C T requests) := by
    refine Pool.Verified.start trivial fun i p hp => ?_
    obtain ⟨r, -, rfl⟩ := Option.map_eq_some_iff.mp ((List.getElem?_map ..).symm.trans hp)
    exact Prog.wp_mono (fun _ _ _ => trivial) _ _ (cancel_call C r _ trivial)
  obtain ⟨-, hgood⟩ := Pool.run_sound hstart sched hc
  refine Pool.along_of_keeping (fun P e hP => ?_) hgood
  exact Pool.goodAt_of_keeping P e hP

/-! ### A run that has read the flow -/

/-- A run of the flows of a user, and the cancellation of one of them. -/
def runAndCancel : List Request := [.runDueSchedulesForUser "u1", .cancelFlow "u1" "f1"]

/-- The flow is cancelled between two of its payments. -/
def cancelledMidway : List (ℕ × Except FlowError Outside) :=
  turns 0 6 ++ turns 1 4 ++ turns 0 5

/-- The second payment is made from a flow that is cancelled. -/
theorem cancelled_flow_pays :
    ¬ CancelledForGood utc (tablesOf home) runAndCancel cancelledMidway := by
  unfold CancelledForGood
  decide +kernel

/-- A run, the cancellation and another run, one after the other. -/
theorem cancelled_flows_pay_nothing_after_all :
    CancelledForGood utc (tablesOf home) (runAndCancel ++ [.runDueSchedulesForAllUsers])
      (turns 0 11 ++ turns 1 4 ++ turns 2 4) :=
  cancelled_flows_pay_nothing _ _ _ _ (by decide +kernel)

end DayfiBackend.Flow
