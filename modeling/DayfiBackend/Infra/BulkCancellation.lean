import DayfiBackend.Infra.BulkBatches

/-!
# A cancelled bulk batch pays nothing

`Unpaid base s batchId` says that since `base` no balance, movement, transaction or payment request
has changed, and that no item of the batch has a payout. Confirming and cancelling each check the
status of the batch and set it in a statement of its own, whatever it is by then, so a batch
cancelled while it is being confirmed still pays its items (`cancelled_batch_pays`). In every run
in which no confirmation sets a cancelled batch to processing and no cancellation is written to a
batch that is being processed, a cancelled batch stays cancelled and unpaid
(`cancelled_pays_nothing`).
-/

namespace DayfiBackend.Infra

theorem Store.Same.trans {s t u : Store} (h : Store.Same s t) (h' : Store.Same t u) :
    Store.Same s u where
  movements := h'.movements.trans h.movements
  row k := (h'.row k).trans (h.row k)
  txs := h'.txs.trans h.txs
  requests := h'.requests.trans h.requests
  nextId := h.nextId.trans h'.nextId

namespace Bulk

open DayfiBackend.Found DayfiBackend.Found.Prog

/-! ### The property -/

/-- The batch is being processed, or has been. -/
def BatchStatus.begun : BatchStatus → Bool
  | .processing | .partiallyCompleted | .completed | .failed => true
  | _ => false

def Tables.statusOf (s : Tables) (batchId : String) : Option BatchStatus :=
  (s.batches batchId).map (·.status)

/-- The batch has been confirmed. -/
def Tables.Begun (s : Tables) (batchId : String) : Prop :=
  ∃ status, s.statusOf batchId = some status ∧ status.begun = true

instance (s : Tables) (batchId : String) : Decidable (s.Begun batchId) :=
  decidable_of_iff ((s.statusOf batchId).any (·.begun) = true) (by
    unfold Tables.Begun
    cases s.statusOf batchId <;> simp)

/-- No item of the batch has a payout. -/
def Tables.NoPayouts (s : Tables) (batchId : String) : Prop :=
  ∀ item ∈ s.items, item.batchId = batchId → item.payoutTransactionId = none

/-- Nothing has been locked, moved or created since `base`. -/
structure Unpaid (base s : Tables) (batchId : String) : Prop where
  store : Store.Same base.payouts s.payouts
  items : s.NoPayouts batchId

/-- A call on the batch. -/
inductive BatchCall where
  | confirm (orgId : String) (autoSimulateTest : Bool)
  | cancel (orgId : String)
  deriving DecidableEq, Repr

def BatchCall.program (batchId : String) : BatchCall → Prog Query Unit
  | .confirm orgId autoSimulateTest =>
      (confirmBulkBatch orgId batchId autoSimulateTest).run >>= fun _ => pure ()
  | .cancel orgId => (cancelBulkBatch orgId batchId).run >>= fun _ => pure ()

/-- A status is set only where the check that allowed it would not refuse it by now. -/
def BatchSql.StillAllowed (batchId : String) {β : Type} (st : BatchSql β) (s : Tables) : Prop :=
  match st with
  | .beginBatch k => k = batchId → s.statusOf batchId ≠ some .cancelled
  | .cancelBatch k => k = batchId → ¬ s.Begun batchId
  | _ => True

/-- The condition on the steps of a run. -/
def StillAllowed (batchId : String) {β : Type} (_pid : ℕ) (st : Query β)
    (_o : Except BulkError Outside) (s : Tables) : Prop :=
  match st with
  | .payouts _ => True
  | .batch st => st.StillAllowed batchId s

instance (batchId : String) {β : Type} (pid : ℕ) (st : Query β) (o : Except BulkError Outside)
    (s : Tables) : Decidable (StillAllowed batchId pid st o s) := by
  unfold StillAllowed BatchSql.StillAllowed
  repeat' split
  all_goals infer_instance

/-! ### The invariant -/

/-- What no step undoes. -/
structure Keeps (batchId : String) (s t : Tables) : Prop where
  found : (s.batches batchId).isSome → (t.batches batchId).isSome
  begun : s.Begun batchId → t.Begun batchId
  cancelled : s.statusOf batchId = some .cancelled → t.statusOf batchId = some .cancelled

variable {batchId : String} {base s t : Tables}

theorem Keeps.refl (s : Tables) : Keeps batchId s s := ⟨id, id, id⟩

theorem Keeps.trans {u : Tables} (h : Keeps batchId s t) (h' : Keeps batchId t u) :
    Keeps batchId s u := ⟨h'.found ∘ h.found, h'.begun ∘ h.begun, h'.cancelled ∘ h.cancelled⟩

/-- The batch row is the same. -/
theorem Keeps.of_batches (h : t.batches batchId = s.batches batchId) : Keeps batchId s t := by
  refine ⟨by rw [h]; exact id, ?_, ?_⟩
  · unfold Tables.Begun Tables.statusOf
    rw [h]
    exact id
  · unfold Tables.statusOf
    rw [h]
    exact id

/-- The discipline of the calls on a batch. -/
def batchDiscipline (base : Tables) (batchId : String) :
    Discipline Query (Except BulkError Outside) Tables where
  inv s := s.Begun batchId ∨ Unpaid base s batchId
  rely _ := Keeps batchId
  cond := StillAllowed batchId
  good _ _ _ s _ t := Keeps batchId s t
  rely_refl _ := Keeps.refl
  rely_trans _ _ _ _ := Keeps.trans

theorem begun_ne_cancelled (h : s.Begun batchId) : s.statusOf batchId ≠ some .cancelled := by
  intro hc
  obtain ⟨status, hs, hb⟩ := h
  rw [hc] at hs
  cases hs
  cases hb

namespace Tables

@[simp] theorem setBatch_statusOf {k : String} {f : BatchRow → BatchRow} :
    (s.setBatch k f).statusOf batchId =
      if batchId = k then (s.batches batchId).map fun b => (f b).status
      else s.statusOf batchId := by
  show ((Function.update s.batches k ((s.batches k).map f)) batchId).map _ = _
  split_ifs with hk
  · rw [hk, Function.update_self, Option.map_map]
    rfl
  · rw [Function.update_of_ne hk]
    rfl

theorem setBatch_isSome {k : String} {f : BatchRow → BatchRow} :
    ((s.setBatch k f).batches batchId).isSome = (s.batches batchId).isSome := by
  show ((Function.update s.batches k ((s.batches k).map f)) batchId).isSome = _
  by_cases hk : batchId = k
  · rw [hk, Function.update_self, Option.isSome_map]
  · rw [Function.update_of_ne hk]

theorem begun_isSome (h : s.Begun batchId) : (s.batches batchId).isSome := by
  obtain ⟨status, hs, -⟩ := h
  obtain ⟨b, hb, -⟩ := Option.map_eq_some_iff.mp hs
  rw [hb]
  rfl

/-- A status that is set on a row that is found. -/
theorem setBatch_status {k : String} {f : BatchRow → BatchRow} {status : BatchStatus}
    (hf : ∀ b, (f b).status = status) (hs : (s.batches batchId).isSome) (hk : k = batchId) :
    (s.setBatch k f).statusOf batchId = some status := by
  obtain ⟨b, hb⟩ := Option.isSome_iff_exists.mp hs
  rw [setBatch_statusOf, if_pos hk.symm, hb, Option.map_some, hf]

end Tables

/-! ### The statements -/

/-- The statements on a batch before its payouts. -/
def BatchSql.waiting {β : Type} : BatchSql β → Bool
  | .recordTotals .. | .updateItem .. => false
  | _ => true

/-- The statements on a confirmed batch. -/
def BatchSql.paying {β : Type} : BatchSql β → Bool
  | .cancelBatch .. | .beginBatch .. => false
  | .recordTotals _ status _ => status.begun
  | _ => true

/-- The statements of a call that has not begun to pay. -/
def Query.Waiting {β : Type} : Query β → Prop
  | .payouts st => st.quiet = true
  | .batch st => st.waiting = true

/-- The statements of a call that pays. -/
def Query.Paying {β : Type} : Query β → Prop
  | .payouts _ => True
  | .batch st => st.paying = true

variable {β : Type} {i : ℕ}

/-- A statement before the payouts. -/
theorem step_waiting {st : Query β} (hst : st.Waiting) {o : Outside}
    (hc : StillAllowed batchId i st (.ok o) s) (h : s.Begun batchId ∨ Unpaid base s batchId) :
    ((st.run i o s).2.Begun batchId ∨ Unpaid base (st.run i o s).2 batchId) ∧
      Keeps batchId s (st.run i o s).2 := by
  cases st with
  | payouts st =>
      unfold Query.run
      dsimp only
      split_ifs
      · exact ⟨h, .refl s⟩
      · refine ⟨h.imp id fun hu => ⟨hu.store.trans (Sql.run_same hst i o s.payouts), hu.items⟩,
          Keeps.of_batches rfl⟩
  | batch st =>
      cases st with
      | loadBatch k orgId => exact ⟨h, .refl s⟩
      | listItems k => exact ⟨h, .refl s⟩
      | recordTotals k status totals => cases hst
      | updateItem k f => cases hst
      | cancelItems k =>
          refine ⟨h.imp id fun hu => ⟨hu.store, fun item hitem hb => ?_⟩, Keeps.of_batches rfl⟩
          obtain ⟨item', hitem', rfl⟩ := List.mem_map.mp hitem
          split_ifs at hb ⊢ <;> exact hu.items item' hitem' hb
      | beginBatch k =>
          show (((s.setBatch k _).Begun batchId ∨ Unpaid base (s.setBatch k _) batchId) ∧
            Keeps batchId s (s.setBatch k _))
          have hmono : s.Begun batchId → (s.setBatch k fun b =>
              { b with status := .processing }).Begun batchId := by
            intro hb
            by_cases hk : k = batchId
            · exact ⟨_, Tables.setBatch_status (fun _ => rfl) (Tables.begun_isSome hb) hk, rfl⟩
            · obtain ⟨status, hs, hbegun⟩ := hb
              refine ⟨status, ?_, hbegun⟩
              rw [Tables.setBatch_statusOf, if_neg (Ne.symm hk), hs]
          refine ⟨h.imp hmono fun hu => ⟨hu.store, hu.items⟩,
            ⟨fun hs => Tables.setBatch_isSome.trans hs, hmono, fun hcancelled => ?_⟩⟩
          rw [Tables.setBatch_statusOf, if_neg fun hk => hc hk.symm hcancelled, hcancelled]
      | cancelBatch k =>
          show (((s.setBatch k _).Begun batchId ∨ Unpaid base (s.setBatch k _) batchId) ∧
            Keeps batchId s (s.setBatch k _))
          have hmono : s.Begun batchId → (s.setBatch k fun b =>
              { b with status := .cancelled }).Begun batchId := by
            intro hb
            obtain ⟨status, hs, hbegun⟩ := hb
            refine ⟨status, ?_, hbegun⟩
            rw [Tables.setBatch_statusOf, if_neg fun hk => hc hk.symm ⟨status, hs, hbegun⟩, hs]
          refine ⟨h.imp hmono fun hu => ⟨hu.store, hu.items⟩,
            ⟨fun hs => Tables.setBatch_isSome.trans hs, hmono, fun hcancelled => ?_⟩⟩
          rw [Tables.setBatch_statusOf]
          split_ifs with hk
          · obtain ⟨b, hb, -⟩ := Option.map_eq_some_iff.mp hcancelled
            rw [hb]
            rfl
          · exact hcancelled

/-- A statement of a confirmed batch. -/
theorem step_paying {st : Query β} (hst : st.Paying) (o : Outside) (h : s.Begun batchId) :
    (st.run i o s).2.Begun batchId ∧ Keeps batchId s (st.run i o s).2 := by
  have hkeeps : ∀ t : Tables, t.Begun batchId → t.Begun batchId ∧ Keeps batchId s t :=
    fun t ht => ⟨ht, fun _ => Tables.begun_isSome ht, fun _ => ht, fun hcancelled =>
      absurd hcancelled (begun_ne_cancelled h)⟩
  cases st with
  | payouts st =>
      unfold Query.run
      dsimp only
      split_ifs
      · exact ⟨h, .refl s⟩
      · exact hkeeps _ h
  | batch st =>
      cases st with
      | loadBatch k orgId => exact ⟨h, .refl s⟩
      | listItems k => exact ⟨h, .refl s⟩
      | cancelItems k => exact hkeeps _ h
      | updateItem k f => exact hkeeps _ h
      | beginBatch k => cases hst
      | cancelBatch k => cases hst
      | recordTotals k status totals =>
          refine hkeeps _ ?_
          by_cases hk : k = batchId
          · exact ⟨status, Tables.setBatch_status (fun _ => rfl) (Tables.begun_isSome h) hk, hst⟩
          · obtain ⟨status', hs, hbegun⟩ := h
            refine ⟨status', ?_, hbegun⟩
            show (s.setBatch k _).statusOf batchId = _
            rw [Tables.setBatch_statusOf, if_neg (Ne.symm hk), hs]

/-! ### The programs -/

/-- The program keeps the discipline, and what it returns meets `Q`. -/
abbrev Goes (base : Tables) (batchId : String) (i : ℕ) (P : Tables → Prop) (p : BulkCall β)
    (Q : β → Tables → Prop) : Prop :=
  Triple backend.machine (batchDiscipline base batchId) i P p Q fun _ _ => True

/-- A call made of statements before the payouts. -/
theorem goes_waiting {p : BulkCall β} (hp : OnlyE Query.Waiting p) {P : Tables → Prop}
    (hP : ∀ s t, P s → Keeps batchId s t → P t) : Goes base batchId i P p fun _ => P := by
  refine (Triple.of_only hp fun {γ} st hst s hs t hr hinv o hc b u he => ?_).mono
    (fun _ h => h) (fun _ _ h => h) fun _ _ _ => trivial
  rcases Backend.exec_cases he with ⟨e, rfl, rfl, rfl⟩ | ⟨o', rfl, rfl, rfl⟩
  · exact ⟨.refl u, hinv, fun _ _ => .refl u, hP _ _ hs hr⟩
  · obtain ⟨hinv', hkeeps⟩ := step_waiting hst hc hinv
    exact ⟨hkeeps, hinv', fun _ _ => hkeeps, hP _ _ (hP _ _ hs hr) hkeeps⟩

/-- A call made of statements of a confirmed batch. -/
theorem goes_paying {p : BulkCall β} (hp : OnlyE Query.Paying p) :
    Goes base batchId i (fun s => s.Begun batchId) p fun _ _ => True := by
  refine (Triple.of_only hp fun {γ} st hst s hs t hr hinv o hc b u he => ?_).mono
    (fun _ h => h) (fun _ _ _ => trivial) fun _ _ _ => trivial
  rcases Backend.exec_cases he with ⟨e, rfl, rfl, rfl⟩ | ⟨o', rfl, rfl, rfl⟩
  · exact ⟨.refl u, hinv, fun _ _ => .refl u, hr.begun hs⟩
  · obtain ⟨hbegun, hkeeps⟩ := step_paying (i := i) hst o' (hr.begun hs)
    exact ⟨hkeeps, .inl hbegun, fun _ _ => hkeeps, hbegun⟩

theorem sql_only {φ : {γ : Type} → Query γ → Prop} {st : BatchSql (Ans β)}
    (h : φ (.batch st)) : OnlyE φ (sql st) := by
  unfold OnlyE
  exact ⟨h, fun _ => trivial⟩

/-- Every status the totals give is one of a confirmed batch. -/
theorem parentStatus_begun (a : Aggregate) : a.parentStatus.begun = true := by
  unfold Aggregate.parentStatus
  split_ifs <;> rfl

theorem loadBatch_paying (orgId : String) : OnlyE Query.Paying (loadBatch orgId batchId) := by
  unfold loadBatch
  refine .bind (sql_only rfl) fun found => ?_
  cases found with
  | none => exact .throw _
  | some batch => exact .pure _

theorem getBatchWithItems_paying (orgId : String) :
    OnlyE Query.Paying (getBatchWithItems orgId batchId) := by
  unfold getBatchWithItems
  exact .bind (loadBatch_paying orgId) fun _ => .bind (sql_only rfl) fun _ => .pure _

theorem payouts_paying {γ : Type} (p : Call γ) : OnlyE Query.Paying (payouts p) :=
  onlyE_embedCall_any fun _ => trivial

theorem aggregateItems_paying (orgId : String) (items : List ItemRow) (a : Aggregate) :
    OnlyE Query.Paying (aggregateItems orgId items a) := by
  induction items generalizing a with
  | nil => exact .pure _
  | cons item items ih =>
      unfold aggregateItems
      cases item.payoutTransactionId with
      | none => exact ih _
      | some id =>
          refine .bind (payouts_paying _) fun found => ?_
          cases found with
          | none => exact ih _
          | some tx => exact .ite (.bind (sql_only rfl) fun _ => ih _) (ih _)

theorem refreshBatchAggregates_paying (orgId : String) :
    OnlyE Query.Paying (refreshBatchAggregates orgId batchId) := by
  unfold refreshBatchAggregates
  refine .bind (loadBatch_paying orgId) fun current => ?_
  refine .ite (getBatchWithItems_paying orgId) ?_
  refine .bind (sql_only rfl) fun items => .bind (aggregateItems_paying orgId items {})
    fun totals => ?_
  exact .bind (sql_only (parentStatus_begun totals)) fun _ => getBatchWithItems_paying orgId

theorem confirmItem_paying (orgId : String) (batch : BatchRow) (autoSimulate : Bool)
    (item : ItemRow) : OnlyE Query.Paying (confirmItem orgId batchId batch autoSimulate item) := by
  unfold confirmItem
  refine .tryCatch (.bind (payouts_paying _) fun payout => ?_) fun e => sql_only rfl
  refine .bind (sql_only rfl) fun _ => .ite ?_ (.pure _)
  unfold simulateItem
  exact .tryCatch (.bind (payouts_paying _) fun _ => sql_only rfl) fun e => sql_only rfl

theorem confirmItems_paying (orgId : String) (batch : BatchRow) (autoSimulate : Bool)
    (items : List ItemRow) :
    OnlyE Query.Paying (confirmItems orgId batchId batch autoSimulate items) := by
  induction items with
  | nil => exact .pure _
  | cons item items ih => exact .bind (confirmItem_paying orgId batch autoSimulate item) fun _ => ih

theorem loadBatch_waiting (orgId : String) : OnlyE Query.Waiting (loadBatch orgId batchId) := by
  unfold loadBatch
  refine .bind (sql_only rfl) fun found => ?_
  cases found with
  | none => exact .throw _
  | some batch => exact .pure _

theorem listItems_waiting (k : String) : OnlyE Query.Waiting (sql (.listItems k)) := sql_only rfl

theorem getOrgBalance_waiting (orgId environment : String) :
    OnlyE Query.Waiting (payouts (Infra.sql (.getOrgBalance orgId environment))) :=
  onlyE_embedCall (φ := fun st => st.quiet = true) (fun _ h => h) (Infra.sql_only rfl)

/-- A batch that is read is found. -/
theorem goes_loadBatch (orgId : String) :
    Goes base batchId i (fun _ => True) (loadBatch orgId batchId)
      fun _ s => (s.batches batchId).isSome := by
  unfold loadBatch
  refine Triple.bind (R := fun found s => found.isSome → (s.batches batchId).isSome)
    (Backend.triple_call (fun _ => rfl) (fun _ _ h _ => h) (fun s e _ _ => ⟨.refl s, trivial⟩)
      fun s o _ hinv _ => ⟨.refl s, hinv, fun _ _ => .refl s, fun h => ?_⟩) fun found => ?_
  · obtain ⟨b, hb⟩ := Option.isSome_iff_exists.mp h
    show (s.batches batchId).isSome
    rw [(Option.filter_eq_some_iff.mp hb).1]
    rfl
  · cases found with
    | none => exact Triple.throw fun _ _ => trivial
    | some batch => exact Triple.pure fun s h => h rfl

theorem goes_confirm (orgId : String) (autoSimulateTest : Bool) :
    Goes base batchId i (fun _ => True) (confirmBulkBatch orgId batchId autoSimulateTest)
      fun _ _ => True := by
  have hfound : ∀ s t : Tables, (s.batches batchId).isSome → Keeps batchId s t →
      (t.batches batchId).isSome := fun _ _ h hk => hk.found h
  unfold confirmBulkBatch
  refine Triple.bind (goes_loadBatch orgId) fun batch => ?_
  refine Triple.ite (fun _ => Triple.throw fun _ _ => trivial) fun _ => ?_
  refine Triple.bind (goes_waiting (listItems_waiting batchId) hfound) fun all => ?_
  dsimp only
  refine Triple.ite (fun _ => Triple.throw fun _ _ => trivial) fun _ => ?_
  refine Triple.bind (goes_waiting (getOrgBalance_waiting orgId _) hfound) fun balance => ?_
  refine Triple.ite (fun _ => Triple.throw fun _ _ => trivial) fun _ => ?_
  refine Triple.bind (R := fun _ s => s.Begun batchId) ?_ fun _ => goes_paying
    (.bind (confirmItems_paying orgId batch _ _) fun _ => refreshBatchAggregates_paying orgId)
  refine Backend.triple_call (fun _ => rfl) hfound (fun s e _ _ => ⟨.refl s, trivial⟩)
    fun s o hs hinv hc => ?_
  have hwaiting : (Query.batch (.beginBatch batchId)).Waiting := rfl
  obtain ⟨hinv', hkeeps⟩ := step_waiting (i := i) hwaiting (o := o) hc hinv
  exact ⟨hkeeps, hinv', fun _ _ => hkeeps, _, Tables.setBatch_status (fun _ => rfl) hs rfl, rfl⟩

theorem goes_cancel (orgId : String) :
    Goes base batchId i (fun _ => True) (cancelBulkBatch orgId batchId) fun _ _ => True := by
  refine goes_waiting ?_ fun _ _ _ _ => trivial
  unfold cancelBulkBatch getBatchWithItems
  refine .bind (loadBatch_waiting orgId) fun batch => .ite (.throw _) ?_
  refine .bind (sql_only rfl) fun _ => .bind (sql_only rfl) fun _ => ?_
  exact .bind (loadBatch_waiting orgId) fun _ => .bind (sql_only rfl) fun _ => .pure _

theorem BatchCall.verifies (call : BatchCall) (s : Tables) :
    wp backend.machine (batchDiscipline base batchId) i (call.program batchId)
      (fun _ _ => True) s := by
  cases call with
  | confirm orgId autoSimulateTest =>
      exact Triple.map_unit (goes_confirm orgId autoSimulateTest) s trivial
  | cancel orgId => exact Triple.map_unit (goes_cancel orgId) s trivial

/-! ### Whole runs -/

/-- The pool of a list of calls on a batch. -/
def batchPool (s : Tables) (batchId : String) (calls : List BatchCall) : Pool Query Unit Tables :=
  ⟨s, calls.map (BatchCall.program batchId)⟩

/-- **A cancelled batch pays nothing.** In every run of confirmations and cancellations of a
batch, in any interleaving and with any failures, in which each status is set where it is still
allowed: once the batch is cancelled, it is cancelled in every later state, and in each of them
nothing has been locked, moved or created, nor has any item of the batch a payout. -/
theorem cancelled_pays_nothing (hbase : base.NoPayouts batchId) (calls : List BatchCall)
    (pre post : List (ℕ × Except BulkError Outside))
    (hallowed : Pool.Along backend.machine (Pool.CondAt (StillAllowed batchId))
      (batchPool base batchId calls) (pre ++ post))
    (hcancelled : ((batchPool base batchId calls).run backend.machine pre).store.statusOf batchId =
      some .cancelled) :
    ((batchPool base batchId calls).run backend.machine (pre ++ post)).store.statusOf batchId =
        some .cancelled ∧
      Unpaid base ((batchPool base batchId calls).run backend.machine (pre ++ post)).store
        batchId := by
  have hstart : Pool.Verified backend.machine (batchDiscipline base batchId) (fun _ _ _ => True)
      (batchPool base batchId calls) := by
    refine Pool.Verified.start (.inr ⟨Store.Same.refl _, hbase⟩) fun i p hp => ?_
    obtain ⟨call, -, rfl⟩ := List.mem_map.mp (List.mem_of_getElem? hp)
    exact call.verifies base
  obtain ⟨hverified, hgood⟩ := Pool.run_sound hstart (pre ++ post) hallowed
  have hstays : ((batchPool base batchId calls).run backend.machine (pre ++ post)).store.statusOf
      batchId = some .cancelled := by
    rw [Pool.run_append]
    exact Pool.Along.run_of_good (M := backend.machine)
      (F := fun s : Tables => s.statusOf batchId = some .cancelled)
      (fun _ _ _ _ _ _ hk hs => Keeps.cancelled hk hs) (Pool.Along.append _ hgood) hcancelled
  refine ⟨hstays, ?_⟩
  have hinv : Tables.Begun _ batchId ∨ Unpaid base _ batchId := hverified.1
  exact hinv.resolve_left fun hbegun => begun_ne_cancelled hbegun hstays

/-- A ready batch of two crypto payouts of 40 and 60 USDC, with 500 USDC available. -/
def readyBatch : Tables where
  payouts := {
    ledger := {
      wallets := fun k => if k = ⟨"org", .test, "USDC"⟩ then
        some ⟨.active, ⟨500 * 10 ^ 7, 0, 0⟩⟩ else none
      movements := []
      nextMovementId := 0 }
    txs := []
    settlements := []
    requests := []
    payments := []
    nextId := 1 }
  batches := fun k => if k = "b" then some ⟨"org", "test", .ready, {}⟩ else none
  items := [
    { id := "x", batchId := "b", lineNumber := 1, recipientId := some "r", amount := 40,
      currency := "USDC", usdcAmount := some 40, status := .ready },
    { id := "y", batchId := "b", lineNumber := 2, recipientId := some "r", amount := 60,
      currency := "USDC", usdcAmount := some 60, status := .ready }]

/-- The batch is confirmed and cancelled. -/
def confirmAndCancel : List BatchCall := [.confirm "org" false, .cancel "org"]

/-- The turns of the two calls; every recipient has a crypto wallet. -/
def batchTurns (turns : List (ℕ × ℕ)) : List (ℕ × Except BulkError Outside) :=
  turns.flatMap fun t => List.replicate t.2 (t.1, .ok {
    quote := some 1
    destination := { accountType := "crypto", asset := some "USDC", walletAddress := some "G" } })

/-- The tables after both calls have taken these turns. -/
def afterTurns (turns : List (ℕ × ℕ)) : Tables :=
  ((batchPool readyBatch "b" confirmAndCancel).run backend.machine (batchTurns turns)).store

theorem readyBatch_noPayouts : readyBatch.NoPayouts "b" := by
  unfold Tables.NoPayouts
  decide

/-- The batch is cancelled before it is confirmed. -/
theorem cancelled_then_refused :
    (afterTurns [(1, 5), (0, 1)]).statusOf "b" = some .cancelled ∧
      Unpaid readyBatch (afterTurns [(1, 5), (0, 1)]) "b" :=
  cancelled_pays_nothing readyBatch_noPayouts confirmAndCancel (batchTurns [(1, 5)])
    (batchTurns [(0, 1)]) (by decide +kernel) (by decide +kernel)

/-- The cancellation reads the batch while it is ready, and is written when the confirmation has
begun: after it the first item locks its 40 USDC. -/
theorem cancelled_batch_pays :
    (afterTurns [(1, 1), (0, 4), (1, 1)]).statusOf "b" = some .cancelled ∧
      (afterTurns [(1, 1), (0, 4), (1, 1), (0, 6)]).statusOf "b" = some .cancelled ∧
        ¬ Unpaid readyBatch (afterTurns [(1, 1), (0, 4), (1, 1), (0, 6)]) "b" := by
  refine ⟨by decide +kernel, by decide +kernel, fun h => ?_⟩
  have hlock : (afterTurns [(1, 1), (0, 4), (1, 1), (0, 6)]).payouts.ledger.movements.map
      (fun m => (m.posting, m.amount)) = [(.lock, 40 * 10 ^ 7)] := by decide +kernel
  rw [h.store.movements] at hlock
  cases hlock

end Bulk

end DayfiBackend.Infra
