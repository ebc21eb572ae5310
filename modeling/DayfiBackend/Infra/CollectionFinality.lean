import DayfiBackend.Found.Recall
import DayfiBackend.Infra.CollectionCredit

/-!
# A settled collection stays settled, as long as no handler writes on a stale read

`settleCollectionCredit` and the webhooks read the transaction, decide, and then write its status
whatever it has become. A delivery that read the collection before another settled it takes it
out of `settled` (`settled_then_failed`). While a collection is settled when a handler writes its
status only if it was settled when the handler read it, no step takes it out of `settled`
(`settled_is_final`).
-/

namespace DayfiBackend.Infra

open DayfiBackend.Found DayfiBackend.Found.Prog

/-! ### Settled collections -/

/-- The collection is settled. -/
def Store.Settled (s : Store) (id : ℕ) : Prop :=
  ∃ r ∈ s.txs, r.id = id ∧ r.direction = .payment ∧ r.status = "settled"

instance (s : Store) (id : ℕ) : Decidable (s.Settled id) := by
  unfold Store.Settled
  infer_instance

/-- A step takes no collection out of `settled`. -/
def KeepsSettled {β : Type} (_pid : ℕ) (_st : Sql β) (_o : Outside) (s : Store) (_b : β)
    (t : Store) : Prop :=
  ∀ id, s.Settled id → t.Settled id

/-- No step of a run takes a collection out of `settled`. -/
def SettledIsFinal (P : Pool Sql Unit Store) (sched : List (ℕ × Outside)) : Prop :=
  Pool.Along services (Pool.GoodAt services KeepsSettled) P sched

/-- The row a call last read and has not written the status of. -/
def lastRead {β : Type} (st : Sql β) (b : β) (row : Option TxRow) : Option TxRow :=
  match st, b with
  | .loadTx .., .ok (some read) => some read
  | .loadTxByExternalId .., .ok (some read) => some read
  | .patchTx _ (some _) _, _ => none
  | _, _ => row

/-- The services beside what each call has read. -/
def recalledServices : Machine Sql Outside (Store × Memory TxRow) := services.recalling lastRead

/-- A call that writes the status of a settled collection it has read has read it settled. -/
def SettledWhenRead {β : Type} (pid : ℕ) (st : Sql β) (_o : Outside)
    (s : Store × Memory TxRow) : Prop :=
  match st with
  | .patchTx id (some _) _ =>
      ∀ row ∈ s.2 pid, row.id = id → s.1.Settled id → row.status = "settled"
  | _ => True

instance {β : Type} (pid : ℕ) (st : Sql β) (o : Outside) (s : Store × Memory TxRow) :
    Decidable (SettledWhenRead pid st o s) :=
  decidable_of_bool (match st with
    | .patchTx id (some _) _ =>
        decide (∀ row ∈ s.2 pid, row.id = id → s.1.Settled id → row.status = "settled")
    | _ => true) (by
      cases st with
      | patchTx id status f =>
          cases status <;> first | exact decide_eq_true_iff | exact iff_of_true rfl trivial
      | _ => exact iff_of_true rfl trivial)

/-! ### The invariant -/

/-- A step of the rows: unique identifiers, rows and settled collections stay. -/
structure RowsKept (s t : Store) : Prop where
  ids : UniqueIds t
  rows : KeepsRows s t
  settled : ∀ id, s.Settled id → t.Settled id

/-- The discipline of calls that write on current reads. -/
def finalDiscipline : Discipline Sql Outside (Store × Memory TxRow) where
  inv s := UniqueIds s.1
  rely i s t := t.2 i = s.2 i ∧ KeepsRows s.1 t.1
  cond := SettledWhenRead
  good _ _ _ s _ t := RowsKept s.1 t.1
  rely_refl _ _ := ⟨rfl, fun _ _ h => h⟩
  rely_trans _ _ _ _ h h' := ⟨h'.1.trans h.1, fun id dir hs => h'.2 id dir (h.2 id dir hs)⟩

/-- A statement that takes no collection of the store out of `settled`. -/
def Sql.Settles (s : Store) {β : Type} : Sql β → Prop
  | .insertTx .. => False
  | .patchTx id status _ => s.Settled id → status.getD "settled" = "settled"
  | _ => True

section statements

variable {s : Store}

/-- An update leaves the settled collections settled when the status it writes is theirs. -/
theorem Store.setTx_settled {id : ℕ} {status : Option String} (patch : Meta → Meta)
    (h : s.Settled id → status.getD "settled" = "settled") (id' : ℕ) (hs : s.Settled id') :
    (s.setTx id fun r =>
      { r with status := status.getD r.status, metadata := patch r.metadata }).Settled id' := by
  obtain ⟨r, hr, hid, hdir, hstatus⟩ := hs
  refine ⟨_, List.mem_map_of_mem hr, ?_⟩
  by_cases hrid : r.id = id
  · rw [if_pos hrid]
    have hget := h ⟨r, hr, hrid, hdir, hstatus⟩
    refine ⟨hid, hdir, ?_⟩
    change status.getD r.status = "settled"
    rw [hstatus, hget]
  · rw [if_neg hrid]
    exact ⟨hid, hdir, hstatus⟩

/-- A step that writes no row. -/
theorem RowsKept.of_txs {t : Store} (h : UniqueIds s) (htxs : t.txs = s.txs) : RowsKept s t := by
  refine ⟨?_, fun id dir => ?_, fun id => ?_⟩
  · unfold UniqueIds
    rw [htxs]
    exact h
  · unfold Store.Has
    rw [htxs]
    exact fun hs => hs
  · unfold Store.Settled
    rw [htxs]
    exact fun hs => hs

/-- **One statement keeps the rows.** -/
theorem Sql.Settles.run {β : Type} {st : Sql β} (hst : st.Settles s) (h : UniqueIds s) (i : ℕ)
    (o : Outside) : RowsKept s (st.run i o s).2 := by
  by_cases hq : st.quiet = true
  · exact .of_txs h (Sql.run_same hq i o s).txs
  cases st with
  | insertTx draft => exact hst.elim
  | patchTx id status patch =>
      have hrows := Store.setTx_rows h id (f := fun r =>
        { r with status := status.getD r.status, metadata := patch r.metadata })
        (fun _ => rfl) fun _ => rfl
      exact ⟨hrows.1, hrows.2, Store.setTx_settled patch hst⟩
  | payout step row amt => exact .of_txs h (s.post_txs _ _)
  | collection step row amt => exact .of_txs h (s.post_txs _ _)
  | createPaymentRequest id seq => simp only [Sql.run]; split <;> exact .of_txs h rfl
  | providerFails seq => exact .of_txs h rfl
  | _ => exact absurd rfl hq

end statements

/-! ### The programs -/

section programs

variable {pid : ℕ} {β : Type} {P : Store × Memory TxRow → Prop}

/-- The call keeps the discipline from `P`, and what it returns meets `Q`. -/
abbrev Finals (pid : ℕ) (P : Store × Memory TxRow → Prop) (p : Call β)
    (Q : β → Store × Memory TxRow → Prop) : Prop :=
  Triple recalledServices finalDiscipline pid P p Q fun _ _ => True

/-- An assertion the steps of the others keep. -/
def Steady (pid : ℕ) (P : Store × Memory TxRow → Prop) : Prop :=
  ∀ s t, P s → t.2 pid = s.2 pid ∧ KeepsRows s.1 t.1 → P t

/-- What the process remembers after a statement. -/
def noted {γ : Type} (pid : ℕ) (st : Sql γ) (b : γ) (mem : Memory TxRow) : Memory TxRow :=
  Function.update mem pid (lastRead st b (mem pid))

theorem noted_of_ne {γ : Type} {j : ℕ} (hj : j ≠ pid) (st : Sql γ) (b : γ)
    (mem : Memory TxRow) : noted pid st b mem j = mem j := Function.update_of_ne hj _ _

/-- What a statement does beside the memories. -/
theorem recalled_exec {γ : Type} {st : Sql γ} {o : Outside} {s : Store × Memory TxRow} {b : γ}
    {t : Store × Memory TxRow} (h : recalledServices.exec pid st o s = some (b, t)) :
    t.2 = noted pid st b s.2 ∧
      (t.1 = s.1 ∧ b = st.failed ∨ (b, t.1) = st.run pid o s.1) := by
  change (if o.fault then some (st.failed, s.1) else some (st.run pid o s.1)).map _ = _ at h
  split_ifs at h
  · cases h
    exact ⟨rfl, .inl ⟨rfl, rfl⟩⟩
  · cases h
    exact ⟨rfl, .inr rfl⟩

/-- A statement that may be run keeps the discipline. -/
theorem settles_exec {γ : Type} {st : Sql γ} {o : Outside} {s : Store × Memory TxRow} {b : γ}
    {t : Store × Memory TxRow} (h : recalledServices.exec pid st o s = some (b, t))
    (hids : UniqueIds s.1) (hst : st.Settles s.1) :
    RowsKept s.1 t.1 ∧ ∀ j, j ≠ pid → finalDiscipline.rely j s t := by
  obtain ⟨hmem, hrun⟩ := recalled_exec h
  have hkept : RowsKept s.1 t.1 := by
    rcases hrun with ⟨hs, -⟩ | hrun
    · rw [hs]
      exact .of_txs hids rfl
    · have hrows := hst.run hids pid o
      rw [← hrun] at hrows
      exact hrows
  refine ⟨hkept, fun j hj => ⟨?_, hkept.rows⟩⟩
  rw [hmem]
  exact noted_of_ne hj st b s.2

/-- The rule of a call by its statements. -/
theorem finals_only {φ : {γ : Type} → Sql γ → Prop} {p : Call β} (hp : OnlyE φ p)
    (hstable : Steady pid P)
    (hφ : ∀ {γ : Type} (st : Sql γ), φ st → ∀ t, P t → UniqueIds t.1 → st.Settles t.1 ∧
      ∀ b u, KeepsRows t.1 u → P (u, noted pid st b t.2)) :
    Finals pid P p fun _ => P := by
  refine (Triple.of_only hp fun st hst s hs t hr hi o hc b u he => ?_).mono (fun _ hs => hs)
    (fun _ _ hq => hq) fun _ _ _ => trivial
  have ht := hstable s t hs hr
  obtain ⟨hsettles, hP⟩ := hφ st hst t ht hi
  obtain ⟨hkept, hrely⟩ := settles_exec he hi hsettles
  refine ⟨hkept, hkept.ids, hrely, ?_⟩
  have hu : u = (u.1, noted pid st b t.2) := Prod.ext rfl (recalled_exec he).1
  rw [hu]
  exact hP b u.1 hkept.rows

/-- The row was read, and its status has not been written. -/
def Reads (pid : ℕ) (row : TxRow) (s : Store × Memory TxRow) : Prop :=
  s.2 pid = some row ∧ s.1.Has row.id row.direction

theorem steady_reads (row : TxRow) : Steady pid (Reads pid row) :=
  fun _ _ h hr => ⟨hr.1.trans h.1, hr.2 _ _ h.2⟩

theorem steady_true : Steady pid fun _ => True := fun _ _ _ _ => trivial

theorem steady_has (id : ℕ) (direction : TxDirection) :
    Steady pid fun s => s.1.Has id direction := fun _ _ h hr => hr.2 _ _ h

/-- The statements that read no row and write no status. -/
def Sql.Passes {γ : Type} : Sql γ → Prop
  | .insertTx .. | .loadTx .. | .loadTxByExternalId .. => False
  | .patchTx _ status _ => status = none
  | _ => True

theorem Sql.Passes.settles {γ : Type} {st : Sql γ} (h : st.Passes) (s : Store) :
    st.Settles s := by
  cases st with
  | patchTx id status patch =>
      intro _
      rw [show status = none from h]
      rfl
  | insertTx draft => exact h.elim
  | _ => trivial

theorem Sql.Passes.noted {γ : Type} {st : Sql γ} (h : st.Passes) (b : γ) (mem : Memory TxRow) :
    noted pid st b mem = mem := by
  have hread : lastRead st b (mem pid) = mem pid := by
    cases st with
    | loadTx id orgId => exact h.elim
    | loadTxByExternalId externalId => exact h.elim
    | patchTx id status patch =>
        rw [show status = none from h]
        rfl
    | _ => rfl
  unfold Infra.noted
  rw [hread, Function.update_eq_self]

/-- Calls between a read and the write it is for. -/
theorem passes_call {p : Call β} (hp : OnlyE Sql.Passes p) (row : TxRow) :
    Finals pid (Reads pid row) p fun _ => Reads pid row :=
  finals_only hp (steady_reads row) fun st hst t ht _ =>
    ⟨hst.settles t.1, fun b u hrows => by
      rw [hst.noted]
      exact ⟨ht.1, hrows _ _ ht.2⟩⟩

theorem steady_call {p : Call β} (hp : OnlyE Sql.Passes p) :
    Finals pid (fun _ => True) p fun _ _ => True :=
  finals_only hp steady_true fun _ hst t _ _ => ⟨hst.settles t.1, fun _ _ _ => trivial⟩

/-- A row that is there stays there. -/
theorem Finals.has {p : Call β} (hp : Finals pid (fun _ => True) p fun _ _ => True) (id : ℕ)
    (direction : TxDirection) :
    Triple recalledServices finalDiscipline pid (fun s => s.1.Has id direction) p
      (fun _ s => s.1.Has id direction) fun _ s => s.1.Has id direction :=
  (hp.frame (F := fun s => s.1.Has id direction) (fun _ _ h hr => hr.2 _ _ h)
    fun _ _ _ _ _ hg h => hg.rows _ _ h).mono (fun _ hs => ⟨trivial, hs⟩)
    (fun _ _ hq => hq.2) fun _ _ he => he.2

/-- The rule of loading a row. -/
theorem load_finals {st : Sql (Ans (Option TxRow))} (hst : ∀ s, st.Settles s)
    (hread : ∀ row mem, lastRead st (.ok (some row)) mem = some row)
    (hfailed : st.failed = .error .database)
    (hrow : ∀ (s : Store) o row, (st.run pid o s).1 = .ok (some row) →
      row ∈ s.txs ∧ (st.run pid o s).2 = s) :
    Finals pid (fun _ => True) (sql st) fun found s => ∀ row ∈ found, Reads pid row s := by
  refine Triple.perform (fun _ _ _ _ => trivial) fun t _ hi o _ r u he => ?_
  obtain ⟨hkept, hrely⟩ := settles_exec he hi (hst t.1)
  refine ⟨hkept, hkept.ids, hrely, ?_⟩
  obtain ⟨hmem, hrun⟩ := recalled_exec he
  cases r with
  | error e => trivial
  | ok found =>
      rintro row ⟨⟩
      rcases hrun with ⟨-, hf⟩ | hrun
      · rw [hfailed] at hf
        cases hf
      · obtain ⟨hmemrow, hsame⟩ := hrow t.1 o row (by rw [← hrun])
        refine ⟨?_, row, ?_, rfl, rfl⟩
        · rw [hmem, noted, Function.update_self, hread]
        · have hu : u.1 = t.1 := by rw [← hsame, ← hrun]
          rw [hu]
          exact hmemrow

theorem loadDirected_finals (direction : TxDirection) (id : ℕ) (orgId : Option String) :
    Finals pid (fun _ => True) (loadDirected direction id orgId)
      fun row s => row.direction = direction ∧ Reads pid row s := by
  unfold loadDirected
  refine Triple.bind (load_finals (fun _ => trivial) (fun _ _ => rfl) rfl ?_) fun found => ?_
  · intro s o row hrow
    have hfound := Except.ok.inj hrow
    exact ⟨(Store.tx_mem (Option.filter_eq_some_iff.mp hfound).1).1, rfl⟩
  · cases found with
    | none => exact Triple.throw fun _ _ => trivial
    | some row =>
        refine Triple.ite (fun hdir => ?_) fun _ => Triple.throw fun _ _ => trivial
        exact Triple.pure fun s hs => ⟨hdir, hs row rfl⟩

theorem loadTxByExternalId_finals (externalId : String) :
    Finals pid (fun _ => True) (sql (.loadTxByExternalId externalId))
      fun found s => ∀ row ∈ found, Reads pid row s := by
  refine load_finals (fun _ => trivial) (fun _ _ => rfl) rfl fun s o row hrow => ?_
  exact ⟨List.mem_of_find?_eq_some (Except.ok.inj hrow), rfl⟩

/-- A status decided on the row that was read. -/
theorem decided_finals (row : TxRow) {status : String} (patch : Meta → Meta)
    (hstatus : row.status = "settled" → status = "settled") :
    Finals pid (Reads pid row) (sql (.patchTx row.id (some status) patch)) fun _ _ => True := by
  refine Triple.perform (steady_reads row) fun t ht hi o hc r u he => ?_
  have hsettles : (Sql.patchTx row.id (some status) patch).Settles t.1 := fun hs =>
    hstatus (hc row ht.1 rfl hs)
  obtain ⟨hkept, hrely⟩ := settles_exec he hi hsettles
  refine ⟨hkept, hkept.ids, hrely, ?_⟩
  cases r <;> trivial

/-- Calls that write no status but `settled`. -/
theorem funding_finals (row : TxRow) (amt : ℚ) :
    Finals pid (fun _ => True) (fundCollectionStellarWallet row amt) fun _ _ => True :=
  finals_only (fundCollectionStellarWallet_only row amt) steady_true fun st hst t _ _ =>
    ⟨by
      cases st with
      | patchTx id status patch =>
          obtain ⟨-, hstatus, -⟩ := hst
          rcases hstatus with rfl | rfl <;> exact fun _ => rfl
      | insertTx draft => exact hst.elim
      | _ => trivial, fun _ _ _ => trivial⟩

/-- Writes of the status of a payout. -/
def Sql.OnPayout (id : ℕ) {γ : Type} : Sql γ → Prop
  | .insertTx .. => False
  | .patchTx id' _ _ => id' = id
  | _ => True

theorem onPayout_call {p : Call β} (id : ℕ) (hp : OnlyE (Sql.OnPayout id) p) :
    Finals pid (fun s => s.1.Has id .payout) p fun _ _ => True := by
  refine (finals_only hp (steady_has id .payout) fun st hst t ht hi =>
    ⟨?_, fun _ _ hrows => hrows _ _ ht⟩).mono (fun _ hs => hs) (fun _ _ _ => trivial)
    fun _ _ he => he
  cases st with
  | patchTx id' status patch =>
      rintro ⟨r, hr, hid, hdir, -⟩
      obtain ⟨r', hr', hid', hdir'⟩ := ht
      have hrr : r = r' := hi r hr r' hr' (hid.trans (Eq.trans hst hid'.symm))
      rw [hrr, hdir'] at hdir
      cases hdir
  | insertTx draft => exact hst.elim
  | _ => trivial

theorem settleCollectionCredit_finals (orgId : String) (id : ℕ) :
    Finals pid (fun _ => True) (settleCollectionCredit orgId id) fun _ _ => True := by
  have hbalance : ∀ row : TxRow, OnlyE Sql.Passes
      (sql (.getOrgBalance row.orgId (asEnv row.environment))) := fun _ => sql_only trivial
  unfold settleCollectionCredit
  refine Triple.bind (loadDirected_finals _ _ _) fun row => Triple.assume fun _ => ?_
  have hpasses : ∀ {γ : Type} {p : Call γ}, OnlyE Sql.Passes p →
      Finals pid (Reads pid row) p fun _ => Reads pid row := fun hp => passes_call hp row
  refine Triple.bind (hpasses (usdcAmountOf_only row fun _ _ => trivial)) fun amt => ?_
  refine Triple.bind (hpasses (sql_only trivial)) fun mode => ?_
  refine Triple.bind (hpasses (sql_only trivial)) fun credit => ?_
  refine Triple.bind (decided_finals row _ fun hsettled => ?_) fun _ => ?_
  · -- a settled row keeps the status it was read with
    rw [if_pos, hsettled]
    rw [hsettled]
    decide +kernel
  refine Triple.ite (fun _ => ?_) fun _ => ?_
  · refine Triple.bind (Triple.tryCatch (F := fun _ _ => True) (funding_finals row amt)
      fun _ => Triple.pure fun _ _ => trivial) fun _ => ?_
    exact Triple.bind (steady_call (hbalance row)) fun _ => Triple.pure fun _ _ => trivial
  · exact Triple.bind (steady_call (hbalance row)) fun _ => Triple.pure fun _ _ => trivial

/-- A step of a payout, after its row was read. -/
theorem settle_finals {step : PayoutStep} {row : TxRow} {amt : ℚ} {status : String}
    (patch : ℕ → Meta → Meta) (hdir : row.direction = .payout) :
    Finals pid (Reads pid row)
      (do
        let r ← sql (.payout step row amt)
        sql (.patchTx row.id (some status) (patch r.movement.id))
        let _ ← sql (.getOrgBalance row.orgId (asEnv row.environment))
        return r) fun _ _ => True := by
  refine (onPayout_call row.id ?_).mono (fun s hs => hdir ▸ hs.2) (fun _ _ hq => hq)
    fun _ _ he => he
  have hpatch : ∀ n, OnlyE (Sql.OnPayout row.id)
      (sql (.patchTx row.id (some status) (patch n))) := fun _ => sql_only rfl
  refine .bind (sql_only trivial) fun r => .bind (hpatch _) fun _ => ?_
  exact .bind (sql_only trivial) fun _ => .pure _

theorem finalizePayoutDebit_finals (orgId : Option String) (id : ℕ) :
    Finals pid (fun _ => True) (finalizePayoutDebit orgId id) fun _ _ => True := by
  unfold finalizePayoutDebit
  refine Triple.bind (loadDirected_finals _ _ _) fun row => Triple.assume fun hdir => ?_
  refine Triple.ite (fun _ => Triple.throw fun _ _ => trivial) fun _ => ?_
  cases metaUsdc row with
  | none => exact Triple.throw fun _ _ => trivial
  | some amt => exact settle_finals finalizedPatch hdir

theorem releasePayoutLock_finals (orgId : Option String) (id : ℕ) :
    Finals pid (fun _ => True) (releasePayoutLock orgId id) fun _ _ => True := by
  unfold releasePayoutLock
  refine Triple.bind (loadDirected_finals _ _ _) fun row => Triple.assume fun hdir => ?_
  refine Triple.ite (fun _ => Triple.throw fun _ _ => trivial) fun _ => ?_
  cases metaUsdc row with
  | none => exact Triple.throw fun _ _ => trivial
  | some amt => exact settle_finals releasedPatch hdir

/-- The payout half of the webhook writes the payout only. -/
theorem applyPayoutWebhook_finals (row : TxRow) (hdir : row.direction = .payout)
    (mapped : Option ProviderStatus) :
    Finals pid (Reads pid row) (applyPayoutWebhook row mapped) fun _ _ => True := by
  have hpatch : ∀ status, OnlyE (Sql.OnPayout row.id) (sql (.patchTx row.id status id)) :=
    fun _ => sql_only rfl
  have hupdate : ∀ which f, OnlyE (Sql.OnPayout row.id) (sql (.updateSettlements which f)) :=
    fun _ _ => sql_only trivial
  refine Triple.mono (P := fun s => s.1.Has row.id .payout) ?_ (fun s hs => hdir ▸ hs.2)
    (fun _ _ hq => hq) fun _ _ he => he
  unfold applyPayoutWebhook
  split
  · refine Triple.ite (fun _ => Triple.pure fun _ _ => trivial) fun _ => ?_
    refine Triple.ite (fun _ => Triple.pure fun _ _ => trivial) fun _ => ?_
    refine Triple.bind (R := fun _ s => s.1.Has row.id .payout)
      (Triple.tryCatch (F := fun _ s => s.1.Has row.id .payout)
        (Triple.bind (R := fun _ s => s.1.Has row.id .payout)
          ((finalizePayoutDebit_finals none row.id).has row.id .payout) fun _ =>
            Triple.pure fun _ hs => hs) fun e => ?_) fun released => ?_
    · exact Triple.ite (fun _ => Triple.pure fun _ hs => hs) fun _ =>
        Triple.throw fun _ _ => trivial
    refine Triple.ite (fun _ => Triple.pure fun _ _ => trivial) fun _ => ?_
    refine Triple.ite (fun _ => ?_) fun _ => Triple.pure fun _ _ => trivial
    exact onPayout_call row.id (.bind (hupdate _ _) fun _ => .bind (hpatch _) fun _ => .pure _)
  · refine Triple.ite (fun _ => Triple.pure fun _ _ => trivial) fun _ => ?_
    refine Triple.ite (fun _ => ?_) fun _ => ?_
    · exact onPayout_call row.id (.bind (hpatch _) fun _ => .bind (hupdate _ _) fun _ => .pure _)
    · refine Triple.bind (R := fun _ _ => True) (Triple.tryCatch (F := fun _ _ => True)
        (Triple.bind (R := fun _ _ => True) ((releasePayoutLock_finals none row.id).mono
          (fun _ _ => trivial) (fun _ _ hq => hq) fun _ _ he => he) fun _ =>
            Triple.pure fun _ _ => trivial) fun e => ?_) fun _ => Triple.pure fun _ _ => trivial
      exact Triple.ite (fun _ => Triple.pure fun _ _ => trivial) fun _ =>
        Triple.throw fun _ _ => trivial
  · exact Triple.pure fun _ _ => trivial

/-- A call that reads the row again. -/
theorem Finals.again {p : Call β} (hp : Finals pid (fun _ => True) p fun _ _ => True) :
    Finals pid P p fun _ _ => True :=
  hp.mono (fun _ _ => trivial) (fun _ _ hq => hq) fun _ _ he => he

/-- A row whose status is not one of the final ones is not settled. -/
theorem not_settled {row : TxRow}
    (h : row.status.toLower ∉ ["settled", "completed", "success"]) : row.status ≠ "settled" := by
  intro hs
  rw [hs] at h
  revert h
  decide +kernel

theorem applyCollectionWebhook_finals (row : TxRow) (mapped : Option ProviderStatus) :
    Finals pid (Reads pid row) (applyCollectionWebhook row mapped) fun _ _ => True := by
  unfold applyCollectionWebhook
  split
  · exact Triple.bind (settleCollectionCredit_finals _ _).again fun _ =>
      Triple.pure fun _ _ => trivial
  · refine Triple.ite (fun _ => Triple.pure fun _ _ => trivial) fun hopen => ?_
    refine Triple.bind (decided_finals row id fun hs => ?_) fun _ =>
      Triple.pure fun _ _ => trivial
    exact absurd hs (not_settled hopen)
  · exact Triple.pure fun _ _ => trivial

theorem applyInfraYellowCardWebhook_finals (payload : YellowCardWebhookPayload) :
    Finals pid (fun _ => True) (applyInfraYellowCardWebhook payload) fun _ _ => True := by
  unfold applyInfraYellowCardWebhook
  dsimp only
  refine Triple.ite (fun _ => Triple.pure fun _ _ => trivial) fun _ => ?_
  refine Triple.bind (loadTxByExternalId_finals _) fun found => ?_
  cases found with
  | none => exact Triple.pure fun _ _ => trivial
  | some row =>
      refine Triple.mono (P := Reads pid row) ?_ (fun _ hs => hs row rfl) (fun _ _ hq => hq)
        fun _ _ he => he
      dsimp only
      cases hdir : row.direction with
      | payment => exact applyCollectionWebhook_finals row _
      | payout =>
          exact Triple.ite (fun _ => Triple.pure fun _ _ => trivial) fun _ =>
            applyPayoutWebhook_finals row hdir _

theorem applyInfraFlutterwaveWebhook_finals (payload : FlutterwavePayload) :
    Finals pid (fun _ => True) (applyInfraFlutterwaveWebhook payload) fun _ _ => True := by
  unfold applyInfraFlutterwaveWebhook
  dsimp only
  refine Triple.ite (fun _ => Triple.pure fun _ _ => trivial) fun _ => ?_
  refine Triple.bind (loadTxByExternalId_finals _) fun found => ?_
  cases found with
  | none => exact Triple.pure fun _ _ => trivial
  | some row =>
      refine Triple.mono (P := Reads pid row) ?_ (fun _ hs => hs row rfl) (fun _ _ hq => hq)
        fun _ _ he => he
      refine Triple.ite (fun _ => Triple.pure fun _ _ => trivial) fun _ => ?_
      split
      · exact Triple.pure fun _ _ => trivial
      · refine Triple.ite (fun _ => Triple.pure fun _ _ => trivial) fun _ => ?_
        refine Triple.ite (fun _ => ?_) fun _ => ?_
        · exact Triple.bind (decided_finals row id fun hs => hs) fun _ =>
            Triple.pure fun _ _ => trivial
        · refine Triple.ite (fun _ => Triple.pure fun _ _ => trivial) fun _ => ?_
          exact Triple.bind (settleCollectionCredit_finals _ _).again fun _ =>
            Triple.pure fun _ _ => trivial

theorem simulateSettlement_finals (orgId env : String) (id : ℕ) :
    Finals pid (fun _ => True) (simulateSettlement orgId env id) fun _ _ => True := by
  unfold simulateSettlement
  refine Triple.ite (fun _ => Triple.throw fun _ _ => trivial) fun _ => ?_
  refine Triple.bind (R := fun _ _ => True) (finals_only (φ := fun st => ∀ s, st.Settles s)
    (sql_only fun _ => trivial) steady_true fun _ hst t _ _ =>
      ⟨hst t.1, fun _ _ _ => trivial⟩) fun found => ?_
  cases found with
  | none => exact Triple.throw fun _ _ => trivial
  | some row =>
      refine Triple.ite (fun _ => Triple.throw fun _ _ => trivial) fun _ => ?_
      refine Triple.ite (fun _ => Triple.throw fun _ _ => trivial) fun _ => ?_
      split
      · exact settleCollectionCredit_finals _ _
      · exact finalizePayoutDebit_finals _ _

theorem Delivery.finals (d : Delivery) (s : Store × Memory TxRow) :
    wp recalledServices finalDiscipline pid d.program (fun _ _ => True) s := by
  cases d with
  | settle orgId id => exact (settleCollectionCredit_finals orgId id).map_unit s trivial
  | yellowCard payload => exact (applyInfraYellowCardWebhook_finals payload).map_unit s trivial
  | flutterwave payload => exact (applyInfraFlutterwaveWebhook_finals payload).map_unit s trivial
  | simulate orgId env id => exact (simulateSettlement_finals orgId env id).map_unit s trivial

end programs

/-! ### Whole runs -/

/-- A collection that is settled at some point of a run is settled at its end. -/
theorem SettledIsFinal.stays {P : Pool Sql Unit Store} {pre post : List (ℕ × Outside)}
    (h : SettledIsFinal P (pre ++ post)) (id : ℕ) (hs : (P.run services pre).store.Settled id) :
    (P.run services (pre ++ post)).store.Settled id := by
  rw [Pool.run_append]
  exact h.append.run_of_good services (fun _ _ _ _ _ _ hg => hg id) hs

/-- **Settled is final.** In every run of any deliveries, in any interleaving, in which each
status is written by a call that read the collection settled if it is, no step takes a collection
out of `settled`. -/
theorem settled_is_final {s : Store} (hids : UniqueIds s) (ds : List Delivery)
    (sched : List (ℕ × Outside))
    (hread : Pool.Along recalledServices (Pool.CondAt SettledWhenRead) (deliveries s ds).unread
      sched) : SettledIsFinal (deliveries s ds) sched := by
  have hstart : Pool.Verified recalledServices finalDiscipline (fun _ _ _ => True)
      (deliveries s ds).unread := by
    refine Pool.Verified.start hids fun i p hp => ?_
    obtain ⟨d, -, rfl⟩ := List.mem_map.mp (List.mem_of_getElem? hp)
    exact d.finals _
  have hgood := (Pool.run_sound hstart sched hread).2
  refine Pool.along_of_recalling (fun P e hP => ?_) hgood
  exact Pool.goodAt_of_recalling P e (hP.mono recalledServices fun _ _ _ _ _ _ hg => hg.settled)

/-- The collection is settled, and reported as failed. -/
def settledAndFailed : List Delivery :=
  [.settle "org" 1, .yellowCard ⟨none, some "seq", some "failed", none⟩]

/-- The failure report comes after the collection is settled. -/
def failedAfter : List (ℕ × Outside) := steps 0 5 {} ++ steps 1 2 {}

/-- After it, the report finds the collection settled. -/
theorem settled_is_final_after :
    SettledIsFinal (deliveries collected settledAndFailed) failedAfter :=
  settled_is_final (by decide) settledAndFailed failedAfter (by decide +kernel)

/-- The report reads the collection before it is settled and writes after: the collection is
failed, and stays credited. -/
theorem settled_then_failed :
    UniqueIds collected ∧ ¬ SettledIsFinal (deliveries collected settledAndFailed)
      ((steps 1 1 {} ++ steps 0 5 {}) ++ steps 1 1 {}) := by
  refine ⟨by decide, fun h => ?_⟩
  have hstays := h.stays 1 (by decide +kernel)
  revert hstays
  decide +kernel

end DayfiBackend.Infra
