import DayfiBackend.Found.Database

/-!
# Transactions as programs

`transact` runs a body between `begin` and `commit`, and rolls back when the body throws. The
rules below verify a body that locks at most one row: it is `Started` until it locks the row and
`Holds` it afterwards, whatever the other sessions do in between. `wpe_transact` turns that into a
rule for the whole transaction, with the commit as its only effect.
-/

namespace DayfiBackend.Found.Database

open Prog

variable {K R E F : Type}

/-- A statement whose failure is thrown. -/
def stmt {β : Type} (st : Stmt K R E F (Except F β)) : ExceptT F (Prog (Stmt K R E F)) β :=
  ExceptT.mk (Prog.perform st)

/-- Run a body in a transaction: commit when it returns, roll back when it throws. -/
def transact {β : Type} (body : ExceptT F (Prog (Stmt K R E F)) β) :
    ExceptT F (Prog (Stmt K R E F)) β := do
  ExceptT.lift (Prog.perform .begin)
  tryCatch (do let b ← body; stmt .commit; return b) fun e => do
    ExceptT.lift (Prog.perform .rollback)
    throw e

/-- Verification of sessions whose commits satisfy `P`. -/
def discipline (S : Schema K R E F) (base : Snapshot K R E) (P : Commit K R E → Prop) :
    Discipline (Stmt K R E F) Unit (Db K R E) where
  inv db := Sound S base db ∧ ∀ c ∈ db.wal, P c
  rely := Rely
  cond _ _ _ _ := True
  good _ _ _ _ _ _ := True
  rely_refl := Rely.refl
  rely_trans _ _ _ _ h h' := h.trans h'

/-- The session has committed nothing. -/
def Quiet (i : ℕ) (db : Db K R E) : Prop := db.wal.filter (·.session = i) = []

/-- The session is not in a transaction and has committed nothing. -/
structure Idle (i : ℕ) (db : Db K R E) : Prop where
  quiet : Quiet i db
  closed : db.isOpen i = false

/-- The transaction of the session has locked and inserted nothing. -/
structure Started (i : ℕ) (db : Db K R E) : Prop where
  quiet : Quiet i db
  locks : db.isOpen i = true → ∀ k v, db.locks k ≠ some (i, v)
  own : db.isOpen i = true → db.own i = []

/-- The transaction of the session holds the row `k`, which was `row` (or `fresh`, if there was
none), has made it `new`, and has inserted `own`. -/
structure Holds (i : ℕ) (k : K) (fresh row new : R) (own : List E) (db : Db K R E) : Prop where
  quiet : Quiet i db
  locks : db.isOpen i = true → ∀ k' v, db.locks k' = some (i, v) ↔ k' = k ∧ v = some new
  row : db.isOpen i = true → (db.committed.rows k).getD fresh = row
  own : db.isOpen i = true → db.own i = own

section stable

variable {i : ℕ} {k : K} {fresh row new : R} {own : List E} {db db' : Db K R E}

theorem Quiet.stable (h : Quiet i db) (hr : Rely i db db') : Quiet i db' := hr.wal.trans h

theorem Idle.stable (h : Idle i db) (hr : Rely i db db') : Idle i db' where
  quiet := h.quiet.stable hr
  closed := by
    cases ho : db'.isOpen i with
    | false => rfl
    | true => exact absurd (hr.isOpen ho) (by simp [h.closed])

theorem Started.stable (h : Started i db) (hr : Rely i db db') : Started i db' where
  quiet := h.quiet.stable hr
  locks ho k v hk := h.locks (hr.isOpen ho) k v ((hr.locks ho k v).mp hk)
  own ho := (hr.own ho).trans (h.own (hr.isOpen ho))

theorem Holds.stable (h : Holds i k fresh row new own db) (hr : Rely i db db') :
    Holds i k fresh row new own db' where
  quiet := h.quiet.stable hr
  locks ho k' v := (hr.locks ho k' v).trans (h.locks (hr.isOpen ho) k' v)
  row ho := by
    have hlock := (h.locks (hr.isOpen ho) k (some new)).mpr ⟨rfl, rfl⟩
    rw [hr.rows ho k (some new) hlock]
    exact h.row (hr.isOpen ho)
  own ho := (hr.own ho).trans (h.own (hr.isOpen ho))

theorem Started.visible (h : Started i db) (ho : db.isOpen i = true) (k : K) :
    db.visible i k = db.committed.rows k := by
  unfold Db.visible
  cases hk : db.locks k with
  | none => rfl
  | some x =>
      have hne : x.1 ≠ i := fun hx => h.locks ho k x.2 (by rw [hk, ← hx])
      simp [hne]

theorem Holds.visible (h : Holds i k fresh row new own db) (ho : db.isOpen i = true) :
    db.visible i k = some new := by
  have hlock := (h.locks ho k (some new)).mpr ⟨rfl, rfl⟩
  simp [Db.visible, hlock]

end stable

/-! ### Rules for statements -/

section rules

variable [DecidableEq K] {S : Schema K R E F} {base : Snapshot K R E} {P : Commit K R E → Prop}
  {i : ℕ} {s : Db K R E} {β : Type}

/-- The rule of one statement, on the state it runs in. -/
theorem wpe_stmt {st : Stmt K R E F (Except F β)} {Q : β → Db K R E → Prop}
    {X : F → Db K R E → Prop}
    (h : ∀ s₁, Rely i s s₁ → Sound S base s₁ → ∀ b s₂, exec S i st s₁ = some (b, s₂) →
      (∀ c ∈ s₂.wal, c ∈ s₁.wal ∨ P c) ∧
        match b with
        | .ok a => Q a s₂
        | .error e => X e s₂) :
    wpe (machine S) (discipline S base P) i (stmt st) Q X s := by
  refine (wp_perform _ _ _ _ _ _).mpr fun s₁ hr hinv _ _ b s₂ he => ?_
  obtain ⟨hP, hpost⟩ := h s₁ hr hinv.1 b s₂ he
  refine ⟨trivial, ⟨exec_sound he hinv.1, fun c hc => ?_⟩, fun j hj => exec_rely he hj, ?_⟩
  · rcases hP c hc with hc | hc
    · exact hinv.2 c hc
    · exact hc
  · cases b <;> exact hpost

/-- A program of any kind keeps the discipline when `P` asks nothing of its session. -/
theorem wp_any {α : Type} (hP : ∀ c : Commit K R E, c.session = i → P c) :
    (p : Prog (Stmt K R E F) α) → (s : Db K R E) →
      wp (machine S) (discipline S base P) i p (fun _ _ => True) s
  | .ret _, s => (wp_ret _ _ _ _ _ s).mpr trivial
  | .act st k, s => by
      refine (wp_act _ _ _ _ _ _ _).mpr fun s₁ _ hinv _ _ b s₂ he => ?_
      refine ⟨trivial, ⟨exec_sound he hinv.1, ?_⟩, fun j hj => exec_rely he hj, wp_any hP (k b) s₂⟩
      intro c hc
      cases exec_move he with
      | finish ho =>
          rcases List.mem_cons.mp hc with rfl | hc
          · exact hP _ rfl
          · exact hinv.2 c hc
      | stay => exact hinv.2 c hc
      | abort j => exact hinv.2 c hc
      | begin => exact hinv.2 c hc
      | hold k v ho hk => exact hinv.2 c hc
      | insert e ho h1 h2 => exact hinv.2 c hc

theorem wpe_find {q : E → Bool} {Q : Option E → Db K R E → Prop} (hs : Started i s)
    (hQ : ∀ db, Started i db → db.isOpen i = true → Q (db.committed.log.find? q) db) :
    wpe (machine S) (discipline S base P) i (stmt (.find q)) Q (fun _ => Quiet i) s := by
  refine wpe_stmt fun s₁ hr _ b s₂ he => ?_
  have hs₁ := hs.stable hr
  simp only [exec] at he
  split_ifs at he with ho
  · cases he
    refine ⟨fun c hc => .inl hc, ?_⟩
    simpa [hs₁.own ho] using hQ s₁ hs₁ ho
  · cases he
    exact ⟨fun c hc => .inl hc, hs₁.quiet⟩

theorem wpe_read {k : K} {Q : Option R → Db K R E → Prop} (hs : Started i s)
    (hQ : ∀ db, Started i db → Q (db.committed.rows k) db) :
    wpe (machine S) (discipline S base P) i (stmt (.read k)) Q (fun _ => Quiet i) s := by
  refine wpe_stmt fun s₁ hr _ b s₂ he => ?_
  have hs₁ := hs.stable hr
  simp only [exec] at he
  split_ifs at he with ho
  · cases he
    refine ⟨fun c hc => .inl hc, ?_⟩
    simpa [hs₁.visible ho] using hQ s₁ hs₁
  · cases he
    exact ⟨fun c hc => .inl hc, hs₁.quiet⟩

/-- Holding a row turns a transaction that held nothing into one that holds it. -/
theorem Started.hold {db : Db K R E} {k : K} {fresh r : R} (hs : Started i db)
    (ho : db.isOpen i = true) (hr : (db.committed.rows k).getD fresh = r) :
    Holds i k fresh r r [] (db.hold i k (some r)) where
  quiet := hs.quiet
  locks _ k' v := by
    by_cases hk : k' = k
    · subst hk
      simp [Db.hold, eq_comm]
    · simp [Db.hold, hk, hs.locks ho k' v]
  row _ := hr
  own _ := hs.own ho

theorem wpe_upsert {k : K} {fresh : R} {Q : R → Db K R E → Prop} (hs : Started i s)
    (hQ : ∀ r db, Holds i k fresh r r [] db → Q r db) :
    wpe (machine S) (discipline S base P) i (stmt (.upsert k fresh)) Q (fun _ => Quiet i) s := by
  refine wpe_stmt fun s₁ hr _ b s₂ he => ?_
  have hs₁ := hs.stable hr
  simp only [exec] at he
  split_ifs at he with ho hk
  · rw [hs₁.visible ho] at he
    cases hrow : s₁.committed.rows k with
    | some r' =>
        rw [hrow] at he
        cases he
        exact ⟨fun c hc => .inl hc, hQ _ _ (hs₁.hold ho (by simp [hrow]))⟩
    | none =>
        rw [hrow] at he
        simp only at he
        split at he
        · cases he
          exact ⟨fun c hc => .inl hc, hs₁.quiet⟩
        · cases he
          exact ⟨fun c hc => .inl hc, hQ _ _ (hs₁.hold ho (by simp [hrow]))⟩
  · cases he
    exact ⟨fun c hc => .inl hc, hs₁.quiet⟩

theorem wpe_lock_started {k : K} {fresh : R} {Q : R → Db K R E → Prop} (hs : Started i s)
    (hQ : ∀ r db, Holds i k fresh r r [] db → Q r db) :
    wpe (machine S) (discipline S base P) i (stmt (.lock k)) Q (fun _ => Quiet i) s := by
  refine wpe_stmt fun s₁ hr _ b s₂ he => ?_
  have hs₁ := hs.stable hr
  simp only [exec] at he
  split_ifs at he with ho hk
  · rw [hs₁.visible ho] at he
    cases hrow : s₁.committed.rows k with
    | some r' =>
        rw [hrow] at he
        cases he
        exact ⟨fun c hc => .inl hc, hQ _ _ (hs₁.hold ho (by simp [hrow]))⟩
    | none =>
        rw [hrow] at he
        cases he
        exact ⟨fun c hc => .inl hc, hs₁.quiet⟩
  · cases he
    exact ⟨fun c hc => .inl hc, hs₁.quiet⟩

section holds

variable {k : K} {fresh row new : R} {own : List E}

/-- Writing the row held. -/
theorem Holds.hold {db : Db K R E} {r : R} (hs : Holds i k fresh row new own db)
    (ho : db.isOpen i = true) : Holds i k fresh row r own (db.hold i k (some r)) where
  quiet := hs.quiet
  locks _ k' v := by
    by_cases hk : k' = k
    · subst hk
      simp [Db.hold, eq_comm]
    · simp [Db.hold, hk, hs.locks ho k' v]
  row := hs.row
  own := hs.own

theorem wpe_lock_holds {Q : R → Db K R E → Prop} (hs : Holds i k fresh row new own s)
    (hQ : ∀ db, Holds i k fresh row new own db → Q new db) :
    wpe (machine S) (discipline S base P) i (stmt (.lock k)) Q (fun _ => Quiet i) s := by
  refine wpe_stmt fun s₁ hr _ b s₂ he => ?_
  have hs₁ := hs.stable hr
  simp only [exec] at he
  split_ifs at he with ho hk
  · rw [hs₁.visible ho] at he
    cases he
    exact ⟨fun c hc => .inl hc, hQ _ (hs₁.hold ho)⟩
  · cases he
    exact ⟨fun c hc => .inl hc, hs₁.quiet⟩

theorem wpe_update {r : R} {Q : Unit → Db K R E → Prop} (hs : Holds i k fresh row new own s)
    (hQ : ∀ db, S.checkRow k r = .ok () → Holds i k fresh row r own db → Q () db) :
    wpe (machine S) (discipline S base P) i (stmt (.update k r)) Q (fun _ => Quiet i) s := by
  refine wpe_stmt fun s₁ hr _ b s₂ he => ?_
  have hs₁ := hs.stable hr
  simp only [exec] at he
  split_ifs at he with ho hk
  · rw [hs₁.visible ho] at he
    simp only at he
    split at he
    · cases he
      exact ⟨fun c hc => .inl hc, hs₁.quiet⟩
    · rename_i hcheck
      cases he
      exact ⟨fun c hc => .inl hc, hQ _ hcheck (hs₁.hold ho)⟩
  · cases he
    exact ⟨fun c hc => .inl hc, hs₁.quiet⟩

theorem wpe_insert {e : ℕ → E} {Q : E → Db K R E → Prop} (hs : Holds i k fresh row new [] s)
    (hQ : ∀ n db, S.checkEntry (e n) = .ok () → Holds i k fresh row new [e n] db →
      Q (e n) db) :
    wpe (machine S) (discipline S base P) i (stmt (.insert e)) Q (fun _ => Quiet i) s := by
  refine wpe_stmt fun s₁ hr _ b s₂ he => ?_
  have hs₁ := hs.stable hr
  simp only [exec] at he
  split at he
  · rename_i ho
    split at he
    · cases he
      exact ⟨fun c hc => .inl hc, hs₁.quiet⟩
    · rename_i hcheck
      split at he
      · cases he
      · split at he
        · cases he
          exact ⟨fun c hc => .inl hc, hs₁.quiet⟩
        · cases he
          refine ⟨fun c hc => .inl hc, hQ _ _ hcheck ⟨hs₁.quiet, hs₁.locks, hs₁.row, fun _ => ?_⟩⟩
          have hown := hs₁.own ho
          unfold Db.own at hown ⊢
          simp [hown]
  · cases he
    exact ⟨fun c hc => .inl hc, hs₁.quiet⟩

end holds

/-- What a body must establish for its transaction to commit: the commit satisfies `P`, and the
committed state `Q`. -/
def Committable (S : Schema K R E F) (base : Snapshot K R E) (P : Commit K R E → Prop) (i : ℕ)
    (Q : Db K R E → Prop) (db : Db K R E) : Prop :=
  Quiet i db ∧ ∀ db', Rely i db db' → Sound S base db' → db'.isOpen i = true →
    P ⟨i, db'.committed, db'.merged i, db'.own i⟩ ∧ Q (db'.finish i)

theorem wpe_commit {Q : Db K R E → Prop} (hs : Committable S base P i Q s) :
    wpe (machine S) (discipline S base P) i (stmt .commit) (fun _ => Q) (fun _ => Quiet i) s := by
  refine wpe_stmt fun s₁ hr hsound b s₂ he => ?_
  simp only [exec] at he
  split_ifs at he with ho
  · cases he
    obtain ⟨hP, hQ⟩ := hs.2 s₁ hr hsound ho
    refine ⟨fun c hc => ?_, hQ⟩
    rcases List.mem_cons.mp hc with rfl | hc
    · exact .inr hP
    · exact .inl hc
  · cases he
    exact ⟨fun c hc => .inl hc, (hs.1.stable hr : Quiet i s₁)⟩

theorem wpe_rollback {Q : Unit → Db K R E → Prop} {X : F → Db K R E → Prop} (hs : Quiet i s)
    (hQ : ∀ db, Quiet i db → Q () db) :
    wpe (machine S) (discipline S base P) i (ExceptT.lift (perform .rollback)) Q X s := by
  rw [wpe_lift]
  refine (wp_perform _ _ _ _ _ _).mpr fun s₁ hr hinv _ _ b s₂ he => ?_
  have he' : exec S i .rollback s₁ = some (b, s₂) := he
  refine ⟨trivial, ⟨exec_sound he' hinv.1, ?_⟩, fun j hj => exec_rely he' hj, ?_⟩
  · cases he
    exact hinv.2
  · cases he
    exact hQ _ (hs.stable hr : Quiet i s₁)

theorem wpe_select {q : E → Bool} {Q : Option E → Db K R E → Prop} {X : F → Db K R E → Prop}
    (hs : Quiet i s) (hQ : ∀ db, Quiet i db → Q (db.committed.log.find? q) db) :
    wpe (machine S) (discipline S base P) i (ExceptT.lift (perform (.select q))) Q X s := by
  rw [wpe_lift]
  refine (wp_perform _ _ _ _ _ _).mpr fun s₁ hr hinv _ _ b s₂ he => ?_
  have he' : exec S i (.select q) s₁ = some (b, s₂) := he
  refine ⟨trivial, ⟨exec_sound he' hinv.1, ?_⟩, fun j hj => exec_rely he' hj, ?_⟩
  · cases he
    exact hinv.2
  · cases he
    exact hQ _ (hs.stable hr)

theorem wpe_begin {Q : Unit → Db K R E → Prop} {X : F → Db K R E → Prop} (hs : Idle i s)
    (hQ : ∀ db, Started i db → Q () db) :
    wpe (machine S) (discipline S base P) i (ExceptT.lift (perform .begin)) Q X s := by
  rw [wpe_lift]
  refine (wp_perform _ _ _ _ _ _).mpr fun s₁ hr hinv _ _ b s₂ he => ?_
  have he' : exec S i .begin s₁ = some (b, s₂) := he
  have hs₁ := hs.stable hr
  have hsound := hinv.1
  refine ⟨trivial, ⟨exec_sound he' hinv.1, ?_⟩, fun j hj => exec_rely he' hj, ?_⟩
  · cases he
    exact hinv.2
  · cases he
    refine hQ _ ⟨hs₁.quiet, fun _ k v hk => ?_, fun _ => ?_⟩
    · have := hsound.holder_open k i v hk
      simp [hs₁.closed] at this
    · refine List.eq_nil_iff_forall_not_mem.mpr fun e he' => ?_
      have := hsound.inflight_open _ (mem_own.mp he')
      simp [hs₁.closed] at this

/-- The rule of a transaction. -/
theorem wpe_transact {body : ExceptT F (Prog (Stmt K R E F)) β} {Q : β → Db K R E → Prop}
    (hs : Idle i s)
    (hbody : ∀ db, Started i db → wpe (machine S) (discipline S base P) i body
      (fun b => Committable S base P i (Q b)) (fun _ => Quiet i) db) :
    wpe (machine S) (discipline S base P) i (transact body) Q (fun _ => Quiet i) s := by
  unfold transact
  rw [wpe_bind]
  refine wpe_begin hs fun db hdb => ?_
  rw [wpe_tryCatch]
  have hrun : wpe (machine S) (discipline S base P) i (do let b ← body; stmt .commit; return b) Q
      (fun _ => Quiet i) db := by
    rw [wpe_bind]
    refine wpe_mono (fun b t ht => ?_) (fun _ _ h => h) (hbody db hdb)
    rw [wpe_bind]
    exact wpe_mono (fun _ t h => (wpe_pure b).mpr h) (fun _ _ h => h) (wpe_commit ht)
  refine wpe_mono (fun _ _ h => h) (fun e t ht => ?_) hrun
  rw [wpe_bind]
  exact wpe_rollback ht fun db' hdb' => (wpe_throw e).mpr hdb'

omit [DecidableEq K] in
/-- A transaction that held nothing commits nothing. -/
theorem Started.committable {Q : Db K R E → Prop} (hs : Started i s)
    (hP : ∀ before : Snapshot K R E, P ⟨i, before, before, []⟩)
    (hQ : ∀ db, s.committed.log <:+ db.committed.log → Q db) : Committable S base P i Q s := by
  refine ⟨hs.quiet, fun db hr hsound ho => ?_⟩
  have hdb := hs.stable hr
  have hmerged : db.merged i = db.committed := by
    have hrows : db.visible i = db.committed.rows := funext fun k => hdb.visible ho k
    simp [Db.merged, hrows, hdb.own ho]
  refine ⟨?_, hQ _ ?_⟩
  · rw [hmerged, hdb.own ho]
    exact hP _
  · change _ <:+ (db.merged i).log
    rw [hmerged]
    exact hr.log

/-- A transaction that holds one row commits it with what it inserted. -/
theorem Holds.committable {k : K} {fresh row new : R} {own : List E} {Q : Db K R E → Prop}
    (hs : Holds i k fresh row new own s)
    (hP : ∀ before : Snapshot K R E, (before.rows k).getD fresh = row →
      (own ++ before.log).Pairwise (fun a b => S.clash a b = false) →
      P ⟨i, before, ⟨Function.update before.rows k (some new), own ++ before.log⟩, own⟩)
    (hQ : ∀ db, own ⊆ db.committed.log → Q db) : Committable S base P i Q s := by
  refine ⟨hs.quiet, fun db hr hsound ho => ?_⟩
  have hdb := hs.stable hr
  have hmerged : db.merged i =
      ⟨Function.update db.committed.rows k (some new), own ++ db.committed.log⟩ := by
    have hrows : db.visible i = Function.update db.committed.rows k (some new) := by
      funext k'
      by_cases hk : k' = k
      · subst hk
        rw [hdb.visible ho, Function.update_self]
      · rw [Function.update_of_ne hk]
        unfold Db.visible
        cases hlock : db.locks k' with
        | none => rfl
        | some x =>
            have hne : x.1 ≠ i := fun hx =>
              hk ((hdb.locks ho k' x.2).mp (by rw [hlock, ← hx])).1
            simp [hne]
    simp [Db.merged, hrows, hdb.own ho]
  refine ⟨?_, hQ _ ?_⟩
  · rw [hmerged, hdb.own ho]
    refine hP _ (hdb.row ho) ?_
    have hunique := hsound.unique_merged i
    rw [hdb.own ho] at hunique
    exact (List.pairwise_append.mp hunique).2.1
  · change _ ⊆ (db.merged i).log
    rw [hmerged]
    exact List.subset_append_left _ _

end rules

end DayfiBackend.Found.Database
