import DayfiBackend.Found.Transact

/-!
# A transaction that has the database to itself

While no other session holds a lock or has inserted anything, and none commits, a transaction works
on tables of its own: the committed ones with what it wrote. `Inside i base v n` says so, `v` being
those tables and `n` the next identifier. `Yields` is what a statement does to them; the rules below
give it for every statement that succeeds, and `Inside.commit` publishes `v`.
-/

namespace DayfiBackend.Found.Database

variable {K R E F : Type}

/-- A row of the tables. -/
def Snapshot.setRow [DecidableEq K] (v : Snapshot K R E) (k : K) (r : R) : Snapshot K R E :=
  { v with rows := Function.update v.rows k (some r) }

/-- An entry of the tables. -/
def Snapshot.insert (v : Snapshot K R E) (e : E) : Snapshot K R E := { v with log := e :: v.log }

/-- Session `i` is in a transaction that sees the tables `v`, the others hold nothing, and `base`
is committed. -/
structure Inside (i : ℕ) (base v : Snapshot K R E) (n : ℕ) (db : Db K R E) : Prop where
  isOpen : db.isOpen i = true
  committed : db.committed = base
  locks : ∀ k j w, db.locks k = some (j, w) → j = i
  inflight : ∀ x ∈ db.inflight, x.1 = i
  merged : db.merged i = v
  nextId : db.nextId = n

/-- No lock is held and nothing is uncommitted. -/
structure Free (db : Db K R E) : Prop where
  locks : ∀ k, db.locks k = none
  inflight : db.inflight = []

section inside

variable {i : ℕ} {base v : Snapshot K R E} {n : ℕ} {db : Db K R E} {k : K}

/-- A transaction of a free database is alone in it. -/
theorem Free.inside (h : Free db) (ho : db.isOpen i = true) :
    Inside i db.committed db.committed db.nextId db where
  isOpen := ho
  committed := rfl
  locks k j w hk := by simp [h.locks k] at hk
  inflight x hx := by simp [h.inflight] at hx
  merged := by
    have hrows : db.visible i = db.committed.rows := by
      funext k
      simp [Db.visible, h.locks k]
    simp [Db.merged, Db.own, h.inflight, hrows]
  nextId := rfl

theorem Inside.visible (h : Inside i base v n db) : db.visible i k = v.rows k := by
  rw [← h.merged]
  rfl

theorem Inside.log (h : Inside i base v n db) : db.own i ++ db.committed.log = v.log := by
  rw [← h.merged]
  rfl

theorem Inside.heldByOther (h : Inside i base v n db) : db.heldByOther i k = false :=
  heldByOther_eq_false.mpr (h.locks k)

theorem Inside.others (h : Inside i base v n db) : db.others i = [] := by
  unfold Db.others
  rw [List.filter_eq_nil_iff]
  intro x hx
  simp [h.inflight x hx]

/-- Writing or locking a row. -/
theorem Inside.hold [DecidableEq K] (h : Inside i base v n db) (r : R) :
    Inside i base (v.setRow k r) n (db.hold i k (some r)) where
  isOpen := h.isOpen
  committed := h.committed
  locks k' j w hk := by
    by_cases hkk : k' = k
    · subst hkk
      simp only [Db.hold, Function.update_self, Option.some.injEq, Prod.mk.injEq] at hk
      exact hk.1.symm
    · simp only [Db.hold, Function.update_of_ne hkk] at hk
      exact h.locks k' j w hk
  inflight := h.inflight
  merged := by
    have hrows : (db.hold i k (some r)).visible i = Function.update (db.visible i) k (some r) := by
      funext k'
      by_cases hkk : k' = k
      · subst hkk
        simp [Db.visible, Db.hold]
      · simp [Db.visible, Db.hold, hkk]
    have hm := h.merged
    unfold Db.merged at hm ⊢
    rw [hrows, ← hm]
    rfl
  nextId := h.nextId

/-- Inserting an entry. -/
theorem Inside.insert (h : Inside i base v n db) (e : E) :
    Inside i base (v.insert e) (n + 1)
      { db with inflight := (i, e) :: db.inflight, nextId := db.nextId + 1 } where
  isOpen := h.isOpen
  committed := h.committed
  locks := h.locks
  inflight x hx := by
    rcases List.mem_cons.mp hx with rfl | hx
    · rfl
    · exact h.inflight x hx
  merged := by
    have hrows : Db.visible { db with
        inflight := (i, e) :: db.inflight
        nextId := db.nextId + 1 } i = db.visible i := rfl
    rw [← h.merged]
    simp [Db.merged, Db.own, hrows, Snapshot.insert]
  nextId := by rw [h.nextId]

/-- What a session that is alone sees does not change while nothing it looks at does. -/
theorem Inside.congr {db' : Db K R E} (h : Inside i base v n db)
    (ho : db'.isOpen i = db.isOpen i) (hcommitted : db'.committed = db.committed)
    (hlocks : db'.locks = db.locks) (hinflight : db'.inflight = db.inflight)
    (hid : db'.nextId = db.nextId) : Inside i base v n db' where
  isOpen := ho.trans h.isOpen
  committed := hcommitted.trans h.committed
  locks := by
    rw [hlocks]
    exact h.locks
  inflight := by
    rw [hinflight]
    exact h.inflight
  merged := by
    have hrows : db'.visible i = db.visible i := by
      funext k
      simp [Db.visible, hcommitted, hlocks]
    rw [← h.merged]
    simp [Db.merged, Db.own, hcommitted, hinflight, hrows]
  nextId := hid.trans h.nextId

/-- A row that is there may be set to itself. -/
theorem Snapshot.setRow_of_eq [DecidableEq K] {r : R} (h : v.rows k = some r) :
    v.setRow k r = v := by
  unfold Snapshot.setRow
  rw [← h, Function.update_eq_self]

/-- The end of the transaction. -/
theorem Inside.commit [DecidableEq K] {S : Schema K R E F} (h : Inside i base v n db) :
    exec S i .commit db = some (.ok (), db.finish i) ∧ (db.finish i).committed = v ∧
      (db.finish i).nextId = n ∧ Free (db.finish i) := by
  refine ⟨?_, h.merged, h.nextId, fun k => ?_, h.others⟩
  · simp [exec, h.isOpen]
  · cases hk : db.locks k with
    | none => simp [Db.finish, Db.abort, hk]
    | some x => simp [Db.finish, Db.abort, hk, h.locks k x.1 x.2 hk]

end inside

/-! ### What statements do inside -/

/-- Inside a transaction that sees `v`, the statement answers `a` and leaves `v'`. -/
def Yields [DecidableEq K] (S : Schema K R E F) {β : Type} (st : Stmt K R E F (Except F β))
    (v : Snapshot K R E) (n : ℕ) (a : β) (v' : Snapshot K R E) (n' : ℕ) : Prop :=
  ∀ i base db, Inside i base v n db →
    ∃ db', exec S i st db = some (.ok a, db') ∧ Inside i base v' n' db' ∧ db'.isOpen = db.isOpen

section yields

variable [DecidableEq K] {S : Schema K R E F} {v : Snapshot K R E} {n : ℕ} {k : K} {r : R}

theorem yields_find (q : E → Bool) : Yields S (.find q) v n (v.log.find? q) v n := by
  intro i base db h
  refine ⟨db, ?_, h, rfl⟩
  simp [exec, h.isOpen, h.log]

theorem yields_read : Yields S (.read k) v n (v.rows k) v n := by
  intro i base db h
  refine ⟨db, ?_, h, rfl⟩
  simp [exec, h.isOpen, h.visible]

theorem yields_upsert (hrow : v.rows k = none) (hcheck : S.checkRow k r = .ok ()) :
    Yields S (.upsert k r) v n r (v.setRow k r) n := by
  intro i base db h
  refine ⟨db.hold i k (some r), ?_, h.hold r, rfl⟩
  simp [exec, h.isOpen, h.heldByOther, h.visible, hrow, hcheck]

theorem yields_lock (hrow : v.rows k = some r) : Yields S (.lock k) v n r v n := by
  intro i base db h
  refine ⟨db.hold i k (some r), ?_, ?_, rfl⟩
  · simp [exec, h.isOpen, h.heldByOther, h.visible, hrow]
  · have hinside := h.hold (k := k) r
    rwa [Snapshot.setRow_of_eq hrow] at hinside

theorem yields_update {r' : R} (hrow : v.rows k = some r') (hcheck : S.checkRow k r = .ok ()) :
    Yields S (.update k r) v n () (v.setRow k r) n := by
  intro i base db h
  refine ⟨db.hold i k (some r), ?_, h.hold r, rfl⟩
  simp [exec, h.isOpen, h.heldByOther, h.visible, hrow, hcheck]

theorem yields_insert {e : ℕ → E} (hcheck : S.checkEntry (e n) = .ok ())
    (hclash : ∀ x ∈ v.log, S.clash (e n) x = false) :
    Yields S (.insert e) v n (e n) (v.insert (e n)) (n + 1) := by
  intro i base db h
  have hnone : ¬ (db.own i ++ db.committed.log).any (S.clash (e n)) = true := by
    rw [h.log]
    simpa using hclash
  refine ⟨{ db with inflight := (i, e n) :: db.inflight, nextId := db.nextId + 1 }, ?_,
    h.insert (e n), rfl⟩
  simp only [exec, h.isOpen, if_true, h.nextId, hcheck, h.others, List.any_nil, Bool.false_eq_true,
    if_false, hnone]

end yields

end DayfiBackend.Found.Database
