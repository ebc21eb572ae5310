import DayfiBackend.Found.Interleave
import Mathlib.Data.List.Perm.Basic
import Mathlib.Logic.Function.Basic

/-!
# A database with row locks and unique entries

Sessions run transactions over a table of rows (`K → Option R`) and an append-only table of
entries (`E`) under READ COMMITTED: a statement sees what is committed and what its own
transaction wrote. A row written or locked by one transaction makes the others wait; two entries
that clash may not both be committed, and an insert that clashes with one of an open transaction
waits for it. A failed statement rolls its transaction back; `terminate` does so from outside
(a crash, a timeout, a broken deadlock). Every commit is recorded in the write-ahead log `wal`.

* `Sound` — the engine's invariant: locks and uncommitted entries belong to open transactions,
  no two entries clash, and `wal` accounts for the committed state.
* `Rely` — what the other sessions leave alone: as long as a transaction is open, the rows it
  locked and the entries it inserted.
* `exec_sound` and `exec_rely` — every statement of every session respects both, so programs are
  verified one at a time (`Prog.wp`).
-/

namespace DayfiBackend.Found.Database

/-- The constraints of the tables, and the errors the engine raises. -/
structure Schema (K R E F : Type) where
  checkRow : K → R → Except F Unit
  checkEntry : E → Except F Unit
  clash : E → E → Bool
  clash_symm : ∀ a b, clash a b = clash b a
  uniqueViolation : F
  noRow : F
  terminated : F

/-- The committed tables. -/
@[ext] structure Snapshot (K R E : Type) where
  rows : K → Option R
  log : List E

/-- A committed transaction: the tables before and after, and the entries it inserted. -/
structure Commit (K R E : Type) where
  session : ℕ
  before : Snapshot K R E
  after : Snapshot K R E
  entries : List E

/-- The state of the database. A lock carries its holder and the holder's version of the row. -/
structure Db (K R E : Type) where
  committed : Snapshot K R E
  locks : K → Option (ℕ × Option R)
  inflight : List (ℕ × E)
  isOpen : ℕ → Bool
  nextId : ℕ
  wal : List (Commit K R E)

/-- The statements. -/
inductive Stmt (K R E F : Type) : Type → Type
  | begin : Stmt K R E F Unit
  /-- A select on the entries. -/
  | find (q : E → Bool) : Stmt K R E F (Except F (Option E))
  /-- A select on a row. -/
  | read (k : K) : Stmt K R E F (Except F (Option R))
  /-- `INSERT … ON CONFLICT DO UPDATE … RETURNING`, which leaves an existing row as it is. -/
  | upsert (k : K) (r : R) : Stmt K R E F (Except F R)
  /-- `SELECT … FOR UPDATE`. -/
  | lock (k : K) : Stmt K R E F (Except F R)
  | update (k : K) (r : R) : Stmt K R E F (Except F Unit)
  /-- An insert of an entry, built from a fresh identifier. -/
  | insert (e : ℕ → E) : Stmt K R E F (Except F E)
  | commit : Stmt K R E F (Except F Unit)
  | rollback : Stmt K R E F Unit
  /-- A select on the entries outside any transaction. -/
  | select (q : E → Bool) : Stmt K R E F (Option E)
  /-- The server ends the transaction of session `j`. -/
  | terminate (j : ℕ) : Stmt K R E F Unit

variable {K R E F : Type}

namespace Db

/-- The row as session `i` sees it. -/
def visible (db : Db K R E) (i : ℕ) (k : K) : Option R :=
  match db.locks k with
  | some (j, v) => if j = i then v else db.committed.rows k
  | none => db.committed.rows k

/-- Whether another session holds the row. -/
def heldByOther (db : Db K R E) (i : ℕ) (k : K) : Bool :=
  match db.locks k with
  | some (j, _) => decide (j ≠ i)
  | none => false

/-- The uncommitted entries of session `i`. -/
def own (db : Db K R E) (i : ℕ) : List E := (db.inflight.filter (·.1 = i)).map (·.2)

/-- The uncommitted entries of the other sessions. -/
def others (db : Db K R E) (i : ℕ) : List (ℕ × E) := db.inflight.filter (·.1 ≠ i)

/-- Lock a row with a version of it. -/
def hold [DecidableEq K] (db : Db K R E) (i : ℕ) (k : K) (v : Option R) : Db K R E :=
  { db with locks := Function.update db.locks k (some (i, v)) }

/-- End the transaction of session `i`, dropping what it wrote. -/
def abort (db : Db K R E) (i : ℕ) : Db K R E :=
  { db with
    locks := fun k => (db.locks k).filter (·.1 ≠ i)
    inflight := db.others i
    isOpen := Function.update db.isOpen i false }

/-- The committed tables after session `i` commits. -/
def merged (db : Db K R E) (i : ℕ) : Snapshot K R E :=
  ⟨db.visible i, db.own i ++ db.committed.log⟩

/-- Commit the transaction of session `i`. -/
def finish (db : Db K R E) (i : ℕ) : Db K R E :=
  { db.abort i with
    committed := db.merged i
    wal := ⟨i, db.committed, db.merged i, db.own i⟩ :: db.wal }

end Db

/-- A statement of an open transaction that fails. -/
def failed {β : Type} (f : F) (i : ℕ) (db : Db K R E) : Option (Except F β × Db K R E) :=
  some (.error f, db.abort i)

/-- One statement of session `i`; `none` when it waits for another session. -/
def exec [DecidableEq K] (S : Schema K R E F) {β : Type} (i : ℕ) (st : Stmt K R E F β)
    (db : Db K R E) :
    Option (β × Db K R E) :=
  match st with
  | .begin => some ((), { db with isOpen := Function.update db.isOpen i true })
  | .find q =>
      if db.isOpen i then some (.ok ((db.own i ++ db.committed.log).find? q), db)
      else failed S.terminated i db
  | .read k =>
      if db.isOpen i then some (.ok (db.visible i k), db) else failed S.terminated i db
  | .upsert k r =>
      if db.isOpen i then
        if db.heldByOther i k then none
        else
          match db.visible i k with
          | some r' => some (.ok r', db.hold i k (some r'))
          | none =>
              match S.checkRow k r with
              | .error f => failed f i db
              | .ok () => some (.ok r, db.hold i k (some r))
      else failed S.terminated i db
  | .lock k =>
      if db.isOpen i then
        if db.heldByOther i k then none
        else
          match db.visible i k with
          | some r => some (.ok r, db.hold i k (some r))
          | none => failed S.noRow i db
      else failed S.terminated i db
  | .update k r =>
      if db.isOpen i then
        if db.heldByOther i k then none
        else
          match db.visible i k with
          | some _ =>
              match S.checkRow k r with
              | .error f => failed f i db
              | .ok () => some (.ok (), db.hold i k (some r))
          | none => some (.ok (), db)
      else failed S.terminated i db
  | .insert e =>
      if db.isOpen i then
        match S.checkEntry (e db.nextId) with
        | .error f => failed f i db
        | .ok () =>
            if (db.others i).any fun x => S.clash (e db.nextId) x.2 then none
            else if (db.own i ++ db.committed.log).any (S.clash (e db.nextId)) then
              failed S.uniqueViolation i db
            else
              some (.ok (e db.nextId), { db with
                inflight := (i, e db.nextId) :: db.inflight
                nextId := db.nextId + 1 })
      else failed S.terminated i db
  | .commit =>
      if db.isOpen i then some (.ok (), db.finish i) else failed S.terminated i db
  | .rollback => some ((), db.abort i)
  | .select q => some (db.committed.log.find? q, db)
  | .terminate j => some ((), db.abort j)

/-- The database as a machine. -/
def machine [DecidableEq K] (S : Schema K R E F) : Machine (Stmt K R E F) Unit (Db K R E) where
  exec i st _ db := exec S i st db

/-! ### Invariant and rely -/

/-- The commits, newest first, lead from `base` to `s`. -/
def Linked (base : Snapshot K R E) : List (Commit K R E) → Snapshot K R E → Prop
  | [], s => s = base
  | c :: cs, s => c.after = s ∧ c.after.log = c.entries ++ c.before.log ∧ Linked base cs c.before

/-- The committed log is what the commits inserted on top of the first one. -/
theorem Linked.log_eq {base : Snapshot K R E} :
    {cs : List (Commit K R E)} → {s : Snapshot K R E} → Linked base cs s →
      s.log = cs.flatMap (·.entries) ++ base.log
  | [], _, h => by rw [h]; rfl
  | c :: cs, _, h => by
      obtain ⟨rfl, hlog, hrest⟩ := h
      rw [hlog, hrest.log_eq, List.flatMap_cons, List.append_assoc]

/-- The engine's invariant, since the committed state `base`. -/
structure Sound (S : Schema K R E F) (base : Snapshot K R E) (db : Db K R E) : Prop where
  holder_open : ∀ k i v, db.locks k = some (i, v) → db.isOpen i = true
  inflight_open : ∀ x ∈ db.inflight, db.isOpen x.1 = true
  unique : (db.inflight.map (·.2) ++ db.committed.log).Pairwise fun a b => S.clash a b = false
  linked : Linked base db.wal db.committed

/-- What session `i` may rely on while the others move. -/
structure Rely (i : ℕ) (db db' : Db K R E) : Prop where
  log : db.committed.log <:+ db'.committed.log
  wal : db'.wal.filter (·.session = i) = db.wal.filter (·.session = i)
  isOpen : db'.isOpen i = true → db.isOpen i = true
  locks : db'.isOpen i = true → ∀ k v, db'.locks k = some (i, v) ↔ db.locks k = some (i, v)
  rows : db'.isOpen i = true → ∀ k v, db.locks k = some (i, v) →
    db'.committed.rows k = db.committed.rows k
  own : db'.isOpen i = true → db'.own i = db.own i

theorem Rely.refl (i : ℕ) (db : Db K R E) : Rely i db db where
  log := List.suffix_refl _
  wal := rfl
  isOpen := id
  locks _ _ _ := Iff.rfl
  rows _ _ _ _ := rfl
  own _ := rfl

theorem Rely.trans {i : ℕ} {a b c : Db K R E} (h : Rely i a b) (h' : Rely i b c) : Rely i a c where
  log := h.log.trans h'.log
  wal := h'.wal.trans h.wal
  isOpen ho := h.isOpen (h'.isOpen ho)
  locks ho k v := (h'.locks ho k v).trans (h.locks (h'.isOpen ho) k v)
  rows ho k v hk :=
    (h'.rows ho k v ((h.locks (h'.isOpen ho) k v).mpr hk)).trans (h.rows (h'.isOpen ho) k v hk)
  own ho := (h'.own ho).trans (h.own (h'.isOpen ho))

/-! ### What a statement can do to the database -/

/-- The moves of session `i`. -/
inductive Move [DecidableEq K] (S : Schema K R E F) (i : ℕ) (db : Db K R E) : Db K R E → Prop
  | stay : Move S i db db
  | abort (j : ℕ) : Move S i db (db.abort j)
  | begin : Move S i db { db with isOpen := Function.update db.isOpen i true }
  | hold (k : K) (v : Option R) (ho : db.isOpen i = true) (hk : db.heldByOther i k = false) :
      Move S i db (db.hold i k v)
  | insert (e : E) (ho : db.isOpen i = true) (hothers : ∀ x ∈ db.others i, S.clash e x.2 = false)
      (hown : ∀ x ∈ db.own i ++ db.committed.log, S.clash e x = false) :
      Move S i db { db with inflight := (i, e) :: db.inflight, nextId := db.nextId + 1 }
  | finish (ho : db.isOpen i = true) : Move S i db (db.finish i)

theorem exec_move [DecidableEq K] {S : Schema K R E F} {β : Type} {i : ℕ} {st : Stmt K R E F β}
    {db db' : Db K R E} {b : β} (h : exec S i st db = some (b, db')) : Move S i db db' := by
  have hfail : ∀ {γ : Type} {f : F} {r : Except F γ},
      failed f i db = some (r, db') → Move S i db db' := by
    intro γ f r hf
    cases hf
    exact .abort i
  cases st with
  | begin => cases h; exact .begin
  | find q =>
      simp only [exec] at h
      split_ifs at h
      · cases h; exact .stay
      · exact hfail h
  | read k =>
      simp only [exec] at h
      split_ifs at h
      · cases h; exact .stay
      · exact hfail h
  | upsert k r =>
      simp only [exec] at h
      split_ifs at h with ho hk
      · split at h
        · cases h; exact .hold k _ ho (by simpa using hk)
        · split at h
          · exact hfail h
          · cases h; exact .hold k _ ho (by simpa using hk)
      · exact hfail h
  | lock k =>
      simp only [exec] at h
      split_ifs at h with ho hk
      · split at h
        · cases h; exact .hold k _ ho (by simpa using hk)
        · exact hfail h
      · exact hfail h
  | update k r =>
      simp only [exec] at h
      split_ifs at h with ho hk
      · split at h
        · split at h
          · exact hfail h
          · cases h; exact .hold k _ ho (by simpa using hk)
        · cases h; exact .stay
      · exact hfail h
  | insert e =>
      simp only [exec] at h
      split at h
      · rename_i ho
        split at h
        · exact hfail h
        · split at h
          · cases h
          · rename_i hothers
            split at h
            · exact hfail h
            · rename_i hown
              cases h
              refine .insert _ ho ?_ ?_
              · simpa using hothers
              · simpa only [List.any_eq_true, not_exists, not_and, Bool.not_eq_true] using hown
      · exact hfail h
  | commit =>
      simp only [exec] at h
      split_ifs at h with ho
      · cases h; exact .finish ho
      · exact hfail h
  | rollback => cases h; exact .abort i
  | select q => cases h; exact .stay
  | terminate j => cases h; exact .abort j

/-! ### Locks -/

section locks

variable {db : Db K R E} {i j : ℕ} {k k' : K} {v : Option R}

/-- A row not held by another session is free or held by this one. -/
theorem heldByOther_eq_false :
    db.heldByOther i k = false ↔ ∀ j v, db.locks k = some (j, v) → j = i := by
  unfold Db.heldByOther
  cases h : db.locks k with
  | none => simp
  | some x => simp [Prod.ext_iff]

theorem locks_abort : (db.abort i).locks k = some (j, v) ↔ db.locks k = some (j, v) ∧ j ≠ i := by
  simp [Db.abort, Option.filter_eq_some_iff]

theorem own_abort_of_ne (h : j ≠ i) : (db.abort i).own j = db.own j := by
  unfold Db.own Db.abort Db.others
  simp only [List.filter_filter]
  congr 1
  apply List.filter_congr
  intro x _
  by_cases hx : x.1 = j <;> simp [hx, h]

@[simp] theorem isOpen_abort : (db.abort i).isOpen j = (if j = i then false else db.isOpen j) := by
  simp [Db.abort, Function.update_apply]

theorem mem_own {e : E} : e ∈ db.own i ↔ (i, e) ∈ db.inflight := by
  unfold Db.own
  simp only [List.mem_map, List.mem_filter, decide_eq_true_eq]
  constructor
  · rintro ⟨⟨j, e'⟩, ⟨hx, rfl⟩, rfl⟩
    exact hx
  · exact fun h => ⟨(i, e), ⟨h, rfl⟩, rfl⟩

/-- The entries of the database, before and after a commit. -/
theorem perm_finish : ((db.others i).map (·.2) ++ (db.own i ++ db.committed.log)).Perm
    (db.inflight.map (·.2) ++ db.committed.log) := by
  rw [← List.append_assoc]
  refine List.Perm.append_right _ ?_
  unfold Db.others Db.own
  rw [← List.map_append]
  refine List.Perm.map _ (List.perm_append_comm.trans ?_)
  convert List.filter_append_perm (fun x : ℕ × E => decide (x.1 = i)) db.inflight using 3
  simp

end locks

/-! ### Every session keeps the invariant and what the others rely on -/

/-- No two entries clash, those of one session counted with the committed ones. -/
theorem Sound.unique_merged {S : Schema K R E F} {base : Snapshot K R E} {db : Db K R E}
    (h : Sound S base db) (i : ℕ) :
    ((db.others i).map (·.2) ++ (db.own i ++ db.committed.log)).Pairwise
      fun a b => S.clash a b = false := by
  refine (perm_finish.pairwise_iff ?_).mpr h.unique
  intro a b hab
  rw [S.clash_symm, hab]

section moves

variable [DecidableEq K] {S : Schema K R E F} {base : Snapshot K R E} {i j : ℕ}
  {db db' : Db K R E}

theorem Move.sound (h : Move S i db db') (hs : Sound S base db) : Sound S base db' := by
  cases h with
  | stay => exact hs
  | abort j =>
      refine ⟨fun k i' v hk => ?_, fun x hx => ?_, ?_, hs.linked⟩
      · obtain ⟨hk, hne⟩ := locks_abort.mp hk
        rw [isOpen_abort, if_neg hne]
        exact hs.holder_open k i' v hk
      · obtain ⟨hx, hne⟩ := List.mem_filter.mp hx
        rw [isOpen_abort, if_neg (by simpa using hne)]
        exact hs.inflight_open x hx
      · exact hs.unique.sublist
          ((List.filter_sublist.map _).append (List.Sublist.refl _))
  | begin =>
      have hmono : ∀ i', db.isOpen i' = true → Function.update db.isOpen i true i' = true := by
        intro i' h'
        by_cases hi : i' = i <;> simp [hi, h']
      exact ⟨fun k i' v hk => hmono _ (hs.holder_open k i' v hk),
        fun x hx => hmono _ (hs.inflight_open x hx), hs.unique, hs.linked⟩
  | hold k v ho hk =>
      refine ⟨fun k' i' v' hk' => ?_, hs.inflight_open, hs.unique, hs.linked⟩
      by_cases hkk : k' = k
      · subst hkk
        simp only [Db.hold, Function.update_self, Option.some.injEq, Prod.mk.injEq] at hk'
        rw [← hk'.1]
        exact ho
      · simp only [Db.hold, Function.update_of_ne hkk] at hk'
        exact hs.holder_open k' i' v' hk'
  | insert e ho hothers hown =>
      refine ⟨hs.holder_open, fun x hx => ?_, ?_, hs.linked⟩
      · rcases List.mem_cons.mp hx with rfl | hx
        · exact ho
        · exact hs.inflight_open x hx
      · refine List.pairwise_cons.mpr ⟨fun x hx => ?_, hs.unique⟩
        rcases List.mem_append.mp hx with hx | hx
        · obtain ⟨y, hy, rfl⟩ := List.mem_map.mp hx
          by_cases hyi : y.1 = i
          · exact hown _ (List.mem_append_left _ (mem_own.mpr (hyi ▸ hy)))
          · exact hothers y (List.mem_filter.mpr ⟨hy, by simpa using hyi⟩)
        · exact hown x (List.mem_append_right _ hx)
  | finish ho =>
      refine ⟨fun k i' v hk => ?_, fun x hx => ?_, ?_, rfl, rfl, hs.linked⟩
      · obtain ⟨hk, hne⟩ := locks_abort.mp hk
        change (db.abort i).isOpen i' = true
        rw [isOpen_abort, if_neg hne]
        exact hs.holder_open k i' v hk
      · obtain ⟨hx, hne⟩ := List.mem_filter.mp hx
        change (db.abort i).isOpen x.1 = true
        rw [isOpen_abort, if_neg (by simpa using hne)]
        exact hs.inflight_open x hx
      · exact hs.unique_merged i

theorem Move.rely (h : Move S i db db') (hij : j ≠ i) : Rely j db db' := by
  have hup : ∀ b, Function.update db.isOpen i b j = db.isOpen j :=
    fun b => Function.update_of_ne hij _ _
  cases h with
  | stay => exact .refl _ _
  | abort j' =>
      by_cases hj : j = j'
      · subst hj
        exact ⟨List.suffix_refl _, rfl, fun ho => by simp at ho, fun ho => by simp at ho,
          fun _ _ _ _ => rfl, fun ho => by simp at ho⟩
      · refine ⟨List.suffix_refl _, rfl, fun ho => by simpa [hj] using ho, fun _ k v => ?_,
          fun _ _ _ _ => rfl, fun _ => own_abort_of_ne hj⟩
        rw [locks_abort]
        exact and_iff_left hj
  | begin => exact ⟨List.suffix_refl _, rfl, fun ho => by simpa [hup] using ho,
      fun _ _ _ => Iff.rfl, fun _ _ _ _ => rfl, fun _ => rfl⟩
  | hold k v ho hk =>
      refine ⟨List.suffix_refl _, rfl, id, fun _ k' v' => ?_, fun _ _ _ _ => rfl, fun _ => rfl⟩
      by_cases hkk : k' = k
      · subst hkk
        have h1 : db.locks k' ≠ some (j, v') :=
          fun hl => hij (heldByOther_eq_false.mp hk j v' hl)
        simp [Db.hold, h1, Ne.symm hij]
      · simp [Db.hold, Function.update_of_ne hkk]
  | insert e ho hothers hown =>
      refine ⟨List.suffix_refl _, rfl, id, fun _ _ _ => Iff.rfl, fun _ _ _ _ => rfl, fun _ => ?_⟩
      simp [Db.own, Ne.symm hij]
  | finish ho =>
      refine ⟨List.suffix_append _ _, ?_, fun h' => ?_, fun _ k v => ?_, fun _ k v hk => ?_,
        fun _ => own_abort_of_ne hij⟩
      · simp [Db.finish, Db.abort, Ne.symm hij]
      · simpa [Db.finish, Db.abort, hij] using h'
      · exact (locks_abort).trans (and_iff_left hij)
      · simp [Db.finish, Db.merged, Db.visible, hk, hij]

theorem exec_sound {β : Type} {st : Stmt K R E F β} {b : β}
    (h : exec S i st db = some (b, db')) (hs : Sound S base db) : Sound S base db' :=
  (exec_move h).sound hs

theorem exec_rely {β : Type} {st : Stmt K R E F β} {b : β}
    (h : exec S i st db = some (b, db')) (hij : j ≠ i) : Rely j db db' :=
  (exec_move h).rely hij

end moves

/-! ### Entries not committed yet -/

/-- The entry a statement inserts, given the next identifier. -/
def Stmt.entry? {β : Type} (st : Stmt K R E F β) (id : ℕ) : Option E :=
  match st with
  | .insert e => some (e id)
  | _ => none

/-- An uncommitted entry was there before the statement, or the statement inserted it. -/
theorem exec_inflight [DecidableEq K] {S : Schema K R E F} {β : Type} {i : ℕ}
    {st : Stmt K R E F β} {db db' : Db K R E} {b : β} (h : exec S i st db = some (b, db')) :
    ∀ x ∈ db'.inflight, x ∈ db.inflight ∨ x.1 = i ∧ st.entry? db.nextId = some x.2 := by
  have hkeep : ∀ x ∈ db.inflight, x ∈ db.inflight ∨ x.1 = i ∧ st.entry? db.nextId = some x.2 :=
    fun x hx => .inl hx
  have habort : ∀ j, ∀ x ∈ (db.abort j).inflight,
      x ∈ db.inflight ∨ x.1 = i ∧ st.entry? db.nextId = some x.2 :=
    fun j x hx => .inl (List.mem_of_mem_filter hx)
  have hfail : ∀ {γ : Type} {f : F} {r : Except F γ}, failed f i db = some (r, db') →
      ∀ x ∈ db'.inflight, x ∈ db.inflight ∨ x.1 = i ∧ st.entry? db.nextId = some x.2 := by
    intro γ f r hf
    cases hf
    exact habort i
  cases st with
  | begin => cases h; exact hkeep
  | find q =>
      simp only [exec] at h
      split_ifs at h
      · cases h; exact hkeep
      · exact hfail h
  | read k =>
      simp only [exec] at h
      split_ifs at h
      · cases h; exact hkeep
      · exact hfail h
  | upsert k r =>
      simp only [exec] at h
      split_ifs at h
      · split at h
        · cases h; exact hkeep
        · split at h
          · exact hfail h
          · cases h; exact hkeep
      · exact hfail h
  | lock k =>
      simp only [exec] at h
      split_ifs at h
      · split at h
        · cases h; exact hkeep
        · exact hfail h
      · exact hfail h
  | update k r =>
      simp only [exec] at h
      split_ifs at h
      · split at h
        · split at h
          · exact hfail h
          · cases h; exact hkeep
        · cases h; exact hkeep
      · exact hfail h
  | insert e =>
      simp only [exec] at h
      split at h
      · split at h
        · exact hfail h
        · split at h
          · cases h
          · split at h
            · exact hfail h
            · cases h
              intro x hx
              rcases List.mem_cons.mp hx with rfl | hx
              · exact .inr ⟨rfl, rfl⟩
              · exact .inl hx
      · exact hfail h
  | commit =>
      simp only [exec] at h
      split_ifs at h
      · cases h; exact habort i
      · exact hfail h
  | rollback => cases h; exact habort i
  | select q => cases h; exact hkeep
  | terminate j => cases h; exact habort j

end DayfiBackend.Found.Database
