import DayfiBackend.Found.Backend
import DayfiBackend.Found.Transact

/-!
# A journal: numbered entries appended under the lock of their row

Sessions append entries to rows of a database (`Found.Database`): a transaction locks the row,
inserts an entry numbered by a sequence unless it clashes with one that is there, updates the row
and commits. Others read rows and entries outside any transaction. A statement may get no answer;
inside a transaction that ends the transaction.

* `Journaled` — the invariant: every entry passes its checks and carries the owner of its row, and
  an uncommitted one belongs to a row its session holds and is numbered above what is committed.
* `Query.Allowed` — what a session must respect to keep it; `noted_step` says that it is enough.
* `frozen_below` — what is below an entry stays as it is: later commits are numbered above it.
-/

namespace DayfiBackend.Found.Database

open Prog

variable {K R E F O : Type}

/-- The statements of a journal. -/
inductive Query (K R E F : Type) : Type → Type
  | begin : Query K R E F (Except F Unit)
  /-- `SELECT … WHERE … FOR UPDATE` of at most one row. -/
  | lockWhere (k : K) (p : R → Bool) : Query K R E F (Except F (Option R))
  /-- `INSERT … ON CONFLICT DO NOTHING RETURNING`. -/
  | insertNew (e : ℕ → E) : Query K R E F (Except F (Option E))
  /-- A select on the entries inside a transaction. -/
  | find (q : E → Bool) : Query K R E F (Except F (Option E))
  | update (k : K) (f : R → R) : Query K R E F (Except F Unit)
  | commit : Query K R E F (Except F Unit)
  | rollback : Query K R E F Unit
  /-- A select on a row outside any transaction. -/
  | row (k : K) (p : R → Bool) : Query K R E F (Except F (Option R))
  /-- A select on the entries outside any transaction. -/
  | entries (pick : List E → List E) : Query K R E F (Except F (List E))
  /-- The server ends the transaction of session `j`. -/
  | terminate (j : ℕ) : Query K R E F Unit

/-- A statement that gets no answer; inside a transaction it ends the transaction. -/
def Query.lost {β : Type} (q : Query K R E F β) (f : F) (i : ℕ) (db : Db K R E) : β × Db K R E :=
  match q with
  | .begin => (.error f, db)
  | .lockWhere _ _ => (.error f, db.abort i)
  | .insertNew _ => (.error f, db.abort i)
  | .find _ => (.error f, db.abort i)
  | .update _ _ => (.error f, db.abort i)
  | .commit => (.error f, db.abort i)
  | .rollback => ((), db.abort i)
  | .row _ _ => (.error f, db)
  | .entries _ => (.error f, db)
  | .terminate _ => ((), db)

/-- A statement of session `i` that gets its answer; `none` when it waits for another session. -/
def Query.run [DecidableEq K] (S : Schema K R E F) {β : Type} (q : Query K R E F β) (i : ℕ)
    (db : Db K R E) : Option (β × Db K R E) :=
  match q with
  | .begin => some (.ok (), { db with isOpen := Function.update db.isOpen i true })
  | .lockWhere k p =>
      if db.isOpen i then
        match (db.visible i k).filter p with
        | none => some (.ok none, db)
        | some r =>
            if db.heldByOther i k then none else some (.ok (some r), db.hold i k (some r))
      else failed S.terminated i db
  | .insertNew e =>
      if db.isOpen i then
        match S.checkEntry (e db.nextId) with
        | .error f => failed f i db
        | .ok () =>
            if (db.others i).any fun x => S.clash (e db.nextId) x.2 then none
            else if (db.own i ++ db.committed.log).any (S.clash (e db.nextId)) then
              some (.ok none, { db with nextId := db.nextId + 1 })
            else
              some (.ok (some (e db.nextId)), { db with
                inflight := (i, e db.nextId) :: db.inflight
                nextId := db.nextId + 1 })
      else failed S.terminated i db
  | .find q =>
      if db.isOpen i then some (.ok ((db.own i ++ db.committed.log).find? q), db)
      else failed S.terminated i db
  | .update k f =>
      if db.isOpen i then
        if db.heldByOther i k then none
        else
          match db.visible i k with
          | none => some (.ok (), db)
          | some r =>
              match S.checkRow k (f r) with
              | .error e => failed e i db
              | .ok () => some (.ok (), db.hold i k (some (f r)))
      else failed S.terminated i db
  | .commit => if db.isOpen i then some (.ok (), db.finish i) else failed S.terminated i db
  | .rollback => some ((), db.abort i)
  | .row k p => some (.ok ((db.committed.rows k).filter p), db)
  | .entries pick => some (.ok (pick db.committed.log), db)
  | .terminate j => some ((), db.abort j)

/-- The journal as a machine: the outside loses a statement or lets it run. -/
def journal [DecidableEq K] (S : Schema K R E F) : Machine (Query K R E F) (Option F) (Db K R E)
    where
  exec i q o db :=
    match o with
    | some f => some (q.lost f i db)
    | none => q.run S i db

/-- Run a body in a transaction: commit when it returns, roll back when it throws. -/
def inTransaction {β : Type} (body : ExceptT F (Prog (Query K R E F)) β) :
    ExceptT F (Prog (Query K R E F)) β := do
  Backend.call .begin
  tryCatch (do let b ← body; Backend.call .commit; return b) fun e => do
    ExceptT.lift (Prog.perform .rollback)
    throw e

/-! ### The invariant -/

/-- How the entries of a table belong to the rows of another: the row of an entry, its number,
and the owner of the row, which the entry repeats. -/
structure Journal (K R E O : Type) where
  row : E → K
  number : E → ℕ
  owner : R → O
  ownerOf : E → O

namespace Journal

variable (J : Journal K R E O)

/-- The owner of a row. -/
def rowOwner (db : Db K R E) (k : K) : Option O := (db.committed.rows k).map J.owner

/-- Whether an entry is numbered above another one of its row. -/
def After (a b : E) : Prop := J.row a = J.row b → J.number b < J.number a

end Journal

/-- The invariant of a journal. -/
structure Journaled (J : Journal K R E O) (S : Schema K R E F) (db : Db K R E) : Prop where
  checked : ∀ e ∈ db.inflight.map (·.2) ++ db.committed.log, S.checkEntry e = .ok ()
  numbered : ∀ e ∈ db.inflight.map (·.2) ++ db.committed.log, J.number e < db.nextId
  held : ∀ x ∈ db.inflight, ∃ v, db.locks (J.row x.2) = some (x.1, v)
  sorted : ∀ i, (db.own i ++ db.committed.log).Pairwise J.After
  lockOwner : ∀ k i v, db.locks k = some (i, v) → v.map J.owner = J.rowOwner db k
  entryOwner : ∀ e ∈ db.inflight.map (·.2) ++ db.committed.log,
    J.rowOwner db (J.row e) = some (J.ownerOf e)

/-- What a statement of session `i` must respect: an entry takes the number of the sequence, goes
to a row the session holds and repeats its owner; an update leaves the owner alone. -/
def Query.Allowed (J : Journal K R E O) {β : Type} (q : Query K R E F β) (i : ℕ)
    (db : Db K R E) : Prop :=
  match q with
  | .insertNew e => ∀ n, J.number (e n) = n ∧
      (db.isOpen i = true → (∃ v, db.locks (J.row (e n)) = some (i, v)) ∧
        J.rowOwner db (J.row (e n)) = some (J.ownerOf (e n)))
  | .update _ f => ∀ r, J.owner (f r) = J.owner r
  | _ => True

/-- What a statement of session `i` can do. -/
inductive Effect [DecidableEq K] (J : Journal K R E O) (S : Schema K R E F) (i : ℕ)
    (db : Db K R E) : Db K R E → Prop
  | stay : Effect J S i db db
  | skip : Effect J S i db { db with nextId := db.nextId + 1 }
  | abort (j : ℕ) : Effect J S i db (db.abort j)
  | begin : Effect J S i db { db with isOpen := Function.update db.isOpen i true }
  | hold (k : K) (r r' : R) (ho : db.isOpen i = true) (hk : db.heldByOther i k = false)
      (hr : db.visible i k = some r) (howner : J.owner r' = J.owner r) :
      Effect J S i db (db.hold i k (some r'))
  | insert (e : E) (ho : db.isOpen i = true) (hothers : ∀ x ∈ db.others i, S.clash e x.2 = false)
      (hown : ∀ x ∈ db.own i ++ db.committed.log, S.clash e x = false)
      (hcheck : S.checkEntry e = .ok ()) (hnumber : J.number e = db.nextId)
      (hheld : ∃ v, db.locks (J.row e) = some (i, v))
      (howner : J.rowOwner db (J.row e) = some (J.ownerOf e)) :
      Effect J S i db { db with inflight := (i, e) :: db.inflight, nextId := db.nextId + 1 }
  | finish (ho : db.isOpen i = true) : Effect J S i db (db.finish i)

section effects

variable [DecidableEq K] {J : Journal K R E O} {S : Schema K R E F} {base : Snapshot K R E}
  {i j : ℕ} {db db' : Db K R E} {β : Type}

theorem lost_effect (q : Query K R E F β) (f : F) : Effect J S i db (q.lost f i db).2 := by
  cases q with
  | begin => exact .stay
  | lockWhere k p => exact .abort i
  | insertNew e => exact .abort i
  | find q => exact .abort i
  | update k f => exact .abort i
  | commit => exact .abort i
  | rollback => exact .abort i
  | row k p => exact .stay
  | entries pick => exact .stay
  | terminate j => exact .stay

theorem run_effect {q : Query K R E F β} {b : β} (h : q.run S i db = some (b, db'))
    (hq : q.Allowed J i db) : Effect J S i db db' := by
  have hfail : ∀ {γ : Type} {f : F} {r : Except F γ},
      failed f i db = some (r, db') → Effect J S i db db' := by
    intro γ f r hf
    cases hf
    exact .abort i
  cases q with
  | begin => cases h; exact .begin
  | lockWhere k p =>
      simp only [Query.run] at h
      split at h
      · rename_i ho
        split at h
        · cases h; exact .stay
        · rename_i r hr
          split at h
          · cases h
          · rename_i hk
            cases h
            exact .hold k r r ho (by simpa using hk) (Option.filter_eq_some_iff.mp hr).1 rfl
      · exact hfail h
  | insertNew e =>
      simp only [Query.run] at h
      split at h
      · rename_i ho
        split at h
        · exact hfail h
        · rename_i hcheck
          split at h
          · cases h
          · rename_i hothers
            split at h
            · cases h; exact .skip
            · rename_i hown
              cases h
              obtain ⟨hnumber, hopen⟩ := hq db.nextId
              obtain ⟨hheld, howner⟩ := hopen ho
              refine .insert _ ho ?_ ?_ hcheck hnumber hheld howner
              · simpa using hothers
              · simpa only [List.any_eq_true, not_exists, not_and, Bool.not_eq_true] using hown
      · exact hfail h
  | find q =>
      simp only [Query.run] at h
      split_ifs at h
      · cases h; exact .stay
      · exact hfail h
  | update k f =>
      simp only [Query.run] at h
      split_ifs at h with ho hk
      · split at h
        · cases h; exact .stay
        · rename_i r hr
          split at h
          · exact hfail h
          · cases h
            exact .hold k r (f r) ho (by simpa using hk) hr (hq r)
      · exact hfail h
  | commit =>
      simp only [Query.run] at h
      split_ifs at h with ho
      · cases h; exact .finish ho
      · exact hfail h
  | rollback => cases h; exact .abort i
  | row k p => cases h; exact .stay
  | entries pick => cases h; exact .stay
  | terminate j => cases h; exact .abort j

/-- Every statement that is allowed has one of the effects. -/
theorem answer_effect {q : Query K R E F β} {o : Option F} {b : β}
    (h : (journal S).exec i q o db = some (b, db')) (hq : q.Allowed J i db) :
    Effect J S i db db' := by
  cases o with
  | none => exact run_effect h hq
  | some f =>
      have hl : q.lost f i db = (b, db') := Option.some.inj h
      have he : Effect J S i db (q.lost f i db).2 := lost_effect q f
      rwa [hl] at he

/-- Apart from a number of the sequence left out, the effects are moves of the database. -/
theorem Effect.move (h : Effect J S i db db') :
    Move S i db db' ∨ db' = { db with nextId := db.nextId + 1 } := by
  cases h with
  | stay => exact .inl .stay
  | skip => exact .inr rfl
  | abort j => exact .inl (.abort j)
  | begin => exact .inl .begin
  | hold k r r' ho hk => exact .inl (.hold k _ ho hk)
  | insert e ho hothers hown => exact .inl (.insert e ho hothers hown)
  | finish ho => exact .inl (.finish ho)

theorem Effect.sound (h : Effect J S i db db') (hs : Sound S base db) : Sound S base db' := by
  rcases h.move with hm | rfl
  · exact hm.sound hs
  · exact ⟨hs.holder_open, hs.inflight_open, hs.unique, hs.linked⟩

theorem Effect.rely (h : Effect J S i db db') (hij : j ≠ i) : Rely j db db' := by
  rcases h.move with hm | rfl
  · exact hm.rely hij
  · exact ⟨List.suffix_refl _, rfl, id, fun _ _ _ => Iff.rfl, fun _ _ _ _ => rfl, fun _ => rfl⟩

omit [DecidableEq K] in
/-- A session sees the owner that is committed. -/
theorem Journaled.visible_owner (hs : Journaled J S db) (i : ℕ) (k : K) :
    (db.visible i k).map J.owner = J.rowOwner db k := by
  unfold Db.visible
  cases hk : db.locks k with
  | none => rfl
  | some x =>
      obtain ⟨j, v⟩ := x
      by_cases hj : j = i
      · simpa [hj] using hs.lockOwner k j v hk
      · simp [hj, Journal.rowOwner]

/-- No effect changes the owner of a row. -/
theorem Effect.rowOwner (h : Effect J S i db db') (hs : Journaled J S db) (k : K) :
    J.rowOwner db' k = J.rowOwner db k := by
  cases h with
  | finish ho => exact hs.visible_owner i k
  | _ => rfl

omit [DecidableEq K] in
theorem own_subset {e : E} (he : e ∈ db.own i) : e ∈ db.inflight.map (·.2) :=
  List.mem_map.mpr ⟨(i, e), mem_own.mp he, rfl⟩

omit [DecidableEq K] in
theorem own_abort_self : (db.abort i).own i = [] := by
  simp [Db.own, Db.abort, Db.others]

omit [DecidableEq K] in
theorem entries_abort {e : E} (he : e ∈ (db.abort j).inflight.map (·.2) ++ db.committed.log) :
    e ∈ db.inflight.map (·.2) ++ db.committed.log := by
  rcases List.mem_append.mp he with he | he
  · exact List.mem_append_left _ ((List.filter_sublist.map _).subset he)
  · exact List.mem_append_right _ he

omit [DecidableEq K] in
theorem Journaled.abort (hs : Journaled J S db) (j : ℕ) : Journaled J S (db.abort j) where
  checked e he := hs.checked e (entries_abort he)
  numbered e he := hs.numbered e (entries_abort he)
  held x hx := by
    obtain ⟨hx, hne⟩ := List.mem_filter.mp hx
    obtain ⟨v, hv⟩ := hs.held x hx
    exact ⟨v, locks_abort.mpr ⟨hv, by simpa using hne⟩⟩
  sorted i := by
    by_cases hi : i = j
    · subst hi
      rw [own_abort_self]
      exact (List.pairwise_append.mp (hs.sorted i)).2.1
    · rw [own_abort_of_ne hi]
      exact hs.sorted i
  lockOwner k i v hk := hs.lockOwner k i v (locks_abort.mp hk).1
  entryOwner e he := hs.entryOwner e (entries_abort he)

theorem Journaled.hold (hs : Journaled J S db) {k : K} {r r' : R}
    (hk : db.heldByOther i k = false) (hr : db.visible i k = some r)
    (howner : J.owner r' = J.owner r) : Journaled J S (db.hold i k (some r')) where
  checked := hs.checked
  numbered := hs.numbered
  held x hx := by
    obtain ⟨v, hv⟩ := hs.held x hx
    by_cases hxk : J.row x.2 = k
    · have hxi : x.1 = i := heldByOther_eq_false.mp hk x.1 v (hxk ▸ hv)
      exact ⟨some r', by simp [Db.hold, hxk, hxi]⟩
    · exact ⟨v, by simpa [Db.hold, hxk] using hv⟩
  sorted := hs.sorted
  lockOwner k' j v hv := by
    by_cases hkk : k' = k
    · subst hkk
      simp only [Db.hold, Function.update_self, Option.some.injEq, Prod.mk.injEq] at hv
      have hvis := hs.visible_owner i k'
      rw [hr, Option.map_some] at hvis
      rw [← hv.2, Option.map_some, howner]
      exact hvis
    · simp only [Db.hold, Function.update_of_ne hkk] at hv
      exact hs.lockOwner k' j v hv
  entryOwner := hs.entryOwner

omit [DecidableEq K] in
theorem Journaled.insert (hs : Journaled J S db) {e : E} (hcheck : S.checkEntry e = .ok ())
    (hnumber : J.number e = db.nextId)
    (hheld : ∃ v, db.locks (J.row e) = some (i, v))
    (howner : J.rowOwner db (J.row e) = some (J.ownerOf e)) :
    Journaled J S { db with inflight := (i, e) :: db.inflight, nextId := db.nextId + 1 } where
  checked x hx := by
    rcases List.mem_cons.mp hx with rfl | hx
    · exact hcheck
    · exact hs.checked x hx
  numbered x hx := by
    rcases List.mem_cons.mp hx with rfl | hx
    · simp [hnumber]
    · exact Nat.lt_succ_of_lt (hs.numbered x hx)
  held x hx := by
    rcases List.mem_cons.mp hx with rfl | hx
    · exact hheld
    · exact hs.held x hx
  sorted j := by
    by_cases hj : j = i
    · subst hj
      have hown : Db.own { db with inflight := (j, e) :: db.inflight, nextId := db.nextId + 1 } j =
          e :: db.own j := by simp [Db.own]
      rw [hown]
      refine List.pairwise_cons.mpr ⟨fun x hx _ => ?_, hs.sorted j⟩
      rw [hnumber]
      refine hs.numbered x ?_
      rcases List.mem_append.mp hx with hx | hx
      · exact List.mem_append_left _ (own_subset hx)
      · exact List.mem_append_right _ hx
    · have hown : Db.own { db with inflight := (i, e) :: db.inflight, nextId := db.nextId + 1 } j =
          db.own j := by simp [Db.own, Ne.symm hj]
      rw [hown]
      exact hs.sorted j
  lockOwner := hs.lockOwner
  entryOwner x hx := by
    rcases List.mem_cons.mp hx with rfl | hx
    · exact howner
    · exact hs.entryOwner x hx

omit [DecidableEq K] in
theorem Journaled.finish (hs : Journaled J S db) (i : ℕ) : Journaled J S (db.finish i) where
  checked e he := hs.checked e (perm_finish.mem_iff.mp he)
  numbered e he := hs.numbered e (perm_finish.mem_iff.mp he)
  held := (hs.abort i).held
  sorted j := by
    by_cases hj : j = i
    · subst hj
      have hown : (db.finish j).own j = [] := own_abort_self
      rw [hown]
      exact hs.sorted j
    · have hown : (db.finish i).own j = db.own j := own_abort_of_ne hj
      rw [hown]
      have hsorted := List.pairwise_append.mp (hs.sorted j)
      refine List.pairwise_append.mpr ⟨hsorted.1, hs.sorted i, fun a ha b hb => ?_⟩
      rcases List.mem_append.mp hb with hb | hb
      · -- two sessions would hold one row
        intro hrow
        obtain ⟨v, hv⟩ := hs.held _ (mem_own.mp ha)
        obtain ⟨w, hw⟩ := hs.held _ (mem_own.mp hb)
        rw [hrow, hw] at hv
        simp only [Option.some.injEq, Prod.mk.injEq] at hv
        exact absurd hv.1.symm hj
      · exact hsorted.2.2 a ha b hb
  lockOwner k j v hk :=
    (hs.lockOwner k j v (locks_abort.mp hk).1).trans (hs.visible_owner i k).symm
  entryOwner e he :=
    (hs.visible_owner i (J.row e)).trans (hs.entryOwner e (perm_finish.mem_iff.mp he))

/-- Every effect keeps the invariant. -/
theorem Effect.journaled (h : Effect J S i db db') (hs : Journaled J S db) : Journaled J S db' := by
  cases h with
  | stay => exact hs
  | skip =>
      exact ⟨hs.checked, fun e he => Nat.lt_succ_of_lt (hs.numbered e he), hs.held, hs.sorted,
        hs.lockOwner, hs.entryOwner⟩
  | abort j => exact hs.abort j
  | begin => exact ⟨hs.checked, hs.numbered, hs.held, hs.sorted, hs.lockOwner, hs.entryOwner⟩
  | hold k r r' ho hk hr howner => exact hs.hold hk hr howner
  | insert e ho hothers hown hcheck hnumber hheld howner =>
      exact hs.insert hcheck hnumber hheld howner
  | finish ho => exact hs.finish i

omit [DecidableEq K] in
/-- What is below a committed entry of its row stays as it is. -/
theorem frozen_below (hs : Journaled J S db) {log : List E} (hlog : log <:+ db.committed.log)
    {e : E} (he : e ∈ log) {q : E → Bool}
    (hq : ∀ x, q x = true → J.row x = J.row e ∧ J.number x < J.number e) :
    db.committed.log.filter q = log.filter q := by
  obtain ⟨new, hnew⟩ := hlog
  rw [← hnew, List.filter_append]
  have hnone : new.filter q = [] := by
    refine List.filter_eq_nil_iff.mpr fun x hx hqx => ?_
    obtain ⟨hrow, hlt⟩ := hq x hqx
    have hsorted := (List.pairwise_append.mp (hs.sorted 0)).2.1
    rw [← hnew] at hsorted
    have hafter := (List.pairwise_append.mp hsorted).2.2 x hx e he hrow
    omega
  rw [hnone, List.nil_append]

end effects

/-! ### Programs over a journal -/

/-- What session `i` may rely on while the others move. -/
structure Later (J : Journal K R E O) (i : ℕ) (db db' : Db K R E) : Prop where
  rely : Rely i db db'
  owners : ∀ k, J.rowOwner db' k = J.rowOwner db k

/-- Verification of sessions of a journal, beside notes. -/
def journalDiscipline {ν : Type} (J : Journal K R E O) (S : Schema K R E F)
    (base : Snapshot K R E) : Discipline (Query K R E F) (Option F) (Db K R E × (ℕ → ν)) where
  inv s := Sound S base s.1 ∧ Journaled J S s.1
  rely i s t := Later J i s.1 t.1 ∧ t.2 i = s.2 i
  cond _ _ _ _ := True
  good _ _ _ _ _ _ := True
  rely_refl _ s := ⟨⟨.refl _ s.1, fun _ => rfl⟩, rfl⟩
  rely_trans _ _ _ _ h h' :=
    ⟨⟨h.1.rely.trans h'.1.rely, fun k => (h'.1.owners k).trans (h.1.owners k)⟩, h'.2.trans h.2⟩

section rules

variable [DecidableEq K] {J : Journal K R E O} {S : Schema K R E F} {base : Snapshot K R E}
  {i : ℕ} {α β ν : Type}
  {note : {β : Type} → Query K R E F β → Option F → Db K R E → β → Db K R E → ν → ν}

/-- One statement that is allowed keeps the discipline. -/
theorem noted_step {q : Query K R E F β} {o : Option F} {s t : Db K R E × (ℕ → ν)} {b : β}
    (h : ((journal S).noting note).exec i q o s = some (b, t)) (hq : q.Allowed J i s.1)
    (hs : Sound S base s.1 ∧ Journaled J S s.1) :
    (Sound S base t.1 ∧ Journaled J S t.1) ∧
      ∀ j, j ≠ i → Later J j s.1 t.1 ∧ t.2 j = s.2 j := by
  obtain ⟨he, hnote⟩ := Machine.noting_exec h
  have heff := answer_effect he hq
  refine ⟨⟨heff.sound hs.1, heff.journaled hs.2⟩, fun j hj => ⟨⟨heff.rely hj, ?_⟩, ?_⟩⟩
  · exact heff.rowOwner hs.2
  · rw [hnote, Function.update_of_ne hj]

/-- The rule of one statement, from an assertion the others keep. -/
theorem triple_answer {q : Query K R E F (Except F β)} {P : Db K R E × (ℕ → ν) → Prop}
    {Q : β → Db K R E × (ℕ → ν) → Prop} {X : F → Db K R E × (ℕ → ν) → Prop}
    (hstable : ∀ s t, P s → (journalDiscipline J S base).rely i s t → P t)
    (hallowed : ∀ s, P s → q.Allowed J i s.1)
    (hpost : ∀ s t o r, P s → Sound S base s.1 ∧ Journaled J S s.1 →
      (journal S).exec i q o s.1 = some (r, t.1) →
      t.2 = Function.update s.2 i (note q o s.1 r t.1 (s.2 i)) →
      match r with
      | .ok b => Q b t
      | .error e => X e t) :
    Triple ((journal S).noting note) (journalDiscipline J S base) i P (Backend.call q) Q X := by
  refine Triple.perform hstable fun s hP hinv o _ r t he => ?_
  obtain ⟨hinv', hrely⟩ := noted_step he (hallowed s hP) hinv
  obtain ⟨he, hnote⟩ := Machine.noting_exec he
  refine ⟨trivial, hinv', hrely, ?_⟩
  have h := hpost s t o r hP hinv he hnote
  cases r <;> exact h

/-- The rule of one statement when nothing is asked of its failure. -/
theorem triple_query {q : Query K R E F (Except F β)} {P : Db K R E × (ℕ → ν) → Prop}
    {Q : β → Db K R E × (ℕ → ν) → Prop}
    (hlost : ∀ f db, (q.lost f i db).1 = .error f)
    (hstable : ∀ s t, P s → (journalDiscipline J S base).rely i s t → P t)
    (hallowed : ∀ s, P s → q.Allowed J i s.1)
    (hrun : ∀ s t b, P s → Sound S base s.1 ∧ Journaled J S s.1 →
      q.run S i s.1 = some (.ok b, t.1) → Q b t) :
    Triple ((journal S).noting note) (journalDiscipline J S base) i P (Backend.call q) Q
      fun _ _ => True := by
  refine triple_answer hstable hallowed fun s t o r hP hinv he _ => ?_
  cases o with
  | none =>
      cases r with
      | ok b => exact hrun s t b hP hinv he
      | error e => trivial
  | some f =>
      have hl : q.lost f i s.1 = (r, t.1) := Option.some.inj he
      have hr := hlost f s.1
      rw [hl] at hr
      simp [show r = .error f from hr]

/-- The session is not in a transaction. -/
def Closed (i : ℕ) (s : Db K R E × (ℕ → ν)) : Prop := s.1.isOpen i = false

omit [DecidableEq K] in
theorem Closed.stable {s t : Db K R E × (ℕ → ν)} (h : Closed i s)
    (hr : (journalDiscipline J S base).rely i s t) : Closed i t := by
  unfold Closed at *
  cases ho : t.1.isOpen i with
  | false => rfl
  | true => exact absurd (hr.1.rely.isOpen ho) (by simp [h])

/-- The session has inserted nothing in its transaction. -/
def Begun (i : ℕ) (s : Db K R E × (ℕ → ν)) : Prop := s.1.isOpen i = true → s.1.own i = []

omit [DecidableEq K] in
theorem Begun.stable {s t : Db K R E × (ℕ → ν)} (h : Begun i s)
    (hr : (journalDiscipline J S base).rely i s t) : Begun i t := fun ho =>
  (hr.1.rely.own ho).trans (h (hr.1.rely.isOpen ho))

theorem triple_begin :
    Triple ((journal S).noting note) (journalDiscipline J S base) i (Closed i)
      (Backend.call .begin) (fun _ => Begun i) fun _ _ => True := by
  apply triple_query
  · intro f db
    rfl
  · exact fun s t hs hr => hs.stable hr
  · exact fun s _ => trivial
  · intro s t b hs hinv he _
    simp only [Query.run, Option.some.injEq, Prod.mk.injEq] at he
    rw [← he.2]
    refine List.eq_nil_iff_forall_not_mem.mpr fun e he' => ?_
    have hopen := hinv.1.inflight_open _ (mem_own.mp he')
    exact absurd hopen (by simp [show s.1.isOpen i = false from hs])

theorem triple_rollback :
    Triple ((journal S).noting note) (journalDiscipline J S base) i (fun _ => True)
      (ExceptT.lift (perform .rollback) : ExceptT F (Prog (Query K R E F)) Unit)
      (fun _ _ => True) fun _ _ => True := by
  intro s _
  rw [wpe_lift]
  refine (wp_perform _ _ _ _ _ _).mpr fun s₁ _ hinv o _ b s₂ he => ?_
  obtain ⟨hinv', hrely⟩ := noted_step he trivial hinv
  exact ⟨trivial, hinv', hrely, trivial⟩

/-- The rule of a transaction: what the body leaves is still so when it commits. -/
theorem triple_inTransaction {body : ExceptT F (Prog (Query K R E F)) β}
    {P : β → Db K R E × (ℕ → ν) → Prop} {Q : β → Db K R E → Prop}
    (hbody : Triple ((journal S).noting note) (journalDiscipline J S base) i (Begun i) body P
      fun _ _ => True)
    (hstable : ∀ b s t, P b s → (journalDiscipline J S base).rely i s t → P b t)
    (hcommit : ∀ b s, P b s → s.1.isOpen i = true → Sound S base s.1 ∧ Journaled J S s.1 →
      Q b (s.1.finish i)) :
    Triple ((journal S).noting note) (journalDiscipline J S base) i (Closed i)
      (inTransaction body) (fun b s => Q b s.1) fun _ _ => True := by
  unfold inTransaction
  refine triple_begin.bind fun _ => Triple.tryCatch (F := fun _ _ => True) ?_ fun e => ?_
  · refine hbody.bind fun b => Triple.bind (R := fun _ s => Q b s.1) ?_ fun _ => ?_
    · apply triple_query
      · intro f db
        rfl
      · exact hstable b
      · exact fun s _ => trivial
      · intro s t _ hs hinv he
        simp only [Query.run] at he
        split_ifs at he with ho
        · simp only [Option.some.injEq, Prod.mk.injEq] at he
          rw [← he.2]
          exact hcommit b s hs ho hinv
        · simp [failed] at he
    · exact Triple.pure fun _ h => h
  · exact triple_rollback.bind fun _ => Triple.throw fun _ _ => trivial

end rules

end DayfiBackend.Found.Database
