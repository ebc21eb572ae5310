import DayfiBackend.Found.Recall

/-!
# Statements that may fail, and notes beside a run

A `Backend` says what each statement of a signature does to a store and what it answers. The
caller of a statement may also just get an error: the connection is lost, the server is down. The
machine of a backend has both, the outside choosing between them; a statement that fails has no
effect.

A program over one signature can be read as a program over another that contains it (`embedCall`).

`Machine.noting` runs a machine beside a note for each process, which no instruction reads and
which is rewritten after each of its steps from what the step did. Forgetting the notes gives back
the run (`noting_run`), so a note may be used to say what a process has done so far.
-/

namespace DayfiBackend.Found

variable {I : Type → Type} {ω ε σ α ν : Type}

/-- What the statements of a signature do to a store, when they get there, and what the caller
gets when they do not. -/
structure Backend (I : Type → Type) (ω ε σ : Type) where
  run : {β : Type} → ℕ → I β → ω → σ → β × σ
  fail : {β : Type} → I β → ε → β

namespace Backend

/-- The machine of a backend: the outside fails a statement, or is what it reads. -/
def machine (B : Backend I ω ε σ) : Machine I (Except ε ω) σ where
  exec i st o s :=
    match o with
    | .error e => some (B.fail st e, s)
    | .ok o => some (B.run i st o s)

/-- One statement; its failure is thrown. -/
def call {β : Type} (st : I (Except ε β)) : ExceptT ε (Prog I) β := ExceptT.mk (Prog.perform st)

/-- What one statement does. -/
theorem exec_cases {B : Backend I ω ε σ} {β : Type} {i : ℕ} {st : I β} {o : Except ε ω}
    {s t : σ} {b : β} (h : B.machine.exec i st o s = some (b, t)) :
    (∃ e, o = .error e ∧ b = B.fail st e ∧ t = s) ∨
      ∃ o', o = .ok o' ∧ b = (B.run i st o' s).1 ∧ t = (B.run i st o' s).2 := by
  cases o with
  | error e =>
      cases h
      exact .inl ⟨e, rfl, rfl, rfl⟩
  | ok o =>
      have hr : B.run i st o s = (b, t) := Option.some.inj h
      exact .inr ⟨o, rfl, by rw [hr], by rw [hr]⟩

/-- What every statement keeps when it runs, every instruction keeps. -/
theorem exec_inv {B : Backend I ω ε σ} {F : σ → Prop}
    (h : ∀ {β : Type} (i : ℕ) (st : I β) o s, F s → F (B.run i st o s).2) {β : Type} (i : ℕ)
    (st : I β) (o : Except ε ω) (s : σ) (b : β) (t : σ)
    (he : B.machine.exec i st o s = some (b, t)) (hs : F s) : F t := by
  rcases exec_cases he with ⟨e, -, -, rfl⟩ | ⟨o', -, -, rfl⟩
  · exact hs
  · exact h i st o' s hs

/-- The rule of one statement, from an assertion the others keep. -/
theorem triple_call {B : Backend I ω ε σ} {D : Discipline I (Except ε ω) σ} {β : Type} {i : ℕ}
    {st : I (Except ε β)} {P : σ → Prop} {Q : β → σ → Prop} {E : ε → σ → Prop}
    (hst : ∀ e, B.fail st e = .error e) (hstable : ∀ s t, P s → D.rely i s t → P t)
    (hfail : ∀ s e, P s → D.cond i st (.error e) s →
      D.good i st (.error e) s (.error e) s ∧ E e s)
    (hrun : ∀ s o, P s → D.inv s → D.cond i st (.ok o) s →
      D.good i st (.ok o) s (B.run i st o s).1 (B.run i st o s).2 ∧
        D.inv (B.run i st o s).2 ∧ (∀ j, j ≠ i → D.rely j s (B.run i st o s).2) ∧
          match (B.run i st o s).1 with
          | .ok b => Q b (B.run i st o s).2
          | .error e => E e (B.run i st o s).2) :
    Prog.Triple B.machine D i P (call st) Q E := by
  refine Prog.Triple.perform hstable fun s hP hinv o hc r t he => ?_
  rcases exec_cases he with ⟨e, rfl, rfl, rfl⟩ | ⟨o', rfl, rfl, rfl⟩
  · rw [hst]
    obtain ⟨hgood, hE⟩ := hfail t e hP hc
    exact ⟨hgood, hinv, fun j _ => D.rely_refl j t, hE⟩
  · obtain ⟨hgood, hinv', hrely, hans⟩ := hrun s o' hP hinv hc
    refine ⟨hgood, hinv', hrely, ?_⟩
    cases hb : (B.run i st o' s).1 with
    | ok b => simpa [hb] using hans
    | error e => simpa [hb] using hans

end Backend

/-! ### One signature inside another -/

namespace Prog

variable {J : Type → Type} {f : {β : Type} → I β → J β}

/-- The program, its statements read as statements of another signature. -/
def embed (f : {β : Type} → I β → J β) : Prog I α → Prog J α
  | ret a => ret a
  | act i k => act (f i) fun b => (k b).embed f

theorem only_embed {φ : {β : Type} → I β → Prop} {ψ : {β : Type} → J β → Prop}
    (h : ∀ {β : Type} (i : I β), φ i → ψ (f i)) :
    {p : Prog I α} → p.Only φ → (p.embed f).Only ψ
  | ret _, _ => trivial
  | act i _, hp => ⟨h i hp.1, fun b => only_embed h (hp.2 b)⟩

theorem only_true : (p : Prog I α) → p.Only fun _ => True
  | ret _ => trivial
  | act _ k => ⟨trivial, fun b => only_true (k b)⟩

end Prog

/-- A call of one service inside another, which throws its errors as errors of its own. -/
def embedCall {J : Type → Type} {δ : Type} (f : {β : Type} → I β → J β) (g : ε → δ)
    (p : ExceptT ε (Prog I) α) : ExceptT δ (Prog J) α :=
  ExceptT.mk (p.run.embed f >>= fun r => pure (r.mapError g))

section embedCall

variable {J : Type → Type} {δ : Type} {f : {β : Type} → I β → J β} {g : ε → δ}
  {ψ : {β : Type} → J β → Prop} {p : ExceptT ε (Prog I) α}

theorem onlyE_embedCall {φ : {β : Type} → I β → Prop} (h : ∀ {β : Type} (i : I β), φ i → ψ (f i))
    (hp : Prog.OnlyE φ p) : Prog.OnlyE ψ (embedCall f g p) := by
  unfold Prog.OnlyE embedCall at *
  exact Prog.only_bind (Prog.only_embed h hp) fun _ => trivial

/-- The statements of the inner service are all allowed. -/
theorem onlyE_embedCall_any (h : ∀ {β : Type} (i : I β), ψ (f i)) :
    Prog.OnlyE ψ (embedCall f g p) := by
  unfold Prog.OnlyE embedCall
  exact Prog.only_bind (Prog.only_embed (fun i _ => h i) (Prog.only_true p.run)) fun _ => trivial

/-- Sequencing inside is sequencing outside. -/
theorem embedCall_bind {β : Type} (p : ExceptT ε (Prog I) β) (k : β → ExceptT ε (Prog I) α) :
    embedCall f g (p >>= k) = (embedCall f g p >>= fun b => embedCall f g (k b)) := by
  have key : ∀ q : Prog I (Except ε β),
      embedCall f g (ExceptT.mk q >>= k) =
        (embedCall f g (ExceptT.mk q) >>= fun b => embedCall f g (k b)) := by
    intro q
    induction q with
    | ret r => cases r <;> rfl
    | act i c ih => exact congrArg (fun c => ExceptT.mk (Prog.act (f i) c)) (funext ih)
  exact key p.run

section triple

variable {M : Machine J ω σ} {D : Discipline J ω σ} {pid : ℕ} {P : σ → Prop}
  {Q : α → σ → Prop} {E : δ → σ → Prop}

theorem triple_embed_pure {a : α} (h : ∀ s, P s → Q a s) :
    Prog.Triple M D pid P (embedCall f g (pure a : ExceptT ε (Prog I) α)) Q E := Prog.Triple.pure h

theorem triple_embed_throw {e : ε} (h : ∀ s, P s → E (g e) s) :
    Prog.Triple M D pid P (embedCall f g (throw e : ExceptT ε (Prog I) α)) Q E :=
  Prog.Triple.throw h

theorem triple_embed_bind {β : Type} {R : β → σ → Prop} {p : ExceptT ε (Prog I) β}
    {k : β → ExceptT ε (Prog I) α} (hp : Prog.Triple M D pid P (embedCall f g p) R E)
    (hk : ∀ b, Prog.Triple M D pid (R b) (embedCall f g (k b)) Q E) :
    Prog.Triple M D pid P (embedCall f g (p >>= k)) Q E := by
  rw [embedCall_bind]
  exact hp.bind hk

/-- The rule of an inner statement, from an assertion the others keep. -/
theorem triple_embed_perform {st : I (Except ε α)} (hstable : ∀ s t, P s → D.rely pid s t → P t)
    (h : ∀ t, P t → D.inv t → ∀ o, D.cond pid (f st) o t → ∀ r u,
      M.exec pid (f st) o t = some (r, u) →
        D.good pid (f st) o t r u ∧ D.inv u ∧ (∀ j, j ≠ pid → D.rely j t u) ∧
          match r with | .ok a => Q a u | .error e => E (g e) u) :
    Prog.Triple M D pid P (embedCall f g (ExceptT.mk (Prog.perform st))) Q E := by
  intro s hs
  refine (Prog.wp_act M D pid _ _ _ _).mpr fun t hr hi o hc r u he => ?_
  obtain ⟨hgood, hinv, hrely, hpost⟩ := h t (hstable s t hs hr) hi o hc r u he
  refine ⟨hgood, hinv, hrely, ?_⟩
  cases r with
  | ok a => exact (Prog.wp_ret M D pid _ _ _).mpr hpost
  | error e => exact (Prog.wp_ret M D pid _ _ _).mpr hpost

end triple

end embedCall

/-! ### Invariants of every instruction -/

namespace Pool

variable {M : Machine I ω σ}

/-- What every instruction keeps, a step keeps. -/
theorem step_inv {F : σ → Prop} (h : ∀ {β : Type} (i : ℕ) (ins : I β) o s b t,
    M.exec i ins o s = some (b, t) → F s → F t) {P : Pool I α σ} (e : ℕ × ω)
    (hF : F P.store) : F (P.step M e).store := by
  rcases step_cases M P e with hs | ⟨β, ins, k, b, s, -, he, hs⟩
  · rw [hs]
    exact hF
  · rw [hs]
    exact h _ _ _ _ _ _ he hF

/-- What every instruction keeps, a run keeps. -/
theorem run_inv {F : σ → Prop} (h : ∀ {β : Type} (i : ℕ) (ins : I β) o s b t,
    M.exec i ins o s = some (b, t) → F s → F t) {P : Pool I α σ} (sched : List (ℕ × ω))
    (hF : F P.store) : F (P.run M sched).store := by
  induction sched generalizing P with
  | nil => exact hF
  | cons e es ih => exact ih (step_inv h e hF)

end Pool

/-! ### Notes -/

/-- A machine beside a note for each process. -/
def Machine.noting (M : Machine I ω σ)
    (note : {β : Type} → I β → ω → σ → β → σ → ν → ν) : Machine I ω (σ × (ℕ → ν)) where
  exec i ins o s := (M.exec i ins o s.1).map fun r =>
    (r.1, r.2, Function.update s.2 i (note ins o s.1 r.1 r.2 (s.2 i)))

theorem Machine.noting_exec {M : Machine I ω σ}
    {note : {β : Type} → I β → ω → σ → β → σ → ν → ν} {β : Type} {i : ℕ} {ins : I β} {o : ω}
    {s t : σ × (ℕ → ν)} {b : β} (h : (M.noting note).exec i ins o s = some (b, t)) :
    M.exec i ins o s.1 = some (b, t.1) ∧
      t.2 = Function.update s.2 i (note ins o s.1 b t.1 (s.2 i)) := by
  obtain ⟨r, hr, he⟩ := Option.map_eq_some_iff.mp h
  cases he
  exact ⟨hr, rfl⟩

/-- What one statement does to the store and to the notes. -/
theorem Backend.noted_cases {B : Backend I ω ε σ}
    {note : {β : Type} → I β → Except ε ω → σ → β → σ → ν → ν} {β : Type} {i : ℕ} {st : I β}
    {o : Except ε ω} {s t : σ × (ℕ → ν)} {b : β}
    (h : (B.machine.noting note).exec i st o s = some (b, t)) :
    t.2 = Function.update s.2 i (note st o s.1 b t.1 (s.2 i)) ∧
      ((∃ e, o = .error e ∧ b = B.fail st e ∧ t.1 = s.1) ∨
        ∃ o', o = .ok o' ∧ b = (B.run i st o' s.1).1 ∧ t.1 = (B.run i st o' s.1).2) := by
  obtain ⟨he, hnote⟩ := Machine.noting_exec h
  exact ⟨hnote, Backend.exec_cases he⟩

/-- The rule of one statement beside notes that a failing statement leaves, from an assertion the
others keep. -/
theorem Backend.triple_noted {B : Backend I ω ε σ}
    {note : {β : Type} → I β → Except ε ω → σ → β → σ → ν → ν}
    {D : Discipline I (Except ε ω) (σ × (ℕ → ν))} {β : Type} {i : ℕ} {st : I (Except ε β)}
    {P : σ × (ℕ → ν) → Prop} {Q : β → σ × (ℕ → ν) → Prop} {E : ε → σ × (ℕ → ν) → Prop}
    (hst : ∀ e, B.fail st e = .error e)
    (hnote : ∀ (e : ε) (x y : σ) (b : Except ε β) (n : ν), note st (.error e) x b y n = n)
    (hstable : ∀ s t, P s → D.rely i s t → P t)
    (hfail : ∀ s e, P s → D.cond i st (.error e) s →
      D.good i st (.error e) s (.error e) s ∧ E e s)
    (hrun : ∀ s o t, P s → D.inv s → D.cond i st (.ok o) s → t.1 = (B.run i st o s.1).2 →
      t.2 = Function.update s.2 i (note st (.ok o) s.1 (B.run i st o s.1).1 t.1 (s.2 i)) →
      D.good i st (.ok o) s (B.run i st o s.1).1 t ∧ D.inv t ∧ (∀ j, j ≠ i → D.rely j s t) ∧
        match (B.run i st o s.1).1 with
        | .ok b => Q b t
        | .error e => E e t) :
    Prog.Triple (B.machine.noting note) D i P (call st) Q E := by
  refine Prog.Triple.perform hstable fun s hP hinv o hc r t he => ?_
  obtain ⟨hnoted, ⟨e, rfl, rfl, ht⟩ | ⟨o, rfl, rfl, ht⟩⟩ := noted_cases he
  · have hsame : t = s := by
      refine Prod.ext ht (hnoted.trans ?_)
      rw [hnote]
      exact Function.update_eq_self ..
    subst hsame
    rw [hst]
    obtain ⟨hgood, hE⟩ := hfail t e hP hc
    exact ⟨hgood, hinv, fun j _ => D.rely_refl j t, hE⟩
  · obtain ⟨hgood, hinv', hrely, hans⟩ := hrun s o t hP hinv hc ht hnoted
    refine ⟨hgood, hinv', hrely, ?_⟩
    cases hb : (B.run i st o s.1).1 with
    | ok b => simpa [hb] using hans
    | error e => simpa [hb] using hans

namespace Pool

variable {M : Machine I ω σ} {note : {β : Type} → I β → ω → σ → β → σ → ν → ν}

/-- A pool without its notes. -/
def unnoted (P : Pool I α (σ × (ℕ → ν))) : Pool I α σ := ⟨P.store.1, P.procs⟩

/-- A pool beside empty notes. -/
def noted (P : Pool I α σ) (blank : ν) : Pool I α (σ × (ℕ → ν)) :=
  ⟨(P.store, fun _ => blank), P.procs⟩

@[simp] theorem unnoted_noted (P : Pool I α σ) (blank : ν) : (P.noted blank).unnoted = P := rfl

theorem noting_step (P : Pool I α (σ × (ℕ → ν))) (e : ℕ × ω) :
    (P.step (M.noting note) e).unnoted = P.unnoted.step M e := by
  unfold Pool.step unnoted Machine.noting
  cases P.procs[e.1]? with
  | none => rfl
  | some p =>
      cases p with
      | ret a => rfl
      | act ins k =>
          dsimp only
          cases M.exec e.1 ins e.2 P.store.1 with
          | none => rfl
          | some r => rfl

/-- The run of the machine, when the notes are forgotten. -/
theorem noting_run (P : Pool I α (σ × (ℕ → ν))) (sched : List (ℕ × ω)) :
    (P.run (M.noting note) sched).unnoted = P.unnoted.run M sched := by
  induction sched generalizing P with
  | nil => rfl
  | cons e es ih =>
      rw [run_cons, run_cons, ih, noting_step]

/-- What holds of every step beside the notes holds of every step. -/
theorem along_of_noting {φ : Pool I α (σ × (ℕ → ν)) → ℕ × ω → Prop}
    {ψ : Pool I α σ → ℕ × ω → Prop} (h : ∀ P e, φ P e → ψ P.unnoted e)
    {P : Pool I α (σ × (ℕ → ν))} {sched : List (ℕ × ω)}
    (hφ : Along (M.noting note) φ P sched) : Along M ψ P.unnoted sched := by
  induction sched generalizing P with
  | nil => trivial
  | cons e es ih =>
      refine ⟨h P e hφ.1, ?_⟩
      rw [← noting_step]
      exact ih hφ.2

/-- A guarantee that does not speak of the notes. -/
theorem goodAt_of_noting {good : {β : Type} → ℕ → I β → ω → σ → β → σ → Prop}
    (P : Pool I α (σ × (ℕ → ν))) (e : ℕ × ω)
    (h : GoodAt (M.noting note) (fun i ins o s b t => good i ins o s.1 b t.1) P e) :
    GoodAt M good P.unnoted e := by
  have key : ∀ {γ : Type} (ins : I γ) (k : γ → Prog I α), P.procs[e.1]? = some (.act ins k) →
      ∀ b s, M.exec e.1 ins e.2 P.store.1 = some (b, s) → good e.1 ins e.2 P.store.1 b s := by
    intro γ ins k hp b s hexec
    unfold GoodAt at h
    rw [hp] at h
    refine h b (s, Function.update P.store.2 e.1 (note ins e.2 P.store.1 b s (P.store.2 e.1))) ?_
    unfold Machine.noting
    dsimp only
    rw [hexec]
    rfl
  unfold GoodAt
  split
  · rename_i hp
    exact key _ _ hp
  · trivial

end Pool

end DayfiBackend.Found
