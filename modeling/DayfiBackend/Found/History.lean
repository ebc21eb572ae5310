import DayfiBackend.Found.Interleave

/-!
# A record beside a run

Conditions and properties of a run often speak of what has happened in it: who has read what, which
write is still to come. `Machine.keeping` runs a machine beside a record that no instruction reads:
after each instruction the record is rewritten from what the instruction did. Forgetting the record
gives back the run of the machine (`keeping_run`), so what is shown of every step of one is shown
of every step of the other (`along_of_keeping`).

`Machine.guarded` is a machine whose outside is restricted: a step that the outside may not choose
is not taken.
-/

namespace DayfiBackend.Found

variable {I : Type → Type} {ω σ α η : Type}

/-- A machine beside a record of what has happened. -/
def Machine.keeping (M : Machine I ω σ)
    (record : {β : Type} → ℕ → I β → ω → σ → β → σ → η → η) : Machine I ω (σ × η) where
  exec i ins o s := (M.exec i ins o s.1).map fun r =>
    (r.1, r.2, record i ins o s.1 r.1 r.2 s.2)

/-- A machine whose outside may choose some answers only. -/
def Machine.guarded (M : Machine I ω σ) (may : {β : Type} → I β → ω → Bool) : Machine I ω σ where
  exec i ins o s := if may ins o then M.exec i ins o s else none

theorem Machine.keeping_exec {M : Machine I ω σ}
    {record : {β : Type} → ℕ → I β → ω → σ → β → σ → η → η} {β : Type} {i : ℕ} {ins : I β} {o : ω}
    {s t : σ × η} {b : β} (h : (M.keeping record).exec i ins o s = some (b, t)) :
    M.exec i ins o s.1 = some (b, t.1) ∧ t.2 = record i ins o s.1 b t.1 s.2 := by
  obtain ⟨r, hr, he⟩ := Option.map_eq_some_iff.mp h
  cases he
  exact ⟨hr, rfl⟩

theorem Machine.guarded_exec {M : Machine I ω σ} {may : {β : Type} → I β → ω → Bool} {β : Type}
    {i : ℕ} {ins : I β} {o : ω} {s t : σ} {b : β}
    (h : (M.guarded may).exec i ins o s = some (b, t)) :
    may ins o = true ∧ M.exec i ins o s = some (b, t) := by
  have h' : (if may ins o then M.exec i ins o s else none) = some (b, t) := h
  split_ifs at h' with hmay
  exact ⟨hmay, h'⟩

namespace Pool

/-- What every instruction keeps under a condition, a run whose steps meet it keeps. -/
theorem run_inv_of_cond {M : Machine I ω σ} {F : σ → Prop}
    {cond : {β : Type} → ℕ → I β → ω → σ → Prop}
    (h : ∀ {β : Type} (i : ℕ) (ins : I β) o s b t, M.exec i ins o s = some (b, t) →
      cond i ins o s → F s → F t) {P : Pool I α σ} {sched : List (ℕ × ω)}
    (hc : Along M (CondAt cond) P sched) (hF : F P.store) : F (P.run M sched).store := by
  induction sched generalizing P with
  | nil => exact hF
  | cons e es ih =>
      refine ih hc.2 ?_
      rcases step_cases M P e with hs | ⟨β, ins, k, b, s, hp, he, hs⟩
      · rw [hs]
        exact hF
      · rw [hs]
        have hcond := hc.1
        unfold CondAt at hcond
        rw [hp] at hcond
        exact h _ _ _ _ _ _ he hcond hF

/-- Whether a step is good can be seen from what it does. -/
instance {M : Machine I ω σ} {good : {β : Type} → ℕ → I β → ω → σ → β → σ → Prop}
    [∀ {β : Type} (i : ℕ) (ins : I β) (o : ω) (s : σ) (b : β) (t : σ),
      Decidable (good i ins o s b t)]
    (P : Pool I α σ) (e : ℕ × ω) : Decidable (GoodAt M good P e) := by
  unfold GoodAt
  split
  · rename_i ins k hp
    exact match hexec : M.exec e.1 ins e.2 P.store with
      | none => isTrue fun _ _ h => by cases h
      | some r => decidable_of_iff (good e.1 ins e.2 P.store r.1 r.2)
          ⟨fun h b s he => by cases he; exact h, fun h => h r.1 r.2 rfl⟩
  · infer_instance

variable {M : Machine I ω σ} {record : {β : Type} → ℕ → I β → ω → σ → β → σ → η → η}

/-- A pool without its record. -/
def bare (P : Pool I α (σ × η)) : Pool I α σ := ⟨P.store.1, P.procs⟩

/-- A pool beside a record. -/
def beside (P : Pool I α σ) (h : η) : Pool I α (σ × η) := ⟨(P.store, h), P.procs⟩

@[simp] theorem bare_beside (P : Pool I α σ) (h : η) : (P.beside h).bare = P := rfl

theorem keeping_step (P : Pool I α (σ × η)) (e : ℕ × ω) :
    (P.step (M.keeping record) e).bare = P.bare.step M e := by
  unfold Pool.step bare Machine.keeping
  cases P.procs[e.1]? with
  | none => rfl
  | some p =>
      cases p with
      | ret a => rfl
      | act ins k =>
          dsimp only
          cases M.exec e.1 ins e.2 P.store.1 with
          | none => rfl
          | some r => rfl

/-- The run of the machine, when the record is forgotten. -/
theorem keeping_run (P : Pool I α (σ × η)) (sched : List (ℕ × ω)) :
    (P.run (M.keeping record) sched).bare = P.bare.run M sched := by
  induction sched generalizing P with
  | nil => rfl
  | cons e es ih =>
      rw [run_cons, run_cons, ih, keeping_step]

/-- What holds of every step beside the record holds of every step. -/
theorem along_of_keeping {φ : Pool I α (σ × η) → ℕ × ω → Prop} {ψ : Pool I α σ → ℕ × ω → Prop}
    (h : ∀ P e, φ P e → ψ P.bare e) {P : Pool I α (σ × η)} {sched : List (ℕ × ω)}
    (hφ : Along (M.keeping record) φ P sched) : Along M ψ P.bare sched := by
  induction sched generalizing P with
  | nil => trivial
  | cons e es ih =>
      refine ⟨h P e hφ.1, ?_⟩
      rw [← keeping_step]
      exact ih hφ.2

/-- A guarantee that does not speak of the record. -/
theorem goodAt_of_keeping {good : {β : Type} → ℕ → I β → ω → σ → β → σ → Prop}
    (P : Pool I α (σ × η)) (e : ℕ × ω)
    (h : GoodAt (M.keeping record) (fun i ins o s b t => good i ins o s.1 b t.1) P e) :
    GoodAt M good P.bare e := by
  have key : ∀ {γ : Type} (ins : I γ) (k : γ → Prog I α), P.procs[e.1]? = some (.act ins k) →
      ∀ b s, M.exec e.1 ins e.2 P.store.1 = some (b, s) → good e.1 ins e.2 P.store.1 b s := by
    intro γ ins k hp b s hexec
    unfold GoodAt at h
    rw [hp] at h
    refine h b (s, record e.1 ins e.2 P.store.1 b s P.store.2) ?_
    unfold Machine.keeping
    dsimp only
    rw [hexec]
    rfl
  unfold GoodAt
  split
  · rename_i hp
    exact key _ _ hp
  · trivial

end Pool

end DayfiBackend.Found
