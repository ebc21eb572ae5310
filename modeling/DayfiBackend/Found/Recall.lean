import DayfiBackend.Found.Interleave

/-!
# What a process has read

Conditions on a run often speak of what a process saw: "the row is still as it was when the call
read it". `Machine.recalling` runs a machine beside a memory that no instruction reads: after each
instruction of process `i` its memory is updated by `note`. Forgetting the memory gives back the
run of the machine (`recalling_run`), so what is shown of every step of one is shown of every
step of the other (`along_of_recalling`).
-/

namespace DayfiBackend.Found

variable {I : Type → Type} {ω σ α ν : Type}

/-- What each process remembers. -/
abbrev Memory (ν : Type) := ℕ → Option ν

/-- Nothing is remembered. -/
def Memory.empty : Memory ν := fun _ => none

/-- A machine beside the memories of its processes. -/
def Machine.recalling (M : Machine I ω σ)
    (note : {β : Type} → I β → β → Option ν → Option ν) : Machine I ω (σ × Memory ν) where
  exec i ins o s := (M.exec i ins o s.1).map fun r =>
    (r.1, r.2, Function.update s.2 i (note ins r.1 (s.2 i)))

namespace Pool

variable {M : Machine I ω σ} {note : {β : Type} → I β → β → Option ν → Option ν}

/-- A pool without its memories. -/
def forget (P : Pool I α (σ × Memory ν)) : Pool I α σ := ⟨P.store.1, P.procs⟩

/-- A pool whose processes have read nothing. -/
def unread (P : Pool I α σ) : Pool I α (σ × Memory ν) := ⟨(P.store, Memory.empty), P.procs⟩

@[simp] theorem forget_unread (P : Pool I α σ) :
    (P.unread : Pool I α (σ × Memory ν)).forget = P := rfl

theorem recalling_step (P : Pool I α (σ × Memory ν)) (e : ℕ × ω) :
    (P.step (M.recalling note) e).forget = P.forget.step M e := by
  unfold Pool.step forget Machine.recalling
  cases P.procs[e.1]? with
  | none => rfl
  | some p =>
      cases p with
      | ret a => rfl
      | act ins k =>
          dsimp only
          cases M.exec e.1 ins e.2 P.store.1 with
          | none => rfl
          | some r => rfl

/-- The run of the machine, when the memories are forgotten. -/
theorem recalling_run (P : Pool I α (σ × Memory ν)) (sched : List (ℕ × ω)) :
    (P.run (M.recalling note) sched).forget = P.forget.run M sched := by
  induction sched generalizing P with
  | nil => rfl
  | cons e es ih =>
      rw [run_cons, run_cons, ih, recalling_step]

/-- What holds of every step beside the memories holds of every step. -/
theorem along_of_recalling {φ : Pool I α (σ × Memory ν) → ℕ × ω → Prop}
    {ψ : Pool I α σ → ℕ × ω → Prop} (h : ∀ P e, φ P e → ψ P.forget e)
    {P : Pool I α (σ × Memory ν)} {sched : List (ℕ × ω)}
    (hφ : Along (M.recalling note) φ P sched) : Along M ψ P.forget sched := by
  induction sched generalizing P with
  | nil => trivial
  | cons e es ih =>
      refine ⟨h P e hφ.1, ?_⟩
      rw [← recalling_step]
      exact ih hφ.2

/-- A guarantee that does not speak of the memories. -/
theorem goodAt_of_recalling {good : {β : Type} → ℕ → I β → ω → σ → β → σ → Prop}
    (P : Pool I α (σ × Memory ν)) (e : ℕ × ω)
    (h : GoodAt (M.recalling note) (fun i ins o s b t => good i ins o s.1 b t.1) P e) :
    GoodAt M good P.forget e := by
  have key : ∀ {γ : Type} (ins : I γ) (k : γ → Prog I α), P.procs[e.1]? = some (.act ins k) →
      ∀ b s, M.exec e.1 ins e.2 P.store.1 = some (b, s) → good e.1 ins e.2 P.store.1 b s := by
    intro γ ins k hp b s hexec
    unfold GoodAt at h
    rw [hp] at h
    refine h b (s, Function.update P.store.2 e.1 (note ins b (P.store.2 e.1))) ?_
    unfold Machine.recalling
    dsimp only
    rw [hexec]
    rfl
  unfold GoodAt
  split
  · rename_i hp
    exact key _ _ hp
  · trivial

end Pool

end DayfiBackend.Found
