import DayfiBackend.Found.Beside

/-!
# What a process can do when it runs alone

The rules of `Prog.wp` bound what a program does whatever the others do. To show that something
does happen in some run, one process is run by itself: `Reaches` says that it can come from a
program and a store to a later program and store, each step meeting the condition of the runs
considered. A process that reaches a store does so in a schedule of its own steps
(`Reaches.run`).

A program whose instructions never wait (`Within`) returns once it has been scheduled often enough,
whatever the others do (`Pool.returns_of_within`).
-/

namespace DayfiBackend.Found

open Prog

variable {I J : Type → Type} {ω ω' ε ε' σ τ α β : Type}

/-- Process `pid`, run alone, comes from a program and a store to a program and a store. -/
inductive Reaches (M : Machine I ω σ) (cond : {β : Type} → ℕ → I β → ω → σ → Prop) (pid : ℕ) :
    Prog I α → σ → Prog I α → σ → Prop
  | refl (p : Prog I α) (s : σ) : Reaches M cond pid p s p s
  | step {γ : Type} {ins : I γ} {k : γ → Prog I α} {s t u : σ} {b : γ} {q : Prog I α} (o : ω) :
      cond pid ins o s → M.exec pid ins o s = some (b, t) → Reaches M cond pid (k b) t q u →
        Reaches M cond pid (act ins k) s q u

namespace Reaches

variable {M : Machine I ω σ} {cond : {β : Type} → ℕ → I β → ω → σ → Prop} {pid : ℕ} {s t u : σ}

theorem trans {p q r : Prog I α} (h : Reaches M cond pid p s q t)
    (h' : Reaches M cond pid q t r u) : Reaches M cond pid p s r u := by
  induction h with
  | refl p s => exact h'
  | step o hc he _ ih => exact .step o hc he (ih h')

/-- In front of a continuation. -/
theorem bind {p q : Prog I α} (h : Reaches M cond pid p s q t) (f : α → Prog I β) :
    Reaches M cond pid (p >>= f) s (q >>= f) t := by
  induction h with
  | refl p s => exact .refl _ s
  | step o hc he _ ih => exact .step o hc he ih

/-- A process that reaches a store reaches it in a schedule of its own steps. -/
theorem run {p q : Prog I α} {P : Pool I α σ} {i : ℕ} (h : Reaches M cond i p s q t)
    (hs : P.store = s) (hp : P.procs[i]? = some p) :
    ∃ sched, Pool.Along M (Pool.CondAt cond) P sched ∧ P.run M sched = ⟨t, P.procs.set i q⟩ := by
  induction h generalizing P with
  | refl p s =>
      obtain ⟨hi, rfl⟩ := List.getElem?_eq_some_iff.mp hp
      exact ⟨[], trivial, by simp [← hs]⟩
  | @step _ ins k _ v _ b _ o hc he _ ih =>
      subst hs
      have hi : i < P.procs.length := (List.getElem?_eq_some_iff.mp hp).1
      obtain ⟨sched, halong, hrun⟩ := ih (P := ⟨v, P.procs.set i (k b)⟩) rfl
        (List.getElem?_set_self hi)
      have hstep : P.step M (i, o) = ⟨v, P.procs.set i (k b)⟩ := by
        simp only [Pool.step, hp, he]
      refine ⟨(i, o) :: sched, ⟨?_, ?_⟩, ?_⟩
      · unfold Pool.CondAt
        simp only [hp]
        exact hc
      · rw [hstep]
        exact halong
      · rw [Pool.run_cons, hstep, hrun]
        simp

/-- It is run there by what the outside does at each step. -/
theorem advance {p q : Prog I α} (h : Reaches M cond pid p s q t) :
    ∃ os, p.advance M pid os s = (q, t) := by
  induction h with
  | refl p s => exact ⟨[], rfl⟩
  | step o _ he _ ih =>
      obtain ⟨os, hos⟩ := ih
      refine ⟨o :: os, ?_⟩
      simp only [Prog.advance, he, hos]

/-! ### Calls that answer -/

section except

variable {p : ExceptT ε (Prog I) α} {a : α}

/-- The rest of a call, once its first part has answered. -/
theorem bind_ok (h : Reaches M cond pid p.run s (ret (.ok a)) t)
    (f : α → ExceptT ε (Prog I) β) :
    Reaches M cond pid (p >>= f).run s (f a).run t := h.bind _

/-- A call that is guarded against exceptions. -/
theorem tryCatch_of {q : Prog I (Except ε α)} (h : Reaches M cond pid p.run s q t)
    (f : ε → ExceptT ε (Prog I) α) :
    Reaches M cond pid (tryCatch p f).run s (tryCatch (ExceptT.mk q) f : ExceptT ε _ α).run t :=
  h.bind _

/-- A statement that answers. -/
theorem call {B : Backend I ω ε σ} {cond : {β : Type} → ℕ → I β → Except ε ω → σ → Prop}
    {st : I (Except ε β)} {b : β} (o : ω) (hc : cond pid st (.ok o) s)
    (hrun : B.run pid st o s = (.ok b, t)) :
    Reaches B.machine cond pid (Backend.call st).run s (ret (.ok b)) t :=
  .step (.ok o) hc (congrArg some hrun) (.refl _ _)

end except

/-- A call of the service called, seen from the caller. -/
theorem inside {B : Backend I ω ε σ} {C : Backend J ω' ε' (σ × τ)} {out : ω' → ω} {down : ε}
    {g : ε → ε'} {inner : {β : Type} → ℕ → I β → Except ε ω → σ → Prop}
    {cond : {β : Type} → ℕ → Beside I J β → Except ε' ω' → σ × τ → Prop} {x : τ}
    (hinner : ∀ {β : Type} (st : I β) (o : Except ε ω) (s : σ), inner pid st o s →
      ∃ o', o = .ok (out o') ∧ cond pid (.inner st) (.ok o') (s, x))
    {p : ExceptT ε (Prog I) α} {a : α}
    (h : Reaches B.machine inner pid p.run s (ret (.ok a)) t) :
    Reaches (B.beside C out down).machine cond pid (Found.inside g p).run (s, x)
      (ret (.ok a)) (t, x) := by
  have key : ∀ {q r : Prog I (Except ε α)} {s t : σ}, Reaches B.machine inner pid q s r t →
      Reaches (B.beside C out down).machine cond pid (q.embed Beside.inner) (s, x)
        (r.embed Beside.inner) (t, x) := by
    intro q r s t hqr
    induction hqr with
    | refl q s => exact .refl _ _
    | step o hc he _ ih =>
        obtain ⟨o', rfl, hcond⟩ := hinner _ o _ hc
        refine .step (.ok o') hcond ?_ ih
        have hrun := Option.some.inj he
        show some (_, _, _) = _
        rw [hrun]
  exact (key h).bind _

end Reaches

/-! ### Programs that never wait -/

/-- The program returns within `n` instructions, none of which ever waits. -/
def Within (M : Machine I ω σ) (pid : ℕ) : ℕ → Prog I α → Prop
  | _, ret _ => True
  | 0, act _ _ => False
  | n + 1, act i k => (∀ o s, (M.exec pid i o s).isSome = true) ∧ ∀ b, Within M pid n (k b)

namespace Within

variable {M : Machine I ω σ} {pid : ℕ}

theorem mono {m n : ℕ} (hmn : m ≤ n) {p : Prog I α} (h : Within M pid m p) :
    Within M pid n p := by
  induction p generalizing m n with
  | ret a => cases n <;> trivial
  | act i k ih =>
      cases m with
      | zero => exact absurd h (by simp [Within])
      | succ m =>
          obtain ⟨n, rfl⟩ : ∃ n', n = n' + 1 := ⟨n - 1, by omega⟩
          exact ⟨h.1, fun b => ih b (Nat.le_of_succ_le_succ hmn) (h.2 b)⟩

theorem bind {m n : ℕ} {p : Prog I α} {f : α → Prog I β} (hp : Within M pid m p)
    (hf : ∀ a, Within M pid n (f a)) : Within M pid (m + n) (p >>= f) := by
  induction p generalizing m with
  | ret a => exact (hf a).mono (Nat.le_add_left _ _)
  | act i k ih =>
      cases m with
      | zero => exact absurd hp (by simp [Within])
      | succ m =>
          rw [Nat.succ_add]
          exact ⟨hp.1, fun b => ih b (hp.2 b)⟩

/-- The rule of one instruction. -/
theorem perform {i : I β} (h : ∀ o s, (M.exec pid i o s).isSome = true) :
    Within M pid 1 (Prog.perform i) := ⟨h, fun _ => trivial⟩

/-- Calls one after the other. -/
theorem bindE {m n : ℕ} {p : ExceptT ε (Prog I) α} {f : α → ExceptT ε (Prog I) β}
    (hp : Within M pid m p.run) (hf : ∀ a, Within M pid n (f a).run) :
    Within M pid (m + n) (p >>= f).run := by
  rw [ExceptT.run_bind]
  refine hp.bind fun r => ?_
  cases r with
  | ok a => exact hf a
  | error e => cases n <;> trivial

end Within

/-- The other processes are where they were. -/
theorem Pool.step_of_ne {M : Machine I ω σ} {P : Pool I α σ} {e : ℕ × ω} {i : ℕ} (h : e.1 ≠ i) :
    (P.step M e).procs[i]? = P.procs[i]? := by
  rcases Pool.step_cases M P e with hs | ⟨_, ins, k, b, s, -, -, hs⟩
  · rw [hs]
  · rw [hs, List.getElem?_set_ne h]

/-- A process that never waits has returned when it has been scheduled often enough. -/
theorem Pool.returns_of_within {M : Machine I ω σ} {P : Pool I α σ} {i n : ℕ} {p : Prog I α}
    (hp : P.procs[i]? = some p) (hw : Within M i n p) {sched : List (ℕ × ω)}
    (hn : n ≤ sched.countP (·.1 = i)) : ∃ a, (P.run M sched).procs[i]? = some (ret a) := by
  induction sched generalizing P p n with
  | nil =>
      obtain rfl : n = 0 := by simpa using hn
      cases p with
      | ret a => exact ⟨a, hp⟩
      | act ins k => exact absurd hw (by simp [Within])
  | cons e es ih =>
      rw [Pool.run_cons]
      by_cases he : e.1 = i
      · subst he
        rw [List.countP_cons_of_pos (by simp)] at hn
        cases p with
        | ret a =>
            have hstep : P.step M e = P := by simp [Pool.step, hp]
            rw [hstep]
            exact ih hp (n := 0) trivial (Nat.zero_le _)
        | act ins k =>
            cases n with
            | zero => exact absurd hw (by simp [Within])
            | succ n =>
                obtain ⟨⟨b, s⟩, hexec⟩ := Option.isSome_iff_exists.mp (hw.1 e.2 P.store)
                have hstep : P.step M e = ⟨s, P.procs.set e.1 (k b)⟩ := by
                  simp only [Pool.step, hp, hexec]
                have hlt : e.1 < P.procs.length := (List.getElem?_eq_some_iff.mp hp).1
                rw [hstep]
                exact ih (List.getElem?_set_self hlt) (hw.2 b) (by omega)
      · rw [List.countP_cons_of_neg (by simpa using he)] at hn
        exact ih ((Pool.step_of_ne he).trans hp) hw hn

end DayfiBackend.Found
