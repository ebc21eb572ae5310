import DayfiBackend.Found.Backend

/-!
# Pools on their way

A pool need not be at its start to be verified. Where every instruction keeps the invariant, and
leaves what the processes count on, whoever performs it, all that is asked of a pool is that its
store meets the invariant and that the process which is looked at runs under the discipline.
-/

namespace DayfiBackend.Found

open Prog

variable {I : Type → Type} {ω σ α : Type} {M : Machine I ω σ} {D : Discipline I ω σ}

/-- Every instruction keeps the invariant and what is counted on, whoever performs it. -/
structure Discipline.Open (M : Machine I ω σ) (D : Discipline I ω σ) : Prop where
  step : ∀ {β : Type} (i : ℕ) (ins : I β) (o : ω) (s : σ) (b : β) (t : σ), D.inv s →
    D.cond i ins o s → M.exec i ins o s = some (b, t) →
      D.good i ins o s b t ∧ D.inv t ∧ ∀ j, D.rely j s t

namespace Prog

/-- Any program runs under an open discipline. -/
theorem wp_open (h : D.Open M) (i : ℕ) (p : Prog I α) (s : σ) :
    wp M D i p (fun _ _ => True) s :=
  wp_of_only (P := fun _ => True) (φ := fun _ => True)
    (fun ins _ s _ t _ hinv o hc b u he => by
      obtain ⟨hgood, hinv', hrely⟩ := h.step i ins o t b u hinv hc he
      exact ⟨hgood, hinv', fun j _ => hrely j, trivial⟩) p (only_true p) s trivial

end Prog

/-- A process that takes no step stays as it is. -/
theorem Pool.run_untouched {i : ℕ} (sched : List (ℕ × ω)) (P : Pool I α σ)
    (h : ∀ e ∈ sched, e.1 ≠ i) : (P.run M sched).procs[i]? = P.procs[i]? := by
  induction sched generalizing P with
  | nil => rfl
  | cons e es ih =>
      rw [run_cons, ih _ fun e' he' => h e' (List.mem_cons_of_mem e he')]
      rcases step_cases M P e with hs | ⟨β, ins, k, b, s, -, -, hs⟩
      · rw [hs]
      · rw [hs]
        exact List.getElem?_set_ne (h e List.mem_cons_self)

/-- **A pool on its way** is verified, when one of its processes is looked at. -/
theorem Pool.Verified.midway {P : Pool I α σ} {Q : ℕ → α → σ → Prop} (h : D.Open M)
    (hinv : D.inv P.store) {j : ℕ} {p : Prog I α} (hj : P.procs[j]? = some p)
    (hp : wp M D j p (Q j) P.store) (hQ : ∀ i a s, i ≠ j → Q i a s) :
    Pool.Verified M D Q P := by
  refine ⟨hinv, fun i q hi => ⟨P.store, ?_, D.rely_refl i _⟩⟩
  by_cases hij : i = j
  · subst hij
    obtain rfl := Option.some.inj (hj.symm.trans hi)
    exact hp
  · exact wp_mono (fun a t _ => hQ i a t hij) _ _ (wp_open h i q _)

end DayfiBackend.Found
