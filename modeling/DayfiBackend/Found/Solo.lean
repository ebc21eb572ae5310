import DayfiBackend.Found.Interleave

/-!
# A process by itself

Under the discipline `solo` nobody else takes a step: an assertion about the store holds until the
process itself changes it. What is proved under it holds wherever the process stops
(`advance_inv`) and of what it returns (`advance_result`).
-/

namespace DayfiBackend.Found

open Prog

variable {I : Type → Type} {ω ε σ α β : Type}

/-- The discipline of process `pid` running by itself, while the outside is as `okay` says. -/
def solo (pid : ℕ) (inv : σ → Prop) (okay : ω → Prop) : Discipline I ω σ where
  inv := inv
  rely i s t := i = pid → s = t
  cond _ _ o _ := okay o
  good _ _ _ _ _ _ := True
  rely_refl _ _ _ := rfl
  rely_trans _ _ _ _ h h' hi := (h hi).trans (h' hi)

variable {M : Machine I ω σ} {inv : σ → Prop} {okay : ω → Prop} {pid : ℕ}

/-- A process run by itself keeps the invariant, and what it returns meets its postcondition. -/
theorem advance_sound {Q : α → σ → Prop} {os : List ω} (hos : ∀ o ∈ os, okay o) :
    ∀ {p : Prog I α} {s : σ}, wp M (solo pid inv okay) pid p Q s → inv s →
      inv (p.advance M pid os s).2 ∧
        ∀ a, (p.advance M pid os s).1 = ret a → Q a (p.advance M pid os s).2 := by
  induction os with
  | nil =>
    intro p s h hs
    refine ⟨hs, fun a ha => ?_⟩
    have hp : p = ret a := ha
    subst hp
    exact (wp_ret M (solo pid inv okay) pid a Q s).mp h
  | cons o os ih =>
    intro p s h hs
    have hrest : ∀ o' ∈ os, okay o' := fun o' ho => hos o' (List.mem_cons_of_mem o ho)
    cases p with
    | ret a =>
      refine ⟨hs, fun b hb => ?_⟩
      obtain rfl : a = b := by
        injection hb
      exact (wp_ret M (solo pid inv okay) pid a Q s).mp h
    | act ins k =>
      cases he : M.exec pid ins o s with
      | none =>
        have hstep : (act ins k).advance M pid (o :: os) s = (act ins k).advance M pid os s := by
          simp [advance, he]
        rw [hstep]
        exact ih hrest h hs
      | some r =>
        have hstep : (act ins k).advance M pid (o :: os) s = (k r.1).advance M pid os r.2 := by
          simp [advance, he]
        rw [hstep]
        have hact := (wp_act M (solo pid inv okay) pid ins k Q s).mp h
        obtain ⟨-, hinv, -, hk⟩ := hact s (fun _ => rfl) hs o (hos o List.mem_cons_self) r.1 r.2 he
        exact ih hrest hk hinv

/-- What a process that ran by itself returned. -/
theorem advance_result {Q : α → σ → Prop} {E : ε → σ → Prop} {p : ExceptT ε (Prog I) α} {a : α}
    {s t : σ} {os : List ω} (h : wpe M (solo pid inv okay) pid p Q E s) (hs : inv s)
    (hos : ∀ o ∈ os, okay o) (hrun : p.run.advance M pid os s = (ret (.ok a), t)) : Q a t := by
  have hsound := (advance_sound hos h hs).2 (.ok a)
  rw [hrun] at hsound
  exact hsound rfl

/-- The rule of one instruction that answers or fails, by what it does to the store. -/
theorem solo_perform {i : I (Except ε α)} {P : σ → Prop} {Q : α → σ → Prop} {E : ε → σ → Prop}
    (h : ∀ s, P s → inv s → ∀ o, okay o → ∀ r t, M.exec pid i o s = some (r, t) →
      inv t ∧ (∀ a, r = .ok a → Q a t) ∧ ∀ e, r = .error e → E e t) :
    Triple M (solo pid inv okay) pid P (ExceptT.mk (Prog.perform i)) Q E := by
  refine Triple.perform (fun s t hs hst => ?_) fun s hs hinv o ho r t he => ?_
  · obtain rfl : s = t := hst rfl
    exact hs
  · obtain ⟨hinv', hok, herror⟩ := h s hs hinv o ho r t he
    refine ⟨trivial, hinv', fun j hj hi => absurd hi hj, ?_⟩
    cases r with
    | ok a => exact hok a rfl
    | error e => exact herror e rfl

/-- What a call has returned. -/
def Prog.returned? : Prog I (Except ε α) → Option α
  | ret (.ok a) => some a
  | _ => none

theorem Prog.eq_ret_of_returned {p : Prog I (Except ε α)} {a : α} (h : p.returned? = some a) :
    p = ret (.ok a) := by
  unfold Prog.returned? at h
  split at h
  · rw [Option.some.inj h]
  · cases h

/-- What a call has thrown. -/
def Prog.thrown? : Prog I (Except ε α) → Option ε
  | ret (.error e) => some e
  | _ => none

theorem Prog.eq_ret_of_thrown {p : Prog I (Except ε α)} {e : ε} (h : p.thrown? = some e) :
    p = ret (.error e) := by
  unfold Prog.thrown? at h
  split at h
  · rw [Option.some.inj h]
  · cases h

end DayfiBackend.Found
