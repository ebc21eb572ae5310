import Mathlib.Data.List.Basic
import Mathlib.Logic.Basic
import Mathlib.Tactic.Common

/-!
# Interleaved programs over a shared store

A `Prog I α` is a program that performs instructions of a signature `I` and returns an `α`. A
`Machine` says what one instruction does to the store when one process performs it; it may be
blocked (`none`), and it reads the outside world (`ω`: answers of other systems, clocks,
configuration) afresh at every step. A `Pool` is a store and a list of processes; a run is a list
of entries "process `i` takes its next step, the outside being `o`". A process that is not
scheduled again has crashed, and one not scheduled yet has not been called yet, so quantifying
over lists of processes and over schedules covers calls at any time, repeated calls and crashes.

Reasoning is rely–guarantee. A `Discipline` fixes

* `inv` — what holds of the store between any two steps,
* `rely i` — what process `i` may count on across the steps of the others,
* `cond` — the runs considered: a condition on each step, on the state before it,
* `good` — what is shown of every step taken.

`Prog.wp` is the weakest precondition of a program under the discipline, and `Pool.run_sound` says
that a pool of programs each satisfying its own `wp` keeps `inv` and takes only `good` steps.
-/

namespace DayfiBackend.Found

/-- A program over the instruction signature `I`. -/
inductive Prog (I : Type → Type) (α : Type) : Type 1
  | ret (a : α) : Prog I α
  | act {β : Type} (i : I β) (k : β → Prog I α) : Prog I α

/-- The effect of one instruction of process `i` on the store; `none` when it has to wait. -/
structure Machine (I : Type → Type) (ω σ : Type) where
  exec : {β : Type} → ℕ → I β → ω → σ → Option (β × σ)

/-- A store and the processes running over it. -/
structure Pool (I : Type → Type) (α σ : Type) where
  store : σ
  procs : List (Prog I α)

/-- The assertions a pool is verified against. -/
structure Discipline (I : Type → Type) (ω σ : Type) where
  inv : σ → Prop
  rely : ℕ → σ → σ → Prop
  cond : {β : Type} → ℕ → I β → ω → σ → Prop
  good : {β : Type} → ℕ → I β → ω → σ → β → σ → Prop
  rely_refl : ∀ i s, rely i s s
  rely_trans : ∀ i {s t u}, rely i s t → rely i t u → rely i s u

variable {I : Type → Type} {ω σ α β : Type}

namespace Prog

/-- Sequencing. -/
def bind : Prog I α → (α → Prog I β) → Prog I β
  | ret a, f => f a
  | act i k, f => act i fun b => (k b).bind f

instance : Monad (Prog I) where
  pure := ret
  bind := bind

/-- The program of one instruction. -/
def perform (i : I β) : Prog I β := act i ret

@[simp] theorem pure_eq_ret (a : α) : (pure a : Prog I α) = ret a := rfl

@[simp] theorem ret_bind (a : α) (f : α → Prog I β) : (ret a >>= f) = f a := rfl

@[simp] theorem act_bind {γ : Type} (i : I γ) (k : γ → Prog I α) (f : α → Prog I β) :
    (act i k >>= f) = act i fun c => k c >>= f := rfl

@[simp] theorem perform_bind (i : I α) (f : α → Prog I β) : (perform i >>= f) = act i f := rfl

/-- What is left of a program, and the store, when process `pid` runs it alone. -/
def advance (M : Machine I ω σ) (pid : ℕ) (p : Prog I α) (os : List ω) (s : σ) : Prog I α × σ :=
  match os with
  | [] => (p, s)
  | o :: os =>
      match p with
      | ret a => (ret a, s)
      | act i k =>
          match M.exec pid i o s with
          | some (b, t) => (k b).advance M pid os t
          | none => (act i k).advance M pid os s

/-! ### Weakest preconditions under interference -/

variable (M : Machine I ω σ) (D : Discipline I ω σ) (pid : ℕ)

/-- The weakest precondition of a program run by process `pid`: whatever the others do in between
(`rely`), every own step from a state of `inv` that meets `cond` is `good`, keeps `inv`, respects
what the others rely on, and leads to `Q` when the program returns. -/
def wp : Prog I α → (α → σ → Prop) → σ → Prop
  | ret a, Q, s => Q a s
  | act i k, Q, s => ∀ s₁, D.rely pid s s₁ → D.inv s₁ → ∀ o, D.cond pid i o s₁ →
      ∀ b s₂, M.exec pid i o s₁ = some (b, s₂) →
        D.good pid i o s₁ b s₂ ∧ D.inv s₂ ∧ (∀ j, j ≠ pid → D.rely j s₁ s₂) ∧ wp (k b) Q s₂

@[simp] theorem wp_ret (a : α) (Q : α → σ → Prop) (s : σ) :
    wp M D pid (ret a) Q s ↔ Q a s := Iff.rfl

theorem wp_act {γ : Type} (i : I γ) (k : γ → Prog I α) (Q : α → σ → Prop) (s : σ) :
    wp M D pid (act i k) Q s ↔ ∀ s₁, D.rely pid s s₁ → D.inv s₁ → ∀ o, D.cond pid i o s₁ →
      ∀ b s₂, M.exec pid i o s₁ = some (b, s₂) →
        D.good pid i o s₁ b s₂ ∧ D.inv s₂ ∧ (∀ j, j ≠ pid → D.rely j s₁ s₂) ∧
          wp M D pid (k b) Q s₂ := Iff.rfl

/-- The rule of one instruction. -/
theorem wp_perform (i : I β) (Q : β → σ → Prop) (s : σ) :
    wp M D pid (perform i) Q s ↔ ∀ s₁, D.rely pid s s₁ → D.inv s₁ → ∀ o, D.cond pid i o s₁ →
      ∀ b s₂, M.exec pid i o s₁ = some (b, s₂) →
        D.good pid i o s₁ b s₂ ∧ D.inv s₂ ∧ (∀ j, j ≠ pid → D.rely j s₁ s₂) ∧ Q b s₂ := Iff.rfl

variable {M D pid}

/-- A weaker postcondition. -/
theorem wp_mono {Q Q' : α → σ → Prop} (hQ : ∀ a s, Q a s → Q' a s) :
    (p : Prog I α) → (s : σ) → wp M D pid p Q s → wp M D pid p Q' s
  | ret a, s, h => hQ a s h
  | act i k, s, h => by
      intro s₁ hr hi o hc b s₂ he
      obtain ⟨hg, hinv, hrely, hk⟩ := h s₁ hr hi o hc b s₂ he
      exact ⟨hg, hinv, hrely, wp_mono hQ (k b) s₂ hk⟩

/-- The rule of sequencing. -/
theorem wp_bind (Q : β → σ → Prop) (f : α → Prog I β) :
    (p : Prog I α) → (s : σ) →
      (wp M D pid (p >>= f) Q s ↔ wp M D pid p (fun a t => wp M D pid (f a) Q t) s)
  | ret a, s => Iff.rfl
  | act i k, s => by
      constructor
      · intro h s₁ hr hi o hc b s₂ he
        obtain ⟨hg, hinv, hrely, hk⟩ := h s₁ hr hi o hc b s₂ he
        exact ⟨hg, hinv, hrely, (wp_bind Q f (k b) s₂).mp hk⟩
      · intro h s₁ hr hi o hc b s₂ he
        obtain ⟨hg, hinv, hrely, hk⟩ := h s₁ hr hi o hc b s₂ he
        exact ⟨hg, hinv, hrely, (wp_bind Q f (k b) s₂).mpr hk⟩

/-! ### Programs that may throw -/

section except

variable {ε : Type}

/-- Weakest precondition of a program that may throw, with a postcondition for each exit. -/
def wpe (M : Machine I ω σ) (D : Discipline I ω σ) (pid : ℕ) (p : ExceptT ε (Prog I) α)
    (Q : α → σ → Prop) (E : ε → σ → Prop) (s : σ) : Prop :=
  wp M D pid p.run (fun r t => match r with | .ok a => Q a t | .error e => E e t) s

variable {Q : α → σ → Prop} {E : ε → σ → Prop} {s : σ}

@[simp] theorem wpe_pure (a : α) :
    wpe M D pid (pure a : ExceptT ε (Prog I) α) Q E s ↔ Q a s := Iff.rfl

@[simp] theorem wpe_throw (e : ε) :
    wpe M D pid (throw e : ExceptT ε (Prog I) α) Q E s ↔ E e s := Iff.rfl

theorem wpe_mono {Q' : α → σ → Prop} {E' : ε → σ → Prop} {p : ExceptT ε (Prog I) α}
    (hQ : ∀ a t, Q a t → Q' a t) (hE : ∀ e t, E e t → E' e t)
    (h : wpe M D pid p Q E s) : wpe M D pid p Q' E' s := by
  refine wp_mono ?_ _ _ h
  rintro (e | a) t ht
  · exact hE e t ht
  · exact hQ a t ht

theorem wpe_bind {Q : β → σ → Prop} (p : ExceptT ε (Prog I) α)
    (f : α → ExceptT ε (Prog I) β) :
    wpe M D pid (p >>= f) Q E s ↔
      wpe M D pid p (fun a t => wpe M D pid (f a) Q E t) E s := by
  unfold wpe
  rw [ExceptT.run_bind, wp_bind]
  constructor <;> refine wp_mono ?_ _ _ <;> rintro (e | a) t ht <;> exact ht

theorem wpe_tryCatch (p : ExceptT ε (Prog I) α) (h : ε → ExceptT ε (Prog I) α) :
    wpe M D pid (tryCatch p h) Q E s ↔
      wpe M D pid p Q (fun e t => wpe M D pid (h e) Q E t) s := by
  change wp M D pid (p.run >>= _) _ s ↔ _
  unfold wpe
  rw [wp_bind]
  constructor <;> refine wp_mono ?_ _ _ <;> rintro (e | a) t ht <;> exact ht

/-- Lifting a program that does not throw. -/
theorem wpe_lift (p : Prog I α) :
    wpe M D pid (ExceptT.lift p : ExceptT ε (Prog I) α) Q E s ↔ wp M D pid p Q s := by
  change wp M D pid (p >>= fun a => pure (Except.ok a)) _ s ↔ _
  rw [wp_bind]
  rfl

/-! ### Programs made of some instructions only -/

/-- Every instruction the program can perform satisfies `φ`. -/
def Only (φ : {β : Type} → I β → Prop) : Prog I α → Prop
  | ret _ => True
  | act i k => φ i ∧ ∀ b, (k b).Only φ

variable {φ : {β : Type} → I β → Prop}

theorem only_bind {f : α → Prog I β} : {p : Prog I α} → p.Only φ → (∀ a, (f a).Only φ) →
    (p >>= f).Only φ
  | ret a, _, hf => hf a
  | act _ _, hp, hf => ⟨hp.1, fun b => only_bind (hp.2 b) hf⟩

/-- A call all of whose instructions satisfy `φ`. -/
def OnlyE (φ : {β : Type} → I β → Prop) (p : ExceptT ε (Prog I) α) : Prop := p.run.Only φ

theorem only_mono {ψ : {β : Type} → I β → Prop} (h : ∀ {β : Type} (i : I β), φ i → ψ i) :
    {p : Prog I α} → p.Only φ → p.Only ψ
  | ret _, _ => trivial
  | act i _, hp => ⟨h i hp.1, fun b => only_mono h (hp.2 b)⟩

namespace OnlyE

theorem mono {ψ : {β : Type} → I β → Prop} {p : ExceptT ε (Prog I) α} (hp : OnlyE φ p)
    (h : ∀ {β : Type} (i : I β), φ i → ψ i) : OnlyE ψ p := only_mono h hp

theorem pure (a : α) : OnlyE φ (Pure.pure a : ExceptT ε (Prog I) α) := trivial

theorem throw (e : ε) : OnlyE φ (MonadExcept.throw e : ExceptT ε (Prog I) α) := trivial

theorem bind {p : ExceptT ε (Prog I) β} {f : β → ExceptT ε (Prog I) α} (hp : OnlyE φ p)
    (hf : ∀ b, OnlyE φ (f b)) : OnlyE φ (p >>= f) := by
  unfold OnlyE
  rw [ExceptT.run_bind]
  refine only_bind hp fun r => ?_
  cases r with
  | ok b => exact hf b
  | error e => trivial

theorem tryCatch {p : ExceptT ε (Prog I) α} {h : ε → ExceptT ε (Prog I) α} (hp : OnlyE φ p)
    (hh : ∀ e, OnlyE φ (h e)) : OnlyE φ (MonadExcept.tryCatch p h) := by
  refine only_bind (p := p.run) hp fun r => ?_
  cases r with
  | ok b => trivial
  | error e => exact hh e

theorem ite {c : Prop} [Decidable c] {p q : ExceptT ε (Prog I) α} (hp : OnlyE φ p)
    (hq : OnlyE φ q) : OnlyE φ (if c then p else q) := by
  split_ifs
  · exact hp
  · exact hq

end OnlyE

/-- A program whose instructions all keep `P`. -/
theorem wp_of_only {P : σ → Prop}
    (hφ : ∀ {β : Type} (i : I β), φ i → ∀ s, P s → ∀ t, D.rely pid s t → D.inv t → ∀ o,
      D.cond pid i o t → ∀ b u, M.exec pid i o t = some (b, u) →
        D.good pid i o t b u ∧ D.inv u ∧ (∀ j, j ≠ pid → D.rely j t u) ∧ P u) :
    (p : Prog I α) → p.Only φ → ∀ s, P s → wp M D pid p (fun _ => P) s
  | ret _, _, _, hs => hs
  | act i k, hp, s, hs => by
      intro t hr hi o hc b u he
      obtain ⟨hgood, hinv, hrely, hu⟩ := hφ i hp.1 s hs t hr hi o hc b u he
      exact ⟨hgood, hinv, hrely, wp_of_only hφ (k b) (hp.2 b) u hu⟩

/-- What the others keep and every guaranteed step keeps is kept. -/
theorem wp_frame {F : σ → Prop} {Q : α → σ → Prop} (hrely : ∀ s t, F s → D.rely pid s t → F t)
    (hgood : ∀ {γ : Type} (i : I γ) o s b t, D.good pid i o s b t → F s → F t) :
    (p : Prog I α) → (s : σ) → F s → wp M D pid p Q s →
      wp M D pid p (fun a t => Q a t ∧ F t) s
  | ret _, _, hF, h => ⟨h, hF⟩
  | act i k, s, hF, h => by
      intro t hr hi o hc b u he
      obtain ⟨hg, hinv, hrest, hk⟩ := h t hr hi o hc b u he
      exact ⟨hg, hinv, hrest,
        wp_frame hrely hgood (k b) u (hgood i o t b u hg (hrely s t hF hr)) hk⟩

/-! ### Triples -/

/-- From every state of `P` the program runs under the discipline, and what it returns or throws
meets `Q` or `E`. -/
def Triple (M : Machine I ω σ) (D : Discipline I ω σ) (pid : ℕ) (P : σ → Prop)
    (p : ExceptT ε (Prog I) α) (Q : α → σ → Prop) (E : ε → σ → Prop) : Prop :=
  ∀ s, P s → wpe M D pid p Q E s

namespace Triple

variable {P P' : σ → Prop}

theorem pure {a : α} (h : ∀ s, P s → Q a s) :
    Triple M D pid P (Pure.pure a : ExceptT ε (Prog I) α) Q E := h

theorem throw {e : ε} (h : ∀ s, P s → E e s) :
    Triple M D pid P (MonadExcept.throw e : ExceptT ε (Prog I) α) Q E := h

/-- The rule of sequencing. -/
theorem bind {R : β → σ → Prop} {p : ExceptT ε (Prog I) β} {f : β → ExceptT ε (Prog I) α}
    (hp : Triple M D pid P p R E) (hf : ∀ b, Triple M D pid (R b) (f b) Q E) :
    Triple M D pid P (p >>= f) Q E := fun s hs =>
  (wpe_bind p f).mpr (wpe_mono (fun b t ht => hf b t ht) (fun _ _ he => he) (hp s hs))

/-- The rule of exceptions. -/
theorem tryCatch {F : ε → σ → Prop} {p : ExceptT ε (Prog I) α}
    {h : ε → ExceptT ε (Prog I) α} (hp : Triple M D pid P p Q F)
    (hh : ∀ e, Triple M D pid (F e) (h e) Q E) :
    Triple M D pid P (MonadExcept.tryCatch p h) Q E := fun s hs =>
  (wpe_tryCatch p h).mpr (wpe_mono (fun _ _ hq => hq) (fun e t he => hh e t he) (hp s hs))

/-- The rule of consequence. -/
theorem mono {Q' : α → σ → Prop} {E' : ε → σ → Prop} {p : ExceptT ε (Prog I) α}
    (hp : Triple M D pid P p Q E) (hP : ∀ s, P' s → P s) (hQ : ∀ a s, Q a s → Q' a s)
    (hE : ∀ e s, E e s → E' e s) : Triple M D pid P' p Q' E' := fun s hs =>
  wpe_mono hQ hE (hp s (hP s hs))

/-- The frame rule: what the others and every guaranteed step keep. -/
theorem frame {F : σ → Prop} {p : ExceptT ε (Prog I) α} (hp : Triple M D pid P p Q E)
    (hrely : ∀ s t, F s → D.rely pid s t → F t)
    (hgood : ∀ {γ : Type} (i : I γ) o s b t, D.good pid i o s b t → F s → F t) :
    Triple M D pid (fun s => P s ∧ F s) p (fun a s => Q a s ∧ F s) fun e s => E e s ∧ F s := by
  intro s hs
  refine wp_mono ?_ _ _ (wp_frame hrely hgood p.run s hs.2 (hp s hs.1))
  rintro (e | a) t ⟨hq, hF⟩
  · exact ⟨hq, hF⟩
  · exact ⟨hq, hF⟩

/-- A branch. -/
theorem ite {c : Prop} [Decidable c] {p q : ExceptT ε (Prog I) α}
    (hp : c → Triple M D pid P p Q E) (hq : ¬ c → Triple M D pid P q Q E) :
    Triple M D pid P (if c then p else q) Q E := by
  split_ifs with hc
  · exact hp hc
  · exact hq hc

/-- Facts that do not depend on the state. -/
theorem assume {φ : Prop} {p : ExceptT ε (Prog I) α} (h : φ → Triple M D pid P p Q E) :
    Triple M D pid (fun s => φ ∧ P s) p Q E := fun s hs => h hs.1 s hs.2

/-- The rule of one instruction that answers or fails, from an assertion the others keep. -/
theorem perform {i : I (Except ε α)} (hstable : ∀ s t, P s → D.rely pid s t → P t)
    (h : ∀ t, P t → D.inv t → ∀ o, D.cond pid i o t → ∀ r u, M.exec pid i o t = some (r, u) →
      D.good pid i o t r u ∧ D.inv u ∧ (∀ j, j ≠ pid → D.rely j t u) ∧
        match r with | .ok a => Q a u | .error e => E e u) :
    Triple M D pid P (ExceptT.mk (Prog.perform i)) Q E := by
  intro s hs
  refine (wp_perform _ _ _ _ _ _).mpr fun t hr hi o hc r u he => ?_
  exact h t (hstable s t hs hr) hi o hc r u he

/-- A call whose instructions all keep `P`. -/
theorem of_only {φ : {β : Type} → I β → Prop} {p : ExceptT ε (Prog I) α} (hp : OnlyE φ p)
    (hφ : ∀ {β : Type} (i : I β), φ i → ∀ s, P s → ∀ t, D.rely pid s t → D.inv t → ∀ o,
      D.cond pid i o t → ∀ b u, M.exec pid i o t = some (b, u) →
        D.good pid i o t b u ∧ D.inv u ∧ (∀ j, j ≠ pid → D.rely j t u) ∧ P u) :
    Triple M D pid P p (fun _ => P) fun _ => P := by
  intro s hs
  refine wp_mono (fun r t ht => ?_) _ _ (wp_of_only hφ p.run hp s hs)
  cases r <;> exact ht

/-- A call whose result is not used. -/
theorem map_unit {p : ExceptT ε (Prog I) α} (h : Triple M D pid P p Q E) :
    ∀ s, P s → wp M D pid (p.run >>= fun _ => Pure.pure ()) (fun _ _ => True) s := by
  intro s hs
  rw [wp_bind]
  exact wp_mono (fun _ _ _ => trivial) _ _ (h s hs)

end Triple

/-- The call runs under the discipline from any state. -/
abbrev Safe (M : Machine I ω σ) (D : Discipline I ω σ) (pid : ℕ)
    (p : ExceptT ε (Prog I) α) : Prop :=
  Triple M D pid (fun _ => True) p (fun _ _ => True) fun _ _ => True

namespace Safe

theorem pure (a : α) : Safe M D pid (Pure.pure a : ExceptT ε (Prog I) α) :=
  Triple.pure fun _ _ => trivial

theorem throw (e : ε) : Safe M D pid (MonadExcept.throw e : ExceptT ε (Prog I) α) :=
  Triple.throw fun _ _ => trivial

theorem bind {p : ExceptT ε (Prog I) β} {f : β → ExceptT ε (Prog I) α} (hp : Safe M D pid p)
    (hf : ∀ b, Safe M D pid (f b)) : Safe M D pid (p >>= f) := Triple.bind hp hf

theorem tryCatch {p : ExceptT ε (Prog I) α} {h : ε → ExceptT ε (Prog I) α}
    (hp : Safe M D pid p) (hh : ∀ e, Safe M D pid (h e)) :
    Safe M D pid (MonadExcept.tryCatch p h) := Triple.tryCatch hp hh

theorem ite {c : Prop} [Decidable c] {p q : ExceptT ε (Prog I) α} (hp : Safe M D pid p)
    (hq : Safe M D pid q) : Safe M D pid (if c then p else q) :=
  Triple.ite (fun _ => hp) fun _ => hq

/-- From an assertion that is not needed. -/
theorem from_any {P : σ → Prop} {p : ExceptT ε (Prog I) α} (hp : Safe M D pid p) :
    Triple M D pid P p (fun _ _ => True) fun _ _ => True :=
  hp.mono (fun _ _ => trivial) (fun _ _ hq => hq) fun _ _ he => he

end Safe

end except

-- so that looking for the head of an assertion does not run the program
attribute [irreducible] wp OnlyE

end Prog

/-! ### Pools and their runs -/

namespace Pool

open Prog

variable (M : Machine I ω σ)

/-- Process `i` takes its next step; nothing happens when it has none or has to wait. -/
def step (P : Pool I α σ) (e : ℕ × ω) : Pool I α σ :=
  match P.procs[e.1]? with
  | some (.act ins k) =>
      match M.exec e.1 ins e.2 P.store with
      | some (b, s) => ⟨s, P.procs.set e.1 (k b)⟩
      | none => P
  | _ => P

/-- The pool after a schedule. -/
def run (P : Pool I α σ) (sched : List (ℕ × ω)) : Pool I α σ := sched.foldl (step M) P

/-- A property of every step of a run, stated on the pool before the step. -/
def Along (φ : Pool I α σ → ℕ × ω → Prop) : Pool I α σ → List (ℕ × ω) → Prop
  | _, [] => True
  | P, e :: es => φ P e ∧ Along φ (step M P e) es

/-- The condition `cond` on the step an entry of the schedule takes. -/
def CondAt (cond : {β : Type} → ℕ → I β → ω → σ → Prop) (P : Pool I α σ) (e : ℕ × ω) : Prop :=
  match P.procs[e.1]? with
  | some (.act ins _) => cond e.1 ins e.2 P.store
  | _ => True

/-- The guarantee `good` of the step an entry of the schedule takes. -/
def GoodAt (good : {β : Type} → ℕ → I β → ω → σ → β → σ → Prop) (P : Pool I α σ) (e : ℕ × ω) :
    Prop :=
  match P.procs[e.1]? with
  | some (.act ins _) => ∀ b s, M.exec e.1 ins e.2 P.store = some (b, s) →
      good e.1 ins e.2 P.store b s
  | _ => True

theorem GoodAt.mono {good good' : {β : Type} → ℕ → I β → ω → σ → β → σ → Prop}
    (h : ∀ {β : Type} (i : ℕ) (ins : I β) o s b t, good i ins o s b t → good' i ins o s b t)
    {P : Pool I α σ} {e : ℕ × ω} (hg : GoodAt M good P e) : GoodAt M good' P e := by
  unfold GoodAt at hg ⊢
  split
  · rename_i hp
    rw [hp] at hg
    exact fun b s he => h _ _ _ _ _ _ (hg b s he)
  · trivial

instance {cond : {β : Type} → ℕ → I β → ω → σ → Prop}
    [∀ {β : Type} (i : ℕ) (ins : I β) (o : ω) (s : σ), Decidable (cond i ins o s)]
    (P : Pool I α σ) (e : ℕ × ω) : Decidable (CondAt cond P e) := by
  unfold CondAt
  split <;> infer_instance

instance decidableAlong {φ : Pool I α σ → ℕ × ω → Prop} [∀ P e, Decidable (φ P e)] :
    (P : Pool I α σ) → (sched : List (ℕ × ω)) → Decidable (Along M φ P sched)
  | _, [] => inferInstanceAs (Decidable True)
  | P, e :: es =>
      letI : Decidable (Along M φ (step M P e) es) := decidableAlong (step M P e) es
      inferInstanceAs (Decidable (φ P e ∧ Along M φ (step M P e) es))

@[simp] theorem run_nil (P : Pool I α σ) : run M P [] = P := rfl

@[simp] theorem run_cons (P : Pool I α σ) (e : ℕ × ω) (es : List (ℕ × ω)) :
    run M P (e :: es) = run M (step M P e) es := rfl

theorem along_of_forall {φ : Pool I α σ → ℕ × ω → Prop} (h : ∀ P e, φ P e) :
    (P : Pool I α σ) → (sched : List (ℕ × ω)) → Along M φ P sched
  | _, [] => trivial
  | P, e :: es => ⟨h P e, along_of_forall h (step M P e) es⟩

theorem run_append (P : Pool I α σ) (pre post : List (ℕ × ω)) :
    run M P (pre ++ post) = run M (run M P pre) post := List.foldl_append

theorem Along.append {φ : Pool I α σ → ℕ × ω → Prop} {pre post : List (ℕ × ω)} :
    {P : Pool I α σ} → Along M φ P (pre ++ post) → Along M φ (run M P pre) post := by
  induction pre with
  | nil => exact fun h => h
  | cons e es ih => exact fun h => ih h.2

/-- What a step can be: nothing, or one instruction of one process. -/
theorem step_cases (P : Pool I α σ) (e : ℕ × ω) :
    step M P e = P ∨ ∃ (β : Type) (ins : I β) (k : β → Prog I α) (b : β) (s : σ),
      P.procs[e.1]? = some (.act ins k) ∧ M.exec e.1 ins e.2 P.store = some (b, s) ∧
        step M P e = ⟨s, P.procs.set e.1 (k b)⟩ := by
  unfold step
  split
  · rename_i β ins k hp
    split
    · rename_i b s he
      exact .inr ⟨β, ins, k, b, s, hp, he, rfl⟩
    · exact .inl rfl
  · exact .inl rfl

/-- Running one process only. -/
theorem run_alone {i : ℕ} {p : Prog I α} {P : Pool I α σ} (hp : P.procs[i]? = some p)
    (os : List ω) :
    run M P (os.map fun o => (i, o)) =
      ⟨(p.advance M i os P.store).2, P.procs.set i (p.advance M i os P.store).1⟩ := by
  induction os generalizing p P with
  | nil =>
      obtain ⟨hi, rfl⟩ := List.getElem?_eq_some_iff.mp hp
      simp [advance]
  | cons o os ih =>
      have hi : i < P.procs.length := (List.getElem?_eq_some_iff.mp hp).1
      cases p with
      | ret a =>
          have hs : step M P (i, o) = P := by simp [step, hp]
          obtain ⟨-, hget⟩ := List.getElem?_eq_some_iff.mp hp
          rw [List.map_cons, run_cons, hs, ih hp]
          cases os <;> rfl
      | act ins k =>
          cases he : M.exec i ins o P.store with
          | none =>
              have hs : step M P (i, o) = P := by simp [step, hp, he]
              rw [List.map_cons, run_cons, hs, ih hp]
              simp [advance, he]
          | some r =>
              have hs : step M P (i, o) = ⟨r.2, P.procs.set i (k r.1)⟩ := by
                simp [step, hp, he]
              rw [List.map_cons, run_cons, hs, ih (List.getElem?_set_self hi)]
              simp [advance, he]

/-- What every step guarantees, the run does. -/
theorem Along.run_of_good {good : {β : Type} → ℕ → I β → ω → σ → β → σ → Prop} {F : σ → Prop}
    (h : ∀ {β : Type} (i : ℕ) (ins : I β) o s b t, good i ins o s b t → F s → F t)
    {P : Pool I α σ} {sched : List (ℕ × ω)} (hg : Along M (GoodAt M good) P sched)
    (hF : F P.store) : F (run M P sched).store := by
  induction sched generalizing P with
  | nil => exact hF
  | cons e es ih =>
      refine ih hg.2 ?_
      rcases step_cases M P e with hs | ⟨β, ins, k, b, s, hp, he, hs⟩
      · rw [hs]
        exact hF
      · rw [hs]
        have hgood := hg.1
        unfold GoodAt at hgood
        rw [hp] at hgood
        exact h _ _ _ _ _ _ (hgood b s he) hF

variable {M} (D : Discipline I ω σ) (Q : ℕ → α → σ → Prop)

/-- Every process of the pool satisfies its weakest precondition, up to the moves of the others
since its last step. -/
def Verified (M : Machine I ω σ) (D : Discipline I ω σ) (Q : ℕ → α → σ → Prop)
    (P : Pool I α σ) : Prop :=
  D.inv P.store ∧ ∀ i p, P.procs[i]? = some p →
    ∃ s, wp M D i p (Q i) s ∧ D.rely i s P.store

variable {D Q}

/-- One step of a verified pool. -/
theorem Verified.step {P : Pool I α σ} (h : Verified M D Q P) {e : ℕ × ω}
    (hc : CondAt D.cond P e) : Verified M D Q (Pool.step M P e) ∧ GoodAt M D.good P e := by
  have key : ∀ {γ : Type} (ins : I γ) (k : γ → Prog I α), P.procs[e.1]? = some (.act ins k) →
      ∀ b s, M.exec e.1 ins e.2 P.store = some (b, s) →
        D.good e.1 ins e.2 P.store b s ∧ D.inv s ∧ (∀ j, j ≠ e.1 → D.rely j P.store s) ∧
          wp M D e.1 (k b) (Q e.1) s := by
    intro γ ins k hp b s he
    obtain ⟨s₀, hwp, hrely⟩ := h.2 e.1 _ hp
    have hc' : D.cond e.1 ins e.2 P.store := by simpa [CondAt, hp] using hc
    exact (wp_act M D _ _ _ _ _).mp hwp P.store hrely h.1 e.2 hc' b s he
  refine ⟨?_, ?_⟩
  · rcases step_cases M P e with hs | ⟨γ, ins, k, b, s, hp, he, hs⟩
    · rw [hs]; exact h
    · rw [hs]
      obtain ⟨-, hinv, hrely, hk⟩ := key ins k hp b s he
      refine ⟨hinv, fun i p hi => ?_⟩
      by_cases hie : i = e.1
      · subst hie
        rw [List.getElem?_set_self' , hp] at hi
        cases hi
        exact ⟨s, hk, D.rely_refl _ _⟩
      · rw [List.getElem?_set_ne (Ne.symm hie)] at hi
        obtain ⟨s₀, hwp, hr⟩ := h.2 i p hi
        exact ⟨s₀, hwp, D.rely_trans i hr (hrely i hie)⟩
  · unfold GoodAt
    split
    · rename_i hp
      exact fun b s he => (key _ _ hp b s he).1
    · trivial

/-- **Soundness of the discipline.** In every run whose steps meet `cond`, a verified pool stays
verified and takes only `good` steps. -/
theorem run_sound {P : Pool I α σ} (h : Verified M D Q P) (sched : List (ℕ × ω))
    (hc : Along M (CondAt D.cond) P sched) :
    Verified M D Q (run M P sched) ∧ Along M (GoodAt M D.good) P sched := by
  induction sched generalizing P with
  | nil => exact ⟨h, trivial⟩
  | cons e es ih =>
      obtain ⟨hv, hg⟩ := h.step hc.1
      obtain ⟨hv', hg'⟩ := ih hv hc.2
      exact ⟨hv', hg, hg'⟩

/-- A discipline without a condition holds of every run. -/
theorem run_verified (hcond : ∀ {γ : Type} i (ins : I γ) o s, D.cond i ins o s) {P : Pool I α σ}
    (h : Verified M D Q P) (sched : List (ℕ × ω)) : Verified M D Q (run M P sched) := by
  refine (run_sound h sched (along_of_forall M (fun P e => ?_) P sched)).1
  unfold CondAt
  split
  · exact hcond _ _ _ _
  · trivial

/-- A pool is verified at the start when each of its programs is, at the start. -/
theorem Verified.start {s : σ} {ps : List (Prog I α)} (hinv : D.inv s)
    (hp : ∀ i p, ps[i]? = some p → wp M D i p (Q i) s) : Verified M D Q ⟨s, ps⟩ :=
  ⟨hinv, fun i p hi => ⟨s, hp i p hi, D.rely_refl i s⟩⟩

/-- The result of a finished process of a verified pool. -/
theorem Verified.result {P : Pool I α σ} (h : Verified M D Q P) {i : ℕ} {a : α}
    (hi : P.procs[i]? = some (.ret a)) : ∃ s, Q i a s ∧ D.rely i s P.store := by
  obtain ⟨s, hwp, hrely⟩ := h.2 i _ hi
  exact ⟨s, (wp_ret M D i a (Q i) s).mp hwp, hrely⟩

end Pool

end DayfiBackend.Found
