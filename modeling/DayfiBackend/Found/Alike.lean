import DayfiBackend.Found.Backend

/-!
# Two runs beside each other

A `Comparison` says which stores, which instructions and which of their answers count as alike. A
machine respects it when instructions that are alike take stores that are alike to such stores, and
answer alike; then two pools of programs that are alike stay so, turn by turn
(`Pool.Abreast.run`). What is kept out of the comparison on one side is not found out on the other.
-/

namespace DayfiBackend.Found

/-- What counts as alike. -/
structure Comparison (I : Type → Type) (σ : Type) where
  store : σ → σ → Prop
  instr : {β : Type} → I β → I β → Prop
  answer : {β : Type} → I β → I β → β → β → Prop

variable {I : Type → Type} {ω ε σ α β : Type} {C : Comparison I σ}

namespace Prog

/-- The programs perform instructions that are alike, go on alike from answers that are alike, and
return what is in `Q`. -/
inductive Alike (C : Comparison I σ) (Q : α → α → Prop) : Prog I α → Prog I α → Prop
  | ret {a b : α} (h : Q a b) : Alike C Q (.ret a) (.ret b)
  | act {γ : Type} {i j : I γ} {k l : γ → Prog I α} (h : C.instr i j)
      (hk : ∀ b c, C.answer i j b c → Alike C Q (k b) (l c)) : Alike C Q (.act i k) (.act j l)

variable {Q : α → α → Prop} {p q : Prog I α}

/-- The rule of sequencing. -/
theorem Alike.bind {R : β → β → Prop} {f g : α → Prog I β} (h : Alike C Q p q)
    (hf : ∀ a b, Q a b → Alike C R (f a) (g b)) : Alike C R (p >>= f) (q >>= g) := by
  induction h with
  | ret h => exact hf _ _ h
  | act h _ ih => exact .act h ih

/-- The rule of one instruction. -/
theorem Alike.perform {i j : I α} (h : C.instr i j) (hQ : ∀ b c, C.answer i j b c → Q b c) :
    Alike C Q (perform i) (perform j) :=
  .act h fun b c hbc => .ret (hQ b c hbc)

/-- Programs that have returned. -/
theorem Alike.of_ret {a : α} (h : Alike C Q (.ret a) q) : ∃ b, q = .ret b ∧ Q a b := by
  cases h with
  | ret h => exact ⟨_, rfl, h⟩

end Prog

/-! ### Calls that may throw -/

/-- Both answer, what is in `Q`, or both throw the same. -/
inductive Agree (Q : α → α → Prop) : Except ε α → Except ε α → Prop
  | ok {a b : α} (h : Q a b) : Agree Q (.ok a) (.ok b)
  | error (e : ε) : Agree Q (.error e) (.error e)

/-- The calls are alike. -/
def AlikeE (C : Comparison I σ) (Q : α → α → Prop) (p q : ExceptT ε (Prog I) α) : Prop :=
  Prog.Alike C (Agree Q) p.run q.run

namespace AlikeE

variable {Q : α → α → Prop} {p q : ExceptT ε (Prog I) α}

theorem pure {a b : α} (h : Q a b) :
    AlikeE C Q (Pure.pure a : ExceptT ε (Prog I) α) (Pure.pure b) := .ret (.ok h)

theorem throw (e : ε) :
    AlikeE C Q (MonadExcept.throw e : ExceptT ε (Prog I) α) (MonadExcept.throw e) :=
  .ret (.error e)

/-- What was worked out without an instruction. -/
theorem worked {r s : Except ε α} (h : Agree Q r s) :
    AlikeE C Q (ExceptT.mk (Pure.pure r : Prog I (Except ε α))) (ExceptT.mk (Pure.pure s)) :=
  .ret h

/-- The rule of sequencing. -/
theorem bind {R : β → β → Prop} {f g : α → ExceptT ε (Prog I) β} (h : AlikeE C Q p q)
    (hf : ∀ a b, Q a b → AlikeE C R (f a) (g b)) : AlikeE C R (p >>= f) (q >>= g) := by
  unfold AlikeE at *
  rw [ExceptT.run_bind, ExceptT.run_bind]
  refine h.bind fun r s hrs => ?_
  cases hrs with
  | ok hab => exact hf _ _ hab
  | error e => exact .ret (.error e)

/-- The rule of one statement. -/
theorem call {i j : I (Except ε α)} (h : C.instr i j)
    (hQ : ∀ b c, C.answer i j b c → Agree Q b c) :
    AlikeE C Q (Backend.call i : ExceptT ε (Prog I) α) (Backend.call j) :=
  Prog.Alike.perform h hQ

end AlikeE

/-! ### Runs -/

/-- Instructions that are alike do alike to stores that are alike. -/
def Machine.Respects (M : Machine I ω σ) (C : Comparison I σ) : Prop :=
  ∀ {β : Type} (pid : ℕ) (i j : I β) (o : ω) (s t : σ), C.instr i j → C.store s t →
    Option.Rel (fun x y => C.answer i j x.1 y.1 ∧ C.store x.2 y.2) (M.exec pid i o s)
      (M.exec pid j o t)

/-- It is enough to look at the statements that get there, and at the answers of the others. -/
theorem Backend.respects {B : Backend I ω ε σ}
    (hfail : ∀ {β : Type} (i j : I β) (e : ε), C.instr i j → C.answer i j (B.fail i e) (B.fail j e))
    (hrun : ∀ {β : Type} (pid : ℕ) (i j : I β) (o : ω) (s t : σ), C.instr i j → C.store s t →
      C.answer i j (B.run pid i o s).1 (B.run pid j o t).1 ∧
        C.store (B.run pid i o s).2 (B.run pid j o t).2) : B.machine.Respects C := by
  intro β pid i j o s t hij hst
  cases o with
  | error e => exact .some ⟨hfail i j e hij, hst⟩
  | ok o => exact .some (hrun pid i j o s t hij hst)

theorem rel_cases {γ δ : Type*} {r : γ → δ → Prop} {x : Option γ} {y : Option δ}
    (h : Option.Rel r x y) :
    x = none ∧ y = none ∨ ∃ a b, x = some a ∧ y = some b ∧ r a b := by
  cases h with
  | none => exact .inl ⟨rfl, rfl⟩
  | some h => exact .inr ⟨_, _, rfl, rfl, h⟩

namespace Pool

/-- The stores are alike, and the programs, one by one. -/
structure Abreast (C : Comparison I σ) (Q : α → α → Prop) (P P' : Pool I α σ) : Prop where
  store : C.store P.store P'.store
  procs : ∀ i : ℕ, Option.Rel (Prog.Alike C Q) P.procs[i]? P'.procs[i]?

variable {M : Machine I ω σ} {Q : α → α → Prop} {P P' : Pool I α σ}

/-- Programs that are alike, before any turn. -/
theorem Abreast.start {ps qs : List (Prog I α)} {s t : σ} (hst : C.store s t)
    (h : List.Forall₂ (Prog.Alike C Q) ps qs) : Abreast C Q ⟨s, ps⟩ ⟨t, qs⟩ := by
  refine ⟨hst, fun i => ?_⟩
  show Option.Rel (Prog.Alike C Q) ps[i]? qs[i]?
  induction h generalizing i with
  | nil => exact .none
  | cons hpq _ ih =>
      cases i with
      | zero => exact .some hpq
      | succ i => exact ih i

/-- A turn of programs that are alike. -/
theorem Abreast.step (hM : M.Respects C) (h : Abreast C Q P P') (e : ℕ × ω) :
    Abreast C Q (P.step M e) (P'.step M e) := by
  unfold Pool.step
  rcases rel_cases (h.procs e.1) with ⟨hp, hp'⟩ | ⟨p, p', hp, hp', hpp⟩
  · rw [hp, hp']
    exact h
  · rw [hp, hp']
    cases hpp with
    | ret hQ => exact h
    | @act γ i j k l hij hk =>
        dsimp only
        rcases rel_cases (hM e.1 i j e.2 _ _ hij h.store) with
          ⟨hx, hy⟩ | ⟨x, y, hx, hy, hanswer, hstore⟩
        · rw [hx, hy]
          exact h
        · rw [hx, hy]
          refine ⟨hstore, fun n => ?_⟩
          dsimp only
          by_cases hn : e.1 = n
          · subst hn
            rw [List.getElem?_set_self', List.getElem?_set_self', hp, hp']
            exact .some (hk _ _ hanswer)
          · rw [List.getElem?_set_ne hn, List.getElem?_set_ne hn]
            exact h.procs n

/-- **Runs of programs that are alike** stay alike. -/
theorem Abreast.run (hM : M.Respects C) (h : Abreast C Q P P') (sched : List (ℕ × ω)) :
    Abreast C Q (P.run M sched) (P'.run M sched) := by
  induction sched generalizing P P' with
  | nil => exact h
  | cons e es ih => exact ih (h.step hM e)

/-- Where one run has returned, the other has, and they have returned what is alike. -/
theorem Abreast.result (h : Abreast C Q P P') {i : ℕ} {a : α}
    (hi : P.procs[i]? = some (.ret a)) : ∃ b, P'.procs[i]? = some (.ret b) ∧ Q a b := by
  rcases rel_cases (h.procs i) with ⟨hnone, -⟩ | ⟨p, q, hp, hq, hpq⟩
  · rw [hi] at hnone
    cases hnone
  · rw [hi] at hp
    obtain rfl := Option.some.inj hp
    obtain ⟨b, rfl, hQ⟩ := hpq.of_ret
    exact ⟨b, hq, hQ⟩

end Pool

end DayfiBackend.Found
