import DayfiBackend.Found.Backend

/-!
# A service beside another

A service that calls another one has tables of its own beside those of the other. Its signature is
the sum of the two (`Beside`), its store their product, and a call of the inner service is embedded
statement by statement (`inside`). The inner statements act on the first part of the store only;
the statements of the service itself may act on both.

The rules say what a statement of either kind, and a whole call of the inner service, does under a
discipline over the product.
-/

namespace DayfiBackend.Found

variable {I J : Type → Type} {ω ω' ε ε' σ τ α β : Type}

/-- The statements of a service, beside those of the service it calls. -/
inductive Beside (I J : Type → Type) (β : Type) : Type
  | inner (st : I β)
  | own (st : J β)

/-- The service beside the one it calls: `out` is what the inner one sees of the outside, and
`down` the error its caller gets when it is not reached. -/
def Backend.beside (B : Backend I ω ε σ) (C : Backend J ω' ε' (σ × τ)) (out : ω' → ω)
    (down : ε) : Backend (Beside I J) ω' ε' (σ × τ) where
  run i st o s :=
    match st with
    | .inner st => ((B.run i st (out o) s.1).1, (B.run i st (out o) s.1).2, s.2)
    | .own st => C.run i st o s
  fail st e :=
    match st with
    | .inner st => B.fail st down
    | .own st => C.fail st e

/-- Two machines side by side, each with its own part of the store. -/
def Machine.beside (M : Machine I ω σ) (N : Machine J ω' τ) :
    Machine (Beside I J) (ω × ω') (σ × τ) where
  exec i st o s :=
    match st with
    | .inner st => (M.exec i st o.1 s.1).map fun r => (r.1, r.2, s.2)
    | .own st => (N.exec i st o.2 s.2).map fun r => (r.1, s.1, r.2)

/-- A call of the inner service, which throws its errors as errors of the outer one. -/
def inside (g : ε → ε') (p : ExceptT ε (Prog I) α) : ExceptT ε' (Prog (Beside I J)) α :=
  embedCall Beside.inner g p

/-- One statement of the service itself. -/
def ownCall (st : J (Except ε' β)) : ExceptT ε' (Prog (Beside I J)) β :=
  Backend.call (Beside.own st)

namespace Beside

variable {B : Backend I ω ε σ} {C : Backend J ω' ε' (σ × τ)} {out : ω' → ω} {down : ε}
  {D : Discipline (Beside I J) (Except ε' ω') (σ × τ)} {i : ℕ} {g : ε → ε'}
  {P : σ × τ → Prop} {Q : β → σ × τ → Prop} {E : ε' → σ × τ → Prop}

/-- What a step must keep, apart from the program that takes it. -/
structure StepOk (D : Discipline I ω σ) (i : ℕ) {β : Type} (st : I β) (o : ω) (s : σ) (b : β)
    (t : σ) : Prop where
  good : D.good i st o s b t
  inv : D.inv t
  rely : ∀ j, j ≠ i → D.rely j s t

/-- The rule of a statement of the service itself. -/
theorem triple_own {st : J (Except ε' β)} (hst : ∀ e, C.fail st e = .error e)
    (hstable : ∀ s t, P s → D.rely i s t → P t)
    (hfail : ∀ s e, P s → D.inv s → D.cond i (.own st) (.error e) s →
      D.good i (.own st) (.error e) s (.error e) s ∧ E e s)
    (hrun : ∀ s o, P s → D.inv s → D.cond i (.own st) (.ok o) s →
      StepOk D i (.own st) (.ok o) s (C.run i st o s).1 (C.run i st o s).2 ∧
        (∀ b, (C.run i st o s).1 = .ok b → Q b (C.run i st o s).2) ∧
          ∀ e, (C.run i st o s).1 = .error e → E e (C.run i st o s).2) :
    Prog.Triple (B.beside C out down).machine D i P (ownCall st) Q E := by
  refine Prog.Triple.perform hstable fun s hP hinv o hc r t he => ?_
  rcases Backend.exec_cases he with ⟨e, rfl, rfl, rfl⟩ | ⟨o', rfl, rfl, rfl⟩
  · rw [show (B.beside C out down).fail (.own st) e = .error e from hst e]
    obtain ⟨hgood, hE⟩ := hfail t e hP hinv hc
    exact ⟨hgood, hinv, fun j _ => D.rely_refl j t, hE⟩
  · obtain ⟨hok, hans, herr⟩ := hrun s o' hP hinv hc
    refine ⟨hok.good, hok.inv, hok.rely, ?_⟩
    cases hb : (C.run i st o' s).1 with
    | ok b =>
        rw [show ((B.beside C out down).run i (.own st) o' s).1 = .ok b from hb]
        exact hans b hb
    | error e =>
        rw [show ((B.beside C out down).run i (.own st) o' s).1 = .error e from hb]
        exact herr e hb

/-- The rule of one statement of the inner service. -/
theorem triple_inner {st : I (Except ε β)} {F : σ × τ → Prop}
    (hst : B.fail st down = .error down) (hstable : ∀ s t, P s → D.rely i s t → P t)
    (hfail : ∀ s e, P s → D.inv s → D.cond i (.inner st) (.error e) s →
      D.good i (.inner st) (.error e) s (.error down) s ∧ F s)
    (hrun : ∀ s o, P s → D.inv s → D.cond i (.inner st) (.ok o) s →
      StepOk D i (.inner st) (.ok o) s (B.run i st (out o) s.1).1
          ((B.run i st (out o) s.1).2, s.2) ∧
        (∀ b, (B.run i st (out o) s.1).1 = .ok b → Q b ((B.run i st (out o) s.1).2, s.2)) ∧
          ∀ e, (B.run i st (out o) s.1).1 = .error e → F ((B.run i st (out o) s.1).2, s.2)) :
    Prog.Triple (B.beside C out down).machine D i P (inside g (Backend.call st)) Q fun _ => F := by
  refine triple_embed_perform hstable fun s hP hinv o hc r t he => ?_
  rcases Backend.exec_cases he with ⟨e, rfl, rfl, rfl⟩ | ⟨o', rfl, rfl, rfl⟩
  · rw [show (B.beside C out down).fail (.inner st) e = .error down from hst]
    obtain ⟨hgood, hF⟩ := hfail t e hP hinv hc
    exact ⟨hgood, hinv, fun j _ => D.rely_refl j t, hF⟩
  · obtain ⟨hok, hans, hF⟩ := hrun s o' hP hinv hc
    refine ⟨hok.good, hok.inv, hok.rely, ?_⟩
    cases hb : (B.run i st (out o') s.1).1 with
    | ok b =>
        rw [show ((B.beside C out down).run i (.inner st) o' s).1 = .ok b from hb]
        exact hans b hb
    | error e =>
        rw [show ((B.beside C out down).run i (.inner st) o' s).1 = .error e from hb]
        exact hF e hb

/-- A call of the inner service all of whose statements keep `P`. -/
theorem triple_inside {φ : {γ : Type} → I γ → Prop} {p : ExceptT ε (Prog I) β}
    (hp : Prog.OnlyE φ p) (hstable : ∀ s t, P s → D.rely i s t → P t)
    (hfail : ∀ {γ : Type} (st : I γ), φ st → ∀ s e, P s → D.inv s →
      D.cond i (.inner st) (.error e) s →
        D.good i (.inner st) (.error e) s (B.fail st down) s)
    (hrun : ∀ {γ : Type} (st : I γ), φ st → ∀ s o, P s → D.inv s →
      D.cond i (.inner st) (.ok o) s →
        StepOk D i (.inner st) (.ok o) s (B.run i st (out o) s.1).1
          ((B.run i st (out o) s.1).2, s.2) ∧ P ((B.run i st (out o) s.1).2, s.2)) :
    Prog.Triple (B.beside C out down).machine D i P (inside g p) (fun _ => P) fun _ => P := by
  have hp' : Prog.OnlyE (fun {γ : Type} (st : Beside I J γ) => ∃ st', st = .inner st' ∧ φ st')
      (inside g p) := onlyE_embedCall (fun st hst => ⟨st, rfl, hst⟩) hp
  refine Prog.Triple.of_only hp' fun {γ} st hst s hs t hr hinv o hc b u he => ?_
  obtain ⟨st, rfl, hst⟩ := hst
  have ht := hstable s t hs hr
  rcases Backend.exec_cases he with ⟨e, rfl, rfl, rfl⟩ | ⟨o', rfl, rfl, rfl⟩
  · exact ⟨hfail st hst u e ht hinv hc, hinv, fun j _ => D.rely_refl j u, ht⟩
  · obtain ⟨hok, hu⟩ := hrun st hst t o' ht hinv hc
    exact ⟨hok.good, hok.inv, hok.rely, hu⟩

end Beside

end DayfiBackend.Found
