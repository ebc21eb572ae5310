import Mathlib.Tactic.Common

/-!
# Transactions that may fail

A transaction over a state `σ` is a `StateT σ (Except ε)`: it succeeds with a new state, or fails
with an error and no state. `commit` runs it against the current state and keeps that state when
it fails. The `_ok` lemmas say what a successful run of each construct was, so that a transaction
is taken apart statement by statement with `obtain`.
-/

namespace DayfiBackend.Found.Tx

variable {σ ε α β : Type}

/-- Run a transaction: its new state on success, the old one on failure. -/
def commit (tx : StateT σ (Except ε) α) (s : σ) : Except ε α × σ :=
  match tx.run s with
  | .ok (a, s') => (.ok a, s')
  | .error e => (.error e, s)

/-- Fail the transaction when `c` holds. -/
def throwIf (c : Prop) [Decidable c] (e : ε) : StateT σ (Except ε) Unit :=
  if c then throw e else pure ()

/-- A committed transaction. -/
theorem commit_eq_ok {tx : StateT σ (Except ε) α} {s s' : σ} {a : α} :
    commit tx s = (.ok a, s') ↔ tx.run s = .ok (a, s') := by
  unfold commit
  split <;> simp_all

/-- A failed transaction leaves the state. -/
theorem commit_eq_error {tx : StateT σ (Except ε) α} {s s' : σ} {e : ε} :
    commit tx s = (.error e, s') ↔ tx.run s = .error e ∧ s' = s := by
  unfold commit
  cases tx.run s with
  | ok r => simp
  | error e' => simp [eq_comm]

/-- What running a transaction can be. -/
theorem commit_cases (tx : StateT σ (Except ε) α) (s : σ) :
    (∃ a s', tx.run s = .ok (a, s') ∧ commit tx s = (.ok a, s')) ∨
      ∃ e, tx.run s = .error e ∧ commit tx s = (.error e, s) := by
  unfold commit
  cases h : tx.run s with
  | ok r => exact .inl ⟨r.1, r.2, rfl, rfl⟩
  | error e => exact .inr ⟨e, rfl, rfl⟩

/-! ### Successful runs -/

theorem bind_ok {x : StateT σ (Except ε) α} {f : α → StateT σ (Except ε) β} {s s' : σ} {b : β} :
    (x >>= f).run s = .ok (b, s') ↔
      ∃ a t, x.run s = .ok (a, t) ∧ (f a).run t = .ok (b, s') := by
  rw [StateT.run_bind]
  cases h : x.run s with
  | ok r =>
      constructor
      · exact fun h' => ⟨r.1, r.2, rfl, h'⟩
      · rintro ⟨a, t, ha, hb⟩
        cases ha
        exact hb
  | error e =>
      constructor
      · intro h'
        cases h'
      · rintro ⟨a, t, ha, -⟩
        cases ha

theorem pure_ok {s s' : σ} {a b : α} :
    (pure a : StateT σ (Except ε) α).run s = .ok (b, s') ↔ a = b ∧ s = s' := by
  rw [StateT.run_pure]
  constructor
  · intro h
    cases h
    exact ⟨rfl, rfl⟩
  · rintro ⟨rfl, rfl⟩
    rfl

theorem get_ok {s s' t : σ} :
    (get : StateT σ (Except ε) σ).run s = .ok (t, s') ↔ s = t ∧ s = s' := by
  constructor
  · intro h
    cases h
    exact ⟨rfl, rfl⟩
  · rintro ⟨rfl, rfl⟩
    rfl

theorem set_ok {s s' t : σ} {u : PUnit} :
    (set t : StateT σ (Except ε) PUnit).run s = .ok (u, s') ↔ t = s' := by
  constructor
  · intro h
    cases h
    rfl
  · rintro rfl
    rfl

theorem modify_ok {f : σ → σ} {s s' : σ} {u : PUnit} :
    (modify f : StateT σ (Except ε) PUnit).run s = .ok (u, s') ↔ f s = s' := by
  constructor
  · intro h
    cases h
    rfl
  · rintro rfl
    rfl

theorem throw_ok {e : ε} {s s' : σ} {a : α} :
    (throw e : StateT σ (Except ε) α).run s = .ok (a, s') ↔ False := by
  constructor
  · intro h
    cases h
  · exact False.elim

theorem lift_ok {x : Except ε α} {s s' : σ} {a : α} :
    (liftM x : StateT σ (Except ε) α).run s = .ok (a, s') ↔ x = .ok a ∧ s = s' := by
  cases x with
  | ok b =>
      constructor
      · intro h
        cases h
        exact ⟨rfl, rfl⟩
      · rintro ⟨h, rfl⟩
        cases h
        rfl
  | error e =>
      constructor
      · intro h
        cases h
      · rintro ⟨h, -⟩
        cases h

theorem throwIf_ok {c : Prop} [Decidable c] {e : ε} {s s' : σ} {u : Unit} :
    (throwIf c e : StateT σ (Except ε) Unit).run s = .ok (u, s') ↔ ¬ c ∧ s = s' := by
  unfold throwIf
  by_cases h : c
  · rw [if_pos h, throw_ok]
    simp [h]
  · rw [if_neg h, pure_ok]
    simp [h]

/-! ### Failed runs -/

theorem bind_error {x : StateT σ (Except ε) α} {f : α → StateT σ (Except ε) β} {s : σ} {e : ε} :
    (x >>= f).run s = .error e ↔
      x.run s = .error e ∨ ∃ a t, x.run s = .ok (a, t) ∧ (f a).run t = .error e := by
  rw [StateT.run_bind]
  cases h : x.run s with
  | ok r =>
      constructor
      · exact fun h' => .inr ⟨r.1, r.2, rfl, h'⟩
      · rintro (h' | ⟨a, t, ha, hb⟩)
        · cases h'
        · cases ha
          exact hb
  | error e' =>
      constructor
      · intro h'
        cases h'
        exact .inl rfl
      · rintro (h' | ⟨a, t, ha, -⟩)
        · cases h'
          rfl
        · cases ha

theorem throwIf_error {c : Prop} [Decidable c] {e e' : ε} {s : σ} :
    (throwIf c e : StateT σ (Except ε) Unit).run s = .error e' ↔ c ∧ e = e' := by
  unfold throwIf
  by_cases h : c
  · rw [if_pos h]
    constructor
    · intro h'
      cases h'
      exact ⟨h, rfl⟩
    · rintro ⟨-, rfl⟩
      rfl
  · rw [if_neg h]
    constructor
    · intro h'
      cases h'
    · rintro ⟨h', -⟩
      exact absurd h' h

end DayfiBackend.Found.Tx
