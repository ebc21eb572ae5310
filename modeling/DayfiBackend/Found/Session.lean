import DayfiBackend.Found.Tx
import Mathlib.Order.Defs.Unbundled

/-!
# Sessions: transactions one after another

A session commits each of its transactions before it starts the next, so when it stops with an
error the transactions before stay committed. `Sat x s post` says that what `x` answers from `s`
and the state it leaves satisfy `post`; the rules below take a session apart by it.
-/

namespace DayfiBackend.Found.Tx

/-- Transactions over `σ`, one after another. -/
abbrev Session (σ ε : Type) := ExceptT ε (StateM σ)

namespace Session

variable {σ ε α β : Type}

/-- What a session answers, and the state it leaves. -/
def exec (x : Session σ ε α) (s : σ) : Except ε α × σ := x s

/-- One transaction. -/
def inTx (tx : StateT σ (Except ε) α) : Session σ ε α := fun s => commit tx s

/-- Something read from the committed state. -/
def reading (f : σ → Except ε α) : Session σ ε α := fun s => (f s, s)

/-- Stop when `c` holds. -/
def failIf (c : Prop) [Decidable c] (e : ε) : Session σ ε Unit :=
  if c then throw e else pure ()

/-- The answer and the state left satisfy `post`. -/
def Sat (x : Session σ ε α) (s : σ) (post : Except ε α → σ → Prop) : Prop :=
  post (x.exec s).1 (x.exec s).2

variable {x : Session σ ε α} {f : α → Session σ ε β} {s : σ} {a : α} {e : ε}
  {post post' : Except ε α → σ → Prop} {after : Except ε β → σ → Prop}

theorem Sat.mono (h : x.Sat s post) (hpost : ∀ r t, post r t → post' r t) : x.Sat s post' :=
  hpost _ _ h

theorem Sat.pure (h : post (.ok a) s) : Sat (Pure.pure a : Session σ ε α) s post := h

theorem Sat.throw (h : post (.error e) s) : Sat (MonadExcept.throw e : Session σ ε α) s post := h

/-- A session that goes on after `x`, or stops with its error. -/
theorem Sat.bind (h : x.Sat s fun r t =>
      (∀ a, r = .ok a → (f a).Sat t after) ∧ ∀ e, r = .error e → after (.error e) t) :
    (x >>= f).Sat s after := by
  unfold Sat exec at h ⊢
  change after ((ExceptT.bindCont f (x s).1) (x s).2).1 ((ExceptT.bindCont f (x s).1) (x s).2).2
  cases hr : (x s).1 with
  | ok a => exact h.1 a hr
  | error e => exact h.2 e hr

/-- What follows a step starts from what the step left. -/
theorem run_next {x : StateM σ α} {t : σ} (hr : x s = (a, t)) (k : α → StateM σ β) :
    (x >>= k) s = k a t := by
  change k (x s).1 (x s).2 = k a t
  rw [hr]

/-- A session that recovers from the errors of `x`. -/
theorem Sat.tryCatch {handle : ε → Session σ ε α} (h : x.Sat s fun r t =>
      (∀ a, r = .ok a → post (.ok a) t) ∧ ∀ e, r = .error e → (handle e).Sat t post) :
    Sat (MonadExcept.tryCatch x handle) s post := by
  have hok : ∀ a t, x s = (.ok a, t) →
      (MonadExcept.tryCatch x handle : Session σ ε α).exec s = (.ok a, t) := by
    intro a t hr
    change (ExceptT.tryCatch x handle) s = _
    unfold ExceptT.tryCatch
    exact (run_next hr _).trans rfl
  have herror : ∀ e t, x s = (.error e, t) →
      (MonadExcept.tryCatch x handle : Session σ ε α).exec s = (handle e).exec t := by
    intro e t hr
    change (ExceptT.tryCatch x handle) s = _
    unfold ExceptT.tryCatch
    exact run_next hr _
  unfold Sat at h ⊢
  unfold exec at h
  cases hr : x s with
  | mk r t =>
      rw [hr] at h
      cases r with
      | ok a =>
          rw [hok a t hr]
          exact h.1 a rfl
      | error e =>
          rw [herror e t hr]
          exact h.2 e rfl

theorem Sat.inTx {tx : StateT σ (Except ε) α}
    (hok : ∀ a t, tx.run s = .ok (a, t) → post (.ok a) t)
    (herror : ∀ e, tx.run s = .error e → post (.error e) s) : Sat (inTx tx) s post := by
  unfold Sat exec Session.inTx
  rcases commit_cases tx s with ⟨a, t, hrun, hc⟩ | ⟨e, hrun, hc⟩ <;> rw [hc]
  · exact hok a t hrun
  · exact herror e hrun

theorem Sat.reading {read : σ → Except ε α} (h : post (read s) s) :
    Sat (Session.reading read) s post := h

theorem Sat.failIf {c : Prop} [Decidable c] {post : Except ε Unit → σ → Prop}
    (hok : ¬ c → post (.ok ()) s) (herror : c → post (.error e) s) :
    Sat (Session.failIf c e) s post := by
  unfold Session.failIf
  split_ifs with hc
  · exact Sat.throw (herror hc)
  · exact Sat.pure (hok hc)

/-! ### Sessions that keep a relation -/

/-- Whatever the session answers, the state it leaves is related to the one it started from. -/
def Keeps (R : σ → σ → Prop) (x : Session σ ε α) : Prop := ∀ s, x.Sat s fun _ t => R s t

section keeps

variable {R : σ → σ → Prop} [IsPreorder σ R]

theorem Keeps.bind (hx : Keeps R x) (hf : ∀ a, Keeps R (f a)) : Keeps R (x >>= f) := by
  intro s
  refine Sat.bind ((hx s).mono fun r t hst => ⟨fun a _ => ?_, fun e _ => hst⟩)
  exact (hf a t).mono fun r' u htu => IsTrans.trans _ _ _ hst htu

theorem Keeps.pure (a : α) : Keeps R (Pure.pure a : Session σ ε α) :=
  fun s => Sat.pure (refl s)

theorem Keeps.throw (e : ε) : Keeps R (MonadExcept.throw e : Session σ ε α) :=
  fun s => Sat.throw (refl s)

theorem Keeps.failIf (c : Prop) [Decidable c] (e : ε) : Keeps R (Session.failIf c e) :=
  fun s => Sat.failIf (fun _ => refl s) fun _ => refl s

theorem Keeps.reading (read : σ → Except ε α) : Keeps R (Session.reading read) :=
  fun s => Sat.reading (refl s)

theorem Keeps.inTx {tx : StateT σ (Except ε) α}
    (h : ∀ s a t, tx.run s = .ok (a, t) → R s t) : Keeps R (Session.inTx tx) :=
  fun s => Sat.inTx (fun a t hrun => h s a t hrun) fun _ _ => refl s

end keeps

end Session

end DayfiBackend.Found.Tx
