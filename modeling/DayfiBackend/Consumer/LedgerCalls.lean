import DayfiBackend.Consumer.Transfers
import DayfiBackend.Consumer.BalanceAgreement
import DayfiBackend.Found.Beside
import DayfiBackend.Found.Rows

/-!
# Calls of the ledger from another service

A service that has tables of its own beside the ledger calls the four balance operations. Here are
their rules, under a discipline of that service which guarantees nothing of a step: every
statement of an operation but one leaves all tables as they are, and that one, if it goes
through, records one movement under a key that had none (`Accounts.recorded`).
-/

namespace DayfiBackend.Consumer

open DayfiBackend.Found DayfiBackend.Found.Prog DayfiBackend.Found.Rows

/-- The movement of a credit in a currency. -/
def BalanceParams.credited (p : BalanceParams) (currency : String) (s : Accounts) : MovementRow :=
  p.movement .credit currency p.usdEquivalent s.nextId

/-- A credit in a currency goes through, from `s` to `t`. -/
structure CreditStep (p : BalanceParams) (currency : String) (s t : Accounts) : Prop where
  wallet : ∃ w ∈ s.wallets, w.walletId = p.walletId ∧ w.currency = currency ∧
    s.Fits (cents (decimal w.balance + p.amount)) (p.credited currency s) ∧
    t = s.recorded (cents (decimal w.balance + p.amount)) (p.credited currency s)

/-- A debit in a currency goes through, from `s` to `t`. -/
structure DebitStep (p : BalanceParams) (currency : String) (s t : Accounts) : Prop where
  wallet : ∃ w ∈ s.wallets, w.walletId = p.walletId ∧ w.userId = p.userId ∧
    w.currency = currency ∧ p.amount ≤ decimal w.balance ∧
    ∃ rate usd, usdAmount rate p.amount (currencyCode currency) = .ok usd ∧
    s.Fits (cents (decimal w.balance - p.amount)) (p.movement .debit currency usd s.nextId) ∧
    t = s.recorded (cents (decimal w.balance - p.amount))
      (p.movement .debit currency usd s.nextId)

theorem CreditStep.movements {p : BalanceParams} {currency : String} {s t : Accounts}
    (h : CreditStep p currency s t) : t.movements = p.credited currency s :: s.movements := by
  obtain ⟨w, -, -, -, -, rfl⟩ := h.wallet
  rfl

theorem CreditStep.fresh {p : BalanceParams} {currency : String} {s t : Accounts}
    (h : CreditStep p currency s t) : s.movement? p.idempotencyKey = none := by
  obtain ⟨w, -, -, -, hfits, -⟩ := h.wallet
  exact hfits.fresh

theorem DebitStep.movements {p : BalanceParams} {currency : String} {s t : Accounts}
    (h : DebitStep p currency s t) :
    ∃ usd, t.movements = p.movement .debit currency usd s.nextId :: s.movements := by
  obtain ⟨w, -, -, -, -, -, rate, usd, -, -, rfl⟩ := h.wallet
  exact ⟨usd, rfl⟩

theorem DebitStep.fresh {p : BalanceParams} {currency : String} {s t : Accounts}
    (h : DebitStep p currency s t) : s.movement? p.idempotencyKey = none := by
  obtain ⟨w, -, -, -, -, -, rate, usd, -, hfits, -⟩ := h.wallet
  exact hfits.fresh

/-- What a credit's transaction does. -/
theorem Accounts.creditTx_cases (s : Accounts) (p : BalanceParams) (currency : String) :
    (∃ e, s.creditTx p currency = (.error e, s)) ∨
      ∃ id t, s.creditTx p currency = (.ok id, t) ∧ CreditStep p currency s t := by
  by_cases h : s.Credits p currency
  · have hc := h
    unfold Accounts.Credits at hc
    cases hw : s.wallets.find? fun w => w.walletId = p.walletId && w.currency = currency with
    | none => simp [hw] at hc
    | some w =>
        simp only [hw] at hc
        have hwallet := List.find?_some hw
        simp only [Bool.and_eq_true, decide_eq_true_eq] at hwallet
        refine .inr ⟨s.nextId, _, ?_,
          ⟨w, List.mem_of_find?_eq_some hw, hwallet.1, hwallet.2, hc, rfl⟩⟩
        unfold Accounts.creditTx
        rw [hw]
        exact Accounts.record_of_fits hc
  · exact .inl (Accounts.creditTx_of_not h)

/-- The transaction of a debit that goes through. -/
theorem Accounts.Debits.step {s : Accounts} {p : BalanceParams} {currency : String}
    {rate : Option ℚ} (h : s.Debits p currency rate) :
    ∃ id t, s.debitTx p currency rate = (.ok id, t) ∧ DebitStep p currency s t := by
  unfold Accounts.Debits at h
  cases hw : s.debited? p currency with
  | none => simp [hw] at h
  | some w =>
      cases husd : usdAmount rate p.amount (currencyCode currency) with
      | error e => simp [hw, husd] at h
      | ok usd =>
          simp only [hw, husd] at h
          have hwallet := List.find?_some hw
          simp only [Bool.and_eq_true, decide_eq_true_eq] at hwallet
          refine ⟨s.nextId, _, ?_, ⟨w, List.mem_of_find?_eq_some hw, hwallet.1.1,
            hwallet.1.2, hwallet.2, h.1, rate, usd, husd, h.2, rfl⟩⟩
          unfold Accounts.debitTx
          rw [hw]
          dsimp only
          rw [if_neg (not_lt.mpr h.1), husd]
          exact Accounts.record_of_fits h.2

/-- What a debit's transaction does. -/
theorem Accounts.debitTx_cases (s : Accounts) (p : BalanceParams) (currency : String)
    (rate : Option ℚ) :
    (∃ e, s.debitTx p currency rate = (.error e, s)) ∨
      ∃ id t, s.debitTx p currency rate = (.ok id, t) ∧ s.Debits p currency rate ∧
        DebitStep p currency s t := by
  by_cases h : s.Debits p currency rate
  · obtain ⟨id, t, he, hstep⟩ := h.step
    exact .inr ⟨id, t, he, h, hstep⟩
  · exact .inl (Accounts.debitTx_of_not h)

/-- A credit that goes through changes its wallet by its movement. -/
theorem CreditStep.posts {p : BalanceParams} {currency : String} {s t : Accounts} (hs : Books s)
    (h : CreditStep p currency s t) : Posts s t (p.credited currency s) 0 := by
  obtain ⟨w, hw, hid, hcurrency, hfits, rfl⟩ := h.wallet
  have hpos : 0 < cents p.amount := hfits.pos
  have hadd : cents (decimal w.balance + p.amount) = w.balance + cents p.amount :=
    cents_add (hs.nonneg w hw) (pos_of_cents_pos hpos).le
  have hb := hs.nonneg w hw
  refine hs.recorded_posts hw hid hcurrency ?_ ?_ hfits.fresh
  · rw [hadd]
    simp [MovementRow.signed, BalanceParams.credited, BalanceParams.movement]
  · rw [hadd]
    omega

/-- A debit that goes through changes a wallet of its user by its movement, and by a cent when the
amount lies half way between two. -/
theorem DebitStep.posts {p : BalanceParams} {currency : String} {s t : Accounts} (hs : Books s)
    (h : DebitStep p currency s t) : ∃ w ∈ s.wallets, w.walletId = p.walletId ∧
      w.userId = p.userId ∧ w.currency = currency ∧
      ∃ usd, Posts s t (p.movement .debit currency usd s.nextId) (slackOf p.amount) := by
  obtain ⟨w, hw, hid, huser, hcurrency, hle, rate, usd, -, hfits, rfl⟩ := h.wallet
  have hpos : 0 < cents p.amount := hfits.pos
  have hamount := (pos_of_cents_pos hpos).le
  refine ⟨w, hw, hid, huser, hcurrency, usd,
    hs.recorded_posts hw hid hcurrency ?_ ?_ hfits.fresh⟩
  · rw [cents_sub hamount hle]
    simp [MovementRow.signed, BalanceParams.movement, slackOf, sub_eq_add_neg]
  · exact cents_nonneg (by linarith)

/-- A movement changes what its wallet counts for. -/
theorem Posts.sum_wallets {R : Type} [CommRing R] {m : MovementRow} {slack : ℤ} {s t : Accounts}
    {w : WalletRow} (h : Posts s t m slack) (hs : Books s) (hw : w ∈ s.wallets)
    (hid : w.walletId = m.walletId) (count : WalletRow → R) :
    (t.wallets.map count).sum = (s.wallets.map count).sum - count w +
      count { w with balance := w.balance + m.signed + slack } := by
  have hids : (s.wallets.map (·.walletId)).Nodup := List.pairwise_map.mpr hs.ids
  rw [h.wallets, sum_map_update hids hw (fun v _ hne => if_neg fun hv => hne (hv.trans hid.symm)),
    if_pos hid]

/-- The movement posted is new. -/
theorem Posts.nodup {m : MovementRow} {slack : ℤ} {s t : Accounts} (h : Posts s t m slack)
    (hkeys : (s.movements.map (·.idempotencyKey)).Nodup) :
    (t.movements.map (·.idempotencyKey)).Nodup := by
  rw [h.movements]
  refine List.nodup_cons.mpr ⟨fun hmem => ?_, hkeys⟩
  obtain ⟨m', hm', he⟩ := List.mem_map.mp hmem
  have hnone := List.find?_eq_none.mp h.fresh m' hm'
  simp [he] at hnone

/-- A new wallet moves nothing. -/
theorem Accounts.createWallet_movements {s t : Accounts} {userId currency : String}
    {w : WalletRow} (h : s.createWallet userId currency = (.ok w, t)) :
    t.movements = s.movements := by
  unfold Accounts.createWallet at h
  split_ifs at h
  · cases (Prod.mk.inj h).1
  · rw [← (Prod.mk.inj h).2]

/-- The statements that leave the ledger as it is. -/
def Query.Reads {β : Type} : Query β → Bool
  | creditTx .. | debitTx .. | createWallet .. => false
  | _ => true

theorem Query.run_same {β : Type} {st : Query β} (h : st.Reads = true) (o : Outside)
    (s : Accounts) : (st.run o s).2 = s := by
  cases st with
  | creditTx p currency => cases h
  | debitTx p currency => cases h
  | createWallet userId currency => cases h
  | balanceOf walletId =>
      simp only [run]
      split <;> rfl
  | _ => rfl

/-! ### Rules -/

section rules

variable {J : Type → Type} {ω' ε' τ : Type} {C : Backend J ω' ε' (Accounts × τ)}
  {out : ω' → Outside} {down : Err} {D : Discipline (Beside Query J) (Except ε' ω') (Accounts × τ)}
  {i : ℕ} {g : Err → ε'} {P : Accounts × τ → Prop}

/-- The discipline guarantees nothing of a step, and asks nothing of a statement of the ledger. -/
structure Lax (D : Discipline (Beside Query J) (Except ε' ω') (Accounts × τ)) : Prop where
  good : ∀ {β : Type} i (st : Beside Query J β) o s b t, D.good i st o s b t

/-- A statement of the ledger that only reads. -/
theorem triple_reads (hD : Lax D) {β : Type} {st : Query (Ans β)} {Q : β → Accounts × τ → Prop}
    (hst : st.fail down = .error down) (hreads : st.Reads = true)
    (hstable : ∀ s t, P s → D.rely i s t → P t)
    (hQ : ∀ s o b, P s → D.inv s → D.cond i (.inner st) (.ok o) s →
      (st.run (out o) s.1).1 = .ok b → Q b s) :
    Triple (accounts.beside C out down).machine D i P (inside g (Consumer.sql st)) Q
      fun _ => P := by
  refine Beside.triple_inner hst hstable (fun s e hs _ _ => ⟨hD.good _ _ _ _ _ _, hs⟩)
    fun s o hs hinv hc => ?_
  have hsame : ((accounts.run i st (out o) s.1).2, s.2) = s :=
    congrArg (·, s.2) (Query.run_same hreads (out o) s.1)
  rw [hsame]
  exact ⟨⟨hD.good _ _ _ _ _ _, hinv, fun j _ => D.rely_refl j s⟩,
    fun b hb => hQ s o b hs hinv hc hb, fun _ _ => hs⟩

/-- What a step of a credit has to keep. -/
def CreditKeeps (D : Discipline (Beside Query J) (Except ε' ω') (Accounts × τ)) (i : ℕ)
    (P : Accounts × τ → Prop) (p : BalanceParams) (currency : String)
    (Q : Accounts × τ → Prop) : Prop :=
  ∀ s t, P s → D.inv s → CreditStep p currency s.1 t →
    D.inv (t, s.2) ∧ (∀ j, j ≠ i → D.rely j s (t, s.2)) ∧ Q (t, s.2)

/-- A debit that goes through is one the runs considered allow. -/
def DebitAllowed (D : Discipline (Beside Query J) (Except ε' ω') (Accounts × τ))
    (out : ω' → Outside) (i : ℕ) (p : BalanceParams) (currency : String)
    (s : Accounts × τ) : Prop :=
  ∃ o, D.cond i (.inner (.debitTx p currency)) (.ok o) s ∧ s.1.Debits p currency (out o).rate

/-- What a step of a debit has to keep. -/
def DebitKeeps (D : Discipline (Beside Query J) (Except ε' ω') (Accounts × τ))
    (out : ω' → Outside) (i : ℕ) (P : Accounts × τ → Prop) (p : BalanceParams)
    (currency : String) (Q : Accounts × τ → Prop) : Prop :=
  ∀ s t, P s → D.inv s → DebitAllowed D out i p currency s → DebitStep p currency s.1 t →
    D.inv (t, s.2) ∧ (∀ j, j ≠ i → D.rely j s (t, s.2)) ∧ Q (t, s.2)

/-- The transaction of a credit. -/
theorem triple_creditTx (hD : Lax D) {p : BalanceParams} {currency : String}
    {Q : Accounts × τ → Prop} (hstable : ∀ s t, P s → D.rely i s t → P t)
    (hstep : CreditKeeps D i P p currency Q) :
    Triple (accounts.beside C out down).machine D i P
      (inside g (Consumer.sql (.creditTx p currency))) (fun _ => Q) fun _ => P := by
  refine Beside.triple_inner rfl hstable (fun s e hs _ _ => ⟨hD.good _ _ _ _ _ _, hs⟩)
    fun s o hs hinv _ => ?_
  have hrun : accounts.run i (.creditTx p currency) (out o) s.1 = s.1.creditTx p currency := rfl
  rw [hrun]
  rcases s.1.creditTx_cases p currency with ⟨e, he⟩ | ⟨id, t, he, hstep'⟩
  · rw [he]
    exact ⟨⟨hD.good _ _ _ _ _ _, hinv, fun j _ => D.rely_refl j s⟩, fun b hb => (by cases hb),
      fun _ _ => hs⟩
  · obtain ⟨hinv', hrely, hQ⟩ := hstep s t hs hinv hstep'
    rw [he]
    exact ⟨⟨hD.good _ _ _ _ _ _, hinv', hrely⟩, fun _ _ => hQ, fun e h => (by cases h)⟩

/-- The transaction of a debit. -/
theorem triple_debitTx (hD : Lax D) {p : BalanceParams} {currency : String}
    {Q : Accounts × τ → Prop} (hstable : ∀ s t, P s → D.rely i s t → P t)
    (hstep : DebitKeeps D out i P p currency Q) :
    Triple (accounts.beside C out down).machine D i P
      (inside g (Consumer.sql (.debitTx p currency))) (fun _ => Q) fun _ => P := by
  refine Beside.triple_inner rfl hstable (fun s e hs _ _ => ⟨hD.good _ _ _ _ _ _, hs⟩)
    fun s o hs hinv hc => ?_
  have hrun : accounts.run i (.debitTx p currency) (out o) s.1 =
      s.1.debitTx p currency (out o).rate := rfl
  rw [hrun]
  rcases s.1.debitTx_cases p currency (out o).rate with ⟨e, he⟩ | ⟨id, t, he, hdebits, hstep'⟩
  · rw [he]
    exact ⟨⟨hD.good _ _ _ _ _ _, hinv, fun j _ => D.rely_refl j s⟩, fun b hb => (by cases hb),
      fun _ _ => hs⟩
  · obtain ⟨hinv', hrely, hQ⟩ := hstep s t hs hinv ⟨o, hc, hdebits⟩ hstep'
    rw [he]
    exact ⟨⟨hD.good _ _ _ _ _ _, hinv', hrely⟩, fun _ _ => hQ, fun e h => (by cases h)⟩

/-- The search for a movement is one the runs considered allow. -/
def Sought (D : Discipline (Beside Query J) (Except ε' ω') (Accounts × τ)) (i : ℕ) (key : String)
    (s : Accounts × τ) : Prop :=
  ∃ o, D.cond i (.inner (.findMovementByKey key)) (.ok o) s

/-- The search for an earlier movement. -/
theorem triple_find (hD : Lax D) (key : String) (hstable : ∀ s t, P s → D.rely i s t → P t) :
    Triple (accounts.beside C out down).machine D i P
      (inside g (Consumer.sql (.findMovementByKey key)))
      (fun r s => P s ∧ D.inv s ∧ r = s.1.movement? key ∧ Sought D i key s) fun _ => P :=
  triple_reads hD rfl rfl hstable fun _ o _ hs hinv hc hb =>
    ⟨hs, hinv, (Except.ok.inj hb).symm, o, hc⟩

/-- The conversion of an amount. -/
theorem triple_convert (hD : Lax D) (amount : ℚ) (currency : String)
    (hstable : ∀ s t, P s → D.rely i s t → P t) :
    Triple (accounts.beside C out down).machine D i P
      (inside g (convertAmountToUsd amount currency))
      (fun usd s => (currencyCode currency = primaryCurrency → usd = amount) ∧ P s)
      fun _ => P := by
  unfold convertAmountToUsd
  dsimp only
  split_ifs with hneg hcur hzero
  · exact triple_embed_throw fun s hs => hs
  · exact triple_embed_pure fun s hs => ⟨fun _ => rfl, hs⟩
  · exact triple_embed_pure fun s hs => ⟨fun h => absurd h hcur, hs⟩
  · refine triple_embed_bind (R := fun _ => P)
      (triple_reads hD rfl rfl hstable fun s _ _ hs _ _ _ => hs) fun rate => ?_
    cases usdAmount rate amount (currencyCode currency) with
    | error e => exact triple_embed_throw fun s hs => hs
    | ok usd => exact triple_embed_pure fun s hs => ⟨fun h => absurd h hcur, hs⟩

/-- The rule of `creditUsdBalance`. -/
theorem triple_creditUsdBalance (hD : Lax D) {p : BalanceParams} {Q : Accounts × τ → Prop}
    (hstable : ∀ s t, P s → D.rely i s t → P t)
    (hdup : ∀ s m, P s → D.inv s → Sought D i p.idempotencyKey s →
      s.1.movement? p.idempotencyKey = some m → Q s)
    (hstep : ∀ usd, (currencyCode p.currency = primaryCurrency → usd = p.amount) →
      CreditKeeps D i P { p with amount := usd, usdEquivalent := usd } primaryCurrency Q) :
    Triple (accounts.beside C out down).machine D i P (inside g (creditUsdBalance p))
      (fun _ => Q) fun _ => P := by
  refine triple_embed_bind (triple_find hD p.idempotencyKey hstable) fun r => ?_
  cases r with
  | some m => exact triple_embed_pure fun s hs => hdup s m hs.1 hs.2.1 hs.2.2.2 hs.2.2.1.symm
  | none =>
      refine triple_embed_bind (R := fun usd s =>
          (currencyCode p.currency = primaryCurrency → usd = p.amount) ∧ P s)
        ((triple_convert hD p.amount p.currency hstable).mono (fun s hs => hs.1)
          (fun _ _ h => h) fun _ _ h => h) fun usd => Triple.assume fun husd => ?_
      exact triple_embed_bind (triple_creditTx hD hstable (hstep usd husd)) fun _ =>
        triple_embed_pure fun s hs => hs

/-- The rule of `creditWalletBalance`. -/
theorem triple_creditWalletBalance (hD : Lax D) {p : BalanceParams} {Q : Accounts × τ → Prop}
    (hstable : ∀ s t, P s → D.rely i s t → P t)
    (hdup : ∀ s m, P s → D.inv s → Sought D i p.idempotencyKey s →
      s.1.movement? p.idempotencyKey = some m → Q s)
    (hstep : CreditKeeps D i P p p.currency.toUpper Q) :
    Triple (accounts.beside C out down).machine D i P (inside g (creditWalletBalance p))
      (fun _ => Q) fun _ => P := by
  refine triple_embed_bind (triple_find hD p.idempotencyKey hstable) fun r => ?_
  cases r with
  | some m => exact triple_embed_pure fun s hs => hdup s m hs.1 hs.2.1 hs.2.2.2 hs.2.2.1.symm
  | none =>
      exact triple_embed_bind ((triple_creditTx hD hstable hstep).mono (fun s hs => hs.1)
        (fun _ _ h => h) fun _ _ h => h) fun _ => triple_embed_pure fun s hs => hs

/-- The rule of `debitUsdBalance` and `debitWalletBalance`, by the currency debited. When the
balance is not read afterwards, the debit stands although the call fails. -/
theorem triple_debit (hD : Lax D) {p : BalanceParams} {currency : String}
    {Q : Accounts × τ → Prop} (hstable : ∀ s t, P s → D.rely i s t → P t)
    (hstableQ : ∀ s t, Q s → D.rely i s t → Q t)
    (hdup : ∀ s m, P s → D.inv s → Sought D i p.idempotencyKey s →
      s.1.movement? p.idempotencyKey = some m → Q s)
    (hstep : 0 < p.amount → DebitKeeps D out i P p currency Q) :
    Triple (accounts.beside C out down).machine D i P
      (inside g (do
        match ← Consumer.sql (.findMovementByKey p.idempotencyKey) with
        | some m =>
            let balance ← Consumer.sql (.balanceOf p.walletId)
            pure (DebitResult.mk balance m.id)
        | none =>
            if p.amount ≤ 0 then throw .invalidAmount
            else do
              let id ← Consumer.sql (.debitTx p currency)
              let balance ← Consumer.sql (.balanceOf p.walletId)
              pure (DebitResult.mk balance id)))
      (fun _ => Q) fun _ s => P s ∨ Q s := by
  have hbalance : ∀ id : ℕ, Triple (accounts.beside C out down).machine D i Q
      (inside g (do
        let balance ← Consumer.sql (.balanceOf p.walletId)
        pure (DebitResult.mk balance id))) (fun _ => Q) fun _ s => P s ∨ Q s := fun id =>
    triple_embed_bind (R := fun _ => Q)
      ((triple_reads hD rfl rfl hstableQ fun s _ _ hs _ _ _ => hs).mono (fun _ h => h)
        (fun _ _ h => h) fun _ _ h => .inr h) fun _ => triple_embed_pure fun _ h => h
  refine triple_embed_bind ((triple_find hD p.idempotencyKey hstable).mono (fun _ h => h)
    (fun _ _ h => h) fun _ _ h => .inl h) fun r => ?_
  cases r with
  | some m =>
      exact Triple.mono (hbalance m.id) (fun s hs => hdup s m hs.1 hs.2.1 hs.2.2.2 hs.2.2.1.symm)
        (fun _ _ h => h) fun _ _ h => h
  | none =>
      dsimp only
      split_ifs with hpos
      · exact triple_embed_throw fun s hs => .inl hs.1
      · exact triple_embed_bind ((triple_debitTx hD hstable (hstep (not_le.mp hpos))).mono
          (fun s hs => hs.1) (fun _ _ h => h) fun _ _ h => .inl h) fun id => hbalance id

/-- A wallet is opened, if there is none. -/
theorem triple_createWallet (hD : Lax D) (userId currency : String)
    {Q : WalletRow → Accounts × τ → Prop} (hstable : ∀ s t, P s → D.rely i s t → P t)
    (hnew : ∀ s t w, P s → D.inv s → s.1.createWallet userId currency = (.ok w, t) →
      D.inv (t, s.2) ∧ (∀ j, j ≠ i → D.rely j s (t, s.2)) ∧ Q w (t, s.2)) :
    Triple (accounts.beside C out down).machine D i P
      (inside g (Consumer.sql (.createWallet userId currency))) Q fun _ => P := by
  refine Beside.triple_inner rfl hstable (fun s e hs _ _ => ⟨hD.good _ _ _ _ _ _, hs⟩)
    fun s o hs hinv _ => ?_
  have hrun : accounts.run i (.createWallet userId currency) (out o) s.1 =
      s.1.createWallet userId currency := rfl
  rw [hrun]
  cases hc : s.1.createWallet userId currency with
  | mk r t =>
      cases r with
      | ok w =>
          obtain ⟨hinv', hrely, hQ⟩ := hnew s t w hs hinv hc
          refine ⟨⟨hD.good _ _ _ _ _ _, hinv', hrely⟩, fun b hb => ?_, fun e h => (by cases h)⟩
          obtain rfl := Except.ok.inj hb
          exact hQ
      | error e =>
          have ht : t = s.1 := by
            unfold Accounts.createWallet at hc
            split_ifs at hc
            · exact (Prod.mk.inj hc).2.symm
            · cases (Prod.mk.inj hc).1
          subst ht
          exact ⟨⟨hD.good _ _ _ _ _ _, hinv, fun j _ => D.rely_refl j s⟩,
            fun b h => (by cases h), fun _ _ => hs⟩

/-- The rule of `ensureWalletForCurrency`. -/
theorem triple_ensureWallet (hD : Lax D) (userId currency : String)
    (hstable : ∀ s t, P s → D.rely i s t → P t)
    (hnew : ∀ s t w, P s → D.inv s → s.1.createWallet userId currency.toUpper = (.ok w, t) →
      D.inv (t, s.2) ∧ (∀ j, j ≠ i → D.rely j s (t, s.2)) ∧ P (t, s.2)) :
    Triple (accounts.beside C out down).machine D i P
      (inside g (ensureWalletForCurrency userId currency)) (fun _ => P) fun _ => P := by
  refine triple_embed_bind (R := fun _ => P)
    (triple_reads hD rfl rfl hstable fun s _ _ hs _ _ _ => hs) fun found => ?_
  cases found with
  | some wallet => exact triple_embed_pure fun s hs => hs
  | none => exact triple_createWallet hD userId currency.toUpper hstable hnew

end rules

end DayfiBackend.Consumer
