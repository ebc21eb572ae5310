import DayfiBackend.Consumer.Balance

/-!
# The consumer ledger agrees with its movements, up to half cents

A credit stores `balance + amount` rounded to a cent and records `amount` rounded to a cent, and
the two roundings agree. A debit stores `balance - amount`, and when the amount lies half way
between two cents both that difference and the amount recorded round up: the wallet keeps one cent
more than its movements say (`cents_sub`). So along any run of the four operations the wallets are
never negative and every key changes balances at most once, and they agree with the movements in
every state exactly when no debit of such an amount goes through (`ledger_agreement_iff`).
-/

namespace DayfiBackend.Consumer

open DayfiBackend.Found DayfiBackend.Found.Binary64

/-! ### Rounding to cents -/

section rounding

variable {a : ℚ} {b : ℤ}

theorem decimal_mul (b : ℤ) : decimal b * 100 = b := by
  unfold decimal
  field_simp

theorem roundHalfAway_intCast (n : ℤ) : roundHalfAway (n : ℚ) = n :=
  roundHalfAway_eq_of_abs_sub_lt (by simp)

theorem cents_decimal (c : ℤ) : cents (decimal c) = c := by
  unfold cents
  rw [decimal_mul, roundHalfAway_intCast]

theorem cents_of_nonneg (ha : 0 ≤ a) : cents a = ⌊a * 100 + 1 / 2⌋ := by
  unfold cents roundHalfAway
  rw [if_pos (by positivity)]

theorem pos_of_cents_pos (h : 0 < cents a) : 0 < a := by
  by_contra hneg
  have hle : a * 100 ≤ 0 := by linarith
  unfold cents roundHalfAway at h
  split_ifs at h with h0
  · have hzero : a * 100 = 0 := le_antisymm hle h0
    rw [hzero] at h
    norm_num at h
  · have hceil : ⌈a * 100 - 1 / 2⌉ ≤ 0 := Int.ceil_le.mpr (by push_cast; linarith)
    omega

/-- A credit: the stored sum is the sum of what is stored. -/
theorem cents_add (hb : 0 ≤ b) (ha : 0 ≤ a) : cents (decimal b + a) = b + cents a := by
  have hb' : (0 : ℚ) ≤ b := by exact_mod_cast hb
  have hsum : 0 ≤ decimal b + a := by
    have := decimal_mul b
    linarith
  rw [cents_of_nonneg hsum, cents_of_nonneg ha, add_mul, decimal_mul, add_assoc,
    Int.floor_intCast_add]

/-- A debit: the stored difference is a cent more than the difference of what is stored when the
amount lies half way between two cents. -/
theorem cents_sub (ha : 0 ≤ a) (hab : a ≤ decimal b) :
    cents (decimal b - a) = b - cents a + if HalfCent a then 1 else 0 := by
  rw [cents_of_nonneg (by linarith), cents_of_nonneg ha, sub_mul, decimal_mul]
  have hshift : (b : ℚ) - a * 100 + 1 / 2 = (b : ℤ) + (1 / 2 - a * 100) := by ring
  rw [hshift, Int.floor_intCast_add, sub_add]
  have hfract := Int.self_sub_floor (a * 100)
  have h0 := Int.fract_nonneg (a * 100)
  have h1 := Int.fract_lt_one (a * 100)
  -- `n` is the number of whole cents, and the three cases are below, at and above a half
  generalize ⌊a * 100⌋ = n at hfract
  rcases lt_trichotomy (Int.fract (a * 100)) (1 / 2) with hlt | heq | hgt
  · have hup : ⌊a * 100 + 1 / 2⌋ = n := Int.floor_eq_iff.mpr ⟨by linarith, by linarith⟩
    have hdown : ⌊1 / 2 - a * 100⌋ = -n :=
      Int.floor_eq_iff.mpr ⟨by push_cast; linarith, by push_cast; linarith⟩
    rw [hup, hdown, if_neg (show ¬ HalfCent a from hlt.ne)]
    ring
  · have hup : ⌊a * 100 + 1 / 2⌋ = n + 1 :=
      Int.floor_eq_iff.mpr ⟨by push_cast; linarith, by push_cast; linarith⟩
    have hdown : ⌊1 / 2 - a * 100⌋ = -n :=
      Int.floor_eq_iff.mpr ⟨by push_cast; linarith, by push_cast; linarith⟩
    rw [hup, hdown, if_pos (show HalfCent a from heq)]
    ring
  · have hup : ⌊a * 100 + 1 / 2⌋ = n + 1 :=
      Int.floor_eq_iff.mpr ⟨by push_cast; linarith, by push_cast; linarith⟩
    have hdown : ⌊1 / 2 - a * 100⌋ = -n - 1 :=
      Int.floor_eq_iff.mpr ⟨by push_cast; linarith, by push_cast; linarith⟩
    rw [hup, hdown, if_neg (show ¬ HalfCent a from hgt.ne')]
    ring

theorem cents_nonneg (ha : 0 ≤ a) : 0 ≤ cents a := by
  rw [cents_of_nonneg ha]
  exact Int.floor_nonneg.mpr (by positivity)

end rounding

/-! ### What a statement does to the two tables -/

/-- The columns' constraints hold of a new balance and a new movement. -/
structure Accounts.Fits (s : Accounts) (balance : ℤ) (m : MovementRow) : Prop where
  balance_lt : |balance| < centsLimit
  amount_lt : |m.amount| < centsLimit
  usd_lt : |m.usdEquivalent| < centsLimit
  pos : 0 < m.amount
  fresh : s.movement? m.idempotencyKey = none

instance (s : Accounts) (balance : ℤ) (m : MovementRow) : Decidable (s.Fits balance m) :=
  decidable_of_iff (|balance| < centsLimit ∧ |m.amount| < centsLimit ∧
      |m.usdEquivalent| < centsLimit ∧ 0 < m.amount ∧ s.movement? m.idempotencyKey = none)
    ⟨fun h => ⟨h.1, h.2.1, h.2.2.1, h.2.2.2.1, h.2.2.2.2⟩,
      fun h => ⟨h.1, h.2, h.3, h.4, h.5⟩⟩

/-- The tables once a balance and its movement are stored. -/
def Accounts.recorded (s : Accounts) (balance : ℤ) (m : MovementRow) : Accounts :=
  { s.setBalance m.walletId balance with
    movements := m :: s.movements
    nextId := s.nextId + 1 }

theorem Accounts.record_of_fits {s : Accounts} {balance : ℤ} {m : MovementRow}
    (h : s.Fits balance m) : s.record balance m = (.ok m.id, s.recorded balance m) := by
  unfold Accounts.record
  rw [if_neg (not_le.mpr h.balance_lt), if_neg, if_neg (not_le.mpr h.pos), if_neg]
  · rfl
  · simp [h.fresh]
  · simp [h.amount_lt, h.usd_lt]

theorem Accounts.record_of_not_fits {s : Accounts} {balance : ℤ} {m : MovementRow}
    (h : ¬ s.Fits balance m) : ∃ e, s.record balance m = (.error e, s) := by
  unfold Accounts.record
  split_ifs with h1 h2 h3 h4
  · exact ⟨_, rfl⟩
  · exact ⟨_, rfl⟩
  · exact ⟨_, rfl⟩
  · exact ⟨_, rfl⟩
  · refine absurd ⟨not_le.mp h1, ?_, ?_, not_le.mp h3, ?_⟩ h
    · exact not_le.mp fun hle => h2 (.inl hle)
    · exact not_le.mp fun hle => h2 (.inr hle)
    · simpa using h4

/-- The debit goes through: the wallet is there and covers the amount, the amount has a
conversion, and the result fits the columns. -/
def Accounts.Debits (s : Accounts) (p : BalanceParams) (currency : String) (rate : Option ℚ) :
    Prop :=
  match s.debited? p currency with
  | none => False
  | some w => p.amount ≤ decimal w.balance ∧
      match usdAmount rate p.amount (currencyCode currency) with
      | .error _ => False
      | .ok usd => s.Fits (cents (decimal w.balance - p.amount))
          (p.movement .debit currency usd s.nextId)

instance (s : Accounts) (p : BalanceParams) (currency : String) (rate : Option ℚ) :
    Decidable (s.Debits p currency rate) := by
  unfold Accounts.Debits
  split
  · infer_instance
  · split <;> infer_instance

/-- The credit goes through: the wallet is there and the result fits the columns. -/
def Accounts.Credits (s : Accounts) (p : BalanceParams) (currency : String) : Prop :=
  match s.wallets.find? fun w => w.walletId = p.walletId && w.currency = currency with
  | none => False
  | some w => s.Fits (cents (decimal w.balance + p.amount))
      (p.movement .credit currency p.usdEquivalent s.nextId)

instance (s : Accounts) (p : BalanceParams) (currency : String) :
    Decidable (s.Credits p currency) := by
  unfold Accounts.Credits
  split <;> infer_instance

/-- What a movement does to its wallet. -/
def MovementRow.signed (m : MovementRow) : ℤ :=
  match m.direction with
  | .credit => m.amount
  | .debit => -m.amount

/-- One movement is inserted under a fresh key, and its wallet changes by it and by `slack`. -/
structure Posts (s t : Accounts) (m : MovementRow) (slack : ℤ) : Prop where
  wallet : ∃ w ∈ s.wallets, w.walletId = m.walletId ∧ w.currency = m.currency
  wallets : t.wallets = s.wallets.map fun w =>
    if w.walletId = m.walletId then { w with balance := w.balance + m.signed + slack } else w
  movements : t.movements = m :: s.movements
  fresh : s.movement? m.idempotencyKey = none
  nonneg : ∀ w ∈ t.wallets, 0 ≤ w.balance

/-- Nothing is posted: no movement, and at most a new wallet that holds nothing. -/
structure Quiet (s t : Accounts) : Prop where
  movements : t.movements = s.movements
  wallets : t.wallets = s.wallets ∨ ∃ w, w.balance = 0 ∧
    (∀ w' ∈ s.wallets, w'.walletId ≠ w.walletId) ∧ t.wallets = w :: s.wallets

theorem Quiet.refl (s : Accounts) : Quiet s s := ⟨rfl, .inl rfl⟩

/-- The keys of the tables, and no wallet below zero. -/
structure Books (s : Accounts) : Prop where
  ids : s.wallets.Pairwise fun v w => v.walletId ≠ w.walletId
  owned : ∀ m ∈ s.movements, ∃ w ∈ s.wallets, w.walletId = m.walletId
  nonneg : ∀ w ∈ s.wallets, 0 ≤ w.balance

/-- The cents a debit leaves on the wallet besides its movement. -/
def slackOf (amount : ℚ) : ℤ := if HalfCent amount then 1 else 0

section transactions

variable {s : Accounts} {p : BalanceParams} {currency : String} {rate : Option ℚ}

theorem Books.recorded_posts (hs : Books s) {w : WalletRow} (hw : w ∈ s.wallets)
    {m : MovementRow} (hid : w.walletId = m.walletId) (hcur : w.currency = m.currency)
    {balance slack : ℤ} (hbalance : balance = w.balance + m.signed + slack) (h0 : 0 ≤ balance)
    (hfresh : s.movement? m.idempotencyKey = none) :
    Posts s (s.recorded balance m) m slack where
  wallet := ⟨w, hw, hid, hcur⟩
  wallets := by
    refine List.map_congr_left fun v hv => ?_
    by_cases hvm : v.walletId = m.walletId
    · have hids : (s.wallets.map (·.walletId)).Nodup := List.pairwise_map.mpr hs.ids
      have hvw : v = w := List.inj_on_of_nodup_map hids hv hw (hvm.trans hid.symm)
      rw [if_pos hvm, if_pos hvm, hvw, hbalance]
    · rw [if_neg hvm, if_neg hvm]
  movements := rfl
  fresh := hfresh
  nonneg := by
    intro v hv
    obtain ⟨u, hu, rfl⟩ := List.mem_map.mp hv
    split_ifs
    · exact h0
    · exact hs.nonneg u hu

/-- A credit that goes through. -/
theorem Books.creditTx_of (hs : Books s) (h : s.Credits p currency) :
    let m := p.movement .credit currency p.usdEquivalent s.nextId
    (s.creditTx p currency).1 = .ok s.nextId ∧ Posts s (s.creditTx p currency).2 m 0 := by
  intro m
  unfold Accounts.Credits at h
  unfold Accounts.creditTx
  cases hfind : s.wallets.find? fun w => w.walletId = p.walletId && w.currency = currency with
  | none => simp [hfind] at h
  | some w =>
      rw [hfind] at h
      have hmem := List.mem_of_find?_eq_some hfind
      have hkey := List.find?_some hfind
      simp only [Bool.and_eq_true, decide_eq_true_eq] at hkey
      have hpos : 0 < cents p.amount := h.pos
      have hadd : cents (decimal w.balance + p.amount) = w.balance + cents p.amount :=
        cents_add (hs.nonneg w hmem) (pos_of_cents_pos hpos).le
      have hb := hs.nonneg w hmem
      have hrec := Accounts.record_of_fits h
      dsimp only
      rw [hrec]
      refine ⟨rfl, hs.recorded_posts hmem hkey.1 hkey.2 ?_ ?_ h.fresh⟩
      · rw [hadd]
        simp [MovementRow.signed, BalanceParams.movement]
      · rw [hadd]
        omega

theorem Accounts.creditTx_of_not (h : ¬ s.Credits p currency) :
    ∃ e, s.creditTx p currency = (.error e, s) := by
  unfold Accounts.Credits at h
  unfold Accounts.creditTx
  cases hfind : s.wallets.find? fun w => w.walletId = p.walletId && w.currency = currency with
  | none => exact ⟨_, rfl⟩
  | some w =>
      rw [hfind] at h
      exact Accounts.record_of_not_fits h

/-- A debit that goes through. -/
theorem Books.debitTx_of (hs : Books s) (h : s.Debits p currency rate) :
    ∃ usd, (s.debitTx p currency rate).1 = .ok s.nextId ∧
      Posts s (s.debitTx p currency rate).2 (p.movement .debit currency usd s.nextId)
        (slackOf p.amount) := by
  unfold Accounts.Debits at h
  unfold Accounts.debitTx
  cases hfind : s.debited? p currency with
  | none => simp [hfind] at h
  | some w =>
      rw [hfind] at h
      obtain ⟨hcover, h⟩ := h
      cases husd : usdAmount rate p.amount (currencyCode currency) with
      | error e => simp [husd] at h
      | ok usd =>
          rw [husd] at h
          have hmem := List.mem_of_find?_eq_some hfind
          have hkey := List.find?_some hfind
          simp only [Bool.and_eq_true, decide_eq_true_eq] at hkey
          have hpos : 0 < cents p.amount := h.pos
          have hamount := (pos_of_cents_pos hpos).le
          have hrec := Accounts.record_of_fits h
          dsimp only
          rw [if_neg (not_lt.mpr hcover), hrec]
          refine ⟨usd, rfl, hs.recorded_posts hmem hkey.1.1 hkey.2 ?_ ?_ h.fresh⟩
          · rw [cents_sub hamount hcover]
            simp [MovementRow.signed, BalanceParams.movement, slackOf, sub_eq_add_neg]
          · exact cents_nonneg (by linarith)

theorem Accounts.debitTx_of_not (h : ¬ s.Debits p currency rate) :
    ∃ e, s.debitTx p currency rate = (.error e, s) := by
  unfold Accounts.Debits at h
  unfold Accounts.debitTx
  cases hfind : s.debited? p currency with
  | none => exact ⟨_, rfl⟩
  | some w =>
      rw [hfind] at h
      dsimp only at h ⊢
      split_ifs with hcover
      · exact ⟨_, rfl⟩
      · cases husd : usdAmount rate p.amount (currencyCode currency) with
        | error e => exact ⟨_, rfl⟩
        | ok usd =>
            rw [husd] at h
            exact Accounts.record_of_not_fits fun hfits => h ⟨not_lt.mp hcover, hfits⟩

end transactions

/-- The key a statement changes a balance under. -/
def Query.key? {β : Type} : Query β → Option String
  | .creditTx p _ => some p.idempotencyKey
  | .debitTx p _ => some p.idempotencyKey
  | _ => none

/-- The statement is a debit that goes through although its amount lies half way between two
cents. -/
def Query.DropsHalfCent {β : Type} (st : Query β) (o : Outside) (s : Accounts) : Prop :=
  match st with
  | .debitTx p currency => HalfCent p.amount ∧ s.Debits p currency o.rate
  | _ => False

instance {β : Type} (st : Query β) (o : Outside) (s : Accounts) :
    Decidable (st.DropsHalfCent o s) := by
  unfold Query.DropsHalfCent
  split <;> infer_instance

/-- What a statement does: nothing is posted, or one movement is, with a cent to spare exactly
when the statement drops a half cent. -/
theorem Query.run_cases {β : Type} (st : Query β) (o : Outside) {s : Accounts} (hs : Books s) :
    (Quiet s (st.run o s).2 ∧ (st.key? = none ∨ (st.run o s).2 = s) ∧ ¬ st.DropsHalfCent o s) ∨
      ∃ m slack, Posts s (st.run o s).2 m slack ∧ st.key? = some m.idempotencyKey ∧
        (slack = 1 ∧ st.DropsHalfCent o s ∨ slack = 0 ∧ ¬ st.DropsHalfCent o s) := by
  have hstay : ∀ t, t = s → Quiet s t := fun t ht => ht ▸ Quiet.refl s
  cases st with
  | creditTx p currency =>
      by_cases h : s.Credits p currency
      · exact .inr ⟨_, 0, (hs.creditTx_of h).2, rfl, .inr ⟨rfl, id⟩⟩
      · obtain ⟨e, he⟩ := Accounts.creditTx_of_not h
        have hsame : (s.creditTx p currency).2 = s := by rw [he]
        exact .inl ⟨hstay _ hsame, .inr hsame, id⟩
  | debitTx p currency =>
      by_cases h : s.Debits p currency o.rate
      · obtain ⟨usd, -, hposts⟩ := hs.debitTx_of h
        refine .inr ⟨_, _, hposts, rfl, ?_⟩
        by_cases hhalf : HalfCent p.amount
        · exact .inl ⟨if_pos hhalf, hhalf, h⟩
        · exact .inr ⟨if_neg hhalf, fun hd => hhalf hd.1⟩
      · obtain ⟨e, he⟩ := Accounts.debitTx_of_not h
        have hsame : (s.debitTx p currency o.rate).2 = s := by rw [he]
        exact .inl ⟨hstay _ hsame, .inr hsame, fun hd => h hd.2⟩
  | createWallet userId currency =>
      refine .inl ⟨?_, .inl rfl, id⟩
      show Quiet s (s.createWallet userId currency).2
      unfold Accounts.createWallet
      split_ifs with hany
      · exact Quiet.refl s
      · refine ⟨rfl, .inr ⟨_, rfl, fun w' hw' => ?_, rfl⟩⟩
        simp only [List.any_eq_true, not_exists, not_and, decide_eq_true_eq] at hany
        exact hany w' hw'
  | balanceOf walletId =>
      refine .inl ⟨?_, .inl rfl, id⟩
      simp only [Query.run]
      split <;> exact Quiet.refl s
  | _ => exact .inl ⟨Quiet.refl s, .inl rfl, id⟩

theorem Posts.books {s t : Accounts} {m : MovementRow} {slack : ℤ} (h : Posts s t m slack)
    (hs : Books s) : Books t where
  ids := by
    rw [h.wallets]
    refine (List.pairwise_map).mpr (hs.ids.imp fun {v w} hvw => ?_)
    split_ifs <;> exact hvw
  owned := by
    have howner : ∀ n, (∃ w ∈ s.wallets, w.walletId = n) → ∃ w ∈ t.wallets, w.walletId = n := by
      rintro n ⟨w, hw, rfl⟩
      rw [h.wallets]
      refine ⟨_, List.mem_map_of_mem hw, ?_⟩
      split_ifs <;> rfl
    intro m' hm'
    rw [h.movements] at hm'
    rcases List.mem_cons.mp hm' with rfl | hm'
    · obtain ⟨w, hw, hid, -⟩ := h.wallet
      exact howner _ ⟨w, hw, hid⟩
    · exact howner _ (hs.owned m' hm')
  nonneg := h.nonneg

theorem Quiet.books {s t : Accounts} (h : Quiet s t) (hs : Books s) : Books t := by
  rcases h.wallets with hw | ⟨w, hzero, hnew, hw⟩
  · exact ⟨hw ▸ hs.ids, by rw [h.movements, hw]; exact hs.owned, hw ▸ hs.nonneg⟩
  · refine ⟨?_, ?_, ?_⟩
    · rw [hw]
      exact List.pairwise_cons.mpr ⟨fun w' hw' => (hnew w' hw').symm, hs.ids⟩
    · rw [h.movements, hw]
      intro m hm
      obtain ⟨v, hv, hid⟩ := hs.owned m hm
      exact ⟨v, List.mem_cons_of_mem _ hv, hid⟩
    · rw [hw]
      intro v hv
      rcases List.mem_cons.mp hv with rfl | hv
      · exact hzero.ge
      · exact hs.nonneg v hv

theorem Query.run_books {β : Type} (st : Query β) (o : Outside) {s : Accounts} (hs : Books s) :
    Books (st.run o s).2 := by
  rcases st.run_cases o hs with ⟨hq, -⟩ | ⟨m, slack, hp, -⟩
  · exact hq.books hs
  · exact hp.books hs

/-! ### Wallets and movements -/

/-- The movements of a wallet in one direction, summed. -/
def Accounts.total (s : Accounts) (direction : Direction) (walletId : ℕ) : ℤ :=
  ((s.movements.filter fun m => m.walletId = walletId && m.direction = direction).map
    (·.amount)).sum

/-- No wallet is below zero, and each holds its credits less its debits. -/
def LedgerAgrees (s : Accounts) : Prop :=
  ∀ w ∈ s.wallets, 0 ≤ w.balance ∧
    w.balance = s.total .credit w.walletId - s.total .debit w.walletId

instance (s : Accounts) : Decidable (LedgerAgrees s) := by
  unfold LedgerAgrees
  infer_instance

theorem total_cons (s : Accounts) (m : MovementRow) (direction : Direction) (walletId : ℕ) :
    Accounts.total { s with movements := m :: s.movements } direction walletId =
      (if m.walletId = walletId ∧ m.direction = direction then m.amount else 0) +
        s.total direction walletId := by
  unfold Accounts.total
  rw [List.filter_cons]
  by_cases h : m.walletId = walletId ∧ m.direction = direction
  · simp [h]
  · simp [h]

/-- A wallet's movements, credits less debits, after one more movement. -/
theorem Posts.total_sub {s t : Accounts} {m : MovementRow} {slack : ℤ} (h : Posts s t m slack)
    (walletId : ℕ) : t.total .credit walletId - t.total .debit walletId =
      s.total .credit walletId - s.total .debit walletId +
        if m.walletId = walletId then m.signed else 0 := by
  have hcons : ∀ direction, t.total direction walletId =
      (if m.walletId = walletId ∧ m.direction = direction then m.amount else 0) +
        s.total direction walletId := by
    intro direction
    rw [← total_cons]
    unfold Accounts.total
    rw [h.movements]
  rw [hcons, hcons]
  unfold MovementRow.signed
  by_cases hw : m.walletId = walletId
  · cases m.direction <;> simp [hw] <;> ring
  · simp [hw]

theorem Quiet.agrees {s t : Accounts} (h : Quiet s t) (hs : Books s) (ha : LedgerAgrees s) :
    LedgerAgrees t := by
  have htotal : ∀ direction id, t.total direction id = s.total direction id := by
    intro direction id
    unfold Accounts.total
    rw [h.movements]
  intro w hw
  rw [htotal, htotal]
  rcases h.wallets with hws | ⟨w', hzero, hnew, hws⟩
  · exact ha w (hws ▸ hw)
  · rw [hws] at hw
    rcases List.mem_cons.mp hw with rfl | hw
    · -- no movement can be on a wallet that was not there
      have hnone : ∀ direction, s.total direction w.walletId = 0 := by
        intro direction
        unfold Accounts.total
        rw [List.filter_eq_nil_iff.mpr]
        · rfl
        · intro m hm
          obtain ⟨v, hv, hid⟩ := hs.owned m hm
          have hne : m.walletId ≠ w.walletId := fun hmw => hnew v hv (hid.trans hmw)
          simp [hne]
      rw [hnone, hnone, hzero]
      simp
    · exact ha w hw

theorem Posts.agrees_iff {s t : Accounts} {m : MovementRow} {slack : ℤ} (h : Posts s t m slack)
    (ha : LedgerAgrees s) : LedgerAgrees t ↔ slack = 0 := by
  constructor
  · intro ht
    obtain ⟨w, hw, hid, -⟩ := h.wallet
    have hmem : { w with balance := w.balance + m.signed + slack } ∈ t.wallets := by
      rw [h.wallets]
      exact List.mem_map.mpr ⟨w, hw, if_pos hid⟩
    have hbalance := (ht _ hmem).2
    have hbefore := (ha w hw).2
    dsimp only at hbalance
    rw [h.total_sub, if_pos hid.symm] at hbalance
    omega
  · intro hslack w' hw'
    refine ⟨h.nonneg w' hw', ?_⟩
    rw [h.wallets] at hw'
    obtain ⟨w, hw, rfl⟩ := List.mem_map.mp hw'
    have hbefore := (ha w hw).2
    rw [h.total_sub]
    by_cases hid : w.walletId = m.walletId
    · simp only [if_pos hid]
      rw [if_pos hid.symm]
      omega
    · simp only [if_neg hid]
      rw [if_neg (Ne.symm hid)]
      omega

/-! ### Runs -/

/-- A call of one of the four operations. -/
inductive BalanceCall where
  | creditUsd (p : BalanceParams)
  | debitUsd (p : BalanceParams)
  | creditWallet (p : BalanceParams)
  | debitWallet (p : BalanceParams)
  deriving DecidableEq, Repr

/-- A call whose result nobody reads. -/
def discard {β : Type} (p : Call β) : Prog Query Unit := p.run >>= fun _ => pure ()

def BalanceCall.program : BalanceCall → Prog Query Unit
  | creditUsd p => discard (creditUsdBalance p)
  | debitUsd p => discard (debitUsdBalance p)
  | creditWallet p => discard (creditWalletBalance p)
  | debitWallet p => discard (debitWalletBalance p)

/-- Wallets before any operation. -/
structure Opening (wallets : List WalletRow) : Prop where
  ids : wallets.Pairwise fun v w => v.walletId ≠ w.walletId
  empty : ∀ w ∈ wallets, w.balance = 0

/-- The calls over these wallets, before any has begun. -/
def opened (wallets : List WalletRow) (calls : List BalanceCall) : Pool Query Unit Accounts :=
  ⟨{ wallets := wallets }, calls.map BalanceCall.program⟩

/-- The step of an entry changes a balance under a key. -/
def Changes (key : String) (P : Pool Query Unit Accounts) (e : ℕ × Except Err Outside) : Prop :=
  (match P.procs[e.1]? with
    | some (.act st _) => st.key?
    | _ => none) = some key ∧
  (P.step accounts.machine e).store.wallets ≠ P.store.wallets

instance (key : String) (P : Pool Query Unit Accounts) (e : ℕ × Except Err Outside) :
    Decidable (Changes key P e) := by
  unfold Changes
  infer_instance

/-- How often a run changes a balance under a key. -/
def keyChanges (key : String) : Pool Query Unit Accounts → List (ℕ × Except Err Outside) → ℕ
  | _, [] => 0
  | P, e :: es =>
      (if Changes key P e then 1 else 0) + keyChanges key (P.step accounts.machine e) es

/-- No debit that goes through is for an amount half way between two cents. -/
def KeepsCents {β : Type} (_pid : ℕ) (st : Query β) (o : Except Err Outside) (s : Accounts) :
    Prop :=
  match o with
  | .error _ => True
  | .ok o => ¬ st.DropsHalfCent o s

instance {β : Type} (pid : ℕ) (st : Query β) (o : Except Err Outside) (s : Accounts) :
    Decidable (KeepsCents pid st o s) := by
  unfold KeepsCents
  split <;> infer_instance

/-- The claims of a run: in every state the wallets agree with the movements, and no key changes
a balance twice. -/
def AgreesThroughout (P : Pool Query Unit Accounts) (sched : List (ℕ × Except Err Outside)) :
    Prop :=
  (∀ pre, pre <+: sched → LedgerAgrees (P.run accounts.machine pre).store) ∧
    ∀ key, keyChanges key P sched ≤ 1

section runs

variable {s t : Accounts}

theorem accounts_books {P : Pool Query Unit Accounts} (e : ℕ × Except Err Outside)
    (hP : Books P.store) : Books (P.step accounts.machine e).store :=
  Pool.step_inv (Backend.exec_inv fun _ st o _ hs => st.run_books o hs) e hP

/-- One instruction keeps the agreement exactly when it keeps the cents. -/
theorem exec_agrees_iff {β : Type} {i : ℕ} {st : Query β} {o : Except Err Outside} {b : β}
    (he : accounts.machine.exec i st o s = some (b, t)) (hs : Books s) (ha : LedgerAgrees s) :
    LedgerAgrees t ↔ KeepsCents i st o s := by
  rcases Backend.exec_cases he with ⟨e, rfl, -, rfl⟩ | ⟨o, rfl, -, rfl⟩
  · exact iff_of_true ha trivial
  show LedgerAgrees (st.run o s).2 ↔ ¬ st.DropsHalfCent o s
  rcases st.run_cases o hs with ⟨hq, -, hkeep⟩ | ⟨m, slack, hp, -, hslack⟩
  · exact iff_of_true (hq.agrees hs ha) hkeep
  · rw [hp.agrees_iff ha]
    rcases hslack with ⟨rfl, hdrop⟩ | ⟨rfl, hkeep⟩
    · simp [hdrop]
    · simp [hkeep]

/-- Every instruction runs. -/
theorem accounts_exec_ne {β : Type} (i : ℕ) (st : Query β) (o : Except Err Outside)
    (s : Accounts) : accounts.machine.exec i st o s ≠ none := by
  cases o <;> simp [Backend.machine]

/-- One step keeps the agreement exactly when it keeps the cents. -/
theorem step_agrees_iff (P : Pool Query Unit Accounts) (e : ℕ × Except Err Outside)
    (hs : Books P.store) (ha : LedgerAgrees P.store) :
    LedgerAgrees (P.step accounts.machine e).store ↔ Pool.CondAt KeepsCents P e := by
  unfold Pool.CondAt
  cases hp : P.procs[e.1]? with
  | none =>
      have hstep : P.step accounts.machine e = P := by
        unfold Pool.step
        rw [hp]
      rw [hstep]
      exact iff_of_true ha trivial
  | some p =>
      cases p with
      | ret a =>
          have hstep : P.step accounts.machine e = P := by
            unfold Pool.step
            rw [hp]
          rw [hstep]
          exact iff_of_true ha trivial
      | act st k =>
          obtain ⟨⟨b, t⟩, hr⟩ :=
            Option.ne_none_iff_exists'.mp (accounts_exec_ne e.1 st e.2 P.store)
          have hstep : P.step accounts.machine e = ⟨t, P.procs.set e.1 (k b)⟩ := by
            unfold Pool.step
            rw [hp]
            dsimp only
            rw [hr]
          rw [hstep]
          exact exec_agrees_iff hr hs ha

/-- The wallets agree in every state of a run exactly when every step keeps the cents. -/
theorem run_agrees_iff {P : Pool Query Unit Accounts} (hs : Books P.store)
    (ha : LedgerAgrees P.store) (sched : List (ℕ × Except Err Outside)) :
    (∀ pre, pre <+: sched → LedgerAgrees (P.run accounts.machine pre).store) ↔
      Pool.Along accounts.machine (Pool.CondAt KeepsCents) P sched := by
  induction sched generalizing P with
  | nil =>
      refine iff_of_true (fun pre hpre => ?_) trivial
      rw [List.prefix_nil.mp hpre]
      exact ha
  | cons e es ih =>
      have hbooks := accounts_books e hs
      constructor
      · intro h
        have hstep : LedgerAgrees (P.step accounts.machine e).store :=
          h [e] (List.cons_prefix_cons.mpr ⟨rfl, List.nil_prefix⟩)
        refine ⟨(step_agrees_iff P e hs ha).mp hstep, (ih hbooks hstep).mp fun pre hpre => ?_⟩
        exact h (e :: pre) (List.cons_prefix_cons.mpr ⟨rfl, hpre⟩)
      · rintro ⟨hc, hrest⟩ pre hpre
        have hstep := (step_agrees_iff P e hs ha).mpr hc
        cases pre with
        | nil => exact ha
        | cons e' pre =>
            obtain ⟨rfl, hrest'⟩ := List.cons_prefix_cons.mp hpre
            exact (ih hbooks hstep).mpr hrest pre hrest'

/-- A movement stays. -/
theorem movement?_isSome_of_step {P : Pool Query Unit Accounts} (hs : Books P.store)
    (e : ℕ × Except Err Outside) {key : String} (h : (P.store.movement? key).isSome) :
    ((P.step accounts.machine e).store.movement? key).isSome := by
  refine Pool.step_inv (F := fun s => Books s ∧ (s.movement? key).isSome)
    (Backend.exec_inv fun _ st o s hF => ?_) e ⟨hs, h⟩ |>.2
  refine ⟨st.run_books o hF.1, ?_⟩
  unfold Accounts.movement? at hF ⊢
  rcases st.run_cases o hF.1 with ⟨hq, -⟩ | ⟨m, slack, hp, -⟩
  · show (List.find? _ (st.run o s).2.movements).isSome
    rw [hq.movements]
    exact hF.2
  · show (List.find? _ (st.run o s).2.movements).isSome
    rw [hp.movements, List.find?_cons]
    split
    · rfl
    · exact hF.2

/-- A change of a balance uses up its key. -/
theorem Changes.key {key : String} {P : Pool Query Unit Accounts} {e : ℕ × Except Err Outside}
    (h : Changes key P e) (hs : Books P.store) : P.store.movement? key = none ∧
      ((P.step accounts.machine e).store.movement? key).isSome := by
  obtain ⟨hkey, hne⟩ := h
  rcases Pool.step_cases accounts.machine P e with hstep | ⟨β, st, k, b, t, hp, he, hstep⟩
  · exact absurd (by rw [hstep]) hne
  rw [hp] at hkey
  replace hkey : st.key? = some key := hkey
  rw [hstep] at hne ⊢
  rcases Backend.exec_cases he with ⟨e', -, -, rfl⟩ | ⟨o, -, -, rfl⟩
  · exact absurd rfl hne
  rcases st.run_cases o hs with ⟨-, hnone | hsame, -⟩ | ⟨m, slack, hposts, hm, -⟩
  · rw [hnone] at hkey
    cases hkey
  · exact absurd (congrArg Accounts.wallets hsame) hne
  · have hmk : m.idempotencyKey = key := Option.some.inj (hm.symm.trans hkey)
    subst hmk
    refine ⟨hposts.fresh, ?_⟩
    have hmov : (accounts.run e.1 st o P.store).2.movements = m :: P.store.movements :=
      hposts.movements
    unfold Accounts.movement?
    rw [hmov]
    simp

/-- A key changes a balance at most once, and never once a movement has it. -/
theorem keyChanges_le (key : String) {P : Pool Query Unit Accounts} (hs : Books P.store)
    (sched : List (ℕ × Except Err Outside)) :
    keyChanges key P sched ≤ if (P.store.movement? key).isSome then 0 else 1 := by
  induction sched generalizing P with
  | nil => exact Nat.zero_le _
  | cons e es ih =>
      have htail := ih (accounts_books e hs)
      unfold keyChanges
      by_cases hc : Changes key P e
      · obtain ⟨hfresh, hused⟩ := hc.key hs
        rw [if_pos hused] at htail
        rw [if_pos hc, hfresh]
        simp only [Option.isSome_none, Bool.false_eq_true, if_false]
        omega
      · rw [if_neg hc, zero_add]
        by_cases hused : (P.store.movement? key).isSome
        · rw [if_pos (movement?_isSome_of_step hs e hused)] at htail
          rw [if_pos hused]
          exact htail
        · rw [if_neg hused]
          refine htail.trans ?_
          split_ifs <;> omega

theorem Opening.books {wallets : List WalletRow} (h : Opening wallets) :
    Books { wallets := wallets } where
  ids := h.ids
  owned := by simp
  nonneg w hw := (h.empty w hw).ge

theorem Opening.agrees {wallets : List WalletRow} (h : Opening wallets) :
    LedgerAgrees { wallets := wallets } := by
  intro w hw
  rw [h.empty w hw]
  exact ⟨le_rfl, rfl⟩

end runs

/-- **The consumer ledger over whole runs.** From empty wallets, along any run of any calls of
the four operations, every wallet agrees with its movements in every state and no key changes
balances twice, exactly when no debit goes through for an amount half way between two cents. -/
theorem ledger_agreement_iff {wallets : List WalletRow} (h : Opening wallets)
    (calls : List BalanceCall) (sched : List (ℕ × Except Err Outside)) :
    AgreesThroughout (opened wallets calls) sched ↔
      Pool.Along accounts.machine (Pool.CondAt KeepsCents) (opened wallets calls) sched := by
  have hbooks : Books (opened wallets calls).store := h.books
  rw [← run_agrees_iff hbooks h.agrees sched]
  refine and_iff_left fun key => ?_
  exact (keyChanges_le key hbooks sched).trans (by split_ifs <;> omega)

/-- A USD wallet of a user. -/
def adasWallet : WalletRow := { walletId := 1, userId := "ada", currency := "USD" }

/-- A dollar comes in, and an amount goes out. -/
def dollarThen (amount : ℚ) : List BalanceCall :=
  [.creditUsd
    { userId := "ada", walletId := 1, amount := 1, source := .grey, idempotencyKey := "in" },
   .debitUsd
    { userId := "ada", walletId := 1, amount := amount, source := .card, idempotencyKey := "out" }]

/-- Two steps of the first call, three of the second, nothing failing. -/
def bothCalls : List (ℕ × Except Err Outside) :=
  [(0, .ok {}), (0, .ok {}), (1, .ok {}), (1, .ok {}), (1, .ok {})]

/-- With whole cents the ledger agrees throughout. -/
theorem whole_cents_agree :
    AgreesThroughout (opened [adasWallet] (dollarThen (1 / 4))) bothCalls :=
  (ledger_agreement_iff
    (show Opening [adasWallet] from ⟨List.pairwise_singleton _ _, by decide⟩)
    (dollarThen (1 / 4)) bothCalls).mpr (by decide +kernel)

/-- Half a cent of a dollar: the wallet still holds a dollar, and its movements say 99 cents. -/
theorem half_cent_disagrees :
    ¬ AgreesThroughout (opened [adasWallet] (dollarThen (1 / 200))) bothCalls := by
  rintro ⟨h, -⟩
  have hend := h bothCalls (List.prefix_refl _)
  revert hend
  decide +kernel

end DayfiBackend.Consumer
