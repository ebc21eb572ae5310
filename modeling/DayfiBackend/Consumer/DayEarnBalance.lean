import DayfiBackend.Consumer.DayEarn

/-!
# DayEarn conserves money

A user's money is what the dollar wallets and the pots hold; it may only change by the interest
credited. Between the two transactions of a deposit, or of a withdrawal, an amount is in neither
place: a debit then waits for its deposit, or a payout for its credit. In a run that meets
`Careful` the two together are always conserved (`DayEarnInv.total`), so the money itself is
conserved exactly in the states in which nothing waits (`dayearn_conserves`).
-/

namespace DayfiBackend.Consumer.DayEarn

open DayfiBackend.Found DayfiBackend.Found.Prog DayfiBackend.Found.Keys DayfiBackend.Found.Rows

/-! ### The property -/

/-- What a wallet counts for in a user's money, in hundredths of a cent. -/
def walletCounts (userId : String) (w : WalletRow) : ℤ :=
  if w.userId = userId ∧ w.currency = primaryCurrency then 100 * w.balance else 0

/-- What a pot counts for in a user's money. -/
def potCounts (userId : String) (p : Pot) : ℤ := if p.userId = userId then p.held else 0

/-- A user's money. -/
def worth (userId : String) (s : Store) : ℤ :=
  (s.1.wallets.map (walletCounts userId)).sum + (s.2.pots.map (potCounts userId)).sum

/-- What a movement of a pot counts for in a user's interest. -/
def interestCounts (userId : String) (m : PotMovement) : ℤ :=
  match m.key with
  | .interest _ _ => if m.userId = userId then m.amount else 0
  | _ => 0

/-- The interest credited to a user. -/
def interest (userId : String) (T : Tables) : ℤ := (T.movements.map (interestCounts userId)).sum

/-- A user's money is what it was and the interest, no pot has paid out more than it held, and
none is below zero. -/
structure Conserves (A : Accounts) (s : Store) : Prop where
  total : ∀ userId, worth userId s = worth userId (A, {}) + interest userId s.2
  held : ∀ x ∈ s.2.payouts, x.amount ≤ x.held
  nonneg : ∀ p ∈ s.2.pots, 0 ≤ p.principal ∧ 0 ≤ p.interestEarned

/-- The key of the debit of a movement. -/
def MovementKey.debited : MovementKey → Option String
  | deposit key => some (debitKey key)
  | _ => none

/-- There is a deposit for a debit under this key. -/
def Tables.Deposited (T : Tables) (debitKey : String) : Prop :=
  ∃ d ∈ T.movements, d.key.debited = some debitKey

instance (T : Tables) (debitKey : String) : Decidable (T.Deposited debitKey) :=
  inferInstanceAs (Decidable (∃ d ∈ T.movements, _))

/-- There is a credit for a withdrawal under this key. -/
def Credited (A : Accounts) (key : String) : Prop :=
  ∃ m ∈ A.movements, m.source = .dayearn ∧ m.direction = .credit ∧
    m.idempotencyKey = creditKey key

instance (A : Accounts) (key : String) : Decidable (Credited A key) :=
  inferInstanceAs (Decidable (∃ m ∈ A.movements, _))

/-- A movement of a pot, if it is a withdrawal, has its credit. -/
def PotMovement.Paid (d : PotMovement) (A : Accounts) : Prop :=
  match d.key with
  | .withdraw key => Credited A key
  | _ => True

instance (d : PotMovement) (A : Accounts) : Decidable (d.Paid A) := by
  unfold PotMovement.Paid
  split <;> infer_instance

/-- Nothing is half done: every debit has its deposit, and every withdrawal its credit. -/
structure NothingWaits (s : Store) : Prop where
  deposits : ∀ m ∈ s.1.movements, m.source = .dayearn → m.direction = .debit →
    s.2.Deposited m.idempotencyKey
  withdrawals : ∀ d ∈ s.2.movements, d.Paid s.1

/-- A movement is a debit of a user for a pot, of an amount. -/
def Makes (userId : String) (amount : ℚ) (m : MovementRow) : Prop :=
  m.source = .dayearn ∧ m.direction = .debit ∧ m.userId = userId ∧ m.amount = cents amount

instance (userId : String) (amount : ℚ) (m : MovementRow) : Decidable (Makes userId amount m) :=
  inferInstanceAs (Decidable (_ ∧ _))

/-- The user and the amount of a request that debits. -/
def Request.debits : Request → Option (String × ℚ)
  | createDayEarnPot p => some (p.userId, p.amount)
  | depositToDayEarnPot p => some (p.userId, p.amount)
  | _ => none

/-- The condition on a statement of the ledger: no half cent is debited, and a debit that is found
is one of the same user and amount, or has its deposit. -/
def Request.FindsOwn {β : Type} (r : Request) (st : Query β) (s : Store) : Prop :=
  match st with
  | .debitTx p _ => ¬ HalfCent p.amount
  | .findMovementByKey key => ∀ debit ∈ r.debits, ∀ m ∈ s.1.movement? key,
      Makes debit.1 debit.2 m ∨ s.2.Deposited key
  | _ => True

instance {β : Type} (r : Request) (st : Query β) (s : Store) : Decidable (r.FindsOwn st s) :=
  decidable_of_bool (match st with
    | .debitTx p _ => decide (¬ HalfCent p.amount)
    | .findMovementByKey key => decide (∀ debit ∈ r.debits, ∀ m ∈ s.1.movement? key,
        Makes debit.1 debit.2 m ∨ s.2.Deposited key)
    | _ => true) (by
      cases st <;> first | exact decide_eq_true_iff | exact iff_of_true rfl trivial)

/-- The condition on a withdrawal: the pot holds what was read, which covers the amount, and
what is taken from the principal is whole cents. -/
def Withdrawal.Exact (w : Withdrawal) (T : Tables) : Prop :=
  (∀ p ∈ T.pots, p.id = w.row.id →
    p.principal = w.row.principal ∧ p.interestEarned = w.row.interestEarned) ∧
  w.amount ≤ w.row.balance ∧
  (w.amount ≤ fourPlaces w.row.interestEarned ∨ w.row.interestEarned % 100 = 0)

instance (w : Withdrawal) (T : Tables) : Decidable (w.Exact T) :=
  inferInstanceAs (Decidable (_ ∧ _))

/-- The condition on a statement of the service. -/
def DayEarnSql.Exact {β : Type} (st : DayEarnSql β) (s : Store) : Prop :=
  match st with
  | .withdrawTx w => (∀ d ∈ s.2.movements, d.key ≠ .withdraw w.key) → w.Exact s.2
  | _ => True

/-- The condition on the steps of a run. -/
def Careful (requests : List Request) {β : Type} (i : ℕ) (st : Beside Query DayEarnSql β)
    (o : Except DayEarnError Outside) (s : Store) : Prop :=
  match o with
  | .error _ => True
  | .ok _ =>
      match st with
      | .own st => st.Exact s
      | .inner st => ∀ r ∈ requests[i]?, r.FindsOwn st s

instance {β : Type} (requests : List Request) (i : ℕ) (st : Beside Query DayEarnSql β)
    (o : Except DayEarnError Outside) (s : Store) : Decidable (Careful requests i st o s) := by
  cases o with
  | error e => exact inferInstanceAs (Decidable True)
  | ok o =>
      cases st with
      | own st => cases st <;> dsimp only [Careful, DayEarnSql.Exact] <;> infer_instance
      | inner st => exact inferInstanceAs (Decidable (∀ r ∈ requests[i]?, r.FindsOwn st s))

/-! ### Rounding -/

section rounding

variable {x : ℚ} {c : ℤ}

theorem units_fourPlaces (c : ℤ) : units (fourPlaces c) = c := by
  unfold units fourPlaces
  rw [div_mul_cancel₀ _ (by norm_num), roundHalfAway_intCast]

theorem units_decimal (c : ℤ) : units (decimal c) = 100 * c := by
  have h : decimal c = fourPlaces (100 * c) := by
    unfold decimal fourPlaces
    push_cast
    ring
  rw [h, units_fourPlaces]

theorem decimal_nonneg (h : 0 ≤ decimal c) : 0 ≤ c := by
  have h100 := decimal_mul c
  have hc : (0 : ℚ) ≤ c := by linarith
  exact_mod_cast hc

theorem fourPlaces_nonneg (h : 0 ≤ fourPlaces c) : 0 ≤ c := by
  unfold fourPlaces at h
  have hc : (0 : ℚ) ≤ c := by
    have hmul := mul_nonneg h (by norm_num : (0 : ℚ) ≤ 10 ^ 4)
    rwa [div_mul_cancel₀ _ (by norm_num)] at hmul
  exact_mod_cast hc

theorem fourPlaces_add (a b : ℤ) : fourPlaces a + fourPlaces b = fourPlaces (a + b) := by
  unfold fourPlaces
  push_cast
  ring

theorem roundMoney_eq (x : ℚ) : ∃ c : ℤ, roundMoney x = decimal c := ⟨round (x * 100), rfl⟩

/-- The interest of a day is a number of units. -/
theorem computeDailyInterest_eq (balance apyPercent : ℚ) :
    computeDailyInterest balance apyPercent =
      fourPlaces (units (computeDailyInterest balance apyPercent)) := by
  unfold computeDailyInterest
  split_ifs
  · have hzero : (0 : ℚ) = fourPlaces 0 := by simp [fourPlaces]
    rw [hzero, units_fourPlaces]
  · have hround : roundInterest (balance * (apyPercent / 100) / 365) =
        fourPlaces (round (balance * (apyPercent / 100) / 365 * 10 ^ 4)) := rfl
    rw [hround, units_fourPlaces]

/-- The days of interest are positive numbers of units. -/
theorem accrue_units (apyPercent : ℚ) (n cursor : ℕ) (balance : ℚ) :
    ∀ credit ∈ accrue apyPercent n cursor balance,
      credit.2 = fourPlaces (units credit.2) ∧ 0 < units credit.2 := by
  induction n generalizing cursor balance with
  | zero => intro credit h; cases h
  | succ n ih =>
      intro credit h
      unfold accrue at h
      dsimp only at h
      split_ifs at h with hpos
      · rcases List.mem_cons.mp h with rfl | h
        · have heq := computeDailyInterest_eq balance apyPercent
          refine ⟨heq, ?_⟩
          dsimp only
          by_contra hle
          rw [heq] at hpos
          have hnonpos : fourPlaces (units (computeDailyInterest balance apyPercent)) ≤ 0 := by
            unfold fourPlaces
            have hcast : ((units (computeDailyInterest balance apyPercent) : ℤ) : ℚ) ≤ 0 := by
              exact_mod_cast not_lt.mp hle
            exact div_nonpos_of_nonpos_of_nonneg hcast (by norm_num)
          exact absurd hpos (not_lt.mpr hnonpos)
        · exact ih _ _ credit h
      · exact ih _ _ credit h

/-- A sum of numbers of units. -/
theorem sum_units {l : List (ℕ × ℚ)} (h : ∀ credit ∈ l, credit.2 = fourPlaces (units credit.2)) :
    (l.map (·.2)).sum = fourPlaces ((l.map fun credit => units credit.2).sum) := by
  induction l with
  | nil => simp [fourPlaces]
  | cons credit l ih =>
      rw [List.map_cons, List.sum_cons, List.map_cons, List.sum_cons, ← fourPlaces_add,
        ← ih fun c hc => h c (List.mem_cons_of_mem _ hc), ← h credit List.mem_cons_self]

/-- What a pot holds grows by the interest of the days that have passed. -/
theorem Pot.held_synced (p : Pot) (now : ℕ) :
    (p.synced now).held = p.held + ((p.credits now).map fun credit => units credit.2).sum := by
  have hunits : ∀ credit ∈ p.credits now, credit.2 = fourPlaces (units credit.2) :=
    fun credit h => (accrue_units _ _ _ _ credit h).1
  unfold Pot.held Pot.synced
  dsimp only
  rw [sum_units hunits, fourPlaces_add, units_fourPlaces]
  ring

/-- An exact withdrawal takes its amount from what the pot holds. -/
theorem Withdrawal.held_after {w : Withdrawal} {p : Pot} (hid : p.id = w.row.id)
    (hp : p.principal = w.row.principal ∧ p.interestEarned = w.row.interestEarned)
    (hnonneg : 0 ≤ p.principal ∧ 0 ≤ p.interestEarned) {k : ℤ} (hk : w.amount = decimal k)
    (hcovered : w.amount ≤ w.row.balance)
    (hwhole : w.amount ≤ fourPlaces w.row.interestEarned ∨ w.row.interestEarned % 100 = 0) :
    (w.after p).held = p.held - units w.amount := by
  unfold Withdrawal.after Pot.held
  rw [if_pos hid, hk, units_decimal]
  dsimp only
  rw [hp.1] at hnonneg ⊢
  rw [hp.2] at hnonneg ⊢
  have hprincipal : (0 : ℚ) ≤ decimal w.row.principal := by
    unfold decimal
    have := hnonneg.1
    positivity
  by_cases hle : w.amount ≤ fourPlaces w.row.interestEarned
  · -- the interest pays for all of it
    have hfrom : w.fromInterest = w.amount := min_eq_left hle
    have hinterest : w.interestEarned = fourPlaces (w.row.interestEarned - 100 * k) := by
      unfold Withdrawal.interestEarned
      rw [hfrom, hk]
      unfold fourPlaces decimal
      push_cast
      ring
    have hrest : w.principal = decimal w.row.principal := by
      unfold Withdrawal.principal
      rw [hfrom]
      ring
    have hpos : 0 ≤ w.interestEarned := by
      unfold Withdrawal.interestEarned
      rw [hfrom]
      linarith
    rw [hrest, max_eq_right hprincipal, cents_decimal, max_eq_right hpos, hinterest,
      units_fourPlaces]
    ring
  · -- all the interest goes, and whole cents of the principal
    obtain ⟨j, hj⟩ : ∃ j, w.row.interestEarned = 100 * j :=
      ⟨_, (Int.mul_ediv_cancel' (Int.dvd_of_emod_eq_zero (hwhole.resolve_left hle))).symm⟩
    have hfrom : w.fromInterest = fourPlaces w.row.interestEarned :=
      min_eq_right (not_le.mp hle).le
    have hinterest : w.interestEarned = fourPlaces 0 := by
      unfold Withdrawal.interestEarned
      rw [hfrom]
      simp [fourPlaces]
    have hrest : w.principal = decimal (w.row.principal - k + j) := by
      unfold Withdrawal.principal
      rw [hfrom, hk, hj]
      unfold fourPlaces decimal
      push_cast
      ring
    have hpos : 0 ≤ w.principal := by
      unfold Withdrawal.principal
      rw [hfrom]
      unfold Pot.balance at hcovered
      linarith
    rw [hinterest, show max (0 : ℚ) (fourPlaces 0) = fourPlaces 0 by simp [fourPlaces],
      units_fourPlaces, max_eq_right hpos, hrest, cents_decimal, hj]
    ring

end rounding

/-! ### The invariant -/

/-- What a movement of the ledger counts for in a user's debits that wait for their deposits. -/
def awaits (userId : String) (T : Tables) (m : MovementRow) : ℤ :=
  if (m.source = .dayearn ∧ m.direction = .debit) ∧ m.userId = userId ∧
      ¬ T.Deposited m.idempotencyKey then 100 * m.amount
  else 0

/-- What a movement of a pot counts for in a user's payouts that wait for their credits. -/
def owes (userId : String) (A : Accounts) (d : PotMovement) : ℤ :=
  match d.key with
  | .withdraw key => if d.userId = userId ∧ ¬ Credited A key then d.amount else 0
  | _ => 0

/-- What waits of a user's money. -/
def waiting (userId : String) (s : Store) : ℤ :=
  (s.1.movements.map (awaits userId s.2)).sum + (s.2.movements.map (owes userId s.1)).sum

/-- What holds at every step; `A` is the ledger at the start. -/
structure DayEarnInv (A : Accounts) (s : Store) : Prop where
  books : Books s.1
  keys : (s.1.movements.map (·.idempotencyKey)).Nodup
  rows : (s.2.movements.map (·.key)).Nodup
  lower : ∀ p ∈ s.2.pots, p.id < s.2.pots.length
  ids : (s.2.pots.map (·.id)).Nodup
  charged : ∀ d ∈ s.2.movements, ∀ key ∈ d.key.debited, ∃ m ∈ s.1.movements,
    m.idempotencyKey = key
  withdrawn : ∀ key, Credited s.1 key → ∃ d ∈ s.2.movements, d.key = .withdraw key
  positive : ∀ m ∈ s.1.movements, m.source = .dayearn → 0 < m.amount
  amounts : ∀ d ∈ s.2.movements, 0 < d.amount
  total : ∀ userId, worth userId s + waiting userId s =
    worth userId (A, {}) + interest userId s.2
  held : ∀ x ∈ s.2.payouts, x.amount ≤ x.held
  nonneg : ∀ p ∈ s.2.pots, 0 ≤ p.principal ∧ 0 ≤ p.interestEarned

/-- What a process may count on: movements, pots and whose wallets are. -/
structure Later (s t : Store) : Prop where
  movements : ∀ m ∈ s.1.movements, m ∈ t.1.movements
  rows : ∀ d ∈ s.2.movements, d ∈ t.2.movements
  wallets : ∀ w ∈ t.1.wallets, ∃ v ∈ s.1.wallets, v.walletId = w.walletId ∧ v.userId = w.userId
  pots : ∀ p ∈ s.2.pots, ∃ q ∈ t.2.pots, q.id = p.id ∧ q.userId = p.userId

section dayearn

variable {A B : Accounts} {requests : List Request} {i : ℕ} {s t u : Store} {T : Tables}
  {userId key : String} {amount : ℚ} {w : Withdrawal}

theorem debitKey_inj {a b : String} : debitKey a = debitKey b ↔ a = b := by
  unfold debitKey
  rw [String.append_left_inj]

theorem creditKey_inj {a b : String} : creditKey a = creditKey b ↔ a = b := by
  unfold creditKey
  rw [String.append_left_inj]

/-- A debit has its deposit when there is a movement of the pot under its key. -/
theorem Tables.deposited_debitKey :
    T.Deposited (debitKey key) ↔ ∃ d ∈ T.movements, d.key = .deposit key := by
  refine ⟨fun ⟨d, hd, hkey⟩ => ⟨d, hd, ?_⟩, fun ⟨d, hd, hkey⟩ => ⟨d, hd, by rw [hkey]; rfl⟩⟩
  cases hk : d.key with
  | deposit key' =>
      rw [hk] at hkey
      rw [debitKey_inj.mp (Option.some.inj hkey)]
  | withdraw key' => simp [hk, MovementKey.debited] at hkey
  | interest potId day => simp [hk, MovementKey.debited] at hkey

theorem Later.refl (s : Store) : Later s s :=
  ⟨fun _ h => h, fun _ h => h, fun w hw => ⟨w, hw, rfl, rfl⟩, fun p hp => ⟨p, hp, rfl, rfl⟩⟩

theorem Later.trans (h : Later s t) (h' : Later t u) : Later s u := by
  refine ⟨fun m hm => h'.movements m (h.movements m hm), fun d hd => h'.rows d (h.rows d hd),
    fun w hw => ?_, fun p hp => ?_⟩
  · obtain ⟨v, hv, hid, huser⟩ := h'.wallets w hw
    obtain ⟨x, hx, hid', huser'⟩ := h.wallets v hv
    exact ⟨x, hx, hid'.trans hid, huser'.trans huser⟩
  · obtain ⟨q, hq, hid, huser⟩ := h.pots p hp
    obtain ⟨r, hr, hid', huser'⟩ := h'.pots q hq
    exact ⟨r, hr, hid'.trans hid, huser'.trans huser⟩

/-- The discipline of the service. -/
def dayearnDiscipline (A : Accounts) (requests : List Request) :
    Discipline (Beside Query DayEarnSql) (Except DayEarnError Outside) Store where
  inv := DayEarnInv A
  rely _ := Later
  cond := Careful requests
  good _ _ _ _ _ _ := True
  rely_refl _ := Later.refl
  rely_trans _ _ _ _ h h' := h.trans h'

theorem lax : Lax (dayearnDiscipline A requests) := ⟨fun _ _ _ _ _ _ => trivial⟩

/-- What is known stays so while the others step. -/
def Lasts (P : Store → Prop) : Prop := ∀ s t, P s → Later s t → P t

theorem lasts_true : Lasts fun _ => True := fun _ _ _ _ => trivial

/-! ### What is known -/

/-- A wallet is a user's. -/
def Owns (userId : String) (walletId : ℕ) (s : Store) : Prop :=
  ∀ w ∈ s.1.wallets, w.walletId = walletId → w.userId = userId

/-- A debit for a pot is made, or its deposit is there. -/
def Charged (userId : String) (amount : ℚ) (key : String) (s : Store) : Prop :=
  (∃ m ∈ s.1.movements, Makes userId amount m ∧ m.idempotencyKey = debitKey key) ∨
    ∃ d ∈ s.2.movements, d.key = .deposit key

/-- A pot is a user's. -/
def Holds (userId : String) (potId : ℕ) (s : Store) : Prop :=
  ∃ p ∈ s.2.pots, p.id = potId ∧ p.userId = userId

/-- A withdrawal is taken from its pot. -/
def Taken (w : Withdrawal) (s : Store) : Prop :=
  ∃ d ∈ s.2.movements, d.key = .withdraw w.key ∧ d.userId = w.userId ∧ d.amount = units w.amount

theorem lasts_owns {walletId : ℕ} : Lasts (Owns userId walletId) := by
  intro s t h hlater w hw hid
  obtain ⟨v, hv, hvid, huser⟩ := hlater.wallets w hw
  rw [← huser]
  exact h v hv (hvid.trans hid)

theorem lasts_charged : Lasts (Charged userId amount key) := by
  rintro s t (⟨m, hm, hmakes, hkey⟩ | ⟨d, hd, hkey⟩) hlater
  · exact .inl ⟨m, hlater.movements m hm, hmakes, hkey⟩
  · exact .inr ⟨d, hlater.rows d hd, hkey⟩

theorem lasts_holds {potId : ℕ} : Lasts (Holds userId potId) := by
  rintro s t ⟨p, hp, hid, huser⟩ hlater
  obtain ⟨q, hq, hid', huser'⟩ := hlater.pots p hp
  exact ⟨q, hq, hid'.trans hid, huser'.trans huser⟩

theorem lasts_taken : Lasts (Taken w) := fun _ _ ⟨d, hd, h⟩ hlater => ⟨d, hlater.rows d hd, h⟩

theorem lasts_and {P Q : Store → Prop} (hP : Lasts P) (hQ : Lasts Q) :
    Lasts fun s => P s ∧ Q s := fun s t h hlater => ⟨hP s t h.1 hlater, hQ s t h.2 hlater⟩

/-! ### Steps of the ledger -/

/-- A movement changes the money in its wallet. -/
theorem posts_sum {m : MovementRow} {slack : ℤ} {w : WalletRow} (h : Posts A B m slack)
    (hA : Books A) (hw : w ∈ A.wallets) (hid : w.walletId = m.walletId) (userId : String) :
    (B.wallets.map (walletCounts userId)).sum =
      (A.wallets.map (walletCounts userId)).sum +
        if w.userId = userId ∧ w.currency = primaryCurrency then 100 * (m.signed + slack)
        else 0 := by
  rw [h.sum_wallets hA hw hid]
  unfold walletCounts
  split_ifs <;> ring

theorem posts_later {m : MovementRow} {slack : ℤ} (h : Posts A B m slack) (T : Tables) :
    Later (A, T) (B, T) := by
  refine ⟨fun x hx => ?_, fun _ hd => hd, fun w hw => ?_, fun p hp => ⟨p, hp, rfl, rfl⟩⟩
  · show x ∈ B.movements
    rw [h.movements]
    exact List.mem_cons_of_mem m hx
  · replace hw : w ∈ B.wallets := hw
    rw [h.wallets] at hw
    obtain ⟨v, hv, rfl⟩ := List.mem_map.mp hw
    refine ⟨v, hv, ?_⟩
    split_ifs <;> exact ⟨rfl, rfl⟩

/-- A debit for a pot is made. -/
theorem DayEarnInv.debit (h : DayEarnInv A s) {m : MovementRow} {w : WalletRow}
    (hpost : Posts s.1 B m 0) (hw : w ∈ s.1.wallets) (hid : w.walletId = m.walletId)
    (huser : w.userId = m.userId) (hcurrency : w.currency = primaryCurrency)
    (hsource : m.source = .dayearn) (hdirection : m.direction = .debit) (hpos : 0 < m.amount) :
    DayEarnInv A (B, s.2) := by
  have hmem : ∀ x ∈ s.1.movements, x ∈ B.movements := fun x hx =>
    hpost.movements ▸ List.mem_cons_of_mem m hx
  have hcredited : ∀ key, Credited B key ↔ Credited s.1 key := by
    intro key
    refine ⟨fun ⟨x, hx, hxs, hxd, hxk⟩ => ?_, fun ⟨x, hx, hc⟩ => ⟨x, hmem x hx, hc⟩⟩
    rw [hpost.movements] at hx
    rcases List.mem_cons.mp hx with rfl | hx
    · rw [hdirection] at hxd
      cases hxd
    · exact ⟨x, hx, hxs, hxd, hxk⟩
  have hnew : ¬ s.2.Deposited m.idempotencyKey := by
    rintro ⟨d, hd, hkey⟩
    obtain ⟨x, hx, hxkey⟩ := h.charged d hd _ hkey
    have hnone := List.find?_eq_none.mp hpost.fresh x hx
    simp [hxkey] at hnone
  refine ⟨hpost.books h.books, hpost.nodup h.keys, h.rows, h.lower, h.ids, fun d hd key hkey => ?_,
    fun key hkey => h.withdrawn key ((hcredited key).mp hkey), fun x hx hxs => ?_, h.amounts,
    fun userId => ?_, h.held, h.nonneg⟩
  · obtain ⟨x, hx, hxkey⟩ := h.charged d hd key hkey
    exact ⟨x, hmem x hx, hxkey⟩
  · rw [hpost.movements] at hx
    rcases List.mem_cons.mp hx with rfl | hx
    · exact hpos
    · exact h.positive x hx hxs
  · rw [← h.total userId]
    have howes : owes userId B = owes userId s.1 := by
      funext d
      unfold owes
      split <;> simp [hcredited]
    have hsigned : m.signed = -m.amount := by simp [MovementRow.signed, hdirection]
    unfold worth waiting
    rw [posts_sum hpost h.books hw hid userId, howes, hpost.movements, List.map_cons,
      List.sum_cons]
    unfold awaits
    simp only [hsource, hdirection, hcurrency, huser, hnew, hsigned, not_false_iff, and_true,
      true_and]
    split_ifs <;> ring

/-- A withdrawal that is taken is credited. -/
theorem DayEarnInv.credit (h : DayEarnInv A s) {m : MovementRow} {x : WalletRow}
    (hpost : Posts s.1 B m 0) (hx : x ∈ s.1.wallets) (hid : x.walletId = m.walletId)
    (huser : x.userId = w.userId) (hcurrency : x.currency = primaryCurrency)
    (hsource : m.source = .dayearn) (hdirection : m.direction = .credit)
    (hkey : m.idempotencyKey = creditKey w.key) (hpos : 0 < m.amount)
    (hamount : 100 * m.amount = units w.amount) (htaken : Taken w s) :
    DayEarnInv A (B, s.2) := by
  obtain ⟨d, hd, hdkey, hduser, hdamount⟩ := htaken
  have hmem : ∀ x ∈ s.1.movements, x ∈ B.movements := fun x hx =>
    hpost.movements ▸ List.mem_cons_of_mem m hx
  have hcredited : ∀ key, Credited B key ↔ key = w.key ∨ Credited s.1 key := by
    intro key
    constructor
    · rintro ⟨y, hy, hys, hyd, hyk⟩
      rw [hpost.movements] at hy
      rcases List.mem_cons.mp hy with rfl | hy
      · exact .inl (creditKey_inj.mp (hyk.symm.trans hkey))
      · exact .inr ⟨y, hy, hys, hyd, hyk⟩
    · rintro (rfl | ⟨y, hy, hc⟩)
      · exact ⟨m, hpost.movements ▸ List.mem_cons_self, hsource, hdirection, hkey⟩
      · exact ⟨y, hmem y hy, hc⟩
  have hnew : ¬ Credited s.1 w.key := by
    rintro ⟨y, hy, -, -, hyk⟩
    have hnone := List.find?_eq_none.mp hpost.fresh y hy
    simp [hyk, hkey] at hnone
  refine ⟨hpost.books h.books, hpost.nodup h.keys, h.rows, h.lower, h.ids,
    fun d' hd' key' hkey' => ?_, fun key' hkey' => ?_, fun y hy hys => ?_, h.amounts,
    fun userId => ?_, h.held, h.nonneg⟩
  · obtain ⟨y, hy, hykey⟩ := h.charged d' hd' key' hkey'
    exact ⟨y, hmem y hy, hykey⟩
  · rcases (hcredited key').mp hkey' with rfl | hkey'
    · exact ⟨d, hd, hdkey⟩
    · exact h.withdrawn key' hkey'
  · rw [hpost.movements] at hy
    rcases List.mem_cons.mp hy with rfl | hy
    · exact hpos
    · exact h.positive y hy hys
  · rw [← h.total userId]
    -- of the payouts only this one stops waiting
    have howes : (s.2.movements.map (owes userId B)).sum =
        (s.2.movements.map (owes userId s.1)).sum - owes userId s.1 d + owes userId B d := by
      refine sum_map_of_eq_off h.rows hd fun d' _ hne => ?_
      unfold owes
      cases hk : d'.key with
      | deposit key' => rfl
      | interest potId day => rfl
      | withdraw key' =>
          have hother : key' ≠ w.key := fun he => hne (by rw [hk, he, hdkey])
          simp [hcredited, hother]
    have hbefore : owes userId s.1 d = if d.userId = userId then d.amount else 0 := by
      unfold owes
      simp [hdkey, hnew]
    have hafter : owes userId B d = 0 := by
      unfold owes
      simp [hdkey, hcredited]
    have hsigned : m.signed = m.amount := by simp [MovementRow.signed, hdirection]
    have hawaits : awaits userId s.2 m = 0 := by simp [awaits, hdirection]
    unfold worth waiting
    rw [posts_sum hpost h.books hx hid userId, howes, hbefore, hafter, hpost.movements,
      List.map_cons, List.sum_cons, hawaits, hsigned]
    simp only [hcurrency, huser, hduser, hdamount, and_true]
    split_ifs
    · linarith
    · ring

/-! ### Steps of the service -/

theorem units_nonneg {x : ℚ} (hx : 0 ≤ x) : 0 ≤ units x := by
  have hx' : 0 ≤ x * 10 ^ 4 := by positivity
  unfold units Binary64.roundHalfAway
  rw [if_pos hx']
  exact Int.floor_nonneg.mpr (by linarith)

/-- Time passes. -/
theorem DayEarnInv.tick (h : DayEarnInv A s) (elapsed : ℕ) :
    DayEarnInv A (s.1, s.2.tick elapsed) ∧ Later s (s.1, s.2.tick elapsed) :=
  ⟨⟨h.books, h.keys, h.rows, h.lower, h.ids, h.charged, h.withdrawn, h.positive, h.amounts,
    h.total, h.held, h.nonneg⟩, fun _ hm => hm, fun _ hd => hd, fun w hw => ⟨w, hw, rfl, rfl⟩,
    fun p hp => ⟨p, hp, rfl, rfl⟩⟩

/-- A movement that fits has a positive amount and a new key. -/
theorem Tables.admits_eq_none {d : PotMovement} (h : T.admits d = none) :
    0 < d.amount ∧ ∀ x ∈ T.movements, x.key ≠ d.key := by
  unfold Tables.admits at h
  split_ifs at h with hpos hrange hkey
  exact ⟨not_le.mp hpos, fun x hx he => hkey (List.any_eq_true.mpr ⟨x, hx, by simpa using he⟩)⟩

/-- One pot is changed, which has a user and an id. -/
structure Repots (T : Tables) (q q' : Pot) (pots : List Pot) : Prop where
  mem : q ∈ T.pots
  id : q'.id = q.id
  user : q'.userId = q.userId
  nonneg : 0 ≤ q'.principal ∧ 0 ≤ q'.interestEarned
  eq : pots = T.pots.map fun p => if p.id = q.id then q' else p

/-- Movements of pots are added, and a pot is changed or added. What is left to show is what the
movements owe to the ledger, and the money. -/
theorem DayEarnInv.add (h : DayEarnInv A s) (added : List PotMovement) {pots : List Pot}
    {payouts : List PaidOut}
    (hT : T = { s.2 with
      pots := pots
      movements := added ++ s.2.movements
      payouts := payouts })
    (hlower : ∀ p ∈ pots, p.id < pots.length) (hids : (pots.map (·.id)).Nodup)
    (hnonneg : ∀ p ∈ pots, 0 ≤ p.principal ∧ 0 ≤ p.interestEarned)
    (hheld : ∀ x ∈ payouts, x.amount ≤ x.held)
    (hrows : ((added ++ s.2.movements).map (·.key)).Nodup) (hpos : ∀ d ∈ added, 0 < d.amount)
    (hcharged : ∀ d ∈ added, ∀ key ∈ d.key.debited, ∃ m ∈ s.1.movements,
      m.idempotencyKey = key)
    (hmoney : ∀ userId, (pots.map (potCounts userId)).sum + waiting userId (s.1, T) =
      (s.2.pots.map (potCounts userId)).sum + waiting userId s +
        (added.map (interestCounts userId)).sum) :
    DayEarnInv A (s.1, T) := by
  subst hT
  refine ⟨h.books, h.keys, hrows, hlower, hids, fun d hd => ?_, fun key hkey => ?_, h.positive,
    fun d hd => ?_, fun userId => ?_, hheld, hnonneg⟩
  · rcases List.mem_append.mp hd with hd | hd
    · exact hcharged d hd
    · exact h.charged d hd
  · obtain ⟨d, hd, hdkey⟩ := h.withdrawn key hkey
    exact ⟨d, List.mem_append_right _ hd, hdkey⟩
  · rcases List.mem_append.mp hd with hd | hd
    · exact hpos d hd
    · exact h.amounts d hd
  · have hinterest : interest userId
        { s.2 with pots := pots, movements := added ++ s.2.movements, payouts := payouts } =
          (added.map (interestCounts userId)).sum + interest userId s.2 := by
      unfold interest
      rw [List.map_append, List.sum_append]
    have htotal := h.total userId
    have hmoney := hmoney userId
    rw [hinterest]
    unfold worth at htotal ⊢
    dsimp only at htotal ⊢
    linarith

/-- The pots with one of them changed. -/
theorem DayEarnInv.repot (h : DayEarnInv A s) {q q' : Pot} {pots : List Pot}
    (hpots : Repots s.2 q q' pots) :
    (∀ p ∈ pots, p.id < pots.length) ∧ (pots.map (·.id)).Nodup ∧
      (∀ p ∈ pots, 0 ≤ p.principal ∧ 0 ≤ p.interestEarned) ∧
      (∀ userId, (pots.map (potCounts userId)).sum = (s.2.pots.map (potCounts userId)).sum +
        if q.userId = userId then q'.held - q.held else 0) ∧
      ∀ p ∈ s.2.pots, ∃ r ∈ pots, r.id = p.id ∧ r.userId = p.userId := by
  have hid : ∀ p : Pot, (if p.id = q.id then q' else p).id = p.id := fun p => by
    split_ifs with hp
    · exact hpots.id.trans hp.symm
    · rfl
  rw [hpots.eq]
  refine ⟨fun p hp => ?_, ?_, fun p hp => ?_, fun userId => ?_, fun p hp =>
    ⟨_, List.mem_map_of_mem hp, hid p, ?_⟩⟩
  · obtain ⟨r, hr, rfl⟩ := List.mem_map.mp hp
    rw [List.length_map, hid r]
    exact h.lower r hr
  · rw [List.map_map, show (fun p : Pot => p.id) ∘ (fun p => if p.id = q.id then q' else p) =
      fun p => p.id from funext hid]
    exact h.ids
  · obtain ⟨r, hr, rfl⟩ := List.mem_map.mp hp
    split_ifs
    · exact hpots.nonneg
    · exact h.nonneg r hr
  · rw [sum_map_update h.ids hpots.mem (fun p _ hne => if_neg hne), if_pos rfl]
    unfold potCounts
    rw [hpots.user]
    split_ifs <;> ring
  · split_ifs with hp
    · rw [hpots.user, List.inj_on_of_nodup_map h.ids ‹_› hpots.mem hp]
    · rfl

/-- Interest changes nothing of what waits. -/
theorem waiting_interest {added : List PotMovement} (hT : T.movements = added ++ s.2.movements)
    (hadded : ∀ d ∈ added, ∃ potId day, d.key = .interest potId day) (userId : String) :
    waiting userId (s.1, T) = waiting userId s := by
  have hdeposited : ∀ key, T.Deposited key ↔ s.2.Deposited key := by
    intro key
    refine ⟨fun ⟨d, hd, hkey⟩ => ?_, fun ⟨d, hd, hkey⟩ =>
      ⟨d, hT ▸ List.mem_append_right _ hd, hkey⟩⟩
    rw [hT] at hd
    rcases List.mem_append.mp hd with hd | hd
    · obtain ⟨potId, day, hk⟩ := hadded d hd
      rw [hk] at hkey
      cases hkey
    · exact ⟨d, hd, hkey⟩
  have hawaits : awaits userId T = awaits userId s.2 := by
    funext m
    unfold awaits
    simp only [hdeposited]
  have howes : (added.map (owes userId s.1)).sum = 0 := List.sum_eq_zero fun x hx => by
    obtain ⟨d, hd, rfl⟩ := List.mem_map.mp hx
    obtain ⟨potId, day, hk⟩ := hadded d hd
    simp [owes, hk]
  unfold waiting
  dsimp only
  rw [hawaits, hT, List.map_append, List.sum_append, howes, zero_add]

/-- A deposit ends the wait of its debit. -/
theorem DayEarnInv.waiting_deposit (h : DayEarnInv A s) {d : PotMovement}
    (hT : T.movements = d :: s.2.movements) (hd : d.key = .deposit key)
    (hnew : ∀ x ∈ s.2.movements, x.key ≠ d.key) {m : MovementRow} (hm : m ∈ s.1.movements)
    (hmakes : Makes userId amount m) (hkey : m.idempotencyKey = debitKey key) (user : String) :
    waiting user (s.1, T) = waiting user s - if userId = user then 100 * cents amount else 0 := by
  obtain ⟨hsource, hdirection, huser, hamount⟩ := hmakes
  have hbefore : ¬ s.2.Deposited m.idempotencyKey := by
    rw [hkey, Tables.deposited_debitKey]
    rintro ⟨x, hx, hxkey⟩
    exact hnew x hx (hxkey.trans hd.symm)
  have hafter : ∀ key', T.Deposited key' ↔ key' = m.idempotencyKey ∨ s.2.Deposited key' := by
    intro key'
    unfold Tables.Deposited
    rw [hT, List.exists_mem_cons_iff, hd, hkey]
    exact or_congr ⟨fun he => (Option.some.inj he).symm, fun he => congrArg some he.symm⟩ Iff.rfl
  have hawaits : (s.1.movements.map (awaits user T)).sum =
      (s.1.movements.map (awaits user s.2)).sum - awaits user s.2 m + awaits user T m := by
    refine sum_map_of_eq_off h.keys hm fun x _ hne => ?_
    unfold awaits
    simp only [hafter, hne, false_or]
  have hm0 : awaits user T m = 0 := by
    unfold awaits
    simp [hafter]
  have hm1 : awaits user s.2 m = if userId = user then 100 * cents amount else 0 := by
    unfold awaits
    simp [hsource, hdirection, huser, hamount, hbefore]
  have howes : owes user s.1 d = 0 := by simp [owes, hd]
  unfold waiting
  dsimp only
  rw [hawaits, hm0, hm1, hT, List.map_cons, List.sum_cons, howes]
  ring

/-- A withdrawal starts to wait. -/
theorem DayEarnInv.waiting_withdraw (h : DayEarnInv A s) {d : PotMovement}
    (hT : T.movements = d :: s.2.movements) (hd : d.key = .withdraw key)
    (hnew : ∀ x ∈ s.2.movements, x.key ≠ d.key) (user : String) :
    waiting user (s.1, T) = waiting user s + if d.userId = user then d.amount else 0 := by
  have hdeposited : ∀ key', T.Deposited key' ↔ s.2.Deposited key' := by
    intro key'
    unfold Tables.Deposited
    rw [hT, List.exists_mem_cons_iff, hd]
    simp [MovementKey.debited]
  have hawaits : awaits user T = awaits user s.2 := by
    funext m
    unfold awaits
    simp only [hdeposited]
  have hcredited : ¬ Credited s.1 key := fun hc => by
    obtain ⟨x, hx, hxkey⟩ := h.withdrawn key hc
    exact hnew x hx (hxkey.trans hd.symm)
  have howes : owes user s.1 d = if d.userId = user then d.amount else 0 := by
    simp [owes, hd, hcredited]
  unfold waiting
  dsimp only
  rw [hawaits, hT, List.map_cons, List.sum_cons, howes]
  ring

/-- The transaction of `syncPotInterest`. -/
theorem Tables.syncTx_cases (T : Tables) (userId : String) (potId : ℕ) :
    (∃ r, T.syncTx userId potId = (r, T)) ∨
      ∃ row ∈ T.pots,
        (((row.credits T.time).map row.interestMovement ++ T.movements).map (·.key)).Nodup ∧
        T.syncTx userId potId = (.ok (some (row.synced T.time)),
          { T with
            pots := T.pots.map fun p => if p.id = row.id then row.synced T.time else p
            movements := (row.credits T.time).map row.interestMovement ++ T.movements }) := by
  unfold Tables.syncTx
  cases hrow : T.pot? userId potId with
  | none => exact .inl ⟨_, rfl⟩
  | some row =>
      dsimp only
      split_ifs with hearly hnone hrange hdup hlimit
      · exact .inl ⟨_, rfl⟩
      · exact .inl ⟨_, rfl⟩
      · exact .inl ⟨_, rfl⟩
      · exact .inl ⟨_, rfl⟩
      · exact .inr ⟨row, List.mem_of_find?_eq_some hrow, hdup, rfl⟩
      · exact .inl ⟨_, rfl⟩

/-- Interest is credited. -/
theorem DayEarnInv.sync (h : DayEarnInv A s) (userId : String) (potId : ℕ) :
    DayEarnInv A (s.1, (s.2.syncTx userId potId).2) ∧
      Later s (s.1, (s.2.syncTx userId potId).2) := by
  rcases s.2.syncTx_cases userId potId with ⟨r, hr⟩ | ⟨row, hrow, hdup, hr⟩
  · rw [hr]
    exact ⟨h, .refl s⟩
  rw [hr]
  have hunits : ∀ credit ∈ row.credits s.2.time, 0 < units credit.2 :=
    fun credit hc => (accrue_units _ _ _ _ credit hc).2
  set sum := ((row.credits s.2.time).map fun credit => units credit.2).sum
  have hsum : 0 ≤ sum := List.sum_nonneg fun x hx => by
    obtain ⟨credit, hc, rfl⟩ := List.mem_map.mp hx
    exact (hunits credit hc).le
  have hheld : (row.synced s.2.time).held = row.held + sum := row.held_synced s.2.time
  have hpots : Repots s.2 row (row.synced s.2.time)
      (s.2.pots.map fun p => if p.id = row.id then row.synced s.2.time else p) := by
    refine ⟨hrow, rfl, rfl, ⟨(h.nonneg row hrow).1, ?_⟩, rfl⟩
    have hpos := (h.nonneg row hrow).2
    have hsame : (row.synced s.2.time).principal = row.principal := rfl
    unfold Pot.held at hheld
    omega
  obtain ⟨hlower, hids, hnonneg, hmoney, hlater⟩ := h.repot hpots
  refine ⟨h.add _ rfl hlower hids hnonneg h.held hdup (fun d hd => ?_) (fun d hd key hkey => ?_)
    fun user => ?_, fun _ hm => hm, fun _ hd => List.mem_append_right _ hd,
    fun w hw => ⟨w, hw, rfl, rfl⟩, hlater⟩
  · obtain ⟨credit, hc, rfl⟩ := List.mem_map.mp hd
    exact hunits credit hc
  · obtain ⟨credit, hc, rfl⟩ := List.mem_map.mp hd
    cases hkey
  · have hcounts : (((row.credits s.2.time).map row.interestMovement).map
        (interestCounts user)).sum = if row.userId = user then sum else 0 := by
      rw [List.map_map]
      by_cases hu : row.userId = user
      · rw [if_pos hu]
        congr 1
        refine List.map_congr_left fun credit _ => ?_
        simp [interestCounts, Pot.interestMovement, hu]
      · rw [if_neg hu]
        refine List.sum_eq_zero fun x hx => ?_
        obtain ⟨credit, -, rfl⟩ := List.mem_map.mp hx
        simp [interestCounts, Pot.interestMovement, hu]
    rw [waiting_interest rfl (fun d hd => ?_) user, hmoney user, hcounts, hheld]
    · split_ifs <;> ring
    · obtain ⟨credit, -, rfl⟩ := List.mem_map.mp hd
      exact ⟨_, _, rfl⟩

/-- The transaction of a creation. -/
theorem Tables.createTx_cases (T : Tables) (n : NewPot) :
    (∃ r, T.createTx n = (r, T)) ∨
      ∃ d : PotMovement, d.key = .deposit n.key ∧ 0 < d.amount ∧
        (∀ x ∈ T.movements, x.key ≠ d.key) ∧ 0 ≤ cents n.amount ∧
        T.createTx n = (.ok (T.newPot n),
          { T with pots := T.newPot n :: T.pots, movements := d :: T.movements }) := by
  unfold Tables.createTx
  dsimp only
  split_ifs with hrange hneg
  · exact .inl ⟨_, rfl⟩
  · exact .inl ⟨_, rfl⟩
  · cases he : T.admits ⟨T.pots.length, n.userId, units n.amount, .deposit n.key⟩ with
    | some e => exact .inl ⟨_, rfl⟩
    | none =>
        obtain ⟨hpos, hnew⟩ := Tables.admits_eq_none he
        exact .inr ⟨_, rfl, hpos, hnew, not_lt.mp hneg, rfl⟩

/-- A pot is created, once its debit is made. -/
theorem DayEarnInv.create (h : DayEarnInv A s) {n : NewPot}
    (hcharged : Charged n.userId n.amount n.key s) :
    DayEarnInv A (s.1, (s.2.createTx n).2) ∧ Later s (s.1, (s.2.createTx n).2) := by
  rcases s.2.createTx_cases n with ⟨r, hr⟩ | ⟨d, hd, hpos, hnew, hcents, hr⟩
  · rw [hr]
    exact ⟨h, .refl s⟩
  rw [hr]
  obtain ⟨m, hm, hmakes, hkey⟩ := hcharged.resolve_right fun ⟨x, hx, hxkey⟩ =>
    hnew x hx (hxkey.trans hd.symm)
  refine ⟨h.add [d] rfl (fun p hp => ?_) ?_ (fun p hp => ?_) h.held ?_ ?_ ?_
    fun user => ?_, fun _ hm => hm, fun _ hd => List.mem_cons_of_mem _ hd,
    fun w hw => ⟨w, hw, rfl, rfl⟩, fun p hp => ⟨p, List.mem_cons_of_mem _ hp, rfl, rfl⟩⟩
  · rcases List.mem_cons.mp hp with rfl | hp
    · exact Nat.lt_succ_self _
    · exact (h.lower p hp).trans (Nat.lt_succ_self _)
  · refine List.nodup_cons.mpr ⟨fun hmem => ?_, h.ids⟩
    obtain ⟨p, hp, hid⟩ := List.mem_map.mp hmem
    exact (h.lower p hp).ne hid
  · rcases List.mem_cons.mp hp with rfl | hp
    · exact ⟨hcents, le_rfl⟩
    · exact h.nonneg p hp
  · refine List.nodup_cons.mpr ⟨fun hmem => ?_, h.rows⟩
    obtain ⟨x, hx, hxkey⟩ := List.mem_map.mp hmem
    exact hnew x hx hxkey
  · simpa using hpos
  · intro d' hd' key' hkey'
    rw [List.mem_singleton.mp hd', hd] at hkey'
    cases hkey'
    exact ⟨m, hm, hkey⟩
  · rw [h.waiting_deposit rfl hd hnew hm hmakes hkey user, List.map_cons, List.sum_cons]
    have hnone : ([d].map (interestCounts user)).sum = 0 := by simp [interestCounts, hd]
    have hcounts : potCounts user (s.2.newPot n) =
        if n.userId = user then 100 * cents n.amount else 0 := by
      simp [potCounts, Tables.newPot, Pot.held]
    rw [hnone, hcounts]
    split_ifs <;> ring

/-- The transaction of a deposit. -/
theorem Tables.depositTx_cases (T : Tables) (a : Addition) :
    (∃ r, T.depositTx a = (r, T)) ∨
      ∃ row ∈ T.pots, ∃ d : PotMovement, (row.id = a.potId ∧ row.userId = a.userId) ∧
        d.key = .deposit a.key ∧ 0 < d.amount ∧ (∀ x ∈ T.movements, x.key ≠ d.key) ∧
        (T.depositTx a).2 = { T with
          pots := T.pots.map fun p => if p.id = row.id then
            { row with principal := cents (decimal row.principal + a.amount) } else p
          movements := d :: T.movements } := by
  unfold Tables.depositTx
  dsimp only
  cases hrow : T.pot? a.userId a.potId with
  | none => exact .inl ⟨_, rfl⟩
  | some row =>
      have huser := List.find?_some hrow
      simp only [Bool.and_eq_true, decide_eq_true_eq] at huser
      dsimp only
      split_ifs with hrange hneg
      · exact .inl ⟨_, rfl⟩
      · exact .inl ⟨_, rfl⟩
      · cases he : T.admits ⟨a.potId, a.userId, units a.amount, .deposit a.key⟩ with
        | some e => exact .inl ⟨_, rfl⟩
        | none =>
            obtain ⟨hpos, hnew⟩ := Tables.admits_eq_none he
            exact .inr ⟨row, List.mem_of_find?_eq_some hrow, _, huser.1, rfl, hpos, hnew, rfl⟩

/-- A pot is raised, once its debit is made. -/
theorem DayEarnInv.deposit (h : DayEarnInv A s) {a : Addition}
    (hcharged : Charged a.userId a.amount a.key s) :
    DayEarnInv A (s.1, (s.2.depositTx a).2) ∧ Later s (s.1, (s.2.depositTx a).2) := by
  rcases s.2.depositTx_cases a with ⟨r, hr⟩ | ⟨row, hrow, d, ⟨-, huser⟩, hd, hpos, hnew, hr⟩
  · rw [hr]
    exact ⟨h, .refl s⟩
  rw [hr]
  obtain ⟨m, hm, hmakes, hkey⟩ := hcharged.resolve_right fun ⟨x, hx, hxkey⟩ =>
    hnew x hx (hxkey.trans hd.symm)
  have hcents : 0 < cents a.amount := by
    rw [← hmakes.2.2.2]
    exact h.positive m hm hmakes.1
  have hraised : cents (decimal row.principal + a.amount) = row.principal + cents a.amount :=
    cents_add (h.nonneg row hrow).1 (pos_of_cents_pos hcents).le
  rw [hraised]
  have hpots : Repots s.2 row { row with principal := row.principal + cents a.amount }
      (s.2.pots.map fun p => if p.id = row.id then
        { row with principal := row.principal + cents a.amount } else p) := by
    refine ⟨hrow, rfl, rfl, ⟨?_, (h.nonneg row hrow).2⟩, rfl⟩
    have hpos := (h.nonneg row hrow).1
    dsimp only
    omega
  obtain ⟨hlower, hids, hnonneg, hmoney, hlater⟩ := h.repot hpots
  refine ⟨h.add [d] rfl hlower hids hnonneg h.held ?_ ?_ ?_
    fun user => ?_, fun _ hm => hm, fun _ hd => List.mem_cons_of_mem _ hd,
    fun w hw => ⟨w, hw, rfl, rfl⟩, hlater⟩
  · refine List.nodup_cons.mpr ⟨fun hmem => ?_, h.rows⟩
    obtain ⟨x, hx, hxkey⟩ := List.mem_map.mp hmem
    exact hnew x hx hxkey
  · simpa using hpos
  · intro d' hd' key' hkey'
    rw [List.mem_singleton.mp hd', hd] at hkey'
    cases hkey'
    exact ⟨m, hm, hkey⟩
  · rw [h.waiting_deposit rfl hd hnew hm hmakes hkey user, hmoney user]
    have hnone : ([d].map (interestCounts user)).sum = 0 := by simp [interestCounts, hd]
    rw [hnone, huser]
    unfold Pot.held
    dsimp only
    split_ifs <;> ring

/-- The transaction of a withdrawal. -/
theorem Tables.withdrawTx_cases (T : Tables) (w : Withdrawal) :
    (∃ e, T.withdrawTx w = (.error e, T)) ∨
      (0 < units w.amount ∧ (∀ x ∈ T.movements, x.key ≠ .withdraw w.key) ∧
        T.withdrawTx w = (.ok (),
          { T with
            pots := T.pots.map w.after
            movements := ⟨w.row.id, w.userId, units w.amount, .withdraw w.key⟩ :: T.movements
            payouts := (T.pots.filter (·.id = w.row.id)).map (⟨units w.amount, ·.held⟩) ++
              T.payouts })) := by
  unfold Tables.withdrawTx
  dsimp only
  cases he : T.admits ⟨w.row.id, w.userId, units w.amount, .withdraw w.key⟩ with
  | some e => exact .inl ⟨_, rfl⟩
  | none =>
      obtain ⟨hpos, hnew⟩ := Tables.admits_eq_none he
      exact .inr ⟨hpos, hnew, rfl⟩

/-- What is read covers what is taken, also in units. -/
theorem Withdrawal.units_le_held {p : Pot} {k : ℤ} (hk : w.amount = decimal k)
    (hp : p.principal = w.row.principal ∧ p.interestEarned = w.row.interestEarned)
    (hcovered : w.amount ≤ w.row.balance) : units w.amount ≤ p.held := by
  have hbalance : w.row.balance = fourPlaces p.held := by
    unfold Pot.balance Pot.held decimal fourPlaces
    rw [hp.1, hp.2]
    push_cast
    ring
  have hamount : w.amount = fourPlaces (units w.amount) := by
    rw [hk, units_decimal]
    unfold decimal fourPlaces
    push_cast
    ring
  rw [hbalance, hamount] at hcovered
  have hdiff : 0 ≤ fourPlaces (p.held - units w.amount) := by
    have hsum := fourPlaces_add (p.held - units w.amount) (units w.amount)
    rw [sub_add_cancel] at hsum
    linarith
  have hnonneg := fourPlaces_nonneg hdiff
  omega

/-- An amount of whole cents is taken from a pot that holds what was read. -/
theorem DayEarnInv.withdraw (h : DayEarnInv A s) {k : ℤ} (hk : w.amount = decimal k)
    (hholds : Holds w.userId w.row.id s) (hexact : (DayEarnSql.withdrawTx w).Exact s) :
    DayEarnInv A (s.1, (s.2.withdrawTx w).2) ∧ Later s (s.1, (s.2.withdrawTx w).2) ∧
      ((s.2.withdrawTx w).1 = .ok () → Taken w (s.1, (s.2.withdrawTx w).2)) := by
  rcases s.2.withdrawTx_cases w with ⟨e, hr⟩ | ⟨hpos, hnew, hr⟩
  · rw [hr]
    exact ⟨h, .refl s, fun hok => (by cases hok)⟩
  rw [hr]
  obtain ⟨q, hq, hid, huser⟩ := hholds
  obtain ⟨hsame, hcovered, hwhole⟩ := hexact hnew
  have hafter : (w.after q).held = q.held - units w.amount :=
    Withdrawal.held_after hid (hsame q hq hid) (h.nonneg q hq) hk hcovered hwhole
  have hpots : Repots s.2 q (w.after q) (s.2.pots.map w.after) := by
    refine ⟨hq, ?_, ?_, ?_, List.map_congr_left fun p hp => ?_⟩
    · unfold Withdrawal.after
      split_ifs
      rfl
    · unfold Withdrawal.after
      split_ifs
      rfl
    · unfold Withdrawal.after
      rw [if_pos hid]
      exact ⟨cents_nonneg (le_max_left _ _), units_nonneg (le_max_left _ _)⟩
    · split_ifs with hpq
      · rw [List.inj_on_of_nodup_map h.ids hp hq hpq]
      · exact if_neg fun hpid => hpq (hpid.trans hid.symm)
  obtain ⟨hlower, hids, hnonneg, hmoney, hlater⟩ := h.repot hpots
  refine ⟨h.add [⟨w.row.id, w.userId, units w.amount, .withdraw w.key⟩] rfl hlower hids hnonneg
    (fun x hx => ?_) ?_ (by simpa using hpos) (fun d hd key hkey => ?_) fun user => ?_,
    ⟨fun _ hm => hm, fun _ hd => List.mem_cons_of_mem _ hd, fun w hw => ⟨w, hw, rfl, rfl⟩, hlater⟩,
    fun _ => ⟨_, List.mem_cons_self, rfl, rfl, rfl⟩⟩
  · rcases List.mem_append.mp hx with hx | hx
    · obtain ⟨p, hp, rfl⟩ := List.mem_map.mp hx
      obtain ⟨hp, hpid⟩ := List.mem_filter.mp hp
      exact Withdrawal.units_le_held hk (hsame p hp (of_decide_eq_true hpid)) hcovered
    · exact h.held x hx
  · refine List.nodup_cons.mpr ⟨fun hmem => ?_, h.rows⟩
    obtain ⟨x, hx, hxkey⟩ := List.mem_map.mp hmem
    exact hnew x hx hxkey
  · rw [List.mem_singleton.mp hd] at hkey
    cases hkey
  · rw [h.waiting_withdraw rfl rfl hnew user, hmoney user, hafter, huser]
    have hnone : ([(⟨w.row.id, w.userId, units w.amount, .withdraw w.key⟩ : PotMovement)].map
        (interestCounts user)).sum = 0 := by simp [interestCounts]
    rw [hnone]
    dsimp only
    split_ifs <;> ring

/-! ### Rules -/

/-- What a call does under the discipline. -/
abbrev Runs (A : Accounts) (requests : List Request) (i : ℕ) {β : Type} (P : Store → Prop)
    (call : DayEarnCall β) (Q : β → Store → Prop) : Prop :=
  Triple server.machine (dayearnDiscipline A requests) i P call Q fun _ _ => True

variable {P : Store → Prop}

theorem DayEarnSql.Exact.tick {β : Type} {st : DayEarnSql β} (h : st.Exact s) (elapsed : ℕ) :
    st.Exact (s.1, s.2.tick elapsed) := by
  cases st with
  | withdrawTx w => exact h
  | _ => trivial

/-- A statement of the service, from the state in which its time has passed. -/
theorem triple_sql {β : Type} {st : DayEarnSql (Ans β)} {Q : β → Store → Prop}
    (hst : ∀ e, st.fail e = .error e) (hP : Lasts P)
    (hstep : ∀ s o, P s → DayEarnInv A s → st.Exact s →
      DayEarnInv A (st.act o s).2 ∧ Later s (st.act o s).2 ∧
        ∀ b, (st.act o s).1 = .ok b → Q b (st.act o s).2) :
    Triple server.machine (dayearnDiscipline A requests) i P (sql st) Q fun _ => P := by
  refine Beside.triple_own hst hP (fun _ _ hs _ _ => ⟨trivial, hs⟩) fun s o hs hinv hc => ?_
  obtain ⟨hinv', hlater⟩ := hinv.tick o.elapsed
  obtain ⟨hinv'', hlater', hans⟩ :=
    hstep _ o (hP _ _ hs hlater) hinv' (DayEarnSql.Exact.tick hc o.elapsed)
  exact ⟨⟨trivial, hinv'', fun _ _ => hlater.trans hlater'⟩, hans,
    fun _ _ => hP _ _ (hP _ _ hs hlater) hlater'⟩

/-- A statement of the service that only reads. -/
theorem triple_read {β : Type} {st : DayEarnSql (Ans β)} {Q : β → Store → Prop}
    (hst : ∀ e, st.fail e = .error e) (hact : ∀ o s, (st.act o s).2 = s) (hP : Lasts P)
    (hQ : ∀ s o b, P s → (st.act o s).1 = .ok b → Q b s) :
    Triple server.machine (dayearnDiscipline A requests) i P (sql st) Q fun _ => P := by
  refine triple_sql hst hP fun s o hs hinv _ => ?_
  rw [hact]
  exact ⟨hinv, .refl s, fun b hb => hQ s o b hs hb⟩

/-- A statement that only reads, and what it reads is of no account. -/
theorem runs_read {β : Type} {st : DayEarnSql (Ans β)} (hst : ∀ e, st.fail e = .error e)
    (hact : ∀ o s, (st.act o s).2 = s) (hP : Lasts P) :
    Runs A requests i P (sql st) fun _ => P :=
  (triple_read hst hact hP fun _ _ _ hs _ => hs).mono (fun _ h => h) (fun _ _ h => h)
    fun _ _ _ => trivial

/-- The record in the wallet's history, with every failure swallowed. -/
theorem runs_record (hP : Lasts P) :
    Runs A requests i P (tryCatch (sql .recordWalletActivity) fun _ => pure ()) fun _ => P :=
  Triple.tryCatch (triple_read (fun _ => rfl) (fun _ _ => rfl) hP fun _ _ _ hs _ => hs)
    fun _ => Triple.pure fun _ h => h

theorem runs_sync (hP : Lasts P) (userId : String) (potId : ℕ) :
    Runs A requests i P (syncPotInterest userId potId) fun _ => P := by
  have hsync : Runs A requests i P (sql (.syncTx userId potId)) fun _ => P := by
    refine Triple.mono (triple_sql (Q := fun _ => P) (fun _ => rfl) hP fun s o hs hinv _ => ?_)
      (fun _ h => h) (fun _ _ h => h) fun _ _ _ => trivial
    obtain ⟨hinv', hlater⟩ := hinv.sync userId potId
    exact ⟨hinv', hlater, fun _ _ => hP _ _ hs hlater⟩
  exact Triple.bind (runs_read (fun _ => rfl) (fun _ _ => rfl) hP) fun _ =>
    Triple.ite (fun _ => hsync) fun _ => Triple.pure fun _ h => h

/-- A pot that is read is its user's. -/
theorem runs_getPotRow (hP : Lasts P) (userId : String) (potId : ℕ) :
    Runs A requests i P (sql (.getPotRow userId potId))
      fun found s => P s ∧ ∀ row ∈ found, Holds userId row.id s := by
  refine Triple.mono (triple_read (Q := fun found s => P s ∧ ∀ row ∈ found,
    Holds userId row.id s) (fun _ => rfl) (fun _ _ => rfl) hP fun s o b hs hb => ⟨hs,
      fun row hrow => ?_⟩) (fun _ h => h) (fun _ _ h => h) fun _ _ _ => trivial
  rw [← Except.ok.inj hb] at hrow
  have hfound := List.find?_some hrow
  simp only [Bool.and_eq_true, decide_eq_true_eq] at hfound
  exact ⟨row, List.mem_of_find?_eq_some hrow, rfl, hfound.1.2⟩

/-- The debit of a deposit: made by it, or found. -/
theorem runs_debit {r : Request} (hr : requests[i]? = some r)
    (hdebits : r.debits = some (userId, amount)) (walletId : ℕ) (key reference : String) :
    Runs A requests i (fun _ => True)
      (ledger (debitWalletBalance (depositDebit userId walletId amount key reference)))
      fun _ => Charged userId amount key := by
  set p := depositDebit userId walletId amount key reference with hp
  refine Triple.mono (triple_debit lax lasts_true lasts_charged (fun s m _ _ hsought hm => ?_)
    fun _ s B _ hinv hallowed hstep => ?_) (fun _ h => h) (fun _ _ h => h) fun _ _ _ => trivial
  · obtain ⟨o, hc⟩ := hsought
    have hown : r.FindsOwn (.findMovementByKey (debitKey key)) s := hc r hr
    have hkey : m.idempotencyKey = p.idempotencyKey := by simpa using List.find?_some hm
    rcases hown _ hdebits m hm with hmakes | hdeposited
    · exact .inl ⟨m, List.mem_of_find?_eq_some hm, hmakes, hkey⟩
    · exact .inr (Tables.deposited_debitKey.mp hdeposited)
  · obtain ⟨o, hc, -⟩ := hallowed
    have hwhole : ¬ HalfCent p.amount := hc r hr
    obtain ⟨w, hw, hid, huser, hcurrency, usd, hpost⟩ := hstep.posts hinv.books
    have hslack : slackOf p.amount = 0 := if_neg hwhole
    have hpos : 0 < cents p.amount := by
      obtain ⟨w', -, -, -, -, -, rate, usd', -, hfits, -⟩ := hstep.wallet
      exact hfits.pos
    rw [hslack] at hpost
    have hupper : p.currency.toUpper = primaryCurrency := by
      show primaryCurrency.toUpper = primaryCurrency
      decide +kernel
    refine ⟨hinv.debit hpost hw hid huser (hcurrency.trans hupper) rfl rfl hpos,
      fun _ _ => posts_later hpost s.2, .inl ⟨_, hpost.movements ▸ List.mem_cons_self,
        ⟨rfl, rfl, rfl, rfl⟩, rfl⟩⟩

/-! ### Calls -/

theorem runs_create {p : CreateParams} (hr : requests[i]? = some (.createDayEarnPot p)) :
    Runs A requests i (fun _ => True) (createDayEarnPot p) fun _ _ => True := by
  refine Triple.bind (runs_read (fun _ => rfl) (fun _ _ => rfl) lasts_true) fun _ => ?_
  refine Triple.ite (fun _ => ?_) fun _ => Triple.throw fun _ h => h
  refine Triple.ite (fun _ => Triple.throw fun _ h => h) fun _ => ?_
  refine Triple.ite (fun _ => Triple.throw fun _ h => h) fun _ => ?_
  refine Triple.ite (fun _ => Triple.throw fun _ h => h) fun _ => ?_
  refine Triple.bind (runs_read (fun _ => rfl) (fun _ _ => rfl) lasts_true) fun reference => ?_
  refine Triple.bind (runs_read (fun _ => rfl) (fun _ _ => rfl) lasts_true) fun now => ?_
  refine Triple.bind (runs_debit hr rfl _ _ _) fun _ => ?_
  refine Triple.bind (R := fun _ _ => True) ?_ fun pot =>
    Triple.bind (runs_record lasts_true) fun _ => Triple.pure fun _ h => h
  refine Triple.mono (triple_sql (Q := fun _ _ => True) (fun _ => rfl) lasts_charged
    fun s o hs hinv _ => ?_) (fun _ h => h) (fun _ _ h => h) fun _ _ _ => trivial
  obtain ⟨hinv', hlater⟩ := hinv.create (n := ⟨p.userId, trim p.name, p.amount, _, _, _⟩) hs
  exact ⟨hinv', hlater, fun _ _ => trivial⟩

theorem runs_deposit {p : DepositParams} (hr : requests[i]? = some (.depositToDayEarnPot p)) :
    Runs A requests i (fun _ => True) (depositToDayEarnPot p) fun _ _ => True := by
  refine Triple.bind (runs_read (fun _ => rfl) (fun _ _ => rfl) lasts_true) fun _ => ?_
  refine Triple.ite (fun _ => ?_) fun _ => Triple.throw fun _ h => h
  refine Triple.ite (fun _ => Triple.throw fun _ h => h) fun _ => ?_
  refine Triple.bind (runs_sync lasts_true _ _) fun _ => ?_
  refine Triple.bind (runs_read (fun _ => rfl) (fun _ _ => rfl) lasts_true) fun found => ?_
  cases found with
  | none => exact Triple.throw fun _ h => h
  | some row =>
      refine Triple.bind (runs_read (fun _ => rfl) (fun _ _ => rfl) lasts_true) fun reference => ?_
      refine Triple.bind (runs_debit hr rfl _ _ _) fun _ => ?_
      refine Triple.bind (R := fun _ _ => True) ?_ fun pot =>
        Triple.bind (runs_record lasts_true) fun _ => Triple.pure fun _ h => h
      refine Triple.mono (triple_sql (Q := fun _ _ => True) (fun _ => rfl) lasts_charged
        fun s o hs hinv _ => ?_) (fun _ h => h) (fun _ _ h => h) fun _ _ _ => trivial
      obtain ⟨hinv', hlater⟩ := hinv.deposit (a := ⟨p.userId, p.potId, p.amount, _⟩) hs
      exact ⟨hinv', hlater, fun _ _ => trivial⟩

/-- From the transaction of a withdrawal on. -/
theorem runs_payOut {p : WithdrawParams} (w : Withdrawal) (huser : w.userId = p.userId) {k : ℤ}
    (hk : w.amount = decimal k) (reference : String) :
    Runs A requests i (fun s => Owns p.userId p.walletId s ∧ Holds p.userId w.row.id s)
      (payOut p w reference) fun _ _ => True := by
  have hlasts : Lasts fun s => Owns p.userId p.walletId s ∧ Taken w s :=
    lasts_and lasts_owns lasts_taken
  have htake : Runs A requests i (fun s => Owns p.userId p.walletId s ∧ Holds p.userId w.row.id s)
      (sql (.withdrawTx w)) fun _ s => Owns p.userId p.walletId s ∧ Taken w s := by
    refine Triple.mono (triple_sql (Q := fun _ s => Owns p.userId p.walletId s ∧ Taken w s)
      (fun _ => rfl) (lasts_and lasts_owns lasts_holds) fun s o hs hinv hexact => ?_)
      (fun _ h => h) (fun _ _ h => h) fun _ _ _ => trivial
    obtain ⟨hinv', hlater, htaken⟩ := hinv.withdraw hk (huser ▸ hs.2) hexact
    exact ⟨hinv', hlater, fun _ hb => ⟨lasts_owns _ _ hs.1 hlater, htaken hb⟩⟩
  refine Triple.bind htake fun _ => ?_
  refine Triple.bind (R := fun _ s => Owns p.userId p.walletId s ∧ Taken w s)
    ((triple_convert lax _ _ hlasts).mono (fun _ h => h) (fun _ _ h => h.2)
      fun _ _ _ => trivial) fun usd => ?_
  refine Triple.bind (R := fun _ _ => True) ?_ fun _ => ?_
  · refine Triple.mono (triple_creditWalletBalance lax (Q := fun _ => True) hlasts
      (fun _ _ _ _ _ _ => trivial) fun s B hs hinv hstep => ?_) (fun _ h => h) (fun _ _ h => h)
        fun _ _ _ => trivial
    have hpost := hstep.posts hinv.books
    obtain ⟨x, hx, hid, hcurrency, hfits, -⟩ := hstep.wallet
    have hupper : primaryCurrency.toUpper = primaryCurrency := by decide +kernel
    have hamount : 100 * cents w.amount = units w.amount := by
      rw [hk, cents_decimal, units_decimal]
    exact ⟨hinv.credit hpost hx hid ((hs.1 x hx hid).trans huser.symm) (hcurrency.trans hupper)
      rfl rfl rfl hfits.pos hamount hs.2, fun _ _ => posts_later hpost s.2, trivial⟩
  · refine Triple.bind (runs_record lasts_true) fun _ => ?_
    exact Triple.ite (fun _ => Triple.pure fun _ h => h) fun _ =>
      Triple.bind (runs_read (fun _ => rfl) (fun _ _ => rfl) lasts_true) fun _ =>
        Triple.pure fun _ h => h

theorem runs_withdraw (p : WithdrawParams) :
    Runs A requests i (Owns p.userId p.walletId) (withdrawFromDayEarnPot p) fun _ _ => True := by
  refine Triple.bind (runs_read (fun _ => rfl) (fun _ _ => rfl) lasts_owns) fun _ => ?_
  refine Triple.ite (fun _ => ?_) fun _ => Triple.throw fun _ _ => trivial
  refine Triple.bind (runs_sync lasts_owns _ _) fun _ => ?_
  refine Triple.bind (runs_getPotRow lasts_owns _ _) fun found => ?_
  cases found with
  | none => exact Triple.throw fun _ _ => trivial
  | some row =>
      have hlasts : Lasts fun s => Owns p.userId p.walletId s ∧ Holds p.userId row.id s :=
        lasts_and lasts_owns lasts_holds
      refine Triple.mono (P := fun s => Owns p.userId p.walletId s ∧ Holds p.userId row.id s) ?_
        (fun s h => ⟨h.1, h.2 row rfl⟩) (fun _ _ h => h) fun _ _ h => h
      refine Triple.ite (fun _ => Triple.throw fun _ _ => trivial) fun _ => ?_
      cases p.asked row with
      | none => exact Triple.throw fun _ _ => trivial
      | some asked =>
          refine Triple.ite (fun _ => Triple.throw fun _ _ => trivial) fun _ => ?_
          refine Triple.ite (fun _ => Triple.throw fun _ _ => trivial) fun _ => ?_
          refine Triple.bind (runs_read (fun _ => rfl) (fun _ _ => rfl) hlasts)
            fun reference => ?_
          obtain ⟨k, hk⟩ := roundMoney_eq (min asked row.balance)
          exact runs_payOut ⟨p.userId, row, _, _⟩ rfl hk reference

/-- A withdrawal names a wallet of its user. -/
def Request.Own (A : Accounts) : Request → Prop
  | withdrawFromDayEarnPot p => ∀ w ∈ A.wallets, w.walletId = p.walletId → w.userId = p.userId
  | _ => True

/-- A request runs under the discipline. -/
theorem runs_call {r : Request} (hr : requests[i]? = some r) (hown : r.Own B) :
    Runs A requests i (fun s => s.1 = B) r.call fun _ _ => True := by
  cases r with
  | createDayEarnPot p =>
      exact Triple.bind ((runs_create hr).mono (fun _ _ => trivial) (fun _ _ h => h)
        fun _ _ h => h) fun _ => Triple.pure fun _ h => h
  | depositToDayEarnPot p =>
      exact Triple.bind ((runs_deposit hr).mono (fun _ _ => trivial) (fun _ _ h => h)
        fun _ _ h => h) fun _ => Triple.pure fun _ h => h
  | withdrawFromDayEarnPot p =>
      exact Triple.bind ((runs_withdraw p).mono (fun s hs => by subst hs; exact hown)
        (fun _ _ h => h) fun _ _ h => h) fun _ => Triple.pure fun _ h => h
  | syncPotInterest userId potId =>
      exact Triple.bind ((runs_sync lasts_true userId potId).mono (fun _ _ => trivial)
        (fun _ _ h => h) fun _ _ h => h) fun _ => Triple.pure fun _ _ => trivial

/-! ### Every run -/

/-- The ledger before DayEarn is used, and the requests to come. -/
structure Start (A : Accounts) (requests : List Request) : Prop where
  books : Books A
  keys : (A.movements.map (·.idempotencyKey)).Nodup
  unused : ∀ m ∈ A.movements, m.source ≠ .dayearn
  own : ∀ r ∈ requests, r.Own A

theorem Start.inv (h : Start A requests) : DayEarnInv A (A, {}) := by
  have hnone : ∀ userId, (A.movements.map (awaits userId {})).sum = 0 := fun userId =>
    List.sum_eq_zero fun x hx => by
      obtain ⟨m, hm, rfl⟩ := List.mem_map.mp hx
      simp [awaits, h.unused m hm]
  refine ⟨h.books, h.keys, List.nodup_nil, fun _ h => (by cases h), List.nodup_nil,
    fun _ h => (by cases h), fun key hkey => ?_, fun m hm hs => absurd hs (h.unused m hm),
    fun _ h => (by cases h), fun userId => ?_, fun _ h => (by cases h), fun _ h => (by cases h)⟩
  · obtain ⟨m, hm, hs, -⟩ := hkey
    exact absurd hs (h.unused m hm)
  · simp [waiting, interest, hnone userId]

/-- What waits is never below zero, and is zero for every user when nothing waits. -/
theorem DayEarnInv.waiting_eq_zero (h : DayEarnInv A s) :
    (∀ userId, waiting userId s = 0) ↔ NothingWaits s := by
  have hawaits : ∀ userId, ∀ x ∈ s.1.movements.map (awaits userId s.2), 0 ≤ x := by
    intro userId x hx
    obtain ⟨m, hm, rfl⟩ := List.mem_map.mp hx
    unfold awaits
    split_ifs with hc
    · have := h.positive m hm hc.1.1
      omega
    · exact le_rfl
  have howes : ∀ userId, ∀ x ∈ s.2.movements.map (owes userId s.1), 0 ≤ x := by
    intro userId x hx
    obtain ⟨d, hd, rfl⟩ := List.mem_map.mp hx
    have hpos := (h.amounts d hd).le
    unfold owes
    split
    · split_ifs
      · exact hpos
      · exact le_rfl
    · exact le_rfl
  constructor
  · intro hzero
    have hzeros : ∀ userId, (∀ x ∈ s.1.movements.map (awaits userId s.2), x = 0) ∧
        ∀ x ∈ s.2.movements.map (owes userId s.1), x = 0 := fun userId => by
      have hsum := hzero userId
      unfold waiting at hsum
      have h1 := List.sum_nonneg (hawaits userId)
      have h2 := List.sum_nonneg (howes userId)
      exact ⟨fun x hx => List.all_zero_of_le_zero_le_of_sum_eq_zero (hawaits userId) (by omega) hx,
        fun x hx => List.all_zero_of_le_zero_le_of_sum_eq_zero (howes userId) (by omega) hx⟩
    refine ⟨fun m hm hs hd => ?_, fun d hd => ?_⟩
    · by_contra hnot
      have hm0 := (hzeros m.userId).1 _ (List.mem_map_of_mem hm)
      have hpos := h.positive m hm hs
      unfold awaits at hm0
      rw [if_pos ⟨⟨hs, hd⟩, rfl, hnot⟩] at hm0
      omega
    · unfold PotMovement.Paid
      split
      · rename_i key hkey
        by_contra hnot
        have hd0 := (hzeros d.userId).2 _ (List.mem_map_of_mem hd)
        have hpos := h.amounts d hd
        simp only [owes, hkey, hnot, not_false_iff, and_self, if_true] at hd0
        omega
      · trivial
  · intro hnothing userId
    have h1 : (s.1.movements.map (awaits userId s.2)).sum = 0 := List.sum_eq_zero fun x hx => by
      obtain ⟨m, hm, rfl⟩ := List.mem_map.mp hx
      exact if_neg fun hc => hc.2.2 (hnothing.deposits m hm hc.1.1 hc.1.2)
    have h2 : (s.2.movements.map (owes userId s.1)).sum = 0 := List.sum_eq_zero fun x hx => by
      obtain ⟨d, hd, rfl⟩ := List.mem_map.mp hx
      cases hk : d.key with
      | deposit key => simp [owes, hk]
      | interest potId day => simp [owes, hk]
      | withdraw key =>
          have hpaid := hnothing.withdrawals d hd
          unfold PotMovement.Paid at hpaid
          rw [hk] at hpaid
          simp [owes, hk, hpaid]
    unfold waiting
    rw [h1, h2, add_zero]

end dayearn

/-- A wallet of a number of dollars. -/
def adasAccounts (dollars : ℤ) : Accounts where
  wallets := [{ walletId := 1, userId := "ada", currency := "USD", balance := 100 * dollars }]

/-- A pot of a number of dollars, its interest, and a withdrawal from it. -/
def saveAndTake (dollars taken : ℚ) : List Request :=
  [.createDayEarnPot { userId := "ada", walletId := 1, name := "rent", amount := dollars },
    .syncPotInterest "ada" 0,
    .withdrawFromDayEarnPot
      { userId := "ada", walletId := 1, potId := 0, amount := some taken }]

/-- The turns of a request. -/
def turns (i n elapsed : ℕ) : List (ℕ × Except DayEarnError Outside) :=
  (i, .ok { elapsed := elapsed }) :: List.replicate n (i, .ok {})

/-- One request after the other; the interest of a day is due before the second. -/
def inTurn : List (ℕ × Except DayEarnError Outside) :=
  turns 0 7 0 ++ turns 1 1 (2 * dayMs) ++ turns 2 9 0

def afterwards (dollars : ℤ) (taken : ℚ) : Store :=
  ((begun (adasAccounts dollars) (saveAndTake dollars taken)).run server.machine inTurn).store

/-- Nothing is half done there. -/
example : (∀ m ∈ (afterwards 10 5).1.movements, m.source = .dayearn → m.direction = .debit →
    (afterwards 10 5).2.Deposited m.idempotencyKey) ∧
      ∀ d ∈ (afterwards 10 5).2.movements, d.Paid (afterwards 10 5).1 := by
  decide +kernel

end DayfiBackend.Consumer.DayEarn
