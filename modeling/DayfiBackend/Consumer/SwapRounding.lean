import DayfiBackend.Consumer.LedgerCalls
import DayfiBackend.Found.Conversions
import DayfiBackend.Found.Solo
import Mathlib.Algebra.BigOperators.Group.Finset.Piecewise
import Mathlib.Algebra.Order.BigOperators.Group.Finset

/-!
# Swaps create no money, when no rounding is in the user's favour

A swap takes its amount from a wallet of cents and adds the converted amount, rounded to the
nearest cent. What the rounding adds is the user's: half a cent is debited as nothing
(`half_cent_is_free`), and what converts to half a cent is paid a cent. `swaps_create_nothing` is
the result for swaps of whole cents whose conversions are not rounded up: over rates without a
closed chain above one, no sequence of them that leaves the other wallets as full as they were
leaves more in the one.
-/

namespace DayfiBackend.Consumer.Swaps

open DayfiBackend.Found DayfiBackend.Found.Prog DayfiBackend.Found.Binary64
  DayfiBackend.Found.Keys DayfiBackend.Found.Rows

/-! ### The rates -/

/-- The table `exchange_rates`. -/
abbrev Rates := String → String → Option ℚ

variable (rates : Rates)

/-- A rate that is used. Source: `fxService.ts` `fetchDirectRate`. -/
def directRate (base target : String) : Option ℚ := (rates base target).filter (0 < ·)

/-- The two rates through USD, when there is no direct one. -/
def throughUsd (from' to' : String) : Option (ℚ × ℚ) :=
  match directRate rates from' to', directRate rates from' primaryCurrency,
    directRate rates primaryCurrency to' with
  | none, some a, some b => some (a, b)
  | _, _, _ => none

/-- The rate that a pair is converted at. Source: `fxService.ts` `resolveExchangeRate`. -/
def usedRate (from' to' : String) : Option ℚ :=
  (directRate rates from' to').or ((throughUsd rates from' to').map fun r => toFixed8 (r.1 * r.2))

/-- The rate of a pair before it is rounded. -/
def exactRate (from' to' : String) : Option ℚ :=
  (directRate rates from' to').or ((throughUsd rates from' to').map fun r => r.1 * r.2)

/-- Source: `services.ts` `swapCurrency`, the two currencies. -/
def source (p : SwapParams) : String := currencyCode p.fromCurrency

@[inherit_doc source]
def target (p : SwapParams) : String := currencyCode p.toCurrency

/-- What a swap is to the potential of a wallet. -/
def conversion (p : SwapParams) : Conversion String where
  source := source p
  target := target p
  gain := (exactRate rates (source p) (target p)).getD 0

/-- No rounding of a swap is in the user's favour: the amount is whole cents, the rate through USD
is not rounded up, and neither is the converted amount. -/
def RoundsDown (p : SwapParams) : Prop :=
  Int.fract (p.amount * 100) = 0 ∧
    (∀ r ∈ throughUsd rates (source p) (target p), Int.fract (r.1 * r.2 * 10 ^ 8) < 1 / 2) ∧
    ∀ r ∈ usedRate rates (source p) (target p), Int.fract (p.amount * r * 100) < 1 / 2

instance (p : SwapParams) : Decidable (RoundsDown rates p) := inferInstanceAs (Decidable (_ ∧ _))

/-! ### Swaps, one after another -/

/-- The rate that a statement reads from the table. -/
def rateOf {β : Type} : Query β → Option ℚ
  | .fetchRate base target => rates base target
  | .debitTx _ currency => rates (currencyCode currency) primaryCurrency
  | _ => none

/-- A new reference is one that a debit was made under already. -/
def reuses {β : Type} (st : Query β) (o : Outside) (s : Accounts) : Bool :=
  match st with
  | .newReference label =>
      (s.movement? (buildIdempotencyKey "swap-debit" (label ++ "-" ++ o.token))).isSome
  | _ => false

/-- The services over a table of rates that stays as it is; references are not used twice. -/
def fx : Machine Query (Except Err Outside) Accounts where
  exec _ st o s :=
    match o with
    | .error e => some (st.fail e, s)
    | .ok o => if reuses st o s then none else some (st.run { o with rate := rateOf rates st } s)

/-- The swaps, one after another; one that fails is left. -/
def swaps : List SwapParams → Call Unit
  | [] => pure ()
  | p :: ps => do
      tryCatch (do let _ ← swapCurrency p; pure ()) fun _ => pure ()
      swaps ps

/-- What a user has in a currency. -/
def held (userId currency : String) (s : Accounts) : ℚ :=
  (s.wallets.map fun w => if w.userId = userId ∧ w.currency = currency then decimal w.balance
    else 0).sum

/-! ### Rounding -/

section rounding

variable {rates : Rates} {x a : ℚ} {p : SwapParams} {r : ℚ}

theorem roundHalfAway_le (hx : 0 ≤ x) (h : Int.fract x < 1 / 2) : (roundHalfAway x : ℚ) ≤ x := by
  unfold roundHalfAway
  rw [if_pos hx]
  have hfloor : ⌊x + 1 / 2⌋ ≤ ⌊x⌋ := by
    have hfract := Int.self_sub_floor x
    refine Int.le_of_lt_add_one (Int.floor_lt.mpr ?_)
    push_cast
    linarith
  exact le_trans (by exact_mod_cast hfloor) (Int.floor_le x)

theorem toFixed2_le (hx : 0 ≤ x) (h : Int.fract (x * 100) < 1 / 2) : toFixed2 x ≤ x := by
  have hround := roundHalfAway_le (mul_nonneg hx (by norm_num : (0 : ℚ) ≤ 100)) h
  unfold toFixed2 decimal cents
  rw [div_le_iff₀ (by norm_num)]
  exact hround

theorem toFixed8_le (hx : 0 ≤ x) (h : Int.fract (x * 10 ^ 8) < 1 / 2) : toFixed8 x ≤ x := by
  have hround := roundHalfAway_le (mul_nonneg hx (by norm_num : (0 : ℚ) ≤ 10 ^ 8)) h
  unfold toFixed8
  rw [div_le_iff₀ (by norm_num)]
  exact hround

/-- Whole cents are stored as they are. -/
theorem decimal_cents (h : Int.fract (a * 100) = 0) : decimal (cents a) = a := by
  have hwhole : ((⌊a * 100⌋ : ℤ) : ℚ) = a * 100 := by
    have := Int.self_sub_floor (a * 100)
    linarith
  have hcents : cents a = ⌊a * 100⌋ := by
    unfold cents
    rw [← hwhole, roundHalfAway_intCast, Int.floor_intCast]
  unfold decimal
  rw [hcents, hwhole]
  field_simp

theorem not_halfCent (h : Int.fract (a * 100) = 0) : slackOf a = 0 := by
  unfold slackOf
  rw [if_neg]
  intro hhalf
  unfold HalfCent at hhalf
  rw [h] at hhalf
  norm_num at hhalf

theorem directRate_pos {base target : String} (h : directRate rates base target = some r) :
    0 < r := by
  simpa using (Option.filter_eq_some_iff.mp h).2

theorem throughUsd_some {from' to' : String} {a b : ℚ}
    (h : throughUsd rates from' to' = some (a, b)) :
    directRate rates from' to' = none ∧ directRate rates from' primaryCurrency = some a ∧
      directRate rates primaryCurrency to' = some b := by
  unfold throughUsd at h
  split at h
  · rename_i hdirect ha hb
    obtain ⟨rfl, rfl⟩ := Prod.mk.inj (Option.some.inj h)
    exact ⟨hdirect, ha, hb⟩
  · cases h

/-- What a swap is converted at, and by what chain of rates. -/
theorem usedRate_cases (h : usedRate rates (source p) (target p) = some r) :
    (directRate rates (source p) (target p) = some r ∧ (conversion rates p).gain = r) ∨
      ∃ a b, throughUsd rates (source p) (target p) = some (a, b) ∧ r = toFixed8 (a * b) ∧
        (conversion rates p).gain = a * b := by
  unfold usedRate at h
  unfold conversion exactRate
  dsimp only
  cases hdirect : directRate rates (source p) (target p) with
  | some d =>
      rw [hdirect] at h
      exact .inl ⟨h, Option.some.inj h⟩
  | none =>
      rw [hdirect, Option.none_or] at h
      obtain ⟨⟨a, b⟩, hab, rfl⟩ := Option.map_eq_some_iff.mp h
      exact .inr ⟨a, b, hab, rfl, by rw [hab]; rfl⟩

theorem conversion_backed (p : SwapParams) : (conversion rates p).Backed (directRate rates) := by
  unfold Conversion.Backed conversion exactRate
  dsimp only
  cases hdirect : directRate rates (source p) (target p) with
  | some d =>
      refine .inr ?_
      have hpath := RatePath.cons hdirect (.nil (target p))
      rw [mul_one] at hpath
      exact hpath
  | none =>
      cases hthrough : throughUsd rates (source p) (target p) with
      | none => exact .inl rfl
      | some ab =>
          obtain ⟨a, b⟩ := ab
          obtain ⟨-, ha, hb⟩ := throughUsd_some hthrough
          have hpath := RatePath.cons ha (.cons hb (.nil (target p)))
          rw [mul_one] at hpath
          exact .inr hpath

theorem usedRate_nonneg (h : usedRate rates (source p) (target p) = some r) : 0 ≤ r := by
  rcases usedRate_cases h with ⟨hdirect, -⟩ | ⟨a, b, hab, rfl, -⟩
  · exact (directRate_pos hdirect).le
  · obtain ⟨-, ha, hb⟩ := throughUsd_some hab
    have hpos := mul_pos (directRate_pos ha) (directRate_pos hb)
    have hround : (0 : ℤ) ≤ roundHalfAway (a * b * 10 ^ 8) := by
      unfold roundHalfAway
      rw [if_pos (by positivity)]
      exact Int.floor_nonneg.mpr (by positivity)
    have hround' : (0 : ℚ) ≤ roundHalfAway (a * b * 10 ^ 8) := by exact_mod_cast hround
    exact div_nonneg hround' (by norm_num)

/-- What is paid is no more than the exact conversion. -/
theorem RoundsDown.paid_le (h : RoundsDown rates p) (hamount : 0 ≤ p.amount)
    (hr : usedRate rates (source p) (target p) = some r) :
    toFixed2 (p.amount * r) ≤ p.amount * (conversion rates p).gain := by
  have hpaid := toFixed2_le (mul_nonneg hamount (usedRate_nonneg hr)) (h.2.2 r hr)
  refine hpaid.trans (mul_le_mul_of_nonneg_left ?_ hamount)
  rcases usedRate_cases hr with ⟨-, hgain⟩ | ⟨a, b, hab, rfl, hgain⟩
  · rw [hgain]
  · obtain ⟨-, ha, hb⟩ := throughUsd_some hab
    rw [hgain]
    exact toFixed8_le (mul_pos (directRate_pos ha) (directRate_pos hb)).le (h.2.1 _ hab)

end rounding

/-! ### What a user's wallets are worth -/

section value

variable {rates : Rates} {userId c : String} {π : String → ℚ} {p : SwapParams}
  {ps : List SwapParams} {s t : Accounts} {B extra : ℚ}

/-- The user's wallets, counted at prices. -/
def value (userId : String) (π : String → ℚ) (s : Accounts) : ℚ :=
  (s.wallets.map fun w => if w.userId = userId then decimal w.balance * π w.currency else 0).sum

/-- Prices by which the exact conversion of a swap gains nothing. -/
structure Fair (rates : Rates) (π : String → ℚ) (p : SwapParams) : Prop where
  nonneg : ∀ x, 0 ≤ π x
  gain : 0 ≤ (conversion rates p).gain
  le : (conversion rates p).gain * π (target p) ≤ π (source p)

/-- Rates without a closed chain above one have fair prices. -/
theorem fair_worth (hrates : NoArbitrage (directRate rates)) (hp : p ∈ ps) :
    Fair rates (worth c (ps.map (conversion rates))) p := by
  have hpos : ∀ {x y r}, directRate rates x y = some r → 0 ≤ r := fun h => (directRate_pos h).le
  have hbacked : ∀ v ∈ ps.map (conversion rates), v.Backed (directRate rates) := by
    intro v hv
    obtain ⟨q, -, rfl⟩ := List.mem_map.mp hv
    exact conversion_backed q
  exact ⟨worth_nonneg c _, (conversion_backed p).gain_nonneg hpos,
    gain_mul_worth_le hrates hpos hbacked (List.mem_map_of_mem hp)⟩

/-- The tables are in order, and the wallets are worth no more than `B`, with `extra` still to be
paid. -/
structure Bounded (userId : String) (π : String → ℚ) (extra B : ℚ) (s : Accounts) : Prop where
  books : Books s
  le : value userId π s + extra ≤ B

theorem Bounded.unpaid (h : Bounded userId π extra B s) (hextra : 0 ≤ extra) :
    Bounded userId π 0 B s := ⟨h.books, by linarith [h.le]⟩

theorem Bounded.value_le (h : Bounded userId π 0 B s) : value userId π s ≤ B := by
  have hle := h.le
  rwa [add_zero] at hle

theorem decimal_add (a b : ℤ) : decimal (a + b) = decimal a + decimal b := by
  unfold decimal
  push_cast
  ring

/-- A wallet of the user. -/
def HasWallet (userId currency : String) (id : ℕ) (s : Accounts) : Prop :=
  ∃ w ∈ s.wallets, w.walletId = id ∧ w.userId = userId ∧ w.currency = currency

/-- A movement changes the value by what its wallet's currency is worth. -/
theorem value_posts {m : MovementRow} {slack : ℤ} {currency : String} (hs : Books s)
    (h : Posts s t m slack) (hw : HasWallet userId currency m.walletId s) :
    value userId π t = value userId π s + decimal (m.signed + slack) * π currency := by
  obtain ⟨w, hw, hid, huser, hcurrency⟩ := hw
  unfold value
  rw [h.sum_wallets hs hw hid, if_pos huser, if_pos huser]
  dsimp only
  rw [hcurrency, add_assoc, decimal_add]
  ring

theorem HasWallet.posts {m : MovementRow} {slack : ℤ} {currency : String} {id : ℕ}
    (hw : HasWallet userId currency id s) (h : Posts s t m slack) :
    HasWallet userId currency id t := by
  obtain ⟨w, hw, hid, huser, hcurrency⟩ := hw
  unfold HasWallet
  rw [h.wallets]
  refine ⟨_, List.mem_map_of_mem hw, ?_⟩
  split_ifs
  · exact ⟨hid, huser, hcurrency⟩
  · exact ⟨hid, huser, hcurrency⟩

/-- A new wallet is worth nothing. -/
theorem Bounded.quiet (h : Bounded userId π extra B s) (hq : Quiet s t) :
    Bounded userId π extra B t := by
  refine ⟨hq.books h.books, ?_⟩
  have hvalue : value userId π t = value userId π s := by
    unfold value
    rcases hq.wallets with hw | ⟨w, hzero, -, hw⟩
    · rw [hw]
    · rw [hw, List.map_cons, List.sum_cons, hzero]
      simp [decimal]
  rw [hvalue]
  exact h.le

/-- A debit of whole cents: what it takes is still to be paid, converted. -/
theorem Bounded.debit {b : BalanceParams} {currency : String} (h : Bounded userId π 0 B s)
    (hfair : Fair rates π p) (hstep : DebitStep b currency s t)
    (hwhole : Int.fract (b.amount * 100) = 0) (hw : HasWallet userId (source p) b.walletId s) :
    Bounded userId π (b.amount * (conversion rates p).gain * π (target p)) B t := by
  obtain ⟨w, -, -, -, -, usd, hposts⟩ := hstep.posts h.books
  rw [not_halfCent hwhole] at hposts
  refine ⟨hposts.books h.books, ?_⟩
  have hvalue : value userId π t = _ := value_posts h.books hposts hw
  have hneg : decimal ((b.movement .debit currency usd s.nextId).signed + 0) = -b.amount := by
    have hamount := decimal_cents hwhole
    have hsigned : (b.movement .debit currency usd s.nextId).signed = -cents b.amount := rfl
    rw [hsigned, add_zero]
    unfold decimal at hamount ⊢
    push_cast
    linarith
  rw [hneg] at hvalue
  have hpos : 0 < cents b.amount := by
    obtain ⟨w, -, -, -, -, -, rate, usd, -, hfits, -⟩ := hstep.wallet
    exact hfits.pos
  have hmul := mul_le_mul_of_nonneg_left hfair.le (pos_of_cents_pos hpos).le
  linarith [h.le]

/-- A credit pays what was to be paid. -/
theorem Bounded.credit {b : BalanceParams} {currency : String}
    (h : Bounded userId π extra B s) (hstep : CreditStep b currency s t)
    (hcents : decimal (cents b.amount) = b.amount) (hpaid : b.amount * π (target p) ≤ extra)
    (hw : HasWallet userId (target p) b.walletId s) : Bounded userId π 0 B t := by
  have hposts := hstep.posts h.books
  refine ⟨hposts.books h.books, ?_⟩
  have hvalue : value userId π t = _ := value_posts h.books hposts hw
  have hsigned : decimal ((b.credited currency s).signed + 0) = b.amount := by
    rw [add_zero]
    exact hcents
  rw [hsigned] at hvalue
  linarith [h.le]

/-- The value by currencies. -/
theorem value_eq_sum {S : Finset String} (hS : ∀ w ∈ s.wallets, w.currency ∈ S) :
    value userId π s = ∑ d ∈ S, held userId d s * π d := by
  obtain ⟨wallets, movements, nextId⟩ := s
  unfold value held
  dsimp only at hS ⊢
  induction wallets with
  | nil => simp
  | cons w ws ih =>
      simp only [List.map_cons, List.sum_cons, add_mul, Finset.sum_add_distrib]
      rw [ih fun v hv => hS v (List.mem_cons_of_mem _ hv)]
      congr 1
      by_cases huser : w.userId = userId
      · simp only [huser, true_and, if_true, ite_mul, zero_mul]
        rw [Finset.sum_ite_eq S w.currency fun d => decimal w.balance * π d,
          if_pos (hS w List.mem_cons_self)]
      · simp [huser]

/-- A currency the user had nothing in has lost nothing. -/
theorem held_le_of_only (hs : ∀ w ∈ s.wallets, w.currency = c) (ht : ∀ w ∈ t.wallets, 0 ≤ w.balance)
    {d : String} (hd : d ≠ c) : held userId d s ≤ held userId d t := by
  have hzero : held userId d s = 0 := by
    refine List.sum_eq_zero fun x hx => ?_
    obtain ⟨w, hw, rfl⟩ := List.mem_map.mp hx
    rw [hs w hw]
    exact if_neg fun h => hd h.2.symm
  rw [hzero]
  refine List.sum_nonneg fun x hx => ?_
  obtain ⟨w, hw, rfl⟩ := List.mem_map.mp hx
  have hbalance : (0 : ℚ) ≤ w.balance := by exact_mod_cast ht w hw
  split_ifs
  · exact div_nonneg hbalance (by norm_num)
  · exact le_rfl

/-- What the other wallets have not lost, the one has not gained. -/
theorem held_le_of_value_le (hnonneg : ∀ x, 0 ≤ π x) (hself : π c = 1)
    (hreturn : ∀ d, d ≠ c → held userId d s ≤ held userId d t)
    (hvalue : value userId π t ≤ value userId π s) : held userId c t ≤ held userId c s := by
  classical
  set S : Finset String := insert c ((s.wallets ++ t.wallets).map (·.currency)).toFinset with hS
  have hs : ∀ w ∈ s.wallets, w.currency ∈ S := by
    intro w hw
    simp only [hS, Finset.mem_insert, List.mem_toFinset, List.mem_map, List.mem_append]
    exact .inr ⟨w, .inl hw, rfl⟩
  have ht : ∀ w ∈ t.wallets, w.currency ∈ S := by
    intro w hw
    simp only [hS, Finset.mem_insert, List.mem_toFinset, List.mem_map, List.mem_append]
    exact .inr ⟨w, .inr hw, rfl⟩
  have hc : c ∈ S := Finset.mem_insert_self c _
  rw [value_eq_sum hs, value_eq_sum ht, ← Finset.add_sum_erase S _ hc,
    ← Finset.add_sum_erase S _ hc, hself] at hvalue
  have hrest : ∑ d ∈ S.erase c, held userId d s * π d ≤ ∑ d ∈ S.erase c, held userId d t * π d :=
    Finset.sum_le_sum fun d hd =>
      mul_le_mul_of_nonneg_right (hreturn d (Finset.ne_of_mem_erase hd)) (hnonneg d)
  linarith

end value

/-! ### The calls -/

/-- A call of the services by themselves, whose statements leave the user's wallets worth no more
than `B`; when it throws, nothing more is to be paid. -/
abbrev Swapping (rates : Rates) (userId : String) (π : String → ℚ) (B : ℚ) {α : Type}
    (P : Accounts → Prop) (q : Call α) (Q : α → Accounts → Prop) : Prop :=
  Triple (fx rates) (solo 0 (fun s => value userId π s ≤ B) fun _ => True) 0 P q Q
    fun _ => Bounded userId π 0 B

section calls

variable {rates : Rates} {userId : String} {π : String → ℚ} {p : SwapParams} {B : ℚ}
  {P : Accounts → Prop}

/-- The rule of one statement. -/
theorem swapping_sql {β : Type} {st : Query (Ans β)} {Q : β → Accounts → Prop}
    (hfail : ∀ e, st.fail e = .error e) (hP : ∀ s, P s → Bounded userId π 0 B s)
    (hrun : ∀ s o, P s → reuses st o s = false →
      match st.run { o with rate := rateOf rates st } s with
      | (.ok b, t) => value userId π t ≤ B ∧ Q b t
      | (.error _, t) => Bounded userId π 0 B t) :
    Swapping rates userId π B P (sql st) Q := by
  refine solo_perform fun s hs hinv o _ r t hexec => ?_
  cases o with
  | error e =>
      obtain ⟨rfl, rfl⟩ := Prod.mk.inj (Option.some.inj hexec)
      rw [hfail]
      exact ⟨hinv, fun a ha => (by cases ha), fun _ _ => hP _ hs⟩
  | ok o =>
      cases hreuses : reuses st o s with
      | true =>
          simp [fx, hreuses] at hexec
      | false =>
          have hstep := hrun s o hs hreuses
          have hexec' : st.run { o with rate := rateOf rates st } s = (r, t) := by
            simpa [fx, hreuses] using hexec
          rw [hexec'] at hstep
          cases r with
          | ok b =>
              exact ⟨hstep.1, fun a ha => Except.ok.inj ha ▸ hstep.2, fun e he => (by cases he)⟩
          | error e => exact ⟨hstep.value_le, fun a ha => (by cases ha), fun _ _ => hstep⟩

/-- A statement that only reads. -/
theorem swapping_read {β : Type} {st : Query (Ans β)} {Q : β → Accounts → Prop}
    (hfail : ∀ e, st.fail e = .error e) (hreads : st.Reads = true)
    (hP : ∀ s, P s → Bounded userId π 0 B s)
    (hans : ∀ s o b, P s → reuses st o s = false →
      (st.run { o with rate := rateOf rates st } s).1 = .ok b → Q b s) :
    Swapping rates userId π B P (sql st) fun b s => Q b s ∧ P s := by
  refine swapping_sql hfail hP fun s o hs hreuses => ?_
  have hsame := Query.run_same hreads { o with rate := rateOf rates st } s
  have hans' := hans s o
  revert hsame hans'
  cases st.run { o with rate := rateOf rates st } s with
  | mk r t =>
      rintro (rfl : t = s) hans'
      cases r with
      | ok b => exact ⟨(hP _ hs).value_le, hans' b hs hreuses rfl, hs⟩
      | error e => exact hP _ hs

theorem swapping_directRate (hP : ∀ s, P s → Bounded userId π 0 B s) (base to' : String) :
    Swapping rates userId π B P (fetchDirectRate base to')
      fun r s => r = directRate rates base to' ∧ P s := by
  unfold fetchDirectRate
  refine Triple.bind (swapping_read (Q := fun row _ => row = rates base to') (fun _ => rfl) rfl hP
    fun s o b _ _ hb => (Except.ok.inj hb).symm) fun row => Triple.assume fun hrow => ?_
  subst hrow
  exact Triple.pure fun s hs => ⟨rfl, hs⟩

/-- The rate through USD, when there is no direct one. -/
theorem swapping_crossRate (hP : ∀ s, P s → Bounded userId π 0 B s)
    (hdirect : directRate rates (source p) (target p) = none) :
    Swapping rates userId π B P (crossRate (source p) (target p))
      fun r s => usedRate rates (source p) (target p) = some r ∧ P s := by
  unfold crossRate
  refine Triple.bind (swapping_directRate hP (source p) primaryCurrency) fun fromUsd =>
    Triple.assume fun hfrom => ?_
  refine Triple.bind (swapping_directRate hP primaryCurrency (target p)) fun usdTo =>
    Triple.assume fun hto => ?_
  cases fromUsd with
  | none => exact Triple.throw hP
  | some a =>
      cases usdTo with
      | none => exact Triple.throw hP
      | some b =>
          refine Triple.pure fun s hs => ⟨?_, hs⟩
          simp [usedRate, throughUsd, hdirect, ← hfrom, ← hto]

/-- The rate that is found is the one used. -/
theorem swapping_resolve (hP : ∀ s, P s → Bounded userId π 0 B s)
    (hne : source p ≠ target p) :
    Swapping rates userId π B P (resolveExchangeRate p.fromCurrency p.toCurrency)
      fun r s => usedRate rates (source p) (target p) = some r ∧ P s := by
  unfold resolveExchangeRate
  refine Triple.ite (fun heq => absurd heq hne) fun _ => ?_
  refine Triple.bind (swapping_directRate hP (source p) (target p)) fun direct =>
    Triple.assume fun hdirect => ?_
  cases direct with
  | some rate => exact Triple.pure fun s hs => ⟨by simp [usedRate, ← hdirect], hs⟩
  | none =>
      refine Triple.ite (fun _ => ?_) fun _ => swapping_crossRate hP hdirect.symm
      refine Triple.bind (swapping_directRate hP (source p) (target p)) fun again =>
        Triple.assume fun hagain => ?_
      rw [← hdirect] at hagain
      subst hagain
      exact swapping_crossRate hP hdirect.symm

/-- What is to be paid for an amount that is debited. -/
theorem swapping_convertBetween (hP : ∀ s, P s → Bounded userId π 0 B s)
    (hne : source p ≠ target p) :
    Swapping rates userId π B P (convertAmountBetween p.amount p.fromCurrency p.toCurrency)
      fun converted s => (0 < p.amount → ∃ r, usedRate rates (source p) (target p) = some r ∧
        converted = toFixed2 (p.amount * r)) ∧ P s := by
  unfold convertAmountBetween
  refine Triple.ite (fun _ => Triple.throw hP) fun _ => ?_
  refine Triple.ite (fun heq => absurd heq hne) fun _ => ?_
  refine Triple.ite (fun hzero => Triple.pure fun s hs =>
    ⟨fun hpos => absurd hzero hpos.ne', hs⟩) fun _ => ?_
  refine Triple.bind (swapping_resolve hP hne) fun r => Triple.assume fun hr => ?_
  exact Triple.pure fun s hs => ⟨fun _ => ⟨r, hr, rfl⟩, hs⟩

theorem swapping_convertToUsd (hP : ∀ s, P s → Bounded userId π 0 B s) (amount : ℚ)
    (currency : String) :
    Swapping rates userId π B P (convertAmountToUsd amount currency) fun _ => P := by
  unfold convertAmountToUsd
  refine Triple.ite (fun _ => Triple.throw hP) fun _ => ?_
  refine Triple.ite (fun _ => Triple.pure fun _ hs => hs) fun _ => ?_
  refine Triple.ite (fun _ => Triple.pure fun _ hs => hs) fun _ => ?_
  refine Triple.bind (swapping_read (Q := fun _ _ => True) (fun _ => rfl) rfl hP
    fun _ _ _ _ _ _ => trivial) fun rate => Triple.assume fun _ => ?_
  cases usdAmount rate amount (currencyCode currency) with
  | error e => exact Triple.throw hP
  | ok usd => exact Triple.pure fun _ hs => hs

theorem swapping_ensureWallet (userId' currency : String) :
    Swapping rates userId π B (Bounded userId π 0 B) (ensureWalletForCurrency userId' currency)
      fun _ => Bounded userId π 0 B := by
  unfold ensureWalletForCurrency
  refine Triple.bind (swapping_read (Q := fun _ _ => True) (fun _ => rfl) rfl (fun _ hs => hs)
    fun _ _ _ _ _ _ => trivial) fun found => Triple.assume fun _ => ?_
  cases found with
  | some wallet => exact Triple.pure fun _ hs => hs
  | none =>
      refine swapping_sql (fun _ => rfl) (fun _ hs => hs) fun s o hs _ => ?_
      have hquiet : Bounded userId π 0 B
          (Query.run (.createWallet userId' currency.toUpper) { o with rate := none } s).2 := by
        rcases Query.run_cases (.createWallet userId' currency.toUpper) { o with rate := none }
          hs.books with ⟨hq, -⟩ | ⟨m, slack, -, hkey, -⟩
        · exact hs.quiet hq
        · cases hkey
      have hrate : rateOf rates (.createWallet userId' currency.toUpper) = none := rfl
      rw [hrate]
      revert hquiet
      cases Query.run (.createWallet userId' currency.toUpper) { o with rate := none } s with
      | mk r t =>
          intro hquiet
          cases r with
          | ok w => exact ⟨hquiet.value_le, hquiet⟩
          | error e => exact hquiet

theorem swapping_userWallet (hP : ∀ s, P s → Bounded userId π 0 B s) (userId' currency : String) :
    Swapping rates userId π B P (sql (.userWallet userId' currency))
      fun r s => (∀ w ∈ r, HasWallet userId' currency w.walletId s) ∧ P s := by
  refine swapping_read (fun _ => rfl) rfl hP fun s o r _ _ hr w hw => ?_
  have hfind : s.wallets.find? (fun w => w.userId = userId' && w.currency = currency) = r :=
    Except.ok.inj hr
  rw [Option.mem_def.mp hw] at hfind
  have hkey := List.find?_some hfind
  simp only [Bool.and_eq_true, decide_eq_true_eq] at hkey
  exact ⟨w, List.mem_of_find?_eq_some hfind, rfl, hkey.1, hkey.2⟩

/-- A new reference has no debit. -/
theorem swapping_newReference (hP : ∀ s, P s → Bounded userId π 0 B s) (label : String) :
    Swapping rates userId π B P (sql (.newReference label)) fun reference s =>
      s.movement? (buildIdempotencyKey "swap-debit" reference) = none ∧ P s := by
  refine swapping_read (fun _ => rfl) rfl hP fun s o reference _ hreuses hr => ?_
  obtain rfl : label ++ "-" ++ o.token = reference := Except.ok.inj hr
  simpa [reuses] using hreuses

/-- What a swap still has to pay after its debit, at most. -/
def owed (rates : Rates) (π : String → ℚ) (p : SwapParams) : ℚ :=
  p.amount * (conversion rates p).gain * π (target p)

theorem Fair.owed_nonneg (hfair : Fair rates π p) (hpos : 0 < p.amount) :
    0 ≤ owed rates π p := mul_nonneg (mul_nonneg hpos.le hfair.gain) (hfair.nonneg _)

/-- The debit of a swap, under a new reference. -/
theorem swapping_debit (hfair : Fair rates π p) (hwhole : Int.fract (p.amount * 100) = 0)
    (fromWallet toWallet : WalletRow) (converted : ℚ) (reference : String) :
    Swapping rates userId π B
      (fun s => s.movement? (buildIdempotencyKey "swap-debit" reference) = none ∧
        HasWallet userId (source p) fromWallet.walletId s ∧
        HasWallet userId (target p) toWallet.walletId s ∧ Bounded userId π 0 B s)
      (debitWalletBalance (p.debit fromWallet converted reference))
      fun _ s => 0 < p.amount ∧ HasWallet userId (target p) toWallet.walletId s ∧
        Bounded userId π (owed rates π p) B s := by
  unfold debitWalletBalance
  refine Triple.bind (swapping_read (Q := fun r s => r = none) (fun _ => rfl) rfl
    (fun _ hs => hs.2.2.2) fun s o r hs _ hr => ?_) fun r => Triple.assume fun hnone => ?_
  · exact (Except.ok.inj hr).symm.trans hs.1
  subst hnone
  refine Triple.ite (fun _ => Triple.throw fun _ hs => hs.2.2.2) fun hamount => ?_
  have hpos : 0 < p.amount := not_le.mp hamount
  refine Triple.bind (R := fun _ s => HasWallet userId (target p) toWallet.walletId s ∧
      Bounded userId π (owed rates π p) B s) ?_ fun id => ?_
  · refine swapping_sql (fun _ => rfl) (fun _ hs => hs.2.2.2) fun s o hs _ => ?_
    obtain ⟨-, hfrom, hto, hbounded⟩ := hs
    set b := p.debit fromWallet converted reference with hb
    have hrun : Query.run (.debitTx b b.currency.toUpper)
        { o with rate := rateOf rates (.debitTx b b.currency.toUpper) } s =
          s.debitTx b b.currency.toUpper (rateOf rates (.debitTx b b.currency.toUpper)) := rfl
    rw [hrun]
    rcases s.debitTx_cases b b.currency.toUpper (rateOf rates (.debitTx b b.currency.toUpper)) with
      ⟨e, he⟩ | ⟨id, t, he, -, hstep⟩
    · rw [he]
      exact hbounded
    · rw [he]
      have hpaid : Bounded userId π (owed rates π p) B t := hbounded.debit hfair hstep hwhole hfrom
      obtain ⟨w, -, -, -, -, usd, hposts⟩ := hstep.posts hbounded.books
      exact ⟨(hpaid.unpaid (hfair.owed_nonneg hpos)).value_le, hto.posts hposts, hpaid⟩
  · refine Triple.bind (swapping_read (Q := fun _ _ => True) (fun _ => rfl) rfl
      (fun _ hs => hs.2.unpaid (hfair.owed_nonneg hpos)) fun _ _ _ _ _ _ => trivial) fun balance =>
        Triple.assume fun _ => ?_
    exact Triple.pure fun s hs => ⟨hpos, hs⟩

/-- The credit of a swap, after its debit. -/
theorem swapping_credit (hpos : 0 ≤ owed rates π p) (toWallet : WalletRow) {converted : ℚ}
    (usd : ℚ) (reference : String) (hcents : decimal (cents converted) = converted)
    (hpaid : converted * π (target p) ≤ owed rates π p) :
    Swapping rates userId π B
      (fun s => HasWallet userId (target p) toWallet.walletId s ∧
        Bounded userId π (owed rates π p) B s)
      (creditWalletBalance (p.credit toWallet converted usd reference))
      fun _ => Bounded userId π 0 B := by
  unfold creditWalletBalance
  refine Triple.bind (swapping_read (Q := fun _ _ => True) (fun _ => rfl) rfl
    (fun _ hs => hs.2.unpaid hpos) fun _ _ _ _ _ _ => trivial) fun r => Triple.assume fun _ => ?_
  cases r with
  | some m => exact Triple.pure fun s hs => hs.2.unpaid hpos
  | none =>
      refine Triple.bind (R := fun _ => Bounded userId π 0 B) ?_ fun id =>
        Triple.pure fun _ hs => hs
      refine swapping_sql (fun _ => rfl) (fun _ hs => hs.2.unpaid hpos) fun s o hs _ => ?_
      set b := p.credit toWallet converted usd reference with hb
      have hrun : Query.run (.creditTx b b.currency.toUpper)
          { o with rate := rateOf rates (.creditTx b b.currency.toUpper) } s =
            s.creditTx b b.currency.toUpper := rfl
      rw [hrun]
      rcases s.creditTx_cases b b.currency.toUpper with ⟨e, he⟩ | ⟨id, t, he, hstep⟩
      · rw [he]
        exact hs.2.unpaid hpos
      · rw [he]
        have hpaid' : Bounded userId π 0 B t := hs.2.credit hstep hcents hpaid hs.1
        exact ⟨hpaid'.value_le, hpaid'⟩

theorem swapping_between (hfair : Fair rates π p) (hdown : RoundsDown rates p)
    (hne : source p ≠ target p) (fromWallet toWallet : WalletRow) :
    Swapping rates userId π B
      (fun s => HasWallet userId (source p) fromWallet.walletId s ∧
        HasWallet userId (target p) toWallet.walletId s ∧ Bounded userId π 0 B s)
      (swapBetween p fromWallet toWallet) fun _ => Bounded userId π 0 B := by
  have hbounded : ∀ s, HasWallet userId (source p) fromWallet.walletId s ∧
      HasWallet userId (target p) toWallet.walletId s ∧ Bounded userId π 0 B s →
        Bounded userId π 0 B s := fun _ hs => hs.2.2
  unfold swapBetween
  refine Triple.ite (fun _ => Triple.throw hbounded) fun _ => ?_
  refine Triple.bind (swapping_resolve hbounded hne) fun rate => Triple.assume fun _ => ?_
  refine Triple.bind (swapping_convertBetween hbounded hne) fun converted =>
    Triple.assume fun hconverted => ?_
  refine Triple.bind (swapping_newReference hbounded "swap") fun reference => ?_
  refine Triple.bind (swapping_debit hfair hdown.1 fromWallet toWallet converted reference)
    fun _ => Triple.assume fun hpos => ?_
  have howed := hfair.owed_nonneg hpos
  obtain ⟨r, hr, rfl⟩ := hconverted hpos
  have hpaid : toFixed2 (p.amount * r) * π (target p) ≤ owed rates π p :=
    mul_le_mul_of_nonneg_right (hdown.paid_le hpos.le hr) (hfair.nonneg _)
  have hcents : decimal (cents (toFixed2 (p.amount * r))) = toFixed2 (p.amount * r) :=
    congrArg decimal (cents_decimal _)
  refine Triple.bind (swapping_convertToUsd (fun _ hs => hs.2.unpaid howed) _ _) fun usd => ?_
  refine Triple.bind (swapping_credit howed toWallet usd reference hcents hpaid) fun _ => ?_
  refine Triple.bind (swapping_read (Q := fun _ _ => True) (fun _ => rfl) rfl (fun _ hs => hs)
    fun _ _ _ _ _ _ => trivial) fun _ => Triple.assume fun _ => ?_
  exact Triple.pure fun _ hs => hs

/-- A swap leaves the user's wallets worth no more. -/
theorem swapping_swapCurrency (hfair : Fair rates π p) (hdown : RoundsDown rates p)
    (huser : p.userId = userId) :
    Swapping rates userId π B (Bounded userId π 0 B) (swapCurrency p)
      fun _ => Bounded userId π 0 B := by
  subst huser
  unfold swapCurrency
  refine Triple.ite (fun _ => Triple.throw fun _ hs => hs) fun hne => ?_
  refine Triple.bind (swapping_ensureWallet _ _) fun _ => ?_
  refine Triple.bind (swapping_ensureWallet _ _) fun _ => ?_
  refine Triple.bind (swapping_userWallet (fun _ hs => hs) p.userId (source p)) fun fromWallet => ?_
  refine Triple.bind (swapping_userWallet (fun _ hs => hs.2) p.userId (target p)) fun toWallet => ?_
  cases fromWallet with
  | none => exact Triple.throw fun _ hs => hs.2.2
  | some fromWallet =>
      cases toWallet with
      | none => exact Triple.throw fun _ hs => hs.2.2
      | some toWallet =>
          exact (swapping_between hfair hdown hne fromWallet toWallet).mono
            (fun s hs => ⟨hs.2.1 _ rfl, hs.1 _ rfl, hs.2.2⟩) (fun _ _ h => h) fun _ _ h => h

/-- So do swaps one after another. -/
theorem swapping_swaps {ps : List SwapParams} (hfair : ∀ p ∈ ps, Fair rates π p)
    (hdown : ∀ p ∈ ps, RoundsDown rates p) (huser : ∀ p ∈ ps, p.userId = userId) :
    Swapping rates userId π B (Bounded userId π 0 B) (swaps ps)
      fun _ => Bounded userId π 0 B := by
  induction ps with
  | nil => exact Triple.pure fun _ hs => hs
  | cons p ps ih =>
      refine Triple.bind (R := fun _ => Bounded userId π 0 B) ?_ fun _ => ?_
      · refine Triple.tryCatch (F := fun _ => Bounded userId π 0 B) ?_
          fun _ => Triple.pure fun _ hs => hs
        exact Triple.bind (swapping_swapCurrency (hfair p List.mem_cons_self)
          (hdown p List.mem_cons_self) (huser p List.mem_cons_self))
          fun _ => Triple.pure fun _ hs => hs
      · exact ih (fun q hq => hfair q (List.mem_cons_of_mem _ hq))
          (fun q hq => hdown q (List.mem_cons_of_mem _ hq))
          fun q hq => huser q (List.mem_cons_of_mem _ hq)

end calls

/-! ### Runs -/

/-- The tables after some swaps, as far as they got. -/
def after (rates : Rates) (ps : List SwapParams) (os : List (Except Err Outside)) (s : Accounts) :
    Accounts :=
  ((swaps ps).run.advance (fx rates) 0 os s).2

/-- Swaps none of whose roundings is in the user's favour create no money: over rates without a
closed chain above one, wherever they stop, a wallet has gained nothing when the user's others have
lost nothing. -/
theorem swaps_create_nothing {rates : Rates} {userId c : String} {ps : List SwapParams}
    {os : List (Except Err Outside)} {s : Accounts} (hrates : NoArbitrage (directRate rates))
    (hs : Books s) (huser : ∀ p ∈ ps, p.userId = userId) (hdown : ∀ p ∈ ps, RoundsDown rates p)
    (hreturn : ∀ d, d ≠ c → held userId d s ≤ held userId d (after rates ps os s)) :
    held userId c (after rates ps os s) ≤ held userId c s := by
  set π := worth c (ps.map (conversion rates)) with hπ
  have hbacked : ∀ v ∈ ps.map (conversion rates), v.Backed (directRate rates) := by
    intro v hv
    obtain ⟨q, -, rfl⟩ := List.mem_map.mp hv
    exact conversion_backed q
  have hbounded : Bounded userId π 0 (value userId π s) s := ⟨hs, by rw [add_zero]⟩
  have hswaps := swapping_swaps (B := value userId π s) (fun p hp => fair_worth hrates hp) hdown
    huser s hbounded
  have hvalue : value userId π (after rates ps os s) ≤ value userId π s :=
    (advance_sound (fun _ _ => trivial) hswaps le_rfl).1
  exact held_le_of_value_le (worth_nonneg c _) (worth_self hrates hbacked) hreturn hvalue

/-! ### Some swaps -/

/-- A rate each way between dollars and naira, whose product is one. -/
def parity : Rates := fun base target' =>
  if base = "USD" ∧ target' = "NGN" then some 1600
  else if base = "NGN" ∧ target' = "USD" then some (1 / 1600)
  else none

/-- One wallet, with a dollar in it. -/
def oneDollar : Accounts where
  wallets := [{ walletId := 1, userId := "ada", currency := "USD", balance := 100 }]
  nextId := 2

/-- Statements that get there, at different times. -/
def ticks (n : ℕ) : List (Except Err Outside) :=
  (List.range n).map fun k => .ok { token := toString k }

theorem parity_noArbitrage : NoArbitrage (directRate parity) := by
  have hdollar : ¬ "USD" = "NGN" := by decide
  refine noArbitrage_of_prices (fun x => if x = "NGN" then 1 / 1600 else 1)
    (fun x => ?_) fun {x y r} h => ?_
  · split_ifs <;> norm_num
  · have hrow : parity x y = some r := Option.eq_some_of_filter_eq_some h
    refine ⟨(directRate_pos h).le, ?_⟩
    unfold parity at hrow
    split_ifs at hrow with hto hfrom
    · obtain ⟨rfl, rfl⟩ := hto
      obtain rfl := Option.some.inj hrow
      rw [if_pos rfl, if_neg hdollar]
      norm_num
    · obtain ⟨rfl, rfl⟩ := hfrom
      obtain rfl := Option.some.inj hrow
      rw [if_pos rfl, if_neg hdollar]
      norm_num

theorem oneDollar_books : Books oneDollar :=
  ⟨by decide, by decide, by decide⟩

/-- A dollar to naira and back. -/
theorem swaps_create_nothing_oneDollar :
    held "ada" "USD" (after parity [⟨"ada", "USD", "NGN", 1⟩, ⟨"ada", "NGN", "USD", 1600⟩]
      (ticks 28) oneDollar) ≤ held "ada" "USD" oneDollar :=
  swaps_create_nothing parity_noArbitrage oneDollar_books (by decide) (by decide +kernel)
    fun _ hd => held_le_of_only (by decide) (by decide +kernel) hd

/-- Half a cent is debited as nothing and paid in full: two swaps of half a cent and one back make
a cent. -/
theorem half_cent_is_free :
    ∃ ps : List SwapParams, NoArbitrage (directRate parity) ∧ Books oneDollar ∧
      (∀ p ∈ ps, p.userId = "ada") ∧
      (∀ d, d ≠ "USD" →
        held "ada" d oneDollar ≤ held "ada" d (after parity ps (ticks 45) oneDollar)) ∧
      held "ada" "USD" oneDollar = 1 ∧
      held "ada" "USD" (after parity ps (ticks 45) oneDollar) = 101 / 100 :=
  ⟨[⟨"ada", "USD", "NGN", 1 / 200⟩, ⟨"ada", "USD", "NGN", 1 / 200⟩, ⟨"ada", "NGN", "USD", 16⟩],
    parity_noArbitrage, oneDollar_books, by decide,
    fun _ hd => held_le_of_only (by decide) (by decide +kernel) hd, by decide +kernel,
    by decide +kernel⟩

end DayfiBackend.Consumer.Swaps
