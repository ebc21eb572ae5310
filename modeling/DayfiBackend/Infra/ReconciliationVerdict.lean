import DayfiBackend.Infra.Reconciliation

/-!
# When a transaction is reconciled

A transaction reconciles when its provider confirms it, its settling movement is posted in USDC,
every settlement it needs is confirmed, and every amount on record is within `10^-6` of the expected
one (`Reconciles`). The verdict says so (`verdict_iff`) unless the transaction is an on-chain
transfer whose settlement is nowhere on record (`UnsettledTransfer`), which the lookup takes for a
transfer that needs none, or an off-ramp payout whose provider leg has another amount
(`UnreadAmount`), which is not read.
-/

namespace DayfiBackend.Infra.Reconciliation

open DayfiBackend.Found.Binary64 DayfiBackend.Found.Keys DayfiBackend.Found.Values

/-! ### What reconciles -/

/-- Two amounts are within `10^-6` of each other. -/
def Amount.Within : Amount → Amount → Prop
  | .finite a, .finite b => |a - b| ≤ 1 / 10 ^ 6
  | _, _ => False

/-- A column is within `10^-6` of the expected amount. -/
def AsExpected (tx : TxRow) (c : ℤ) : Prop :=
  ∃ e, expectedUsdc tx = some e ∧ (columnAmount c).Within e

/-- The provider observes the transaction. -/
def providerApplies (tx : TxRow) : Bool := !(isStellarNativeDeposit tx || isInternalTransfer tx)

/-- The type of the movement that settles a transaction. -/
def settledType (tx : TxRow) : String :=
  if isInternalTransfer tx then
    if (tx.meta "role").printOr = "recipient" then "internal_transfer_credit"
    else "internal_transfer_debit"
  else if tx.direction = .deposit || isStellarNativeDeposit tx then "deposit_credit"
  else if tx.direction = .payment then "collection_credit"
  else "payout_settle"

/-- The movement is in USDC, which it is where it names no asset. -/
def LedgerRow.isUsdc (row : LedgerRow) : Bool :=
  upperCase (orDefault (some row.asset) "USDC") = "USDC"

/-- What is on record of a settlement. -/
structure Evidence where
  status : String
  amount : ℤ
  deriving DecidableEq, Repr

def SettlementRow.evidence (s : SettlementRow) : Evidence := ⟨s.status, s.amount⟩

def DepositRow.evidence (d : DepositRow) : Evidence := ⟨d.status, d.amount⟩

/-- The settlements a transaction needs; one that is not on record is `none`. -/
def requiredSettlements (tx : TxRow) (b : Books) : List (Option Evidence) :=
  if isInternalTransfer tx && !isOnchainInternalTransfer tx then []
  else if isOffRampPayout tx then
    [(stellarLeg tx b).map (·.evidence), (providerLeg tx b).map (·.evidence)]
  else
    match settlementOf tx b with
    | some s => [some s.evidence]
    | none =>
        if tx.direction = .deposit || isStellarNativeDeposit tx then
          [(depositOf tx b).map (·.evidence)]
        else if isOnchainInternalTransfer tx || settlementRequired tx b then [none]
        else []

/-- A settlement is on record, confirmed and of the expected amount. -/
def Settled (tx : TxRow) (leg : Option Evidence) : Prop :=
  ∃ e, leg = some e ∧ e.status.toLower = "confirmed" ∧ AsExpected tx e.amount

/-- The provider and the ledger say that the transaction is done. -/
structure Posted (tx : TxRow) (b : Books) : Prop where
  provider : providerApplies tx = true → isProviderConfirmed (observeProvider tx).status = true
  ledger : ∃ row, movementOf tx b (settledType tx) = some row ∧ row.isUsdc = true ∧
    AsExpected tx row.amount

/-- A transaction that reconciles. -/
structure Reconciles (tx : TxRow) (b : Books) : Prop where
  posted : Posted tx b
  settled : ∀ leg ∈ requiredSettlements tx b, Settled tx leg

/-- A posted on-chain transfer with no settlement on record, and none mentioned. -/
structure UnsettledTransfer (tx : TxRow) (b : Books) : Prop where
  onchain : isOnchainInternalTransfer tx = true
  notOffRamp : isOffRampPayout tx = false
  notDeposit : (tx.direction = .deposit || isStellarNativeDeposit tx) = false
  nowhere : settlementRequired tx b = false
  posted : Posted tx b

/-- A posted off-ramp payout whose legs are confirmed, the provider's with another amount. -/
structure UnreadAmount (tx : TxRow) (b : Books) : Prop where
  notOffchain : (isInternalTransfer tx && !isOnchainInternalTransfer tx) = false
  offRamp : isOffRampPayout tx = true
  stellar : Settled tx ((stellarLeg tx b).map (·.evidence))
  provider : ∃ leg, providerLeg tx b = some leg ∧ leg.status.toLower = "confirmed" ∧
    ¬ AsExpected tx leg.amount
  posted : Posted tx b

/-! ### The tolerance -/

theorem eps_eq : eps = 4722366482869645 * 2 ^ (-72 : ℤ) := by
  decide +kernel

theorem eps_bounds : 99 / 10 ^ 8 ≤ eps ∧ eps ≤ 1 / 10 ^ 6 := by
  rw [eps_eq]
  norm_num

/-- The difference is exact, or far from the tolerance, or of small amounts ten units apart. -/
theorem ten_apart : ∀ j : Fin 19, ∀ d ∈ [10, -10],
    (|nearest (Infra.num ((j : ℕ) - 9) - Infra.num ((j : ℕ) - 9 + d))| ≤ eps ↔
      |Infra.num ((j : ℕ) - 9) - Infra.num ((j : ℕ) - 9 + d)| ≤ 1 / 10 ^ 6) ∧
    (|nearest (Infra.num ((j : ℕ) - 9 + d) - Infra.num ((j : ℕ) - 9))| ≤ eps ↔
      |Infra.num ((j : ℕ) - 9 + d) - Infra.num ((j : ℕ) - 9)| ≤ 1 / 10 ^ 6) := by
  decide +kernel

section tolerance

variable {x : ℚ} {j k : ℤ}

/-- Far below the tolerance. -/
theorem within_of_le (h : |x| ≤ 95 / 10 ^ 8) : |nearest x| ≤ eps ↔ |x| ≤ 1 / 10 ^ 6 := by
  have herr := abs_sub_nearest_le x
  have htri := abs_sub_abs_le_abs_sub (nearest x) x
  rw [abs_sub_comm] at htri
  have hbound : |x| / 2 ^ 53 ≤ 1 / 10 ^ 8 := by
    rw [div_le_iff₀ (by norm_num)]
    exact h.trans (by norm_num)
  have heps := eps_bounds
  constructor <;> intro _ <;> linarith [heps.1]

/-- Far above the tolerance. -/
theorem within_of_lt (h : 105 / 10 ^ 8 < |x|) : |nearest x| ≤ eps ↔ |x| ≤ 1 / 10 ^ 6 := by
  have herr := abs_sub_nearest_le x
  have htri := abs_sub_abs_le_abs_sub x (nearest x)
  have heps := eps_bounds
  constructor
  · intro hle
    have hsmall : |x| * (1 - 1 / 2 ^ 53) ≤ 1 / 10 ^ 6 := by linarith [heps.2]
    nlinarith
  · intro hle
    linarith

/-- On the grid of the tolerance the difference is exact. -/
theorem within_of_grid {m : ℤ} (h : x = m * 2 ^ (-72 : ℤ)) :
    |nearest x| ≤ eps ↔ |x| ≤ 1 / 10 ^ 6 := by
  by_cases hx : |x| ≤ 105 / 10 ^ 8
  · have habs : |x| = |m| * 2 ^ (-72 : ℤ) := by
      have hpos : (0 : ℚ) < 2 ^ (-72 : ℤ) := zpow_pos (by norm_num) _
      rw [h, abs_mul, abs_of_pos hpos, Int.cast_abs]
    have hm : |m| ≤ 2 ^ 53 := by
      rw [habs] at hx
      have hcast : ((|m| : ℤ) : ℚ) ≤ (2 ^ 53 : ℤ) := by
        norm_num at hx ⊢
        linarith
      exact_mod_cast hcast
    rw [h, nearest_int_mul_zpow m _ hm, ← h, habs, eps_eq]
    constructor
    · intro hle
      exact hle.trans (by norm_num)
    · intro hle
      have hlt : ((|m| : ℤ) : ℚ) < (4722366482869646 : ℤ) := by
        norm_num at hle ⊢
        linarith
      have hint : |m| < 4722366482869646 := by exact_mod_cast hlt
      have hle : ((|m| : ℤ) : ℚ) ≤ (4722366482869645 : ℤ) := by
        exact_mod_cast Int.lt_add_one_iff.mp hint
      gcongr
      exact_mod_cast hle
  · exact within_of_lt (not_le.mp hx)

/-- A number from ten units on is on the grid. -/
theorem num_grid (h : 10 ≤ |j|) : ∃ m : ℤ, Infra.num j = m * 2 ^ (-72 : ℤ) := by
  have habs : (2 : ℚ) ^ (-20 : ℤ) ≤ |(j : ℚ) / 10 ^ 7| := by
    rw [abs_div]
    have hj : (10 : ℚ) ≤ |(j : ℚ)| := by exact_mod_cast h
    norm_num
    linarith
  have hne : (j : ℚ) / 10 ^ 7 ≠ 0 := by
    intro hzero
    rw [hzero] at habs
    norm_num at habs
  have hlog : -20 ≤ Int.log 2 |(j : ℚ) / 10 ^ 7| :=
    (Int.zpow_le_iff_le_log (by norm_num) (abs_pos.mpr hne)).mp (by exact_mod_cast habs)
  obtain ⟨n, hn⟩ := Int.eq_ofNat_of_zero_le (show 0 ≤ Int.log 2 |(j : ℚ) / 10 ^ 7| + 20 by omega)
  refine ⟨roundHalfEven ((j : ℚ) / 10 ^ 7 / ulp ((j : ℚ) / 10 ^ 7)) * 2 ^ n, ?_⟩
  unfold Infra.num nearest
  rw [if_neg hne]
  push_cast
  rw [mul_assoc]
  congr 1
  rw [ulp, show Int.log 2 |(j : ℚ) / 10 ^ 7| - 52 = n + -72 by omega, zpow_add₀ (by norm_num),
    zpow_natCast]

/-- A number is its decimal up to one part in `2^53`. -/
theorem abs_num_sub_le (j : ℤ) : |Infra.num j - j / 10 ^ 7| ≤ |(j : ℚ)| / 10 ^ 7 / 2 ^ 53 := by
  have h := abs_sub_nearest_le ((j : ℚ) / 10 ^ 7)
  rw [abs_sub_comm, abs_div, abs_of_pos (show (0 : ℚ) < 10 ^ 7 by norm_num)] at h
  exact h

/-- The difference of a number below ten units and one that is not ten units away. -/
theorem within_of_small (hj : |j| ≤ 9) (hne : |j - k| ≠ 10)
    (hx : |x| = |Infra.num j - Infra.num k|) :
    |nearest x| ≤ eps ↔ |x| ≤ 1 / 10 ^ 6 := by
  have hej := abs_num_sub_le j
  have hek := abs_num_sub_le k
  have hj9 : |(j : ℚ)| ≤ 9 := by exact_mod_cast hj
  have hk : |(k : ℚ)| ≤ |(j : ℚ) - k| + 9 := by
    have := abs_sub_abs_le_abs_sub (k : ℚ) j
    rw [abs_sub_comm] at this
    linarith
  have hsplit : Infra.num j - Infra.num k =
      (j - k) / 10 ^ 7 + (Infra.num j - j / 10 ^ 7) - (Infra.num k - k / 10 ^ 7) := by ring
  have herr : |Infra.num j - Infra.num k - (j - k) / 10 ^ 7| ≤
      (|(j : ℚ) - k| + 18) / 10 ^ 7 / 2 ^ 53 := by
    rw [hsplit, show (j - k) / 10 ^ 7 + (Infra.num j - j / 10 ^ 7) - (Infra.num k - k / 10 ^ 7) -
      (j - k) / 10 ^ 7 = (Infra.num j - j / 10 ^ 7) - (Infra.num k - k / 10 ^ 7) by ring]
    refine (abs_sub _ _).trans ((add_le_add hej hek).trans ?_)
    rw [← add_div, ← add_div]
    have hsum : |(j : ℚ)| + |(k : ℚ)| ≤ |(j : ℚ) - k| + 18 := by linarith
    exact div_le_div_of_nonneg_right (div_le_div_of_nonneg_right hsum (by norm_num)) (by norm_num)
  have habs : |((j : ℚ) - k) / 10 ^ 7| = |(j : ℚ) - k| / 10 ^ 7 := by
    rw [abs_div, abs_of_pos (show (0 : ℚ) < 10 ^ 7 by norm_num)]
  rcases lt_or_gt_of_ne hne with hlt | hgt
  · have h9 : |(j : ℚ) - k| ≤ 9 := by
      have : |j - k| ≤ 9 := by omega
      exact_mod_cast this
    apply within_of_le
    have := abs_sub_abs_le_abs_sub (Infra.num j - Infra.num k) (((j : ℚ) - k) / 10 ^ 7)
    rw [hx]
    rw [habs] at this
    norm_num at herr this ⊢
    linarith
  · have h11 : 11 ≤ |(j : ℚ) - k| := by
      have : 11 ≤ |j - k| := by omega
      exact_mod_cast this
    apply within_of_lt
    have := abs_sub_abs_le_abs_sub (((j : ℚ) - k) / 10 ^ 7) (Infra.num j - Infra.num k)
    rw [abs_sub_comm (((j : ℚ) - k) / 10 ^ 7)] at this
    rw [hx]
    rw [habs] at this
    norm_num at herr this ⊢
    linarith

/-- The subtraction of two amounts does not round across the tolerance. -/
theorem within_iff (j k : ℤ) : |nearest (Infra.num j - Infra.num k)| ≤ eps ↔
    |Infra.num j - Infra.num k| ≤ 1 / 10 ^ 6 := by
  by_cases hj : |j| ≤ 9
  · by_cases hten : |j - k| = 10
    · rw [abs_le] at hj
      have hd : k - j ∈ [10, -10] := by
        rcases abs_eq (by norm_num) |>.mp hten with h | h <;> simp <;> omega
      have h := (ten_apart ⟨(j + 9).toNat, by omega⟩ (k - j) hd).1
      simpa [show ((j + 9).toNat : ℤ) = j + 9 by omega] using h
    · exact within_of_small hj hten rfl
  by_cases hk : |k| ≤ 9
  · by_cases hten : |k - j| = 10
    · rw [abs_le] at hk
      have hd : j - k ∈ [10, -10] := by
        rcases abs_eq (by norm_num) |>.mp hten with h | h <;> simp <;> omega
      have h := (ten_apart ⟨(k + 9).toNat, by omega⟩ (j - k) hd).2
      simpa [show ((k + 9).toNat : ℤ) = k + 9 by omega] using h
    · exact within_of_small hk hten (abs_sub_comm _ _)
  obtain ⟨m, hm⟩ := num_grid (j := j) (by omega)
  obtain ⟨n, hn⟩ := num_grid (j := k) (by omega)
  exact within_of_grid (m := m - n) (by rw [hm, hn]; push_cast; ring)

end tolerance

/-! ### The amounts that are compared -/

theorem expectedUsdc_cases (tx : TxRow) :
    expectedUsdc tx = some .infinite ∨ ∃ k, expectedUsdc tx = some (.finite (Infra.num k)) := by
  have hround : ∀ n, roundAmount n = .infinite ∨ ∃ k, roundAmount n = .finite (Infra.num k) := by
    intro n
    unfold roundAmount
    split
    · exact .inl rfl
    · exact .inr ⟨_, rfl⟩
  have hnum : ∀ v, num v = none ∨ ∃ n, num v = some (roundAmount n) := by
    intro v
    unfold num
    split
    · exact .inl rfl
    · exact .inl rfl
    · cases v.toNumber with
      | none => exact .inl rfl
      | some n => exact .inr ⟨n, rfl⟩
  unfold expectedUsdc
  obtain h | ⟨n, h⟩ := hnum ((((tx.meta "usdcAmount").orElse (tx.meta "ledgerAmount")).orElse
    (tx.meta "settlementUsdc")).orElse (tx.meta "usdc_amount")) <;> rw [h]
  · exact .inr ⟨_, rfl⟩
  · obtain h | ⟨k, h⟩ := hround n <;> rw [h]
    · exact .inl rfl
    · exact .inr ⟨k, rfl⟩

/-- A column passes the comparison when it is as expected. -/
theorem amountsEqual_expected {tx : TxRow} {c : ℤ} {e : Amount} (he : expectedUsdc tx = some e) :
    amountsEqual (some (columnAmount c)) (some e) = true ↔ AsExpected tx c := by
  obtain h | ⟨k, h⟩ := expectedUsdc_cases tx
  · obtain rfl := Option.some.inj (he.symm.trans h)
    simp [amountsEqual, AsExpected, he, Amount.Within]
  · obtain rfl := Option.some.inj (he.symm.trans h)
    simp only [amountsEqual, columnAmount, AsExpected, he, Option.some.injEq, exists_eq_left',
      Amount.Within, decide_eq_true_eq]
    exact within_iff _ k

theorem amountMismatches_cons {base : Amount} {rest : List Amount} (h : rest ≠ []) :
    amountMismatches (base :: rest) = [] ↔
      ∀ a ∈ base :: rest, amountsEqual (some a) (some base) = true := by
  simp only [amountMismatches, h, ne_eq, not_false_eq_true, true_and, List.any_eq_true,
    Bool.not_eq_true', ite_eq_right_iff, reduceCtorEq, imp_false, not_exists, not_and,
    Bool.not_eq_false]

/-- The comparisons of the amounts of a posted transaction. -/
theorem amountMismatches_nil {tx : TxRow} {row : LedgerRow} {e : Amount} {cs : List ℤ}
    {own : List Amount} (he : expectedUsdc tx = some e) (hown : ∀ a ∈ own, a = e) :
    amountMismatches (e :: (own ++ columnAmount row.amount :: cs.map columnAmount)) = [] ↔
      AsExpected tx row.amount ∧ ∀ c ∈ cs, AsExpected tx c := by
  have hself : AsExpected tx row.amount → amountsEqual (some e) (some e) = true := by
    rintro ⟨e', he', hin⟩
    obtain rfl := Option.some.inj (he.symm.trans he')
    cases e with
    | infinite => exact hin.elim
    | finite q => simp [amountsEqual, eps_bounds.1.trans' (by norm_num : (0 : ℚ) ≤ 99 / 10 ^ 8)]
  rw [amountMismatches_cons (by simp)]
  constructor
  · intro h
    have hrow := (amountsEqual_expected he).mp (h (columnAmount row.amount) (by simp))
    refine ⟨hrow, fun c hc => (amountsEqual_expected he).mp (h (columnAmount c) ?_)⟩
    simp only [List.mem_cons, List.mem_append]
    exact .inr (.inr (.inr (List.mem_map_of_mem hc)))
  · rintro ⟨hrow, hcs⟩ a ha
    simp only [List.mem_cons, List.mem_append, List.mem_map] at ha
    obtain ha | ha | rfl | ⟨c, hc, rfl⟩ := ha
    · rw [ha]
      exact hself hrow
    · rw [hown a ha]
      exact hself hrow
    · exact (amountsEqual_expected he).mpr hrow
    · exact (amountsEqual_expected he).mpr (hcs c hc)

/-! ### The legs -/

theorem eraseDups_eq_nil {α : Type} [DecidableEq α] {l : List α} : l.eraseDups = [] ↔ l = [] := by
  cases l with
  | nil => simp
  | cons a l => simp [List.eraseDups_cons]

theorem classify_reconciled (p : ProviderLeg) (l : LedgerLeg) (s : SettlementLeg)
    (e : Option Amount) (skip : Bool) :
    (classify p l s e skip).status = .reconciled ↔
      providerMismatches p skip = [] ∧ ledgerMismatches l = [] ∧ settlementMismatches s = [] ∧
        amountMismatches (presentAmounts p l s e) = [] ∧ assetMismatches l = [] := by
  unfold classify
  dsimp only
  split
  case isTrue h =>
    simpa [eraseDups_eq_nil, and_assoc] using h
  case isFalse h =>
    rw [eraseDups_eq_nil] at h
    simp only [List.append_eq_nil_iff, and_assoc] at h
    simp only [h, iff_false]
    split <;> simp

theorem not_failed_of_confirmed {status : Option String} (h : isProviderConfirmed status = true) :
    isProviderFailed status = false := by
  simp only [isProviderConfirmed, List.mem_cons, List.mem_nil_iff, or_false,
    decide_eq_true_eq] at h
  unfold isProviderFailed
  rcases h with h | h | h | h | h <;> rw [h] <;> decide

/-- The provider leg passes when the provider confirms. -/
theorem providerMismatches_nil (tx : TxRow) :
    providerMismatches (observeProvider tx) (isStellarNativeDeposit tx || isInternalTransfer tx) =
      [] ↔
      (providerApplies tx = true → isProviderConfirmed (observeProvider tx).status = true) := by
  unfold providerMismatches providerApplies
  cases hskip : isStellarNativeDeposit tx || isInternalTransfer tx with
  | true => simp
  | false =>
    by_cases hok : isProviderConfirmed (observeProvider tx).status = true
    · have hpresent : (observeProvider tx).present = true := by
        unfold observeProvider at hok ⊢
        rw [hskip] at hok ⊢
        simp only [Bool.false_eq_true, if_false] at hok ⊢
        simp [hok]
      simp [hok, not_failed_of_confirmed hok, hpresent]
    · simp only [hok, Bool.false_eq_true, if_false, Bool.not_false, if_true, imp_false]
      split
      · simp
      · split <;> simp

/-- The leg of a movement that settles. -/
theorem observeLedger_posted {tx : TxRow} {b : Books} {row : LedgerRow}
    (h : movementOf tx b (settledType tx) = some row) :
    ∃ status, observeLedger tx b = .found row status true ∧
      status ≠ "PENDING_DEPOSIT" ∧ status ≠ "PENDING_FUNDING" := by
  unfold settledType at h
  unfold observeLedger
  split_ifs at h ⊢ with hinternal _ hdeposit hpayment
  · dsimp only
    rw [h]
    exact ⟨_, rfl, by decide, by decide⟩
  · dsimp only
    rw [h]
    exact ⟨_, rfl, by decide, by decide⟩
  · unfold creditOrPending
    rw [h]
    exact ⟨_, rfl, by decide, by decide⟩
  · unfold creditOrPending
    rw [h]
    exact ⟨_, rfl, by decide, by decide⟩
  · rw [h]
    exact ⟨_, rfl, by decide, by decide⟩

/-- Without it the ledger does not pass. -/
theorem observeLedger_unposted {tx : TxRow} {b : Books}
    (h : movementOf tx b (settledType tx) = none) : ledgerMismatches (observeLedger tx b) ≠ [] := by
  have hpending : ∀ credit pending status, movementOf tx b credit = none →
      status = "PENDING_DEPOSIT" ∨ status = "PENDING_FUNDING" →
      ledgerMismatches (creditOrPending tx b credit pending status) ≠ [] := by
    intro credit pending status hcredit hstatus
    unfold creditOrPending
    rw [hcredit]
    cases movementOf tx b pending with
    | none => simp [ledgerMismatches, LedgerLeg.missing]
    | some row => rcases hstatus with rfl | rfl <;> simp [ledgerMismatches, LedgerLeg.found]
  unfold settledType at h
  unfold observeLedger
  split_ifs at h ⊢ with hinternal _ hdeposit hpayment
  · dsimp only
    rw [h]
    simp [ledgerMismatches, LedgerLeg.missing]
  · dsimp only
    rw [h]
    simp [ledgerMismatches, LedgerLeg.missing]
  · exact hpending _ _ _ h (.inl rfl)
  · exact hpending _ _ _ h (.inr rfl)
  · rw [h]
    dsimp only
    split <;> simp [ledgerMismatches, LedgerLeg.missing]

/-- The amounts of a settlement that are compared. -/
def SettlementLeg.amounts (s : SettlementLeg) : List Amount :=
  if s.applicable ∧ s.present then s.amount.toList else []

/-- The verdict, by its three legs. -/
theorem status_reconciled {tx : TxRow} {b : Books} (cs : List ℤ)
    (hcs : (observeSettlement tx b).amounts = cs.map columnAmount) :
    (reconcileTransaction tx b).status = .reconciled ↔
      Posted tx b ∧ settlementMismatches (observeSettlement tx b) = [] ∧
        ∀ c ∈ cs, AsExpected tx c := by
  unfold reconcileTransaction
  dsimp only
  rw [classify_reconciled, providerMismatches_nil]
  cases hrow : movementOf tx b (settledType tx) with
  | none =>
    constructor
    · intro h
      exact absurd h.2.1 (observeLedger_unposted hrow)
    · intro h
      obtain ⟨row, hrow', -⟩ := h.1.ledger
      simp [hrow] at hrow'
  | some row =>
    obtain ⟨status, hledger, hdeposit, hfunding⟩ := observeLedger_posted hrow
    obtain ⟨e, he⟩ : ∃ e, expectedUsdc tx = some e := by
      obtain h | ⟨k, h⟩ := expectedUsdc_cases tx
      · exact ⟨_, h⟩
      · exact ⟨_, h⟩
    have hprovider : (observeProvider tx).amount = some e := by
      unfold observeProvider
      split <;> exact he
    have hown : ∀ a ∈ (if (observeProvider tx).present then (observeProvider tx).amount.toList
        else []), a = e := by
      rw [hprovider]
      intro a ha
      split at ha <;> simp_all
    have hamounts : presentAmounts (observeProvider tx) (observeLedger tx b)
        (observeSettlement tx b) (expectedUsdc tx) =
          e :: ((if (observeProvider tx).present then (observeProvider tx).amount.toList else []) ++
            columnAmount row.amount :: cs.map columnAmount) := by
      unfold presentAmounts
      rw [← hcs, hledger, he]
      simp [LedgerLeg.found, SettlementLeg.amounts]
    have hpassed : ledgerMismatches (observeLedger tx b) = [] := by
      rw [hledger]
      simp [ledgerMismatches, LedgerLeg.found, hdeposit, hfunding]
    have hasset : assetMismatches (observeLedger tx b) = [] ↔ row.isUsdc = true := by
      have hne : orDefault (some row.asset) "USDC" ≠ "" := by
        unfold orDefault orNull
        by_cases hempty : row.asset = "" <;> simp [hempty, Option.filter]
      rw [hledger]
      simp [assetMismatches, LedgerLeg.found, LedgerRow.isUsdc, orNull, hne]
    rw [hamounts, amountMismatches_nil he hown, hasset]
    constructor
    · rintro ⟨hconfirmed, -, hsettlement, ⟨hexpected, hall⟩, husdc⟩
      exact ⟨⟨hconfirmed, row, hrow, husdc, hexpected⟩, hsettlement, hall⟩
    · rintro ⟨⟨hconfirmed, row', hrow', husdc, hexpected⟩, hsettlement, hall⟩
      obtain rfl := Option.some.inj (hrow.symm.trans hrow')
      exact ⟨hconfirmed, hpassed, hsettlement, ⟨hexpected, hall⟩, husdc⟩

/-- A leg that reports what is on record of a settlement. -/
structure Reports (leg : SettlementLeg) (e : Evidence) : Prop where
  asked : leg.applicable = true ∧ leg.required = true ∧ leg.present = true
  amount : leg.amount = some (columnAmount e.amount)
  ok : leg.ok = true ↔ e.status.toLower = "confirmed"
  status : leg.ok = true → leg.status = some "CONFIRMED"

/-- A leg that is asked for and not confirmed does not pass. -/
theorem settlementMismatches_ne_nil {s : SettlementLeg} (ha : s.applicable = true)
    (hr : s.required = true) (hok : s.ok = false) : settlementMismatches s ≠ [] := by
  unfold settlementMismatches
  rw [if_pos ⟨ha, hr⟩]
  dsimp only
  split_ifs <;> simp_all

/-- A confirmed leg passes. -/
theorem settlementMismatches_confirmed {s : SettlementLeg} (hp : s.present = true)
    (hok : s.ok = true) (hs : s.status = some "CONFIRMED") : settlementMismatches s = [] := by
  unfold settlementMismatches
  rw [hp, hok, hs]
  split
  · decide +kernel
  · rfl

theorem Reports.mismatches {leg : SettlementLeg} {e : Evidence} (h : Reports leg e) :
    settlementMismatches leg = [] ↔ e.status.toLower = "confirmed" := by
  rw [← h.ok]
  constructor
  · intro hnil
    by_contra hok
    exact settlementMismatches_ne_nil h.asked.1 h.asked.2.1 (by simpa using hok) hnil
  · intro hok
    exact settlementMismatches_confirmed h.asked.2.2 hok (h.status hok)

theorem Reports.amounts {leg : SettlementLeg} {e : Evidence} (h : Reports leg e) :
    leg.amounts = [e.amount].map columnAmount := by
  unfold SettlementLeg.amounts
  rw [if_pos ⟨h.asked.1, h.asked.2.2⟩, h.amount]
  rfl

/-- What the lookup of a settlement finds, off-ramp payouts aside. -/
theorem observeSettlement_cases {tx : TxRow} {b : Books}
    (hother : ¬ ((isInternalTransfer tx && !isOnchainInternalTransfer tx) = false ∧
      isOffRampPayout tx = true)) :
    (requiredSettlements tx b = [] ∧ observeSettlement tx b = .notApplicable) ∨
    (requiredSettlements tx b = [none] ∧ observeSettlement tx b = .missing) ∨
    (∃ e, requiredSettlements tx b = [some e] ∧ Reports (observeSettlement tx b) e) ∨
    (requiredSettlements tx b = [none] ∧ observeSettlement tx b = .notApplicable ∧
      isOnchainInternalTransfer tx = true ∧
      (tx.direction = .deposit || isStellarNativeDeposit tx) = false ∧
      settlementRequired tx b = false ∧ isOffRampPayout tx = false) := by
  unfold requiredSettlements observeSettlement
  cases hoff : isInternalTransfer tx && !isOnchainInternalTransfer tx with
  | true => exact .inl (by simp)
  | false =>
    have hramp : isOffRampPayout tx = false := by
      simpa [hoff] using hother
    simp only [hramp, Bool.false_eq_true, if_false]
    cases hfound : settlementOf tx b with
    | some s =>
      have hneeded : settlementRequired tx b = true := by
        simp [settlementRequired, hfound]
      simp only [reduceCtorEq, false_and, if_false, hneeded, Bool.not_true, Bool.false_eq_true,
        and_false]
      refine .inr (.inr (.inl ⟨s.evidence, rfl, ?_⟩))
      refine ⟨by simp, rfl, by simp [SettlementRow.evidence], fun hok => ?_⟩
      simp only [decide_eq_true_eq] at hok
      simp only [hok]
      decide
    | none =>
      simp only [true_and]
      cases hdeposit : (tx.direction = .deposit || isStellarNativeDeposit tx : Bool) with
      | true =>
        simp only [if_true]
        cases depositOf tx b with
        | none => exact .inr (.inl ⟨rfl, rfl⟩)
        | some d =>
          refine .inr (.inr (.inl ⟨d.evidence, rfl, ⟨by simp [observeDeposit], rfl, ?_, ?_⟩⟩))
          · simp [observeDeposit, DepositRow.evidence]
          · intro hok
            simp only [observeDeposit, decide_eq_true_eq] at hok
            simp [observeDeposit, hok]
      | false =>
        simp only [Bool.false_eq_true, if_false]
        cases hneeded : settlementRequired tx b with
        | true =>
          simp only [Bool.or_true, if_true, Bool.not_true, Bool.false_eq_true, if_false]
          refine .inr (.inl ⟨trivial, ?_⟩)
          split <;> rfl
        | false =>
          cases honchain : isOnchainInternalTransfer tx with
          | true => simp
          | false => simp

/-- What the lookup of the legs of an off-ramp payout finds. -/
theorem observeOffRamp_mismatches (tx : TxRow) (b : Books) :
    settlementMismatches (observeOffRamp tx b) = [] ↔
      hasStatus (stellarLeg tx b) "confirmed" = true ∧
        hasStatus (providerLeg tx b) "confirmed" = true := by
  constructor
  · intro hnil
    by_contra hok
    apply settlementMismatches_ne_nil _ _ _ hnil
    · rfl
    · rfl
    · simpa [observeOffRamp] using hok
  · rintro ⟨hstellar, hprovider⟩
    apply settlementMismatches_confirmed
    · cases hleg : stellarLeg tx b with
      | some s => simp [observeOffRamp, hleg]
      | none =>
        rw [hleg] at hstellar
        exact absurd hstellar (by decide +kernel)
    · simp [observeOffRamp, hstellar, hprovider]
    · simp [observeOffRamp, hstellar, hprovider]

/-- A leg that has a status is on record. -/
theorem hasStatus_iff {leg : Option SettlementRow} :
    hasStatus leg "confirmed" = true ↔ ∃ s, leg = some s ∧ s.status.toLower = "confirmed" := by
  cases leg with
  | none => exact iff_of_false (by decide +kernel) (by simp)
  | some s => simp [hasStatus]

/-! ### The verdict -/

/-- The verdict on an off-ramp payout reads the amount of one leg. -/
theorem offRamp_reconciled {tx : TxRow} {b : Books}
    (hoff : (isInternalTransfer tx && !isOnchainInternalTransfer tx) = false)
    (hramp : isOffRampPayout tx = true) :
    (reconcileTransaction tx b).status = .reconciled ↔
      Posted tx b ∧ Settled tx ((stellarLeg tx b).map (·.evidence)) ∧
        ∃ leg, providerLeg tx b = some leg ∧ leg.status.toLower = "confirmed" := by
  have hobserve : observeSettlement tx b = observeOffRamp tx b := by
    unfold observeSettlement
    simp [hoff, hramp]
  cases hleg : stellarLeg tx b with
  | none =>
    rw [status_reconciled [] (by
      rw [hobserve]
      unfold SettlementLeg.amounts
      split <;> simp [observeOffRamp, hleg])]
    rw [hobserve, observeOffRamp_mismatches, hasStatus_iff]
    simp [hleg, Settled]
  | some s =>
    rw [status_reconciled [s.amount] (by
      rw [hobserve]
      simp [SettlementLeg.amounts, observeOffRamp, hleg])]
    rw [hobserve, observeOffRamp_mismatches, hasStatus_iff, hasStatus_iff]
    simp only [hleg, Settled, Option.some.injEq, exists_eq_left', Option.map_some,
      SettlementRow.evidence, List.mem_singleton, forall_eq]
    tauto

/-- A transaction that reconciles, by the settlements it needs. -/
theorem reconciles_iff {tx : TxRow} {b : Books} {legs : List (Option Evidence)}
    (h : requiredSettlements tx b = legs) :
    Reconciles tx b ↔ Posted tx b ∧ ∀ leg ∈ legs, Settled tx leg := by
  subst h
  constructor
  · rintro ⟨hposted, hsettled⟩
    exact ⟨hposted, hsettled⟩
  · rintro ⟨hposted, hsettled⟩
    exact ⟨hposted, hsettled⟩

/-- The verdict on an off-ramp payout is wrong only about an amount that is not read. -/
theorem offRamp_iff {tx : TxRow} {b : Books}
    (hoff : (isInternalTransfer tx && !isOnchainInternalTransfer tx) = false)
    (hramp : isOffRampPayout tx = true) :
    ((reconcileTransaction tx b).status = .reconciled ↔ Reconciles tx b) ↔
      ¬ UnreadAmount tx b := by
  have hneeds : requiredSettlements tx b =
      [(stellarLeg tx b).map (·.evidence), (providerLeg tx b).map (·.evidence)] := by
    unfold requiredSettlements
    simp [hoff, hramp]
  rw [offRamp_reconciled hoff hramp, reconciles_iff hneeds]
  simp only [List.mem_cons, List.mem_nil_iff, or_false, forall_eq_or_imp, forall_eq]
  constructor
  · intro hiff hunread
    obtain ⟨leg, hleg, hconfirmed, hamount⟩ := hunread.provider
    obtain ⟨-, -, e, he, -, hagrees⟩ :=
      hiff.mp ⟨hunread.posted, hunread.stellar, leg, hleg, hconfirmed⟩
    rw [hleg] at he
    obtain rfl := Option.some.inj he
    exact hamount hagrees
  · intro hread
    constructor
    · rintro ⟨hposted, hstellar, leg, hleg, hconfirmed⟩
      refine ⟨hposted, hstellar, leg.evidence, by rw [hleg]; rfl, hconfirmed, ?_⟩
      by_contra hamount
      exact hread ⟨hoff, hramp, hstellar, ⟨leg, hleg, hconfirmed, hamount⟩, hposted⟩
    · rintro ⟨hposted, hstellar, e, he, hconfirmed, -⟩
      obtain ⟨leg, hleg, rfl⟩ := Option.map_eq_some_iff.mp he
      exact ⟨hposted, hstellar, leg, hleg, hconfirmed⟩

/-- A transfer whose settlement is nowhere needs one, and the lookup asks for none. -/
theorem UnsettledTransfer.overlooked {tx : TxRow} {b : Books} (h : UnsettledTransfer tx b) :
    requiredSettlements tx b = [none] ∧ observeSettlement tx b = .notApplicable := by
  have hnone : settlementOf tx b = none := by
    have hnowhere := h.nowhere
    simp only [settlementRequired, Bool.or_eq_false_iff, Option.isSome_eq_false_iff,
      Option.isNone_iff_eq_none] at hnowhere
    exact hnowhere.1.1.1
  have hdeposit := h.notDeposit
  constructor
  · unfold requiredSettlements
    simp [h.onchain, h.notOffRamp, hnone, hdeposit]
  · unfold observeSettlement
    simp [h.onchain, h.notOffRamp, hnone, hdeposit, h.nowhere]

/-- On any other transaction it is wrong only about a settlement that is nowhere. -/
theorem other_iff {tx : TxRow} {b : Books}
    (hother : ¬ ((isInternalTransfer tx && !isOnchainInternalTransfer tx) = false ∧
      isOffRampPayout tx = true)) :
    ((reconcileTransaction tx b).status = .reconciled ↔ Reconciles tx b) ↔
      ¬ UnsettledTransfer tx b := by
  obtain ⟨hneeds, hobserve⟩ | ⟨hneeds, hobserve⟩ | ⟨e, hneeds, hreports⟩ |
    ⟨hneeds, hobserve, honchain, hdeposit, hnowhere, hramp⟩ :=
      observeSettlement_cases hother
  · have hsettled : ¬ UnsettledTransfer tx b := by
      intro h
      have hempty := hneeds.symm.trans h.overlooked.1
      simp at hempty
    rw [status_reconciled [] (by rw [hobserve]; rfl), reconciles_iff hneeds, hobserve]
    simp [hsettled, settlementMismatches, SettlementLeg.notApplicable]
  · have hsettled : ¬ UnsettledTransfer tx b := by
      intro h
      have hmissing := hobserve.symm.trans h.overlooked.2
      simp [SettlementLeg.missing, SettlementLeg.notApplicable] at hmissing
    rw [status_reconciled [] (by rw [hobserve]; rfl), reconciles_iff hneeds, hobserve]
    simp [hsettled, settlementMismatches, SettlementLeg.missing, Settled]
  · have hsettled : ¬ UnsettledTransfer tx b := by
      intro h
      have hsome := hneeds.symm.trans h.overlooked.1
      simp at hsome
    rw [status_reconciled _ hreports.amounts, hreports.mismatches, reconciles_iff hneeds]
    simp [hsettled, Settled]
  · rw [status_reconciled [] (by rw [hobserve]; rfl), reconciles_iff hneeds, hobserve]
    have hunsettled : UnsettledTransfer tx b ↔ Posted tx b :=
      ⟨fun h => h.posted, fun h => ⟨honchain, hramp, hdeposit, hnowhere, h⟩⟩
    rw [hunsettled]
    simp [settlementMismatches, SettlementLeg.notApplicable, Settled]

/-- The verdict is right exactly when no settlement and no amount is overlooked. -/
theorem verdict_iff (tx : TxRow) (b : Books) :
    ((reconcileTransaction tx b).status = .reconciled ↔ Reconciles tx b) ↔
      ¬ (UnsettledTransfer tx b ∨ UnreadAmount tx b) := by
  by_cases hramp : (isInternalTransfer tx && !isOnchainInternalTransfer tx) = false ∧
      isOffRampPayout tx = true
  · have hsettled : ¬ UnsettledTransfer tx b := fun h => by
      simp [h.notOffRamp] at hramp
    rw [offRamp_iff hramp.1 hramp.2]
    simp [hsettled]
  · have hread : ¬ UnreadAmount tx b := fun h => hramp ⟨h.notOffchain, h.offRamp⟩
    rw [other_iff hramp]
    simp [hread]

/-! ### Two overlooked losses -/

/-- A transfer of ten USDC that was to be paid on Stellar. -/
def onchainTransfer : TxRow where
  id := "tx"
  orgId := "org"
  environment := "live"
  amount := 100000000
  status := "settled"
  method := some "internal_transfer"
  direction := .internalTransfer
  externalId := none
  metadata := [("type", .text "internal_transfer"), ("role", .text "sender"),
    ("settlementMode", .text "STELLAR_ONCHAIN"), ("usdcAmount", .number 10)]

/-- Its debit is posted, and no settlement is on record. -/
def debitOnly : Books where
  movements := [⟨"m", "org", "live", "tx", "internal_transfer_debit", 100000000, "USDC"⟩]
  settlements := []
  deposits := []
  fundingMode := .live

/-- The transfer is reconciled without a settlement. -/
theorem unsettled_is_reconciled :
    ¬ ((reconcileTransaction onchainTransfer debitOnly).status = .reconciled ↔
      Reconciles onchainTransfer debitOnly) := by
  intro h
  have hreconciled : (reconcileTransaction onchainTransfer debitOnly).status = .reconciled := by
    decide +kernel
  have hneeds : requiredSettlements onchainTransfer debitOnly = [none] := by
    decide +kernel
  obtain ⟨e, he, -⟩ := (h.mp hreconciled).settled none (by simp [hneeds])
  simp at he

/-- An off-ramp payout of ten USDC. -/
def offRampPayout : TxRow where
  id := "tx"
  orgId := "org"
  environment := "live"
  amount := 100000000
  status := "settled"
  method := some "bank"
  direction := .payout
  externalId := some "sequence"
  metadata := [("offRamp", .bool true), ("usdcAmount", .number 10)]

/-- The treasury was paid ten USDC and the provider one. -/
def underpaid : Books where
  movements := [⟨"m", "org", "live", "tx", "payout_settle", 100000000, "USDC"⟩]
  settlements :=
    [⟨"s", "org", some "tx", none, "STELLAR", 100000000, "confirmed", none⟩,
      ⟨"p", "org", some "tx", none, "PROVIDER", 10000000, "confirmed", none⟩]
  deposits := []
  fundingMode := .live

example : (reconcileTransaction offRampPayout underpaid).status = .reconciled := by
  decide +kernel

end DayfiBackend.Infra.Reconciliation
