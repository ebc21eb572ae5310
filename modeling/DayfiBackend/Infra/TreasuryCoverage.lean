import DayfiBackend.Infra.Exact

/-!
# Treasury coverage

The treasury is healthy when its holdings cover what the platform owes its customers: the balances
of every wallet of a customer organisation. `getCustomerLiabilityTotals` sums the wallets that are
active and whose organisation does not have the slug of the fee organisation. A frozen or closed
wallet of a customer is left out, and the organisation that `DAYFI_INFRA_FEE_ORG_ID` names for the
fees is counted in; the total is right exactly when the two cancel (`sound_iff`).

* Holdings are in stroops, balances in minor units of a `NUMERIC(28,7)` column; SQL sums them
  exactly, and the sums are read as numbers.
* Obligations, the custody of customers and the texts of a position are left out: its status does
  not read them.
-/

namespace DayfiBackend.Infra.Treasury

open DayfiBackend.Found.Binary64 DayfiBackend.Found.Keys

/-! ### Tables and settings -/

/-- A row of `infra_organizations`. -/
structure Organization where
  id : String
  slug : Option String
  deriving DecidableEq, Repr

/-- A row of `infra_wallet_accounts`, joined with its organisation. -/
structure WalletRow where
  org : Organization
  environment : String
  asset : String
  status : WalletStatus
  balance : Buckets ℤ
  nonneg : balance.Nonneg

/-- The environment variables; a threshold is `none` when it is not a finite number. -/
structure Settings where
  healthyCoverage : Option ℚ := some (nearest (105 / 100))
  lowCoverage : Option ℚ := some 1
  frozen : Bool := false
  feeOrgId : Option String := none
  treasuryPublicKey : Option String := none
  deriving DecidableEq, Repr

/-- Source: `infraFeeService.ts` `FEE_ORG_SLUG`. -/
def feeOrgSlug : String := "dayfi-platform-fee-revenue"

/-- A threshold, when it is a positive number. -/
def thresholdOr (default : ℚ) (raw : Option ℚ) : ℚ := (raw.filter (0 < ·)).getD default

/-- Source: `infraTreasuryService.ts` `healthyCoverageThreshold`. -/
def Settings.healthyCoverageThreshold (s : Settings) : ℚ :=
  thresholdOr (nearest (105 / 100)) s.healthyCoverage

/-- Source: `infraTreasuryService.ts` `lowCoverageThreshold`. -/
def Settings.lowCoverageThreshold (s : Settings) : ℚ := thresholdOr 1 s.lowCoverage

/-! ### Liabilities -/

/-- `SUM(…)` over rows. -/
def sumOver (f : WalletRow → ℤ) (ws : List WalletRow) : ℤ := (ws.map f).sum

/-- The wallets of an environment and an asset. -/
def walletsIn (environment asset : String) (ws : List WalletRow) : List WalletRow :=
  ws.filter fun w => w.environment = environment && w.asset = asset

/-- The rows the liabilities are summed over. -/
def WalletRow.counted (w : WalletRow) : Bool :=
  w.status = .active && w.org.slug ≠ some feeOrgSlug

/-- What `getCustomerLiabilityTotals` returns. -/
structure LiabilityTotals where
  totalCustomerLiability : ℚ
  totalAvailableCustomerFunds : ℚ
  totalPendingCustomerFunds : ℚ
  totalLockedCustomerFunds : ℚ
  orgCount : ℕ
  excludedFeeRevenue : ℚ
  deriving DecidableEq, Repr

/-- Source: `infraTreasuryService.ts` `getCustomerLiabilityTotals`. -/
def getCustomerLiabilityTotals (ws : List WalletRow) (environment asset : String) :
    LiabilityTotals :=
  let rows := (walletsIn environment asset ws).filter (·.counted)
  let feeRows := (walletsIn environment asset ws).filter (·.org.slug = some feeOrgSlug)
  let available := num (sumOver (·.balance.available) rows)
  let pending := num (sumOver (·.balance.pending) rows)
  let locked := num (sumOver (·.balance.locked) rows)
  { totalCustomerLiability := round7 (nearest (nearest (available + pending) + locked))
    totalAvailableCustomerFunds := round7 available
    totalPendingCustomerFunds := round7 pending
    totalLockedCustomerFunds := round7 locked
    orgCount := rows.length
    excludedFeeRevenue := round7 (num (sumOver (·.balance.total) feeRows)) }

/-! ### The position -/

/-- Source: `infraTreasuryService.ts` `TreasuryStatus`. -/
inductive TreasuryStatus where
  | healthy
  | lowLiquidity
  | insufficientLiquidity
  | reconciliationRequired
  | frozen
  | unconfigured
  deriving DecidableEq, Repr

/-- Source: `infraTreasuryService.ts` `classifyTreasuryStatus`. -/
def classifyTreasuryStatus (s : Settings) (configured observationOk : Bool)
    (coverageRatio : Option ℚ) (differences : ℕ) : TreasuryStatus :=
  if configured = false then .unconfigured
  else if s.frozen then .frozen
  else if observationOk = false ∨ 0 < differences then .reconciliationRequired
  else
    match coverageRatio with
    | none => .reconciliationRequired
    | some coverage =>
        if coverage < s.lowCoverageThreshold then .insufficientLiquidity
        else if coverage < s.healthyCoverageThreshold then .lowLiquidity
        else .healthy

/-- What `getTreasuryPosition` returns of USDC. -/
structure TreasuryPosition where
  status : TreasuryStatus
  onChainBalance : ℚ
  customerLiability : ℚ
  liquidityGap : ℚ
  coverageRatio : Option ℚ
  deriving DecidableEq, Repr

/-- `onChain` is what Horizon shows of the treasury's account, if it could be observed.
Source: `infraTreasuryService.ts` `getTreasuryPosition`. -/
def getTreasuryPosition (s : Settings) (ws : List WalletRow) (environment : String)
    (onChain : Option ℤ) : TreasuryPosition :=
  let onChain := if (orNull s.treasuryPublicKey).isSome then onChain else none
  let liability := (getCustomerLiabilityTotals ws environment "USDC").totalCustomerLiability
  let differences := if onChain.isNone then 1 else 0
  let onChainUsdc := (onChain.map num).getD 0
  let availableLiquidity := round7 onChainUsdc
  let coverage :=
    if 0 < liability then some (round7 (nearest (availableLiquidity / liability)))
    else if 0 < availableLiquidity then none
    else some 1
  let ratio :=
    if liability = 0 then
      some (if 0 ≤ availableLiquidity then max s.healthyCoverageThreshold 1 else 0)
    else coverage
  { status := classifyTreasuryStatus s (orNull s.treasuryPublicKey).isSome onChain.isSome ratio
      differences
    onChainBalance := onChainUsdc
    customerLiability := liability
    liquidityGap := -round7 (nearest (liability - availableLiquidity))
    coverageRatio := coverage }

/-! ### The property -/

/-- A wallet of the platform's fee revenue: of the organisation with the slug, or of the one the
environment names. Source: `infraFeeService.ts` `ensureFeeRevenueOrg`. -/
def WalletRow.platform (s : Settings) (w : WalletRow) : Bool :=
  w.org.slug = some feeOrgSlug ||
    (trim (orDefault s.feeOrgId "") ≠ "" && w.org.id = trim (orDefault s.feeOrgId ""))

/-- All that is owed to customers. -/
def customerBalances (s : Settings) (ws : List WalletRow) (environment asset : String) : ℤ :=
  sumOver (·.balance.total) ((walletsIn environment asset ws).filter (!·.platform s))

/-- The total is what is owed to customers, and a healthy treasury holds it; a threshold of one or
less asks for less than that. -/
structure Sound (s : Settings) (ws : List WalletRow) (environment : String) : Prop where
  total : ∀ asset,
    toNumeric (getCustomerLiabilityTotals ws environment asset).totalCustomerLiability =
      customerBalances s ws environment asset
  covered : 1 < s.healthyCoverageThreshold → ∀ holdings : ℤ, 0 ≤ holdings →
    (getTreasuryPosition s ws environment (some holdings)).status = .healthy →
      customerBalances s ws environment "USDC" ≤ holdings

/-- The balances of customers that are not counted: their wallet is not active. -/
def droppedBalances (s : Settings) (ws : List WalletRow) (environment asset : String) : ℤ :=
  sumOver (·.balance.total) ((walletsIn environment asset ws).filter fun w =>
    !w.platform s && w.status ≠ .active)

/-- The balances of the platform that are counted: its organisation has another slug. -/
def extraBalances (s : Settings) (ws : List WalletRow) (environment asset : String) : ℤ :=
  sumOver (·.balance.total) ((walletsIn environment asset ws).filter fun w =>
    w.platform s && w.counted)

/-- The balances that are counted. -/
def countedBalances (ws : List WalletRow) (environment asset : String) : ℤ :=
  sumOver (·.balance.total) ((walletsIn environment asset ws).filter (·.counted))

/-- Balances up to here are summed exactly. -/
def sumLimit : ℤ := 2 ^ 49

/-! ### Sums of numbers -/

section sums

/-- Three columns are added exactly. -/
theorem round7_add_add {a p l : ℤ} (ha : 0 ≤ a) (hp : 0 ≤ p) (hl : 0 ≤ l)
    (h : a + p + l ≤ sumLimit) :
    round7 (nearest (nearest (num a + num p) + num l)) = num (a + p + l) := by
  have herr : ∀ {c : ℤ}, 0 ≤ c → |num c * 10 ^ 7 - (c : ℚ)| ≤ (c : ℚ) / 2 ^ 53 := by
    intro c hc
    have hc' : (0 : ℚ) ≤ c := by exact_mod_cast hc
    simpa [abs_of_nonneg hc'] using abs_num_mul_sub_le c
  have hlim : ((a + p + l : ℤ) : ℚ) ≤ 2 ^ 49 := by
    have : ((a + p + l : ℤ) : ℚ) ≤ (sumLimit : ℚ) := by exact_mod_cast h
    exact this.trans (by unfold sumLimit; norm_num)
  have ha' : (0 : ℚ) ≤ a := by exact_mod_cast ha
  have hp' : (0 : ℚ) ≤ p := by exact_mod_cast hp
  have hl' : (0 : ℚ) ≤ l := by exact_mod_cast hl
  have hall := abs_nearest_add_le (add_nonneg ha hp) hl
    (abs_nearest_add_le ha hp (herr ha) (herr hp)) (herr hl)
  refine round7_eq_num ?_ (hall.trans ?_)
  · rw [abs_of_nonneg (by omega)]
    exact h.trans (by decide)
  · push_cast at hlim ⊢
    norm_num
    linarith

/-- A ratio of at most one is at most one after rounding. -/
theorem round7_ratio_le_one {q : ℚ} (h0 : 0 ≤ q) (h1 : q ≤ 1) : round7 (nearest q) ≤ 1 := by
  have hr0 : 0 ≤ nearest q := nearest_nonneg h0
  have hr1 : nearest q ≤ 1 + 1 / 2 ^ 53 := by
    have h := (abs_le.mp (abs_sub_nearest_le q)).1
    rw [abs_of_nonneg h0] at h
    have hq : q / 2 ^ 53 ≤ 1 / 2 ^ 53 := by gcongr
    linarith
  have hs : nearest (nearest q * 10 ^ 7) < 10 ^ 7 + 1 / 2 := by
    have h := (abs_le.mp (abs_sub_nearest_le (nearest q * 10 ^ 7))).1
    rw [abs_of_nonneg (by positivity)] at h
    norm_num at h hr1 ⊢
    linarith
  have hk : round (nearest (nearest q * 10 ^ 7)) ≤ 10 ^ 7 := by
    rw [round_eq]
    refine Int.lt_add_one_iff.mp (Int.floor_lt.mpr ?_)
    push_cast
    linarith
  have hk0 : 0 ≤ round (nearest (nearest q * 10 ^ 7)) := by
    rw [round_eq]
    exact Int.floor_nonneg.mpr (add_nonneg (nearest_nonneg (by positivity)) (by norm_num))
  unfold round7
  generalize round (nearest (nearest q * 10 ^ 7)) = k at hk hk0 ⊢
  rcases hk.eq_or_lt with rfl | hlt
  · norm_num
    have h := nearest_intCast (n := 1) (by norm_num)
    exact_mod_cast h.le
  · have hk1 : (k : ℚ) ≤ 10 ^ 7 - 1 := by
      have : k ≤ 10 ^ 7 - 1 := by omega
      exact_mod_cast this
    have hk0' : (0 : ℚ) ≤ k := by exact_mod_cast hk0
    have h := (abs_le.mp (abs_sub_nearest_le ((k : ℚ) / 10 ^ 7))).1
    rw [abs_of_nonneg (by positivity)] at h
    norm_num at h hk1 ⊢
    linarith

end sums

/-! ### The rows -/

section rows

variable {s : Settings} {ws : List WalletRow} {environment asset : String}

/-- Two selections of rows differ by what only one of them has. -/
theorem sumOver_filter_add (f : WalletRow → ℤ) (p q : WalletRow → Bool) (ws : List WalletRow) :
    sumOver f (ws.filter p) + sumOver f (ws.filter fun w => q w && !p w) =
      sumOver f (ws.filter q) + sumOver f (ws.filter fun w => p w && !q w) := by
  unfold sumOver
  induction ws with
  | nil => rfl
  | cons w ws ih =>
      cases hp : p w <;> cases hq : q w <;> simp [hp, hq] <;> linarith

/-- A row of a customer is left out exactly when its wallet is not active. -/
theorem customer_not_counted (w : WalletRow) :
    (!w.platform s && !w.counted) = (!w.platform s && (w.status ≠ .active : Bool)) := by
  by_cases hslug : w.org.slug = some feeOrgSlug
  · simp [WalletRow.platform, hslug]
  · simp [WalletRow.counted, hslug]

theorem counted_add_dropped (s : Settings) (ws : List WalletRow) (environment asset : String) :
    countedBalances ws environment asset + droppedBalances s ws environment asset =
      customerBalances s ws environment asset + extraBalances s ws environment asset := by
  have h := sumOver_filter_add (·.balance.total) (·.counted) (!·.platform s)
    (walletsIn environment asset ws)
  simp only [customer_not_counted, Bool.not_not] at h
  simp only [Bool.and_comm (WalletRow.counted _)] at h
  exact h

theorem sumOver_nonneg {f : WalletRow → ℤ} (hf : ∀ w : WalletRow, 0 ≤ f w) : 0 ≤ sumOver f ws := by
  unfold sumOver
  refine List.sum_nonneg fun n hn => ?_
  obtain ⟨w, -, rfl⟩ := List.mem_map.mp hn
  exact hf w

/-- The three sums make the sum of the totals. -/
theorem sumOver_total : sumOver (·.balance.total) ws =
    sumOver (·.balance.available) ws + sumOver (·.balance.pending) ws +
      sumOver (·.balance.locked) ws := by
  unfold sumOver
  induction ws with
  | nil => rfl
  | cons w ws ih =>
      simp only [List.map_cons, List.sum_cons]
      rw [ih]
      unfold Buckets.total
      omega

theorem countedBalances_nonneg : 0 ≤ countedBalances ws environment asset := by
  refine sumOver_nonneg fun w => ?_
  have h := w.nonneg
  exact add_nonneg (add_nonneg h.available h.pending) h.locked

/-- The total is the counted balances. -/
theorem totalCustomerLiability_eq (h : countedBalances ws environment asset ≤ sumLimit) :
    (getCustomerLiabilityTotals ws environment asset).totalCustomerLiability =
      num (countedBalances ws environment asset) := by
  unfold countedBalances at h ⊢
  rw [sumOver_total] at h ⊢
  exact round7_add_add (sumOver_nonneg fun w => w.nonneg.available)
    (sumOver_nonneg fun w => w.nonneg.pending) (sumOver_nonneg fun w => w.nonneg.locked) h

end rows

/-! ### Coverage -/

section coverage

variable {s : Settings} {ws : List WalletRow} {environment : String}

/-- A healthy treasury holds the counted balances. -/
theorem counted_le_of_healthy (hthreshold : 1 < s.healthyCoverageThreshold)
    (hrange : countedBalances ws environment "USDC" ≤ sumLimit) {holdings : ℤ} (h0 : 0 ≤ holdings)
    (h : (getTreasuryPosition s ws environment (some holdings)).status = .healthy) :
    countedBalances ws environment "USDC" ≤ holdings := by
  by_contra hless
  rw [not_le] at hless
  have hlimit : sumLimit ≤ exactLimit := by decide
  have hheld : |holdings| ≤ exactLimit := by
    rw [abs_of_nonneg h0]
    omega
  have howed : |countedBalances ws environment "USDC"| ≤ exactLimit := by
    rw [abs_of_nonneg countedBalances_nonneg]
    omega
  have hnum0 : 0 ≤ num holdings := nearest_nonneg (by positivity)
  have hlt := (num_lt_num_iff hheld howed).mpr hless
  have hpos := hnum0.trans_lt hlt
  have hratio := round7_ratio_le_one (div_nonneg hnum0 hpos.le) ((div_le_one hpos).mpr hlt.le)
  unfold getTreasuryPosition classifyTreasuryStatus at h
  rw [totalCustomerLiability_eq hrange] at h
  cases hkey : (orNull s.treasuryPublicKey).isSome with
  | false => simp [hkey] at h
  | true =>
      simp only [hkey, if_true, Option.map_some, Option.getD_some, round7_num hheld, hpos,
        hpos.ne', if_false, Option.isSome_some, Option.isNone_some, Bool.true_eq_false,
        Bool.false_eq_true, lt_irrefl, or_self] at h
      split_ifs at h with hfrozen hlow hhealthy
      exact hhealthy (hratio.trans_lt hthreshold)

/-- **Treasury coverage.** The liabilities are all that is owed to customers, and a healthy
treasury holds that, exactly when the customers' wallets that are not active hold as much as the
platform's own wallets under another slug. -/
theorem sound_iff (hrange : ∀ asset, countedBalances ws environment asset ≤ sumLimit) :
    Sound s ws environment ↔
      ∀ asset, droppedBalances s ws environment asset = extraBalances s ws environment asset := by
  have htotal : ∀ asset,
      toNumeric (getCustomerLiabilityTotals ws environment asset).totalCustomerLiability =
        countedBalances ws environment asset := by
    intro asset
    rw [totalCustomerLiability_eq (hrange asset), toNumeric_num]
    rw [abs_of_nonneg countedBalances_nonneg]
    exact (hrange asset).trans (by decide)
  have hsum := counted_add_dropped s ws environment
  constructor
  · intro h asset
    have := h.total asset
    rw [htotal] at this
    have := hsum asset
    omega
  · intro h
    have heq : ∀ asset, countedBalances ws environment asset =
        customerBalances s ws environment asset := by
      intro asset
      have := hsum asset
      have := h asset
      omega
    refine ⟨fun asset => (htotal asset).trans (heq asset),
      fun hthreshold holdings h0 hhealthy => ?_⟩
    rw [← heq]
    exact counted_le_of_healthy hthreshold (hrange "USDC") h0 hhealthy

end coverage

/-! ### A frozen wallet -/

/-- A customer's wallet with so much available. -/
def customerWallet (status : WalletStatus) (available : ℕ) : WalletRow where
  org := ⟨"ada", some "ada"⟩
  environment := "live"
  asset := "USDC"
  status := status
  balance := ⟨available, 0, 0⟩
  nonneg := ⟨by simp, by simp, by simp⟩

/-- A treasury with an account. -/
def withAccount : Settings where
  treasuryPublicKey := some "GTREASURY"

theorem counted_customerWallet (status : WalletStatus) (available : ℕ) (asset : String) :
    countedBalances [customerWallet status available] "live" asset ≤ available := by
  unfold countedBalances sumOver walletsIn
  by_cases hasset : "USDC" = asset
  · by_cases hstatus : status = .active <;>
      simp [customerWallet, hasset, hstatus, WalletRow.counted, feeOrgSlug, Buckets.total]
  · simp [customerWallet, hasset]

/-- An active wallet is counted. -/
theorem active_sound : Sound withAccount [customerWallet .active (10 ^ 8)] "live" := by
  refine (sound_iff fun asset => ?_).mpr fun asset => ?_
  · exact (counted_customerWallet _ _ _).trans (by decide)
  · by_cases hasset : "USDC" = asset
    · subst hasset
      decide +kernel
    · simp [droppedBalances, extraBalances, sumOver, walletsIn, customerWallet, hasset]

/-- A treasury that holds nothing is healthy while a customer's ten dollars are frozen. -/
theorem frozen_unsound :
    (getTreasuryPosition withAccount [customerWallet .frozen (10 ^ 8)] "live" (some 0)).status =
        .healthy ∧
      customerBalances withAccount [customerWallet .frozen (10 ^ 8)] "live" "USDC" = 10 ^ 8 ∧
      ¬ Sound withAccount [customerWallet .frozen (10 ^ 8)] "live" := by
  have hhealthy : (getTreasuryPosition withAccount [customerWallet .frozen (10 ^ 8)] "live"
      (some 0)).status = .healthy := by decide +kernel
  have howed : customerBalances withAccount [customerWallet .frozen (10 ^ 8)] "live" "USDC" =
      10 ^ 8 := by decide +kernel
  refine ⟨hhealthy, howed, fun h => ?_⟩
  have hcovered := h.covered (by decide +kernel) 0 le_rfl hhealthy
  rw [howed] at hcovered
  exact absurd hcovered (by norm_num)

end DayfiBackend.Infra.Treasury
