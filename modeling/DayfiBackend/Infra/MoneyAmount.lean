import DayfiBackend.Found.Decimals
import DayfiBackend.Infra.InternalTransfers

/-!
# Amounts as texts

An amount of USDC goes in and out of the services as decimal text, and is computed with as an
integer of minor units (`10^-7`). `exactMoney` is the result: reading undoes writing, a text is read
as the number it denotes and any other text is refused, and a fee quote adds up to the last unit.
-/

namespace DayfiBackend.Infra.MoneyAmount

open DayfiBackend.Found.Binary64 DayfiBackend.Found.Keys DayfiBackend.Found.Decimals
open DayfiBackend.Infra.InternalTransfer (AmountInput FeeSettings)

/-! ### Reading -/

/-- Source: `infraMoneyAmount.ts` `USDC_SCALE`. -/
def usdcScale : ℕ := 10000000

/-- Source: `infraMoneyAmount.ts` `XLM_SCALE`. -/
def xlmScale : ℕ := 10000000

/-- Source: `infraMoneyAmount.ts` `STELLAR_BASE_FEE_STROOPS`. -/
def stellarBaseFeeStroops : ℤ := 100

/-- Source: `infraMoneyAmount.ts` `InfraMoneyError`. -/
structure InfraMoneyError where
  message : String
  code : String
  status : ℕ := 400
  deriving DecidableEq, Repr

/-- What an amount is read from; a number may not be finite. -/
inductive Raw where
  | bigint (n : ℤ)
  | number (v : Option ℚ)
  | text (s : String)
  | nullish
  deriving DecidableEq, Repr

/-- A number from `10^21` on, printed: its digits and an exponent. -/
def exponentText (x : ℚ) : List Char :=
  let digits := (toString ⌊toDecimal x⌋.natAbs).toList
  let mantissa := stripZeros digits.tail
  digits.take 1 ++ (if mantissa = [] then [] else '.' :: mantissa) ++
    ("e+" ++ toString (digits.length - 1)).toList

/-- A number that is not negative, with seven places. -/
def fixedText (x : ℚ) : List Char :=
  if 10 ^ 21 ≤ x then exponentText x
  else
    let n := ⌊x * 10 ^ 7 + 1 / 2⌋.natAbs
    (toString (n / 10 ^ 7)).toList ++ '.' :: padStart 7 (toString (n % 10 ^ 7)).toList

/-- `Number.prototype.toFixed(7)`. -/
def toFixed7 (x : ℚ) : List Char := if x < 0 then '-' :: fixedText (-x) else fixedText x

/-- The text that is parsed. -/
def Raw.printed : Raw → List Char
  | bigint n => (toString n).toList
  | number (some v) => toFixed7 v
  | number none => "NaN".toList
  | text s => (trim s).toList
  | nullish => []

/-- The minor units of a text. Source: `infraMoneyAmount.ts` `parseDecimalToMinor`. -/
def textToMinor (scale : ℕ) (label : String) (text : List Char) : Except InfraMoneyError ℤ :=
  if text = [] ∨ isDecimal text = false then
    .error ⟨"Invalid " ++ label ++ " amount", "INVALID_AMOUNT", 400⟩
  else
    let neg := text.head? = some '-'
    let unsigned := if neg then text.tail else text
    let wholeRaw := beforePoint unsigned
    let fracRaw := afterPoint unsigned
    if 7 < fracRaw.length then
      .error ⟨label ++ " supports at most 7 decimal places", "INVALID_AMOUNT", 400⟩
    else
      let fracPadded := (fracRaw ++ List.replicate 7 '0').take 7
      let minor : ℤ := (natural wholeRaw * scale + natural fracPadded : ℕ)
      .ok (if neg then -minor else minor)

/-- Source: `infraMoneyAmount.ts` `parseDecimalToMinor`. -/
def parseDecimalToMinor (raw : Raw) (scale : ℕ) (label : String) : Except InfraMoneyError ℤ :=
  match raw with
  | .bigint n => .ok n
  | raw => textToMinor scale label raw.printed

/-- Source: `infraMoneyAmount.ts` `parseUsdcToMinor`. -/
def parseUsdcToMinor (raw : Raw) : Except InfraMoneyError ℤ :=
  parseDecimalToMinor raw usdcScale "USDC"

/-- Source: `infraMoneyAmount.ts` `parseXlmToMinor`. -/
def parseXlmToMinor (raw : Raw) : Except InfraMoneyError ℤ :=
  parseDecimalToMinor raw xlmScale "XLM"

/-! ### Writing -/

/-- Source: `infraMoneyAmount.ts` `formatMinor`. -/
def formatMinor (minor : ℤ) (scale : ℕ) : String :=
  let neg := minor < 0
  let abs := minor.natAbs
  let whole := abs / scale
  let frac := stripZeros (padStart 7 (toString (abs % scale)).toList)
  String.ofList ((if neg then ['-'] else []) ++ (toString whole).toList ++
    if frac = [] then [] else '.' :: frac)

/-- Source: `infraMoneyAmount.ts` `formatUsdc`. -/
def formatUsdc (minor : ℤ) : String := formatMinor minor usdcScale

/-- Source: `infraMoneyAmount.ts` `formatXlm`. -/
def formatXlm (minor : ℤ) : String := formatMinor minor xlmScale

/-- Source: `infraMoneyAmount.ts` `addMinor`. -/
def addMinor (a b : ℤ) : ℤ := a + b

/-- Source: `infraMoneyAmount.ts` `stellarBaseFeeXlm`. -/
def stellarBaseFeeXlm : String := formatXlm stellarBaseFeeStroops

/-! ### Fee quotes -/

/-- Source: `infraFeeService.ts` `DayfiFeeQuote`. -/
structure DayfiFeeQuote where
  feeAmountUsdc : String
  feeCurrency : String := "USDC"
  feeType : String := "DAYFI_TRANSACTION_FEE"
  transferAmount : String
  customerDebitAmount : String
  feeCharged : Bool
  feePolicyAmountUsdc : String
  feeRevenueAmount : String
  estimatedNetworkFeeAmount : String
  estimatedNetworkFeeCurrency : String := "XLM"
  actualNetworkFeeAmount : Option String := none
  actualNetworkFeeCurrency : String := "XLM"
  networkFeePayer : String := "DAYFI_XLM_RESERVE"
  deriving DecidableEq, Repr

/-- How a quote fails. -/
inductive QuoteError where
  | money (e : InfraMoneyError)
  /-- `InfraFeeError`. -/
  | fee (message code : String)
  deriving DecidableEq, Repr

/-- Source: `infraFeeService.ts` `getConfiguredFeeUsdcMinor`. -/
def getConfiguredFeeUsdcMinor (cfg : FeeSettings) : ℤ :=
  match parseUsdcToMinor (.text (trim (orDefault cfg.transactionFeeUsdc "0.01"))) with
  | .ok n => if n < 0 then 0 else n
  | .error _ => 100000

/-- The argument of a quote, as it is read. -/
def ofInput : AmountInput → Raw
  | .text s => .text s
  | .number v => .number v

/-- Source: `infraFeeService.ts` `quoteDayfiTransactionFee`. -/
def quoteDayfiTransactionFee (cfg : FeeSettings) (transferAmount : AmountInput)
    (chargeFee : Bool) : Except QuoteError DayfiFeeQuote :=
  match parseUsdcToMinor (ofInput transferAmount) with
  | .error e => .error (.money e)
  | .ok transferMinor =>
      if transferMinor ≤ 0 then .error (.fee "Transfer amount must be positive" "INVALID_AMOUNT")
      else
        let policyMinor := getConfiguredFeeUsdcMinor cfg
        let feeMinor := if chargeFee then policyMinor else 0
        let customerDebit := addMinor transferMinor feeMinor
        .ok {
          feeAmountUsdc := formatUsdc feeMinor
          transferAmount := formatUsdc transferMinor
          customerDebitAmount := formatUsdc customerDebit
          feeCharged := 0 < feeMinor
          feePolicyAmountUsdc := formatUsdc policyMinor
          feeRevenueAmount := formatUsdc feeMinor
          estimatedNetworkFeeAmount := stellarBaseFeeXlm }

/-! ### A text is read as the number it denotes -/

section text

variable {d : Decimal} {label : String}

/-- What is read from the text of a decimal. -/
theorem textToMinor_text (d : Decimal) (label : String) :
    textToMinor usdcScale label d.text =
      if 7 < d.frac.length then
        .error ⟨label ++ " supports at most 7 decimal places", "INVALID_AMOUNT", 400⟩
      else
        let minor : ℤ := (natural d.whole * usdcScale +
          natural ((d.frac ++ List.replicate 7 '0').take 7) : ℕ)
        .ok (if d.negative then -minor else minor) := by
  have hne : d.text ≠ [] := by
    intro h
    have hdec := isDecimal_text d
    rw [h] at hdec
    cases hdec
  have hunsigned : (if d.text.head? = some '-' then d.text.tail else d.text) = d.unsigned :=
    unsigned_text d
  unfold textToMinor
  rw [if_neg (by simp [hne, isDecimal_text])]
  dsimp only
  rw [hunsigned, afterPoint_unsigned, beforePoint_unsigned]
  simp only [head_text]

/-- The minor units of a decimal. -/
theorem textToMinor_eq (label : String) (h : d.frac.length ≤ 7) :
    ∃ m : ℤ, textToMinor usdcScale label d.text = .ok m ∧ (m : ℚ) = d.value * 10 ^ 7 := by
  rw [textToMinor_text, if_neg (by omega)]
  refine ⟨_, rfl, ?_⟩
  have hmag := magnitude_mul h
  have hscale : ((natural d.whole * usdcScale +
      natural ((d.frac ++ List.replicate 7 '0').take 7) : ℕ) : ℚ) = d.magnitude * 10 ^ 7 :=
    hmag.symm
  unfold Decimal.value
  split_ifs
  · rw [Int.cast_neg, Int.cast_natCast, hscale, neg_mul]
  · rw [Int.cast_natCast, hscale]

/-- What is read is a decimal of at most seven places. -/
theorem textToMinor_ok {text : List Char} {m : ℤ} (h : textToMinor usdcScale label text = .ok m) :
    ∃ d : Decimal, d.text = text ∧ d.frac.length ≤ 7 ∧ (m : ℚ) = d.value * 10 ^ 7 := by
  have hdec : isDecimal text = true := by
    by_contra hnot
    unfold textToMinor at h
    rw [if_pos (.inr (by simpa using hnot))] at h
    cases h
  obtain ⟨d, rfl⟩ := (isDecimal_iff text).mp hdec
  by_cases hlen : d.frac.length ≤ 7
  · obtain ⟨m', hm', hval⟩ := textToMinor_eq label hlen
    rw [hm'] at h
    cases h
    exact ⟨d, rfl, hlen, hval⟩
  · rw [textToMinor_text, if_pos (by omega)] at h
    cases h

end text

/-- What is written is the shortest text of the number. -/
theorem formatUsdc_eq (m : ℤ) : formatUsdc m = String.ofList (ofUnits 7 m).text := by
  unfold formatUsdc formatMinor Decimal.text Decimal.unsigned
  dsimp only [ofUnits, usdcScale]
  by_cases hm : m < 0
  · simp [hm]
  · simp [hm]

/-- Nothing is trimmed off what is written. -/
theorem printed_formatUsdc (m : ℤ) : (Raw.text (formatUsdc m)).printed = (ofUnits 7 m).text := by
  show (trim (formatUsdc m)).toList = _
  rw [trim_eq_of_forall]
  · rw [formatUsdc_eq, String.toList_ofList]
  · intro c hc
    rw [formatUsdc_eq, String.toList_ofList] at hc
    exact isSpace_of_mem_text _ hc

/-- Reading undoes writing. -/
theorem parseUsdcToMinor_formatUsdc (m : ℤ) :
    parseUsdcToMinor (.text (formatUsdc m)) = .ok m := by
  have hread : parseUsdcToMinor (.text (formatUsdc m)) =
      textToMinor usdcScale "USDC" (ofUnits 7 m).text := by
    rw [← printed_formatUsdc]
    rfl
  obtain ⟨m', hm', hval⟩ :=
    textToMinor_eq "USDC" (length_frac_ofUnits (n := 7) (by decide) m)
  rw [value_ofUnits (by decide)] at hval
  rw [hread, hm', Int.cast_injective hval]

/-- What is written denotes the number. -/
theorem denotes_formatUsdc (m : ℤ) : Denotes (formatUsdc m) (m / 10 ^ 7) := by
  refine ⟨ofUnits 7 m, ?_, ?_⟩
  · rw [formatUsdc_eq, String.toList_ofList]
  · rw [← value_ofUnits (n := 7) (by decide) m]
    field_simp

/-! ### The property -/

/-- What is asked of the amounts: reading undoes writing, a text is read as what it denotes, blanks
around it apart, a text that denotes nothing or has too many places is refused, and a quote adds
up. -/
structure ExactMoney (cfg : FeeSettings) : Prop where
  parse_format : ∀ m, parseUsdcToMinor (.text (formatUsdc m)) = .ok m
  format_parse : ∀ s m, parseUsdcToMinor (.text s) = .ok m →
    ∃ q, Denotes (trim s) q ∧ Denotes (formatUsdc m) q
  refuses : ∀ s, (¬ ∃ q, Denotes (trim s) q) → ∃ e, parseUsdcToMinor (.text s) = .error e
  refuses_long : ∀ s (d : Decimal), d.text = (trim s).toList → 7 < d.frac.length →
    ∃ e, parseUsdcToMinor (.text s) = .error e
  quote : ∀ transferAmount chargeFee q,
    quoteDayfiTransactionFee cfg transferAmount chargeFee = .ok q →
      ∃ transfer fee, parseUsdcToMinor (ofInput transferAmount) = .ok transfer ∧
        parseUsdcToMinor (.text q.transferAmount) = .ok transfer ∧
        parseUsdcToMinor (.text q.feeAmountUsdc) = .ok fee ∧
        fee = (if chargeFee then getConfiguredFeeUsdcMinor cfg else 0) ∧
        parseUsdcToMinor (.text q.customerDebitAmount) = .ok (transfer + fee)

/-- **Amounts are exact.** -/
theorem exactMoney (cfg : FeeSettings) : ExactMoney cfg := by
  refine ⟨parseUsdcToMinor_formatUsdc, fun s m h => ?_, fun s h => ?_, fun s d hd hlen => ?_,
    fun transferAmount chargeFee q h => ?_⟩
  · have hread : textToMinor usdcScale "USDC" (trim s).toList = .ok m := h
    obtain ⟨d, hd, -, hval⟩ := textToMinor_ok hread
    refine ⟨d.value, ⟨d, hd, rfl⟩, ?_⟩
    have hden := denotes_formatUsdc m
    rw [hval] at hden
    simpa using hden
  · cases hparse : parseUsdcToMinor (.text s) with
    | error e => exact ⟨e, rfl⟩
    | ok m =>
        have hread : textToMinor usdcScale "USDC" (trim s).toList = .ok m := hparse
        obtain ⟨d, hd, -, -⟩ := textToMinor_ok hread
        exact absurd ⟨d.value, d, hd, rfl⟩ h
  · have hread : parseUsdcToMinor (.text s) = textToMinor usdcScale "USDC" d.text := by
      rw [hd]
      rfl
    rw [hread, textToMinor_text, if_pos hlen]
    exact ⟨_, rfl⟩
  · unfold quoteDayfiTransactionFee at h
    cases hparse : parseUsdcToMinor (ofInput transferAmount) with
    | error e =>
        rw [hparse] at h
        cases h
    | ok transfer =>
        rw [hparse] at h
        dsimp only at h
        by_cases hpos : transfer ≤ 0
        · rw [if_pos hpos] at h
          cases h
        · rw [if_neg hpos] at h
          obtain rfl := Except.ok.inj h
          refine ⟨transfer, if chargeFee then getConfiguredFeeUsdcMinor cfg else 0, rfl, ?_, ?_,
            rfl, ?_⟩
          · simp only [parseUsdcToMinor_formatUsdc]
          · simp only [parseUsdcToMinor_formatUsdc]
          · simp only [addMinor, parseUsdcToMinor_formatUsdc]

/-- A text with a blank in front is no decimal, and is read. -/
theorem blank_is_read :
    (¬ ∃ q, Denotes " 1" q) ∧ parseUsdcToMinor (.text " 1") = .ok 10000000 := by
  refine ⟨?_, by decide +kernel⟩
  rintro ⟨q, d, hd, -⟩
  have hdec := isDecimal_text d
  rw [hd] at hdec
  revert hdec
  decide +kernel

end DayfiBackend.Infra.MoneyAmount
