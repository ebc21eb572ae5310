import DayfiBackend.Four.SendPhrases

/-!
# Readers of amounts

Four functions read an amount from what a user writes: for a transfer, for the cost of one, for a
step of a transfer abroad, and for the slots of another assistant. `Token` is an amount as it may be
written, and `ReadAlike` says that all four read the same. The last two know no thousands, and take
the figures as they stand (`readAmountStep_text`, `slotAmount_units`).
-/

namespace DayfiBackend.Four.AmountReaders

open DayfiBackend.Four.SendPhrases
open DayfiBackend.Found DayfiBackend.Found.Keys DayfiBackend.Found.Regex
open DayfiBackend.Found.Regex.Re (opt plus atMost anyOf all)
open DayfiBackend.Found.Decimals
open DayfiBackend.Infra.BulkCsv (Text trimText Clean)

/-! ### The readers -/

/-- What may stand between a question for the cost and the amount. -/
def costQuestion : Re := anyOf [
  all [.text "how much", opt (.text " usdc"), opt (.text " do i need"), opt (.text " to")],
  all [.text "what", .alt (.seq (.one (· = apostrophe)) (.one (· = 's'))) (.text " is"),
    .text " the ", opt (.text "usdc "), .text "cost", opt (.text " to")],
  .text "how much will"]

/-- `\s*k?\b`. -/
def afterDigits : Re := all [.star space, opt (.one (· = 'k')), boundary]

/-- The first pattern of `parseSendCostQuote`. -/
def needPattern : Re :=
  .seq (all [costQuestion, .star space, opt (.seq (.text "send") (plus space)),
      opt (anyOf [.one (· = '₦'), .seq (.text "ngn") (.star space),
        .seq (.text "n") (.star space)])])
    (.seq (.group 1 SendPhrases.digits) afterDigits)

/-- The second pattern of `parseSendCostQuote`. -/
def altPattern : Re :=
  .seq (all [anyOf [.text "cost", .text "need", .text "quote"], atMost any 24,
      .alt (.one (· = '₦')) (.seq (.text "ngn") (.star space))])
    (.seq (.group 1 SendPhrases.digits) afterDigits)

/-- `/k\b/`. -/
def endsInK : Re := .seq (.one (· = 'k')) boundary

/-- A rounded amount. -/
def rounded (x : WithTop ℚ) : WithTop ℚ := (mathRound x).map (↑)

/-- `n` where it is a finite number above zero. -/
def positive (n : WithTop ℚ) : Option (WithTop ℚ) := if n ≠ ⊤ ∧ 0 < n then some n else none

/-- Source: `intentParser.ts` `parseSendCostQuote`, the amount in naira. -/
def parseSendCostQuote (text : Text) : Option (WithTop ℚ) :=
  let q := trimText (collapseSpaces ((lowerCase text).filter (· ≠ ',')))
  let need := (search needPattern [] q).bind fun (s, m) =>
    let n := number (captured m 1)
    positive (if test endsInK s.rest then rounded (times n 1000) else n)
  let alt := (exec altPattern q).bind fun m =>
    let n := number (captured m 1)
    positive (if test (all [plus digit, .star space, endsInK]) q then rounded (times n 1000) else n)
  need.or alt

/-- The amount that is read in the step for it. Source: `yellowCardSendFlow.ts`
`continueYellowCardSend`. -/
def readAmountStep (text : Text) : Option (WithTop ℚ) :=
  let figures := text.filter fun c => c.isDigit || c = '.'
  -- with two points it is no number
  if 2 ≤ figures.count '.' then none
  else if 0 < number figures then some (number figures) else none

/-- `[\d,]+(?:\.\d+)?`. -/
def figures : Re :=
  .seq (plus (.one fun c => c.isDigit || c = ',')) (opt (.seq (.one (· = '.')) (plus digit)))

/-- The patterns of `parseAmount` of `dayxFlowSlots.ts`. -/
def amountPatterns : List Re := [
  .seq (.alt (.one (· = '₦')) (.seq (.text "ngn") (.star space))) (.group 1 figures),
  .seq (.alt (.one (· = '$')) (.seq (.text "usd") (.star space))) (.group 1 figures),
  all [.group 1 figures, .star space, anyOf [.text "naira", .text "ngn"], boundary],
  all [.group 1 figures, .star space, anyOf [.text "dollar", .text "dollars", .text "usd"],
    boundary],
  all [boundary, anyOf [.text "send", .text "pay", .text "swap", .text "recharge",
    all [.text "top", .star space, .text "up"]], plus space, .group 1 figures, boundary],
  all [boundary, .group 1 figures, .star space, anyOf [.text "k", .text "thousand"], boundary]]

/-- `/\b(k|thousand)\b/i`. -/
def wordThousand : Re := all [boundary, anyOf [.text "k", .text "thousand"], boundary]

/-- Source: `dayxFlowSlots.ts` `parseAmount`. -/
def parseMarkedAmount (q : Text) : Option (WithTop ℚ) :=
  amountPatterns.findSome? fun re =>
    (exec re q).bind fun m =>
      let raw := (captured m 1).filter (· ≠ ',')
      positive (if test wordThousand q && '.' ∉ raw then times (number raw) 1000 else number raw)

/-- The first number. Source: `dayxFlowNlu.ts` `parseFlowUtterance`. -/
def firstAmount (utterance : Text) : Option (WithTop ℚ) :=
  (exec (.group 1 figures) utterance).bind fun m =>
    positive (number ((captured m 1).filter (· ≠ ',')))

/-- The slot for the amount. Source: `dayxFlowSlots.ts` `parseExtendedSlots`. -/
def slotAmount (utterance : Text) : Option (WithTop ℚ) :=
  (parseMarkedAmount utterance).or (firstAmount utterance)

/-! ### Amounts as they are written -/

/-- The signs of currencies. -/
def currencySigns : List Char := ['₦', '$', '€', '£', '¥']

/-- An amount as it is written. -/
structure Token where
  sign : Option Char
  amount : Decimal
  commas : Bool
  kilo : Bool
  sign_mem : ∀ c ∈ sign, c ∈ currencySigns
  frac_le : amount.frac.length ≤ 2
  pos : 0 < amount.magnitude

/-- The figures of an amount. -/
def Token.figures (t : Token) : Text :=
  (if t.commas then thousands t.amount.whole else t.amount.whole) ++
    (if t.amount.frac = [] then [] else '.' :: t.amount.frac)

/-- The text of an amount. -/
def Token.text (t : Token) : Text := t.sign.toList ++ t.figures ++ (if t.kilo then ['k'] else [])

/-- Words behind an amount. -/
def following (words : List Text) : Text := words.flatMap (' ' :: ·)

/-- Words of letters. -/
def AreWords (words : List Text) : Prop := ∀ w ∈ words, w ≠ [] ∧ ∀ c ∈ w, c.isAlpha = true

/-- Some words of letters. -/
abbrev Words := {words : List Text // AreWords words}

/-- All readers read the same amount, up to the rounding of the first. -/
def ReadAlike (t : Token) (words words' : List Text) : Prop :=
  ∃ x : ℚ,
    parseAmount t.text = some (mathRound x) ∧
    parseAmount ("send ".toList ++ t.text ++ following words) = some (mathRound x) ∧
    parseSendCostQuote ("how much usdc do i need to send ".toList ++ t.text ++ following words') =
      some (x : WithTop ℚ) ∧
    readAmountStep t.text = some (x : WithTop ℚ) ∧
    slotAmount ("send ".toList ++ t.text) = some (x : WithTop ℚ)

/-- An amount is of units, in naira or without a sign, and finite; no word "k" stands behind it in
an order, and no word that ends in "k" in a question, unless its thousands are too large, in which
case the question is read in another way that wants the sign and no word "k". -/
def Plain (t : Token) (words words' : List Text) : Prop :=
  t.kilo = false ∧ t.sign ∈ [none, some '₦'] ∧ t.amount.magnitude < 2 ^ 1024 - 2 ^ 970 ∧
    (∀ w ∈ words.head?, w.map Char.toLower ≠ ['k']) ∧
    ((∀ w ∈ words', (w.map Char.toLower).getLast? ≠ some 'k') ∨
      2 ^ 1024 - 2 ^ 970 ≤ Binary64.nearest t.amount.magnitude * 1000 ∧ t.sign = some '₦' ∧
        ∀ w ∈ words'.head?, w.map Char.toLower ≠ ['k'])

/-! ### Numbers -/

section numbers

variable {d : Decimal} {n : ℚ}

/-- The number that a decimal is read as. -/
theorem number_of_lt (h : d.magnitude < 2 ^ 1024 - 2 ^ 970) (hpos : 1 / 100 ≤ d.magnitude) :
    number d.unsigned = (Binary64.nearest d.magnitude : ℚ) := by
  have hvalue : (natural (beforePoint d.unsigned) : ℚ) + natural (afterPoint d.unsigned) /
      10 ^ (afterPoint d.unsigned).length = d.magnitude := by
    rw [beforePoint_unsigned, afterPoint_unsigned]
    rfl
  have hsmall : ¬ d.magnitude ≤ (1 : ℚ) / 2 ^ 1075 :=
    not_le.mpr (lt_of_lt_of_le (by decide +kernel) hpos)
  unfold number
  dsimp only
  rw [hvalue, if_neg (not_le.mpr h), if_neg hsmall]

/-- A decimal that is too large is read as infinity. -/
theorem number_of_le (h : 2 ^ 1024 - 2 ^ 970 ≤ d.magnitude) : number d.unsigned = ⊤ := by
  have hvalue : (natural (beforePoint d.unsigned) : ℚ) + natural (afterPoint d.unsigned) /
      10 ^ (afterPoint d.unsigned).length = d.magnitude := by
    rw [beforePoint_unsigned, afterPoint_unsigned]
    rfl
  unfold number
  dsimp only
  rw [hvalue, if_pos h]

/-- A decimal with two digits behind the point is no smaller than a hundredth. -/
theorem magnitude_ge (hfrac : d.frac.length ≤ 2) (hpos : 0 < d.magnitude) :
    1 / 100 ≤ d.magnitude := by
  unfold Decimal.magnitude at hpos ⊢
  rcases Nat.eq_zero_or_pos (natural d.whole) with hwhole | hwhole
  · have hfracPos : 0 < natural d.frac := by
      by_contra hzero
      rw [hwhole, Nat.eq_zero_of_not_pos hzero] at hpos
      simp at hpos
    have hone : (1 : ℚ) ≤ natural d.frac := by exact_mod_cast hfracPos
    have hpow : (10 : ℚ) ^ d.frac.length ≤ 10 ^ 2 := pow_le_pow_right₀ (by norm_num) hfrac
    have hdiv : (1 : ℚ) / 100 ≤ natural d.frac / 10 ^ d.frac.length := by
      rw [div_le_div_iff₀ (by norm_num) (by positivity)]
      nlinarith
    have hnonneg : (0 : ℚ) ≤ natural d.whole := Nat.cast_nonneg _
    linarith
  · have hone : (1 : ℚ) ≤ natural d.whole := by exact_mod_cast hwhole
    have hnonneg : (0 : ℚ) ≤ natural d.frac / 10 ^ d.frac.length := by positivity
    linarith

theorem nearest_ge {m : ℚ} (h : 1 / 100 ≤ m) : 1 / 200 ≤ Binary64.nearest m := by
  have hle := (abs_le.mp (Binary64.abs_sub_nearest_le m)).2
  rw [abs_of_nonneg (by linarith)] at hle
  have hsmall : m / 2 ^ 53 ≤ m / 2 := by
    apply div_le_div_of_nonneg_left (by linarith) (by norm_num) (by norm_num)
  linarith

/-- The thousands of a number, as they are rounded. -/
theorem times_thousand_ge (h : 1 / 200 ≤ n) :
    times n 1000 = ⊤ ∨ ∃ x : ℚ, times n 1000 = x ∧ n + 2 ≤ x := by
  unfold times
  dsimp only
  split_ifs
  · exact .inl rfl
  · refine .inr ⟨_, rfl, ?_⟩
    have hle := (abs_le.mp (Binary64.abs_sub_nearest_le (n * 1000))).2
    rw [abs_of_nonneg (by linarith)] at hle
    have hsmall : n * 1000 / 2 ^ 53 ≤ n * 1000 / 2 := by
      apply div_le_div_of_nonneg_left (by linarith) (by norm_num) (by norm_num)
    linarith

/-- The thousands of a number are rounded to another integer. -/
theorem mathRound_thousand_ne (h : 1 / 200 ≤ n) : mathRound (times n 1000) ≠ mathRound n := by
  rcases times_thousand_ge h with htop | ⟨x, hx, hle⟩
  · rw [htop]
    exact WithTop.top_ne_coe
  · rw [hx]
    intro heq
    have hfloor : ⌊x + 1 / 2⌋ = ⌊n + 1 / 2⌋ := WithTop.coe_injective heq
    have hlt : ⌊n + 1 / 2⌋ + 1 ≤ ⌊x + 1 / 2⌋ := by
      rw [← Int.floor_add_one]
      exact Int.floor_le_floor (by linarith)
    omega

/-- The rounded thousands of a number are another number. -/
theorem rounded_thousand_ne (h : 1 / 200 ≤ n) : rounded (times n 1000) ≠ n := by
  rcases times_thousand_ge h with htop | ⟨x, hx, hle⟩
  · rw [htop]
    exact WithTop.top_ne_coe
  · rw [hx]
    intro heq
    have hfloor : (⌊x + 1 / 2⌋ : ℚ) = n := WithTop.coe_injective heq
    have hlt := Int.lt_floor_add_one (x + 1 / 2)
    linarith

end numbers

/-! ### Texts of amounts -/

section tokens

variable {t : Token} {words : List Text} {c : Char}

/-- The amount without commas. -/
def Token.plain (t : Token) : Text := t.amount.unsigned ++ (if t.kilo then ['k'] else [])

theorem filter_digits {cs : Text} (h : ∀ c ∈ cs, c.isDigit = true ∨ c = '.') :
    cs.filter (· ≠ ',') = cs :=
  List.filter_eq_self.mpr fun c hc => by
    rcases h c hc with hdigit | rfl
    · simpa using digit_ne hdigit (by decide)
    · decide

theorem filter_token_figures (t : Token) : t.figures.filter (· ≠ ',') = t.amount.unsigned := by
  have hwhole : (if t.commas then thousands t.amount.whole else t.amount.whole).filter (· ≠ ',') =
      t.amount.whole := by
    split_ifs
    · exact filter_thousands _ fun c hc => digit_ne (t.amount.whole_digits c hc) (by decide)
    · exact filter_digits fun c hc => .inl (t.amount.whole_digits c hc)
  have hfrac : (if t.amount.frac = [] then [] else '.' :: t.amount.frac).filter (· ≠ ',') =
      if t.amount.frac = [] then [] else '.' :: t.amount.frac := by
    refine filter_digits fun c hc => mem_unsigned (d := t.amount) ?_
    exact List.mem_append_right _ hc
  rw [Token.figures, List.filter_append, hwhole, hfrac]
  rfl

/-- What stands in words behind an amount. -/
theorem mem_following (hwords : AreWords words) (h : c ∈ following words) :
    c.isAlpha = true ∨ c = ' ' := by
  obtain ⟨w, hw, hc⟩ := List.mem_flatMap.mp h
  rcases List.mem_cons.mp hc with rfl | hc
  · exact .inr rfl
  · exact .inl ((hwords w hw).2 c hc)

/-- What is no letter and no space is not in words. -/
theorem not_mem_following (hwords : AreWords words) (halpha : c.isAlpha = false) (hc : c ≠ ' ') :
    c ∉ following words := fun h => by
  rcases mem_following hwords h with h | h
  · rw [halpha] at h
    cases h
  · exact hc h

/-- The end of words is no white space. -/
theorem getLast_following (hwords : AreWords words) :
    ∀ c ∈ (following words).getLast?, c.isAlpha = true := by
  intro c hc
  by_cases hne : words = []
  · subst hne
    cases hc
  · obtain ⟨ws, w, rfl⟩ := (List.eq_nil_or_concat' words).resolve_left hne
    have hw := hwords w (by simp)
    have hlast : (following (ws ++ [w])).getLast? = w.getLast? := by
      rw [following, List.flatMap_append, List.flatMap_singleton, ← List.singleton_append,
        ← List.append_assoc, List.getLast?_append_of_ne_nil _ hw.1]
    rw [hlast] at hc
    exact hw.2 c (List.mem_of_getLast? hc)

theorem mem_thousands {cs : Text} (h : c ∈ thousands cs) : c ∈ cs ∨ c = ',' := by
  induction cs with
  | nil => cases h
  | cons d cs ih =>
      unfold thousands at h
      split_ifs at h
      · rcases List.mem_cons.mp h with rfl | h
        · exact .inl List.mem_cons_self
        · rcases List.mem_cons.mp h with rfl | h
          · exact .inr rfl
          · exact (ih h).imp_left (List.mem_cons_of_mem d)
      · rcases List.mem_cons.mp h with rfl | h
        · exact .inl List.mem_cons_self
        · exact (ih h).imp_left (List.mem_cons_of_mem d)

/-- What stands in the text of an amount. -/
theorem mem_figures (h : c ∈ t.figures) : c.isDigit = true ∨ c ∈ [',', '.'] := by
  by_cases hcomma : c = ','
  · exact .inr (by simp [hcomma])
  · have hmem : c ∈ t.figures.filter (· ≠ ',') := List.mem_filter.mpr ⟨h, by simpa using hcomma⟩
    rw [filter_token_figures] at hmem
    exact (mem_unsigned hmem).imp_right fun hpoint => by simp [hpoint]

theorem mem_token (h : c ∈ t.text) : c.isDigit = true ∨ c ∈ [',', '.', 'k'] ++ currencySigns := by
  rcases List.mem_append.mp h with h | h
  · rcases List.mem_append.mp h with h | h
    · exact .inr (List.mem_append_right _ (t.sign_mem c (by simpa using h)))
    · exact (mem_figures h).imp_right fun hc =>
        (by simp at hc ⊢; tauto)
  · split_ifs at h
    · exact .inr (by simp [List.mem_singleton.mp h])
    · cases h

/-- A decimal ends in a digit. -/
theorem unsigned_last (d : Decimal) : ∃ cs c, d.unsigned = cs ++ [c] ∧ c.isDigit = true := by
  by_cases hfrac : d.frac = []
  · obtain ⟨cs, c, hwhole⟩ := (List.eq_nil_or_concat' d.whole).resolve_left d.whole_ne
    refine ⟨cs, c, by simp [Decimal.unsigned, hfrac, hwhole], d.whole_digits c ?_⟩
    simp [hwhole]
  · obtain ⟨cs, c, hlast⟩ := (List.eq_nil_or_concat' d.frac).resolve_left hfrac
    refine ⟨d.whole ++ '.' :: cs, c, ?_, d.frac_digits c (by simp [hlast])⟩
    rw [Decimal.unsigned, if_neg hfrac, hlast]
    simp

/-- The sign is that of the naira, or there is none. -/
theorem sign_cases (h : t.sign ∈ [none, some '₦']) :
    t.sign.toList = [] ∨ t.sign.toList = ['₦'] := by
  rcases List.mem_pair.mp h with h | h
  · exact .inl (by rw [h]; rfl)
  · exact .inr (by rw [h]; rfl)

theorem signs (t : Token) : t.sign.toList = [] ∨ ∃ e ∈ currencySigns, t.sign.toList = [e] := by
  cases h : t.sign with
  | none => exact .inl rfl
  | some e => exact .inr ⟨e, t.sign_mem e h, rfl⟩

/-- The step for the amount reads the figures. -/
theorem readAmountStep_text (t : Token) :
    readAmountStep t.text =
      if 0 < number t.amount.unsigned then some (number t.amount.unsigned) else none := by
  have hdigits : ∀ cs : Text, (∀ c ∈ cs, c.isDigit = true) →
      cs.filter (fun c => c.isDigit || c = '.') = cs := fun cs h =>
    List.filter_eq_self.mpr fun c hc => by simp [h c hc]
  have hwhole := hdigits _ t.amount.whole_digits
  have hthousands : ∀ cs : Text, (∀ c ∈ cs, c.isDigit = true) →
      (thousands cs).filter (fun c => c.isDigit || c = '.') = cs := by
    intro cs h
    induction cs with
    | nil => rfl
    | cons c cs ih =>
        have hcs := ih fun e he => h e (List.mem_cons_of_mem c he)
        unfold thousands
        split_ifs
        · simpa [h c List.mem_cons_self] using hcs
        · simpa [h c List.mem_cons_self] using hcs
  have hfrac : (if t.amount.frac = [] then [] else '.' :: t.amount.frac).filter
      (fun c => c.isDigit || c = '.') =
        if t.amount.frac = [] then [] else '.' :: t.amount.frac := by
    split_ifs
    · rfl
    · rw [List.filter_cons_of_pos (by simp), hdigits _ t.amount.frac_digits]
  have hsign : t.sign.toList.filter (fun c => c.isDigit || c = '.') = [] := by
    have hall : ∀ c ∈ currencySigns, (c.isDigit || decide (c = '.')) = false :=
      forall_mem_of_all (by decide)
    refine List.filter_eq_nil_iff.mpr fun c hc => ?_
    simpa using hall c (t.sign_mem c (by simpa using hc))
  have hkilo : (if t.kilo then ['k'] else []).filter (fun c => c.isDigit || c = '.') = [] := by
    split_ifs <;> rfl
  have hfigures : t.text.filter (fun c => c.isDigit || c = '.') = t.amount.unsigned := by
    have hcommas : (if t.commas then thousands t.amount.whole else t.amount.whole).filter
        (fun c => c.isDigit || c = '.') = t.amount.whole := by
      split_ifs
      · exact hthousands _ t.amount.whole_digits
      · exact hwhole
    rw [Token.text, List.filter_append, List.filter_append, hsign, hkilo, Token.figures,
      List.filter_append, hcommas, hfrac]
    simp [Decimal.unsigned]
  have hpoint : t.amount.unsigned.count '.' < 2 := by
    have hnone : ∀ cs : Text, (∀ c ∈ cs, c.isDigit = true) → cs.count '.' = 0 := fun cs h =>
      List.count_eq_zero.mpr fun hmem => absurd (h '.' hmem) (by decide)
    rw [Decimal.unsigned, List.count_append, hnone _ t.amount.whole_digits]
    split_ifs
    · decide
    · rw [List.count_cons_self, hnone _ t.amount.frac_digits]
      decide
  unfold readAmountStep
  rw [hfigures, if_neg (not_le.mpr hpoint)]

section slots

variable {k : At → Option At} {x : At} {before : Text} {g : List (ℕ × Text)} {y : WithTop ℚ}

/-- The figures of an amount are taken as a whole. -/
theorem run_figures (hk : k ⟨t.figures.reverse ++ before, [], (1, t.figures) :: g⟩ = some x) :
    (Re.group 1 figures).run k ⟨before, t.figures, g⟩ = some x := by
  let k₀ : At → Option At := fun m => k (m.capture 1 (At.upTo ⟨before, t.figures, g⟩ m))
  have hend : k₀ ⟨t.figures.reverse ++ before, [], g⟩ = some x := by
    have hupTo : At.upTo ⟨before, t.figures, g⟩ ⟨t.figures.reverse ++ before, [], g⟩ =
        t.figures := by
      simp [At.upTo]
    change k (At.capture _ 1 (At.upTo _ _)) = _
    rw [hupTo]
    exact hk
  have hwhole : ∀ c ∈ (if t.commas then thousands t.amount.whole else t.amount.whole),
      (c.isDigit || decide (c = ',')) = true := by
    intro c hc
    have hmem : c ∈ t.amount.whole ∨ c = ',' := by
      split_ifs at hc
      · exact mem_thousands hc
      · exact .inl hc
    rcases hmem with hmem | rfl
    · simp [t.amount.whole_digits c hmem]
    · rfl
  have hne : (if t.commas then thousands t.amount.whole else t.amount.whole) ≠ [] := by
    split_ifs
    · obtain ⟨d, ds, hds⟩ := List.exists_cons_of_ne_nil t.amount.whole_ne
      rw [hds]
      unfold thousands
      split_ifs <;> exact List.cons_ne_nil _ _
    · exact t.amount.whole_ne
  rw [run_group]
  change figures.run k₀ ⟨before, t.figures, g⟩ = some x
  unfold figures
  rw [run_seq]
  unfold Token.figures at hend ⊢
  by_cases hfrac : t.amount.frac = []
  · rw [if_pos hfrac] at hend ⊢
    refine run_plus_full hwhole hne (fun c hc => (by cases hc)) ?_
    rw [List.append_nil] at hend
    rw [run_opt, run_seq, hend]
    rfl
  · rw [if_neg hfrac] at hend ⊢
    refine run_plus_full hwhole hne (fun c hc => ?_) ?_
    · obtain rfl : '.' = c := Option.some.inj hc
      decide
    · have hpoint : (plus digit).run k₀ ⟨'.' :: ((if t.commas then thousands t.amount.whole else
          t.amount.whole).reverse ++ before), t.amount.frac ++ [], g⟩ = some x :=
        run_plus_full t.amount.frac_digits hfrac (fun c hc => (by cases hc)) (by simpa using hend)
      rw [List.append_nil] at hpoint
      rw [run_opt, run_seq, run_one_cons, if_pos (by decide), hpoint]
      rfl

theorem getLast_thousands (cs : Text) : (thousands cs).getLast? = cs.getLast? := by
  induction cs with
  | nil => rfl
  | cons c cs ih =>
      unfold thousands
      split_ifs with h
      · obtain ⟨d, ds, rfl⟩ := List.exists_cons_of_ne_nil (by simpa using h : _ ∧ cs ≠ []).2
        rw [List.getLast?_cons_cons, List.getLast?_cons, ih]
        simp [List.getLast?_cons]
      · rw [List.getLast?_cons, ih, List.getLast?_cons]

/-- The figures of an amount end in a digit. -/
theorem figures_last (t : Token) : ∃ cs c, t.figures = cs ++ [c] ∧ c.isDigit = true := by
  obtain ⟨cs, c, hlast, hc⟩ := unsigned_last t.amount
  have hget : t.figures.getLast? = t.amount.unsigned.getLast? := by
    unfold Token.figures Decimal.unsigned
    rw [List.getLast?_append, List.getLast?_append]
    split_ifs <;> simp [getLast_thousands]
  rw [hlast, List.getLast?_concat] at hget
  obtain ⟨es, hes⟩ := List.getLast?_eq_some_iff.mp hget
  exact ⟨es, c, hes, hc⟩

/-- The slot for the amount of an order in units, in naira or without a sign. -/
theorem slotAmount_units (hkilo : t.kilo = false) (hsign : t.sign ∈ [none, some '₦'])
    (hy : positive (number t.amount.unsigned) = some y) :
    slotAmount ("send ".toList ++ t.text) = some y := by
  have htext : t.text = t.sign.toList ++ t.figures := by simp [Token.text, hkilo]
  -- none of the letters of the patterns for other words
  have hletters : ∀ c ∈ "send ".toList ++ t.text,
      c.toLower ∉ ['a', 'g', 'h', 'k', 'l', 'u'] ∧ c ≠ '$' := by
    have hall : ∀ c ∈ "send ".toList ++ ['₦', ',', '.'],
        c.toLower ∉ ['a', 'g', 'h', 'k', 'l', 'u'] ∧ c ≠ '$' := forall_mem_of_all (by decide)
    intro c hc
    rw [htext] at hc
    rcases List.mem_append.mp hc with hc | hc
    · exact hall c (List.mem_append_left _ hc)
    · rcases List.mem_append.mp hc with hc | hc
      · refine hall c (List.mem_append_right _ ?_)
        rcases sign_cases hsign with hs | hs
        · rw [hs] at hc
          cases hc
        · rw [hs] at hc
          exact List.mem_cons.mpr (.inl (List.mem_singleton.mp hc))
      · rcases mem_figures hc with hdigit | hc
        · have hlower := toLower_of_isDigit hdigit
          refine ⟨fun hmem => ?_, digit_ne hdigit (by decide)⟩
          rw [hlower] at hmem
          have hnone : ∀ c ∈ ['a', 'g', 'h', 'k', 'l', 'u'], c.isDigit = false :=
            forall_mem_of_all (by decide)
          rw [hnone c hmem] at hdigit
          cases hdigit
        · exact hall c (List.mem_append_right _ (List.mem_cons_of_mem _ hc))
  have hword : test wordThousand ("send ".toList ++ t.text) = false := by
    have hnone : exec wordThousand ("send ".toList ++ t.text) = none := by
      refine exec_eq_none (q := fun c => c.toLower ∈ ['k', 'h']) ?_ fun c hc hq =>
        (hletters c hc).1 (by revert hq; simp +contextual; tauto)
      exact .inr (.inl ⟨Re.needs_text (e := 'k') (by decide) fun d hd => by simp [hd],
        Re.needs_text (e := 'h') (by decide) fun d hd => by simp [hd]⟩)
    rw [test, hnone]
    rfl
  have hread : ∀ {re : Re} {m : At}, exec re ("send ".toList ++ t.text) = some m →
      captured m 1 = t.figures →
      ((exec re ("send ".toList ++ t.text)).bind fun m =>
        let raw := (captured m 1).filter (· ≠ ',')
        positive (if test wordThousand ("send ".toList ++ t.text) && '.' ∉ raw then
          times (number raw) 1000 else number raw)) = some y := by
    intro re m hm hcaptured
    rw [hm, Option.bind_some, hcaptured, hword]
    dsimp only
    rw [filter_token_figures]
    exact hy
  have hmarked : parseMarkedAmount ("send ".toList ++ t.text) = some y := by
    have hnot : ∀ {re : Re} {q : Char → Prop}, re.Needs q →
        (∀ c, q c → c.toLower ∈ ['a', 'g', 'h', 'k', 'l', 'u'] ∨ c = '$') →
          exec re ("send ".toList ++ t.text) = none := fun hre hq =>
      exec_eq_none hre fun c hc hqc => (hq c hqc).elim (hletters c hc).1 (hletters c hc).2
    unfold parseMarkedAmount amountPatterns
    have hdollar : exec (.seq (.alt (.one (· = '$')) (.seq (.text "usd") (.star space)))
        (.group 1 figures)) ("send ".toList ++ t.text) = none :=
      hnot (q := fun c => c = '$' ∨ c.toLower = 'u') (.inl ⟨fun c hc => .inl (by simpa using hc),
        .inl (Re.needs_text (e := 'u') (by decide) fun d hd => .inr hd)⟩)
        fun c hc => hc.symm.imp_left fun hc => by simp [hc]
    have hnairaWord : exec (all [.group 1 figures, .star space, anyOf [.text "naira", .text "ngn"],
        boundary]) ("send ".toList ++ t.text) = none :=
      hnot (q := fun c => c.toLower ∈ ['a', 'g']) (.inr (.inr (.inl
        ⟨Re.needs_text (e := 'a') (by decide) fun d hd => by simp [hd],
          Re.needs_text (e := 'g') (by decide) fun d hd => by simp [hd]⟩)))
        fun c hc => .inl (by simp at hc ⊢; tauto)
    have hdollarWord : exec (all [.group 1 figures, .star space, anyOf [.text "dollar",
        .text "dollars", .text "usd"], boundary]) ("send ".toList ++ t.text) = none :=
      hnot (q := fun c => c.toLower ∈ ['l', 'u']) (.inr (.inr (.inl
        ⟨Re.needs_text (e := 'l') (by decide) fun d hd => by simp [hd],
          Re.needs_text (e := 'l') (by decide) fun d hd => by simp [hd],
          Re.needs_text (e := 'u') (by decide) fun d hd => by simp [hd]⟩)))
        fun c hc => .inl (by simp at hc ⊢; tauto)
    rcases List.mem_pair.mp hsign with hs | hs
    · have hbare : t.text = t.figures := by simp [htext, hs]
      have hnaira : exec (.seq (.alt (.one (· = '₦')) (.seq (.text "ngn") (.star space)))
          (.group 1 figures)) ("send ".toList ++ t.text) = none := by
        refine exec_eq_none (q := fun c => c = '₦' ∨ c.toLower = 'g') (.inl
          ⟨fun c hc => .inl (by simpa using hc),
            .inl (Re.needs_text (e := 'g') (by decide) fun d hd => .inr hd)⟩) fun c hc hq => ?_
        rcases hq with rfl | hq
        · rw [hbare] at hc
          rcases List.mem_append.mp hc with hc | hc
          · exact absurd hc (by decide)
          · rcases mem_figures hc with hdigit | hc
            · cases hdigit
            · exact absurd hc (by decide)
        · exact (hletters c hc).1 (by simp [hq])
      obtain ⟨m, hm, hcaptured⟩ : ∃ m, exec (all [boundary, anyOf [.text "send", .text "pay",
          .text "swap", .text "recharge", all [.text "top", .star space, .text "up"]], plus space,
          .group 1 figures, boundary]) ("send ".toList ++ t.text) = some m ∧
            captured m 1 = t.figures := by
        let s : At := ⟨t.figures.reverse ++ ' ' :: "send".toList.reverse, [], [(1, t.figures)]⟩
        refine ⟨s, ?_, rfl⟩
        have hend : boundary.run some s = some s := by
          obtain ⟨cs, c, hlast, hc⟩ := figures_last t
          have hclass : Regex.isWord c = true := by simp [Regex.isWord, Char.isAlphanum, hc]
          simp [s, boundary, hlast, hclass]
        have hfigures : (Re.seq (.group 1 figures) boundary).run some
            ⟨' ' :: "send".toList.reverse, t.figures, []⟩ = some s := run_figures hend
        have hspace : (Re.seq (plus space) (.seq (.group 1 figures) boundary)).run some
            ⟨"send".toList.reverse, ' ' :: t.figures, []⟩ = some s :=
          run_space (fun c hc => by
            rcases mem_figures (List.mem_of_mem_head? hc) with hdigit | hc
            · exact isSpace_of_isDigit hdigit
            · exact forall_mem_of_all (p := fun c => isSpace c = false) (by decide) c hc) hfigures
        have hsend : (Re.seq (anyOf [.text "send", .text "pay", .text "swap", .text "recharge",
            all [.text "top", .star space, .text "up"]]) (.seq (plus space)
              (.seq (.group 1 figures) boundary))).run some
            ⟨[], "send".toList ++ ' ' :: t.figures, []⟩ = some s := by
          change Option.or ((Re.text "send").run _ _) _ = some s
          rw [run_text (by decide)]
          exact congrArg (Option.or · _) hspace
        rw [hbare, exec, show "send ".toList ++ t.figures = "send".toList ++ ' ' :: t.figures from
          rfl, search_of_run]
        · rfl
        · exact (if_pos (e := none) (show ((none : Option Char).any Regex.isWord != (some 's').any
            Regex.isWord) = true from rfl)).trans hsend
      rw [List.findSome?_cons, hnaira, Option.bind_none, List.findSome?_cons, hdollar,
        Option.bind_none, List.findSome?_cons, hnairaWord, Option.bind_none, List.findSome?_cons,
        hdollarWord, Option.bind_none, List.findSome?_cons, hread hm hcaptured]
    · obtain ⟨m, hm, hcaptured⟩ : ∃ m, exec (.seq (.alt (.one (· = '₦'))
          (.seq (.text "ngn") (.star space))) (.group 1 figures)) ("send ".toList ++ t.text) =
            some m ∧ captured m 1 = t.figures := by
        have hsplit : "send ".toList ++ t.text = "send ".toList ++ (['₦'] ++ t.figures) := by
          rw [htext, hs]
          rfl
        have hskip : ∀ u₁ u₂, "send ".toList = u₁ ++ u₂ → u₂ ≠ [] →
            (Re.seq (.alt (.one (· = '₦')) (.seq (.text "ngn") (.star space)))
              (.group 1 figures)).run some ⟨u₁.reverse ++ [], u₂ ++ (['₦'] ++ t.figures), []⟩ =
                none := by
          intro u₁ u₂ hu hne
          have hngn : ∀ k : At → Option At, (Re.text "ngn").run k
              ⟨u₁.reverse ++ [], u₂ ++ (['₦'] ++ t.figures), []⟩ = none := fun k =>
            run_text_none_of_tails hu hne (forall_mem_of_all (by decide +kernel))
          obtain ⟨c, cs, rfl⟩ := List.exists_cons_of_ne_nil hne
          have hc : c ≠ '₦' := by
            rintro rfl
            exact absurd (hu ▸ List.mem_append_right u₁ List.mem_cons_self) (by decide)
          rw [run_seq, run_alt, run_seq, hngn, List.cons_append, run_one_cons,
            if_neg (by simpa using hc)]
          rfl
        have hfound : ∀ before, (Re.group 1 figures).run some ⟨before, t.figures, []⟩ =
            some ⟨t.figures.reverse ++ before, [], [(1, t.figures)]⟩ := fun before =>
          run_figures rfl
        refine ⟨⟨t.figures.reverse ++ '₦' :: "send ".toList.reverse, [], [(1, t.figures)]⟩, ?_, rfl⟩
        rw [hsplit, exec, search_skip hskip, search_of_run]
        · rfl
        · rw [run_seq, run_alt, List.singleton_append, run_one_cons, if_pos (by decide), hfound]
          rfl
      rw [List.findSome?_cons, hread hm hcaptured]
  rw [slotAmount, hmarked]
  rfl

end slots

end tokens

end DayfiBackend.Four.AmountReaders
