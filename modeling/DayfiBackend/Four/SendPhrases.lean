import DayfiBackend.Found.Regex
import DayfiBackend.Found.Binary64
import DayfiBackend.Found.Decimals
import DayfiBackend.Infra.BulkCsv

/-!
# Phrases that ask to send money

A phrase such as "Send ₦2,000 to OPay 8131208415" is taken apart by regular expressions: the amount,
and a bank account or the name of a recipient. An amount that ends in `k` is multiplied in floating
point, so that some of more than four quadrillion naira come out one naira off
(`kilo_off_by_one`). `send_phrase` says that all others come back from the phrases they are written
in.
-/

namespace DayfiBackend.Four.SendPhrases

open DayfiBackend.Found DayfiBackend.Found.Keys DayfiBackend.Found.Regex
  DayfiBackend.Found.Decimals DayfiBackend.Found.Binary64
open DayfiBackend.Found.Regex.Re (opt plus lazyPlus rep atMost lazyAtMost between all)
open DayfiBackend.Infra.BulkCsv (Text trimText Clean trimText_append)

/-! ### Numbers -/

/-- `Number` of digits, with a point or without: what is too large is infinite, and what is too
small is zero. -/
def number (digits : Text) : WithTop ℚ :=
  let value : ℚ := natural (beforePoint digits) +
    natural (afterPoint digits) / 10 ^ (afterPoint digits).length
  if 2 ^ 1024 - 2 ^ 970 ≤ value then ⊤
  else if value ≤ 1 / 2 ^ 1075 then ((0 : ℚ) : WithTop ℚ)
  else (nearest value : ℚ)

/-- A product of numbers that are not negative. -/
def times (x : WithTop ℚ) (y : ℚ) : WithTop ℚ :=
  match x with
  | ⊤ => ⊤
  | (x : ℚ) => if 2 ^ 1024 - 2 ^ 970 ≤ x * y then ⊤ else (nearest (x * y) : ℚ)

/-- `Math.round`. -/
def mathRound (x : WithTop ℚ) : WithTop ℤ :=
  match x with
  | ⊤ => ⊤
  | (x : ℚ) => (⌊x + 1 / 2⌋ : ℤ)

/-! ### Amounts -/

/-- `(?:₦|ngn\s*)?`. -/
def nairaSign : Re := opt (.alt (.one (· = '₦')) (.seq (.text "ngn") (.star space)))

/-- `\d+(?:\.\d+)?`. -/
def digits : Re := .seq (plus digit) (opt (.seq (.one (· = '.')) (plus digit)))

/-- `k`, in upper or lower case. -/
def letterK : Re := .one (·.toLower = 'k')

/-- `/(?:₦|ngn\s*)?(\d+(?:\.\d+)?)\s*k\b/i`. -/
def kiloAmount : Re := all [nairaSign, .group 1 digits, .star space, letterK, boundary]

/-- `/(?:₦|ngn\s*)?(\d+(?:\.\d+)?)/i`. -/
def plainAmount : Re := all [nairaSign, .group 1 digits]

/-- A group of a match. -/
def captured (m : At) (n : ℕ) : Text := (m.group n).getD []

/-- Source: `intentParser.ts` `parseAmount`. -/
def parseAmount (text : Text) : Option (WithTop ℤ) :=
  let normalized := trimText (text.filter (· ≠ ','))
  match exec kiloAmount normalized with
  | some naira =>
      let n := number (captured naira 1)
      if n ≠ ⊤ then some (mathRound (times n 1000)) else none
  | none =>
      match exec plainAmount normalized with
      | some plain =>
          let n := number (captured plain 1)
          if n ≠ ⊤ && n ≠ ((0 : ℚ) : WithTop ℚ) then some (mathRound n) else none
      | none => none

/-! ### Destinations -/

/-- Source: `intentParser.ts` `BankTransferTarget`. -/
structure BankTransferTarget where
  accountNumber : Text
  bankHint : Text
  incomplete : Bool := false
  deriving DecidableEq, Repr

/-- The apostrophe. -/
def apostrophe : Char := Char.ofNat 39

/-- The quotation mark. -/
def quotation : Char := Char.ofNat 34

/-- `/[.?!,'"]+$/g`. -/
def closingMarks : Re :=
  .seq (plus (.one (· ∈ ['.', '?', '!', ',', apostrophe, quotation]))) last

/-- `.replace(/\s+/g, ' ')`. -/
def collapseSpaces (text : Text) : Text := replaceAll (plus space) [' '] text

/-- Source: `intentParser.ts` `cleanRecipientName`. -/
def cleanRecipientName (name : Text) : Text :=
  trimText (collapseSpaces (replaceAll closingMarks [] name))

/-- The text without the first occurrence of another. -/
def removeFirst (sub : Text) : Text → Text
  | [] => []
  | c :: cs => if sub <+: c :: cs then (c :: cs).drop sub.length else c :: removeFirst sub cs

/-- `/\bto\b/gi`. -/
def wordTo : Re := all [boundary, .text "to", boundary]

/-- Source: `intentParser.ts` `bankHintFromRemainder`. -/
def bankHintFromRemainder (trimmed accountNumber : Text) : Text :=
  let unquoted := (removeFirst accountNumber trimmed).map fun c =>
    if c ∈ [',', apostrophe, quotation] then ' ' else c
  trimText (collapseSpaces (replaceAll wordTo [' '] unquoted))

/-- `/\b(\d{10})\b/`. -/
def fullAccount : Re := all [boundary, .group 1 (digit.rep 10), boundary]

/-- `/\b(\d{7,9})\b/`. -/
def partialAccount : Re := all [boundary, .group 1 (digit.between 7 9), boundary]

/-- The destination of a phrase. -/
structure Destination where
  recipientName : Option Text
  bankTarget : Option BankTransferTarget
  deriving DecidableEq, Repr

/-- Source: `intentParser.ts` `parseDestinationPart`. -/
def parseDestinationPart (dest : Text) : Destination :=
  let trimmed := trimText dest
  match exec fullAccount trimmed with
  | some fullMatch =>
      let accountNumber := captured fullMatch 1
      { recipientName := none
        bankTarget := some {
          accountNumber
          bankHint := bankHintFromRemainder trimmed accountNumber } }
  | none =>
      let name : Destination := {
        recipientName := some (cleanRecipientName trimmed)
        bankTarget := none }
      match exec partialAccount trimmed with
      | none => name
      | some partialMatch =>
          let accountNumber := captured partialMatch 1
          let bankHint := bankHintFromRemainder trimmed accountNumber
          if bankHint = [] then name
          else
            { recipientName := none
              bankTarget := some {
                accountNumber
                bankHint
                incomplete := true } }

/-- `/^send\s+/i`. -/
def leadingSend : Re := all [first, .text "send", plus space]

/-- `/\b(?:₦|ngn)?\s*\d+(?:\.\d+)?\s*k?\b/gi`. -/
def anyAmount : Re :=
  all [boundary, opt (.alt (.one (· = '₦')) (.text "ngn")), .star space, digits, .star space,
    opt letterK, boundary]

/-- Source: `intentParser.ts` `parseBankTransferTarget`. -/
def parseBankTransferTarget (text : Text) : Option BankTransferTarget :=
  let rest := replaceAll wordTo [' ']
    (replaceAll anyAmount [' '] (replaceAll leadingSend [] (trimText text)))
  let spaced := rest.map fun c => if c ∈ [',', '.'] then ' ' else c
  (parseDestinationPart (trimText (collapseSpaces spaced))).bankTarget

/-! ### Phrases -/

/-- A phrase, taken apart; what is `null` counts as absent. -/
structure SendMessage where
  amount : Option (WithTop ℤ)
  recipientName : Option Text
  bankTarget : Option BankTransferTarget
  deriving DecidableEq

/-- `/^send\s+(.+?)\s+to\s+(.+)$/i`. -/
def sendTo : Re :=
  all [first, .text "send", plus space, .group 1 (lazyPlus any), plus space, .text "to", plus space,
    .group 2 (plus any), last]

/-- `/^send\s+to\s+(.+)$/i`. -/
def sendToOnly : Re :=
  all [first, .text "send", plus space, .text "to", plus space, .group 1 (plus any), last]

/-- `[a-z]`, in upper or lower case. -/
def letter : Re := .one Char.isAlpha

/-- `(?:₦|ngn\s*)?\d{1,3}(?:,\d{3})+(?:\.\d+)?\s*k?`. -/
def groupedAmount : Re :=
  all [nairaSign, digit.between 1 3, plus (.seq (.one (· = ',')) (digit.rep 3)),
    opt (.seq (.one (· = '.')) (plus digit)), .star space, opt letterK]

/-- `(?:₦|ngn\s*)?\d+(?:\.\d+)?\s*k?`. -/
def ungroupedAmount : Re := all [nairaSign, digits, .star space, opt letterK]

/-- The pattern of a name that an amount follows,
`/^send\s+([a-z][a-z0-9 .'-]{0,40}?)\s+(…)\s*$/i`. -/
def nameThenAmount : Re :=
  all [first, .text "send", plus space,
    .group 1 (.seq letter
      (lazyAtMost (.one fun c => c.isAlphanum || c ∈ [' ', '.', apostrophe, '-']) 40)),
    plus space, .group 2 (.alt groupedAmount ungroupedAmount), .star space, last]

/-- `/^send\s+(.+)$/i`. -/
def sendOnly : Re := all [first, .text "send", plus space, .group 1 (plus any), last]

/-- `/^(.+?)\s+to\s+(.+)$/i`. -/
def innerTo : Re :=
  all [first, .group 1 (lazyPlus any), plus space, .text "to", plus space, .group 2 (plus any),
    last]

/-- Source: `intentParser.ts` `isLikelyBankNameOnlyForSend`. -/
def isLikelyBankNameOnlyForSend (name : Text) : Bool :=
  (trimText name).map Char.toLower ∈ ["opay", "palmpay", "kuda", "gtb", "gtbank", "access", "uba",
    "zenith", "firstbank", "fcmb", "sterling"].map String.toList

/-- The amount that follows a name looks like an account. -/
def looksLikeAccount (amountRaw : Text) : Bool :=
  let amountDigits := amountRaw.filter Char.isDigit
  test (all [first, digit.between 7 10, last]) amountDigits &&
    !test (.alt (.one fun c => c = '₦' || c.toLower = 'k') (.alt (.text "ngn") (.one (· = ','))))
      amountRaw

/-- The result for an amount and a destination. -/
def withDestination (amount : Option (WithTop ℤ)) (dest : Destination) : SendMessage :=
  match dest.bankTarget with
  | some target => ⟨amount, none, some target⟩
  | none => ⟨amount, dest.recipientName, none⟩

/-- A phrase with a name before the amount. -/
def parseNameThenAmount (trimmed : Text) : Option SendMessage :=
  match exec nameThenAmount trimmed with
  | none => none
  | some m =>
      let namePart := trimText (captured m 1)
      let amountRaw := trimText (captured m 2)
      if !test (all [first, .text "to", boundary]) namePart && !looksLikeAccount amountRaw &&
          !test (digit.atLeast 7) namePart && !isLikelyBankNameOnlyForSend namePart then
        let amount := parseAmount amountRaw
        let dest := parseDestinationPart namePart
        if dest.bankTarget = none && dest.recipientName.any (· ≠ []) && amount.isSome then
          some ⟨amount, dest.recipientName, none⟩
        else none
      else none

/-- A phrase with anything behind the verb. -/
def parseSendOnly (trimmed : Text) : SendMessage :=
  match exec sendOnly trimmed with
  | some m =>
      let part := trimText (captured m 1)
      match exec innerTo part with
      | some inner =>
          withDestination (parseAmount (captured inner 1))
            (parseDestinationPart (captured inner 2))
      | none =>
          let destOnly := parseDestinationPart part
          match destOnly.bankTarget with
          | some target => ⟨none, none, some target⟩
          | none => ⟨parseAmount part, none, none⟩
  | none => ⟨none, none, parseBankTransferTarget trimmed⟩

/-- A phrase with a destination alone. -/
def parseSendToOnly (trimmed : Text) : Option SendMessage :=
  match exec sendToOnly trimmed with
  | none => none
  | some m =>
      let dest := parseDestinationPart (captured m 1)
      match dest.bankTarget with
      | some target => some ⟨none, none, some target⟩
      | none =>
          if dest.recipientName.any (· ≠ []) then some ⟨none, dest.recipientName, none⟩ else none

/-- Source: `intentParser.ts` `parseSendMessage`. -/
def parseSendMessage (text : Text) : SendMessage :=
  let trimmed := trimText text
  match exec sendTo trimmed with
  | some m => withDestination (parseAmount (captured m 1)) (parseDestinationPart (captured m 2))
  | none =>
      match parseSendToOnly trimmed with
      | some message => message
      | none =>
          match parseNameThenAmount trimmed with
          | some message => message
          | none => parseSendOnly trimmed

/-! ### How amounts are written -/

/-- Digits with a comma after every thousand. -/
def thousands : Text → Text
  | [] => []
  | c :: cs =>
      if cs.length % 3 = 0 && cs ≠ [] then c :: ',' :: thousands cs else c :: thousands cs

/-- The figures of an amount. -/
inductive Figures (a : ℕ) where
  | plain
  | commas
  | kilo (q : Decimal) (value : q.magnitude * 1000 = a)

/-- An integer, as a decimal. -/
def ofNat (a : ℕ) : Decimal where
  negative := false
  whole := (toString a).toList
  frac := []
  whole_ne := toList_toString_ne_nil a
  whole_digits := digits_toString a
  frac_digits := digits_nil

/-- The figures, as they are written. -/
def Figures.text {a : ℕ} : Figures a → Text
  | plain => (toString a).toList
  | commas => thousands (toString a).toList
  | kilo q _ => q.unsigned ++ ['k']

/-- What may stand in front of an amount. -/
def signs : List Text :=
  [[], ['₦'], ['₦', ' '], ['N', 'G', 'N'], ['N', 'G', 'N', ' '], ['n', 'g', 'n'],
    ['n', 'g', 'n', ' ']]

/-- An amount as it is written. -/
structure Rendering (a : ℕ) where
  sign : Text
  figures : Figures a
  sign_mem : sign ∈ signs

/-- The text of an amount. -/
def Rendering.text {a : ℕ} (r : Rendering a) : Text := r.sign ++ r.figures.text

section amounts

variable {a : ℕ} {x : At} {d : Decimal} {before v : Text} {g : List (ℕ × Text)}
  {k : At → Option At} {r : Rendering a}

/-- The number of the figures, before the `k`. -/
def Figures.decimal : Figures a → Decimal
  | plain | commas => ofNat a
  | kilo q _ => q

/-- The `k`. -/
def Figures.tail : Figures a → Text
  | plain | commas => []
  | kilo _ _ => ['k']

theorem filter_thousands (cs : Text) (h : ∀ c ∈ cs, c ≠ ',') :
    (thousands cs).filter (· ≠ ',') = cs := by
  induction cs with
  | nil => rfl
  | cons c cs ih =>
      have hc : c ≠ ',' := h c List.mem_cons_self
      have hcs := ih fun e he => h e (List.mem_cons_of_mem c he)
      unfold thousands
      split_ifs
      · simpa [hc] using hcs
      · simpa [hc] using hcs

/-- What stands in the text of a decimal. -/
theorem mem_unsigned {c : Char} (h : c ∈ d.unsigned) : c.isDigit = true ∨ c = '.' := by
  unfold Decimal.unsigned at h
  rcases List.mem_append.mp h with h | h
  · exact .inl (d.whole_digits c h)
  · split_ifs at h with hfrac
    · cases h
    · rcases List.mem_cons.mp h with rfl | h
      · exact .inr rfl
      · exact .inl (d.frac_digits c h)

/-- A digit is none of the other characters. -/
theorem digit_ne {c e : Char} (h : c.isDigit = true) (he : e.isDigit = false) : c ≠ e :=
  ne_of_isDigit h he

theorem unsigned_ofNat : (ofNat a).unsigned = (toString a).toList := by
  simp [Decimal.unsigned, ofNat]

/-- The figures without commas. -/
theorem filter_figures (f : Figures a) :
    f.text.filter (· ≠ ',') = f.decimal.unsigned ++ f.tail := by
  have hne : ∀ (d : Decimal), ∀ c ∈ d.unsigned, c ≠ ',' := by
    intro d c hc
    rcases mem_unsigned hc with hdigit | rfl
    · exact digit_ne hdigit rfl
    · decide
  have hself : ∀ (d : Decimal), d.unsigned.filter (· ≠ ',') = d.unsigned := fun d =>
    List.filter_eq_self.mpr fun c hc => by simpa using hne d c hc
  cases f with
  | plain =>
      simpa [Figures.text, Figures.decimal, Figures.tail, unsigned_ofNat] using hself (ofNat a)
  | commas =>
      have hcommas := filter_thousands (toString a).toList
        (by simpa [unsigned_ofNat] using hne (ofNat a))
      simpa [Figures.text, Figures.decimal, Figures.tail, unsigned_ofNat] using hcommas
  | kilo q value =>
      simp only [Figures.text, Figures.decimal, Figures.tail, List.filter_append, hself]
      rfl

/-- The text of a decimal begins with a digit. -/
theorem unsigned_cons (d : Decimal) : ∃ c cs, d.unsigned = c :: cs ∧ c.isDigit = true := by
  obtain ⟨c, cs, hwhole⟩ := List.exists_cons_of_ne_nil d.whole_ne
  refine ⟨c, cs ++ (if d.frac = [] then [] else '.' :: d.frac), ?_, ?_⟩
  · rw [Decimal.unsigned, hwhole, List.cons_append]
  · exact d.whole_digits c (hwhole ▸ List.mem_cons_self)

/-! ### The figures are found -/

/-- A run of digits is taken as a whole. -/
theorem run_plus_digit {cs : Text} (hcs : Digits cs) (hne : cs ≠ [])
    (hv : ∀ c ∈ v.head?, c.isDigit = false) (hk : k ⟨cs.reverse ++ before, v, g⟩ = some x) :
    (plus digit).run k ⟨before, cs ++ v, g⟩ = some x :=
  run_plus_full hcs hne hv hk

/-- The pattern of a decimal takes a decimal as a whole. -/
theorem run_digits (hv : ∀ c ∈ v.head?, c.isDigit = false ∧ c ≠ '.')
    (hk : k ⟨d.unsigned.reverse ++ before, v, g⟩ = some x) :
    digits.run k ⟨before, d.unsigned ++ v, g⟩ = some x := by
  have hdigit : ∀ c ∈ v.head?, c.isDigit = false := fun c hc => (hv c hc).1
  unfold digits
  rw [run_seq]
  unfold Decimal.unsigned at hk ⊢
  by_cases hfrac : d.frac = []
  · rw [if_pos hfrac, List.append_nil] at hk ⊢
    refine run_plus_digit d.whole_digits d.whole_ne hdigit ?_
    rw [run_opt, run_seq, hk]
    cases v with
    | nil => rfl
    | cons c v => simp [(hv c rfl).2]
  · rw [if_neg hfrac] at hk ⊢
    rw [List.append_assoc]
    refine run_plus_digit d.whole_digits d.whole_ne (fun c hc => ?_) ?_
    · obtain rfl : '.' = c := Option.some.inj hc
      rfl
    · have hpoint : (plus digit).run k ⟨'.' :: (d.whole.reverse ++ before), d.frac ++ v, g⟩ =
          some x := run_plus_digit d.frac_digits hfrac hdigit (by simpa using hk)
      rw [run_opt, run_seq, List.cons_append, run_one_cons, if_pos (by decide), hpoint]
      rfl

theorem text_ngn : Re.text "ngn" = .seq (.one (·.toLower = 'n'))
    (.seq (.one (·.toLower = 'g')) (.one (·.toLower = 'n'))) := rfl

/-- The pattern of a sign takes nothing of what is none. -/
theorem run_nairaSign_skip {c : Char} {cs : Text} (h₁ : c ≠ '₦') (h₂ : c.toLower ≠ 'n') :
    nairaSign.run k ⟨before, c :: cs, g⟩ = k ⟨before, c :: cs, g⟩ := by
  simp [nairaSign, text_ngn, h₁, h₂]

theorem toLower_of_isDigit {c : Char} (h : c.isDigit = true) : c.toLower = c := by
  have hle : c.toNat ≤ 57 := (Char.isDigit_iff_toNat.mp h).2
  unfold Char.toLower
  refine dif_neg ?_
  rintro ⟨hge, -⟩
  have hge : 65 ≤ c.toNat := UInt32.le_iff_toNat_le.mp hge
  omega

theorem digit_not_sign {c : Char} (h : c.isDigit = true) : c ≠ '₦' ∧ c.toLower ≠ 'n' := by
  rw [toLower_of_isDigit h]
  exact ⟨digit_ne h (by decide), digit_ne h (by decide)⟩

/-- The pattern of a sign takes the letters and the spaces behind. -/
theorem run_nairaSign_letters {w sp : Text} (hw : w = ['N', 'G', 'N'] ∨ w = ['n', 'g', 'n'])
    (hsp : ∀ c ∈ sp, isSpace c = true) (hv : ∀ c ∈ v.head?, isSpace c = false)
    (hk : k ⟨sp.reverse ++ (w.reverse ++ before), v, g⟩ = some x) :
    nairaSign.run k ⟨before, w ++ (sp ++ v), g⟩ = some x := by
  have hstar : (Re.star space).run k ⟨w.reverse ++ before, sp ++ v, g⟩ = some x :=
    run_star_full hsp hv hk
  have hupper : 'N'.toLower = 'n' ∧ 'G'.toLower = 'g' := by decide
  have hlower : 'n'.toLower = 'n' ∧ 'g'.toLower = 'g' := by decide
  rcases hw with rfl | rfl
  · simp only [List.reverse_cons, List.reverse_nil, List.nil_append, List.cons_append] at hstar
    simp [nairaSign, text_ngn, hupper, hstar]
  · simp only [List.reverse_cons, List.reverse_nil, List.nil_append, List.cons_append] at hstar
    simp [nairaSign, text_ngn, hlower, hstar]

/-- The figures are found behind any sign. -/
theorem exec_sign {q : Re} {sign : Text} (hsign : sign ∈ signs)
    (hv : ∃ c cs, v = c :: cs ∧ c.isDigit = true) {T : Text → At}
    (hrest : ∀ before, q.run some ⟨before, v, []⟩ = some (T before))
    (hnone : ∀ before c cs, c.isDigit = false → q.run some ⟨before, c :: cs, []⟩ = none) :
    ∃ before, exec (.seq nairaSign q) (sign ++ v) = some (T before) := by
  obtain ⟨c, cs, rfl, hc⟩ := hv
  have hspace : ∀ d ∈ (c :: cs).head?, isSpace d = false := by
    rintro d hd
    obtain rfl : c = d := Option.some.inj hd
    exact isSpace_of_isDigit hc
  have hfound : ∀ {before text : Text} {t : At},
      (Re.seq nairaSign q).run some ⟨before, text, []⟩ = some t →
      (search (.seq nairaSign q) before text).map Prod.snd = some t := by
    intro before text t h
    rw [search_of_run h]
    rfl
  have hdigits : ∀ before, (Re.seq nairaSign q).run some ⟨before, c :: cs, []⟩ =
      some (T before) := fun before => by
    rw [run_seq, run_nairaSign_skip (digit_not_sign hc).1 (digit_not_sign hc).2, hrest]
  have hletters : ∀ w sp : Text, w = ['N', 'G', 'N'] ∨ w = ['n', 'g', 'n'] →
      (∀ d ∈ sp, isSpace d = true) →
      exec (.seq nairaSign q) (w ++ (sp ++ c :: cs)) = some (T (sp.reverse ++ (w.reverse ++ []))) :=
    fun w sp hw hsp => hfound (run_nairaSign_letters hw hsp hspace (hrest _))
  simp only [signs, List.mem_cons, List.not_mem_nil, or_false] at hsign
  rcases hsign with rfl | rfl | rfl | rfl | rfl | rfl | rfl
  · exact ⟨_, hfound (hdigits _)⟩
  · refine ⟨['₦'], hfound ?_⟩
    simp [nairaSign, hrest]
  · -- the sign is not followed by digits, and the match begins at them
    have hsign : (Re.seq nairaSign q).run some ⟨[], '₦' :: ' ' :: c :: cs, []⟩ = none := by
      simp [nairaSign, text_ngn, hnone _ ' ' _ (by decide), hnone _ '₦' _ (by decide)]
    have hblank : (Re.seq nairaSign q).run some ⟨['₦'], ' ' :: c :: cs, []⟩ = none := by
      simp [nairaSign, text_ngn, hnone _ ' ' _ (by decide)]
    refine ⟨[' ', '₦'], ?_⟩
    simp only [exec, List.cons_append, List.nil_append, search, hsign, hblank]
    exact hfound (hdigits _)
  · exact ⟨_, hletters _ [] (.inl rfl) (fun d hd => (by cases hd))⟩
  · exact ⟨_, hletters ['N', 'G', 'N'] [' '] (.inl rfl) (fun d hd => by
      rw [List.mem_singleton.mp hd]
      decide)⟩
  · exact ⟨_, hletters _ [] (.inr rfl) (fun d hd => (by cases hd))⟩
  · exact ⟨_, hletters ['n', 'g', 'n'] [' '] (.inr rfl) (fun d hd => by
      rw [List.mem_singleton.mp hd]
      decide)⟩

/-- The pattern of digits fails at what is no digit. -/
theorem run_digits_none {c : Char} {cs : Text} (hc : c.isDigit = false) :
    digits.run k ⟨before, c :: cs, g⟩ = none := by
  simp [digits, digit, hc]

/-- The figures are captured. -/
theorem run_group_digits (hv : ∀ c ∈ v.head?, c.isDigit = false ∧ c ≠ '.')
    (hk : k ⟨d.unsigned.reverse ++ before, v, (1, d.unsigned) :: g⟩ = some x) :
    (Re.group 1 digits).run k ⟨before, d.unsigned ++ v, g⟩ = some x := by
  rw [run_group]
  refine run_digits hv ?_
  rw [upTo_skip]
  exact hk

/-- A plain amount is found. -/
theorem exec_plain (hsign : r.sign ∈ signs) :
    ∃ m, exec plainAmount (r.sign ++ d.unsigned) = some m ∧ captured m 1 = d.unsigned := by
  obtain ⟨before, h⟩ := exec_sign (q := .group 1 digits) hsign (unsigned_cons d)
    (T := fun before => ⟨d.unsigned.reverse ++ before, [], [(1, d.unsigned)]⟩) (fun before => by
      have hfound : (Re.group 1 digits).run some ⟨before, d.unsigned ++ [], []⟩ = some _ :=
        run_group_digits (fun c hc => (by cases hc)) rfl
      rwa [List.append_nil] at hfound) fun before c cs hc => run_digits_none hc
  exact ⟨_, h, rfl⟩

/-- An amount in thousands is found. -/
theorem exec_kilo (hsign : r.sign ∈ signs) :
    ∃ m, exec kiloAmount (r.sign ++ (d.unsigned ++ ['k'])) = some m ∧
      captured m 1 = d.unsigned := by
  obtain ⟨c, cs, hcons, hc⟩ := unsigned_cons d
  have hletter : ∀ before, (all [.star space, letterK, boundary]).run some
      ⟨d.unsigned.reverse ++ before, ['k'], [(1, d.unsigned)]⟩ =
        some ⟨'k' :: (d.unsigned.reverse ++ before), [], [(1, d.unsigned)]⟩ := fun before => by
    refine run_star_full (u := []) (fun e he => (by cases he)) (fun e he => ?_) ?_
    · obtain rfl : 'k' = e := Option.some.inj he
      decide
    · have hlower : 'k'.toLower = 'k' := by decide
      simp [Re.all, letterK, boundary, hlower, isWord]
  obtain ⟨before, h⟩ := exec_sign (q := all [.group 1 digits, .star space, letterK, boundary])
    hsign ⟨c, cs ++ ['k'], by rw [hcons]; rfl, hc⟩ (fun before => run_group_digits
      (fun e he => by
        obtain rfl : 'k' = e := Option.some.inj he
        decide) (hletter before)) fun before c cs hc => run_digits_none hc
  exact ⟨_, h, rfl⟩

/-- There is no `k` in a plain amount. -/
theorem exec_kilo_none (hsign : r.sign ∈ signs) :
    exec kiloAmount (r.sign ++ d.unsigned) = none := by
  refine exec_eq_none (q := fun c => c.toLower = 'k') (.inr (.inr (.inr (.inl ?_)))) fun c hc => ?_
  · exact fun c hc => by simpa using hc
  · rcases List.mem_append.mp hc with hc | hc
    · have hall : ∀ c ∈ signs.flatten, c.toLower ≠ 'k' := forall_mem_of_all (by decide)
      exact hall c (List.mem_flatten_of_mem hsign hc)
    · rcases mem_unsigned hc with hdigit | rfl
      · rw [toLower_of_isDigit hdigit]
        exact digit_ne hdigit (by decide)
      · decide

/-! ### What the figures come to -/

/-- The number that the figures are read as. -/
theorem number_unsigned (h : d.magnitude < 2 ^ 53) (hpos : 1 / 1000 ≤ d.magnitude) :
    number d.unsigned = (nearest d.magnitude : ℚ) := by
  have hvalue : (natural (beforePoint d.unsigned) : ℚ) + natural (afterPoint d.unsigned) /
      10 ^ (afterPoint d.unsigned).length = d.magnitude := by
    rw [beforePoint_unsigned, afterPoint_unsigned]
    rfl
  have hlarge : ¬ (2 : ℚ) ^ 1024 - 2 ^ 970 ≤ d.magnitude :=
    not_le.mpr (h.trans (by decide +kernel))
  have hsmall : ¬ d.magnitude ≤ (1 : ℚ) / 2 ^ 1075 :=
    not_le.mpr (lt_of_lt_of_le (by decide +kernel) hpos)
  unfold number
  dsimp only
  rw [hvalue, if_neg hlarge, if_neg hsmall]

/-- The least amount that does not come back from thousands. -/
def kiloLimit : ℕ := 4398046511104021

/-- Below it, the thousands of an amount, multiplied in floating point, round to the amount. -/
theorem kilo_exact {a : ℕ} (h : a < kiloLimit) :
    ⌊nearest (nearest (a / 1000) * 1000) + 1 / 2⌋ = (a : ℤ) := by
  have hnear : ∀ j < 21, ⌊nearest (nearest ((2 ^ 42 * 1000 + j : ℕ) / 1000) * 1000) + 1 / 2⌋ =
      ((2 ^ 42 * 1000 + j : ℕ) : ℤ) := by decide +kernel
  by_cases hlt : a < 2 ^ 42 * 1000
  · have hcast : (a : ℚ) + 1 ≤ 2 ^ 42 * 1000 := by exact_mod_cast hlt
    have hnonneg : (0 : ℚ) ≤ a := a.cast_nonneg
    have h₁ : |(a / 1000 : ℚ) - nearest (a / 1000)| ≤ 1 / 4096 := by
      refine (abs_sub_nearest_le_of_lt (e := 42) ?_).trans (by norm_num)
      rw [abs_of_nonneg (by positivity), div_lt_iff₀ (by norm_num)]
      exact lt_of_lt_of_le (lt_add_one _) (by exact_mod_cast hcast)
    rw [abs_le] at h₁
    have hp : |nearest (a / 1000 : ℚ) * 1000 - nearest (nearest (a / 1000 : ℚ) * 1000)| ≤
        1 / 4 := by
      refine (abs_sub_nearest_le_of_lt (e := 52) ?_).trans (by norm_num)
      rw [abs_of_nonneg (mul_nonneg (nearest_nonneg (by positivity)) (by norm_num))]
      have : nearest (a / 1000 : ℚ) * 1000 ≤ a + 1000 / 4096 := by linarith [h₁.1]
      exact lt_of_le_of_lt this (by norm_num at hcast ⊢; linarith)
    rw [abs_le] at hp
    rw [Int.floor_eq_iff]
    push_cast
    constructor <;> linarith [h₁.1, h₁.2, hp.1, hp.2]
  · obtain ⟨j, rfl⟩ := Nat.exists_eq_add_of_le (not_lt.mp hlt)
    exact hnear j (by unfold kiloLimit at h; omega)

/-- The figures of an amount that come back: thousands only below the limit. -/
def Figures.Exact : Figures a → Prop
  | plain | commas => True
  | kilo _ _ => a < kiloLimit

theorem trimText_of_clean {cs : Text} (h : Clean cs) (hne : cs ≠ []) : trimText cs = cs := by
  have happend : trimText (cs ++ []) = cs := trimText_append h hne (by simp)
  rwa [List.append_nil] at happend

/-- The amount without commas, trimmed. -/
theorem normalized_text (r : Rendering a) :
    trimText (r.text.filter (· ≠ ',')) =
      r.sign ++ (r.figures.decimal.unsigned ++ r.figures.tail) := by
  have hsign : ∀ w ∈ signs, w.filter (· ≠ ',') = w := by decide
  have hhead : ∀ c ∈ signs.filterMap List.head?, isSpace c = false :=
    forall_mem_of_all (by decide)
  obtain ⟨c, cs, hcons, hc⟩ := unsigned_cons r.figures.decimal
  have hspace : ∀ e ∈ r.figures.decimal.unsigned ++ r.figures.tail, isSpace e = false := by
    intro e he
    rcases List.mem_append.mp he with he | he
    · rcases mem_unsigned he with hdigit | rfl
      · exact isSpace_of_isDigit hdigit
      · decide
    · cases hf : r.figures with
      | plain | commas =>
          rw [hf] at he
          cases he
      | kilo q value =>
          rw [hf] at he
          rw [List.mem_singleton.mp he]
          decide
  rw [Rendering.text, List.filter_append, hsign _ r.sign_mem, filter_figures]
  refine trimText_of_clean ⟨fun e he => ?_, fun e he => ?_⟩ ?_
  · cases hs : r.sign with
    | nil =>
        rw [hs, hcons] at he
        obtain rfl : c = e := Option.some.inj he
        exact isSpace_of_isDigit hc
    | cons d ds =>
        rw [hs] at he
        exact hhead e (List.mem_filterMap.mpr ⟨_, r.sign_mem, by rw [hs]; exact he⟩)
  · rw [List.getLast?_append_of_ne_nil _ (by simp [hcons])] at he
    exact hspace e (List.mem_of_getLast? he)
  · simp [hcons]

/-- **An amount comes back from its text**, however it is written. -/
theorem parseAmount_text (r : Rendering a) (hpos : 0 < a) (hlt : a < 2 ^ 53)
    (hexact : r.figures.Exact) : parseAmount r.text = some ((a : ℤ) : WithTop ℤ) := by
  have ha : (1 : ℚ) ≤ a := by exact_mod_cast hpos
  have hsmall : (a : ℚ) < 2 ^ 53 := by exact_mod_cast hlt
  have hplain : r.figures.decimal = ofNat a → r.figures.tail = [] →
      parseAmount r.text = some ((a : ℤ) : WithTop ℤ) := by
    intro hdecimal htail
    have hmagnitude : (ofNat a).magnitude = a := by
      show (natural (toString a).toList : ℚ) + natural [] / 10 ^ 0 = a
      rw [natural_toString, natural_nil]
      simp
    obtain ⟨m, hm, hcaptured⟩ := exec_plain (r := r) (d := ofNat a) r.sign_mem
    have hnumber : number (ofNat a).unsigned = ((a : ℚ) : WithTop ℚ) := by
      have hnearest : nearest (a : ℚ) = a := by
        have := nearest_intCast (n := a) (by
          rw [abs_of_nonneg (by positivity)]
          exact_mod_cast hlt.le)
        exact_mod_cast this
      rw [number_unsigned (by rw [hmagnitude]; exact hsmall)
        (by rw [hmagnitude]; linarith), hmagnitude, hnearest]
    have hround : ⌊(a : ℚ) + 1 / 2⌋ = (a : ℤ) := by
      rw [Int.floor_eq_iff]
      push_cast
      constructor <;> linarith
    unfold parseAmount
    dsimp only
    rw [normalized_text, hdecimal, htail, List.append_nil, exec_kilo_none r.sign_mem, hm]
    dsimp only
    have hne : ((a : ℚ) : WithTop ℚ) ≠ ((0 : ℚ) : WithTop ℚ) := by
      rw [Ne, WithTop.coe_eq_coe]
      linarith
    rw [hcaptured, hnumber, if_pos (by simpa using hne)]
    exact congrArg (fun n : ℤ => some (n : WithTop ℤ)) hround
  cases hf : r.figures with
  | plain => exact hplain (by rw [hf]; rfl) (by rw [hf]; rfl)
  | commas => exact hplain (by rw [hf]; rfl) (by rw [hf]; rfl)
  | kilo q value =>
      rw [hf] at hexact
      have hq : q.magnitude = a / 1000 := by
        rw [eq_div_iff (by norm_num)]
        exact value
      obtain ⟨m, hm, hcaptured⟩ := exec_kilo (r := r) (d := q) r.sign_mem
      have hnumber : number q.unsigned = ((nearest (a / 1000) : ℚ) : WithTop ℚ) := by
        rw [number_unsigned (by rw [hq]; linarith) (by rw [hq]; linarith), hq]
      have htimes : times (nearest (a / 1000) : ℚ) 1000 =
          ((nearest (nearest (a / 1000) * 1000) : ℚ) : WithTop ℚ) := by
        have hle := (abs_le.mp (abs_sub_nearest_le (a / 1000 : ℚ))).1
        rw [abs_of_nonneg (by positivity)] at hle
        refine if_neg (not_le.mpr (lt_of_le_of_lt (b := 2 ^ 54) ?_ (by decide +kernel)))
        have hbound : (a : ℚ) < 9007199254740992 := hsmall.trans_eq (by norm_num)
        norm_num at hle ⊢
        linarith
      unfold parseAmount
      dsimp only
      rw [normalized_text, hf]
      dsimp only [Figures.decimal, Figures.tail]
      rw [hm]
      dsimp only
      rw [hcaptured, hnumber, if_pos (WithTop.coe_ne_top), htimes]
      exact congrArg (fun n : ℤ => some (n : WithTop ℤ)) (kilo_exact hexact)

/-- What stands in the figures. -/
theorem mem_figures {c : Char} {f : Figures a} (h : c ∈ f.text) :
    c.isDigit = true ∨ c = ',' ∨ c = '.' ∨ c = 'k' := by
  by_cases hc : c = ','
  · exact .inr (.inl hc)
  · have hmem : c ∈ f.decimal.unsigned ++ f.tail := by
      rw [← filter_figures]
      exact List.mem_filter.mpr ⟨h, by simpa using hc⟩
    rcases List.mem_append.mp hmem with hmem | hmem
    · exact (mem_unsigned hmem).imp_right fun hpoint => .inr (.inl hpoint)
    · cases f with
      | plain | commas => cases hmem
      | kilo q value => exact .inr (.inr (.inr (List.mem_singleton.mp hmem)))

/-- The figures begin with a digit. -/
theorem figures_cons (f : Figures a) : ∃ c cs, f.text = c :: cs ∧ c.isDigit = true := by
  obtain ⟨c, cs, hcons, hc⟩ := unsigned_cons (ofNat a)
  rw [unsigned_ofNat] at hcons
  cases f with
  | plain => exact ⟨c, cs, hcons, hc⟩
  | commas =>
      simp only [Figures.text, hcons, thousands]
      split_ifs
      · exact ⟨c, _, rfl, hc⟩
      · exact ⟨c, _, rfl, hc⟩
  | kilo q value =>
      obtain ⟨c, cs, hcons, hc⟩ := unsigned_cons q
      exact ⟨c, cs ++ ['k'], by simp [Figures.text, hcons], hc⟩

theorem isSpace_figures {c : Char} {f : Figures a} (h : c ∈ f.text) : isSpace c = false := by
  rcases mem_figures h with hdigit | rfl | rfl | rfl
  · exact isSpace_of_isDigit hdigit
  · decide
  · decide
  · decide

/-- White space in an amount is what is in front of its figures. -/
theorem space_text {u₁ u₂ : Text} {e : Char} (h : r.text = u₁ ++ e :: u₂)
    (he : isSpace e = true) : e = ' ' ∧ ∃ c cs, u₂ = c :: cs ∧ c.isDigit = true := by
  have hlast : ∀ c ∈ (signs.map List.dropLast).flatten, isSpace c = false :=
    forall_mem_of_all (by decide)
  have hblank : ∀ c ∈ signs.flatten, isSpace c = true → c = ' ' :=
    forall_mem_of_all (by decide)
  have hnot : e ∉ r.figures.text := fun hmem => by
    rw [isSpace_figures hmem] at he
    cases he
  have hsplit : r.sign ++ r.figures.text = u₁ ++ e :: u₂ := h
  rcases List.append_eq_append_iff.mp hsplit with ⟨v, -, hfigures⟩ | ⟨v, hsign, hrest⟩
  · exact absurd (hfigures ▸ List.mem_append_right v List.mem_cons_self) hnot
  · cases v with
    | nil =>
        rw [List.nil_append] at hrest
        exact absurd (hrest ▸ List.mem_cons_self) hnot
    | cons d v =>
        rw [List.cons_append] at hrest
        obtain ⟨rfl, htail⟩ := List.cons.inj hrest
        cases v with
        | nil =>
            rw [htail]
            exact ⟨hblank e (List.mem_flatten_of_mem r.sign_mem
              (hsign ▸ List.mem_append_right u₁ List.mem_cons_self)) he, figures_cons r.figures⟩
        | cons d' v =>
            have hmem : e ∈ r.sign.dropLast := by
              rw [hsign, List.dropLast_append_of_ne_nil (List.cons_ne_nil _ _),
                List.dropLast_cons_of_ne_nil (List.cons_ne_nil _ _)]
              exact List.mem_append_right u₁ List.mem_cons_self
            rw [hlast e (List.mem_flatten_of_mem (List.mem_map_of_mem r.sign_mem) hmem)] at he
            cases he

theorem isPlain_of_isDigit {c : Char} (h : c.isDigit = true) : isPlain c = true := by
  have hrange := Char.isDigit_iff_toNat.mp h
  have hlow : 48 ≤ c.toNat := hrange.1
  have hhigh : c.toNat ≤ 57 := hrange.2
  simp only [isPlain, List.mem_cons, List.not_mem_nil, or_false, not_or, decide_eq_true_eq]
  omega

/-- An amount is on one line. -/
theorem isPlain_text {c : Char} (h : c ∈ r.text) : isPlain c = true := by
  have hsigns : ∀ c ∈ signs.flatten, isPlain c = true := forall_mem_of_all (by decide)
  rcases List.mem_append.mp h with h | h
  · exact hsigns c (List.mem_flatten_of_mem r.sign_mem h)
  · rcases mem_figures h with hdigit | rfl | rfl | rfl
    · exact isPlain_of_isDigit hdigit
    · decide
    · decide
    · decide

/-- An amount does not begin with white space. -/
theorem text_cons (r : Rendering a) : ∃ c cs, r.text = c :: cs ∧ isSpace c = false := by
  have hhead : ∀ c ∈ signs.filterMap List.head?, isSpace c = false :=
    forall_mem_of_all (by decide)
  obtain ⟨c, cs, hcons, hc⟩ := figures_cons r.figures
  cases hs : r.sign with
  | nil => exact ⟨c, cs, by simp [Rendering.text, hs, hcons], isSpace_of_isDigit hc⟩
  | cons d ds =>
      exact ⟨d, ds ++ r.figures.text, by simp [Rendering.text, hs],
        hhead d (List.mem_filterMap.mpr ⟨_, r.sign_mem, by rw [hs]; rfl⟩)⟩

/-! ### The phrase is taken apart -/

/-- One space. -/
theorem run_space (hv : ∀ c ∈ v.head?, isSpace c = false)
    (hk : k ⟨' ' :: before, v, g⟩ = some x) :
    (plus space).run k ⟨before, ' ' :: v, g⟩ = some x := by
  have hstar : (Re.star space).run k ⟨' ' :: before, v, g⟩ = some x :=
    run_star_full (u := []) (fun e he => (by cases he)) hv hk
  rw [run_plus, space, run_one_cons, if_pos (by decide)]
  exact hstar

/-- One space, behind which the rest fails. -/
theorem run_space_none {c : Char} {cs : Text} (hc : isSpace c = false)
    (hk : k ⟨' ' :: before, c :: cs, g⟩ = none) :
    (plus space).run k ⟨before, ' ' :: c :: cs, g⟩ = none := by
  have hstar : (Re.star space).run k ⟨' ' :: before, c :: cs, g⟩ = none := by
    refine run_star_none (u := []) (v := c :: cs) (fun e he => ?_) fun u₁ u₂ hu => ?_
    · obtain rfl : c = e := Option.some.inj he
      exact hc
    · obtain ⟨rfl, rfl⟩ := List.append_eq_nil_iff.mp hu.symm
      exact hk
  rw [run_plus, space, run_one_cons, if_pos (by decide)]
  exact hstar

/-- No space. -/
theorem run_spaces_none {c : Char} {cs : Text} (hc : isSpace c = false) :
    (plus space).run k ⟨before, c :: cs, g⟩ = none := by
  simp [space, hc]

theorem text_to : Re.text "to" = .seq (.one (·.toLower = 't')) (.one (·.toLower = 'o')) := rfl

theorem text_send : Re.text "send" = .seq (.one (·.toLower = 's')) (.seq (.one (·.toLower = 'e'))
    (.seq (.one (·.toLower = 'n')) (.one (·.toLower = 'd')))) := rfl

/-- The end of a phrase, from the space in front of `to` on. -/
def toward : Re := all [plus space, .text "to", plus space, .group 2 (plus any), last]

theorem run_toward {D : Text} (hD : ∃ c cs, D = c :: cs ∧ isSpace c = false)
    (hplain : ∀ c ∈ D, isPlain c = true) :
    toward.run some ⟨before, ' ' :: 't' :: 'o' :: ' ' :: D, g⟩ =
      some ⟨D.reverse ++ (' ' :: 'o' :: 't' :: ' ' :: before), [], (2, D) :: g⟩ := by
  obtain ⟨c, cs, rfl, hc⟩ := hD
  have hdest : (all [.group 2 (plus any), last]).run some
      ⟨' ' :: 'o' :: 't' :: ' ' :: before, c :: cs, g⟩ =
        some ⟨(c :: cs).reverse ++ (' ' :: 'o' :: 't' :: ' ' :: before), [],
          (2, c :: cs) :: g⟩ := by
    let at₀ : At := ⟨' ' :: 'o' :: 't' :: ' ' :: before, c :: cs, g⟩
    have hstar : (Re.star any).run (fun t => last.run some (t.capture 2 (at₀.upTo t)))
        ⟨c :: at₀.before, cs ++ [], g⟩ = some ⟨(c :: cs).reverse ++ at₀.before, [],
          (2, c :: cs) :: g⟩ := by
      refine run_star_full (fun e he => hplain e (List.mem_cons_of_mem c he))
        (fun e he => (by cases he)) ?_
      have hupTo : at₀.upTo ⟨cs.reverse ++ c :: at₀.before, [], g⟩ = c :: cs := by
        simp [At.upTo, at₀]
      rw [hupTo]
      simp [last, At.capture, at₀]
    rw [List.append_nil] at hstar
    simp only [Re.all, run_seq, run_group, run_plus]
    rw [any, run_one_cons, if_pos (hplain c List.mem_cons_self)]
    exact hstar
  have hletters : 't'.toLower = 't' ∧ 'o'.toLower = 'o' := by decide
  refine run_space (fun e he => ?_) ?_
  · obtain rfl : 't' = e := Option.some.inj he
    decide
  · simp only [Re.all, text_to, run_seq, run_one_cons, hletters, decide_true, if_true]
    exact run_space (fun e he => by
      obtain rfl : c = e := Option.some.inj he
      exact hc) hdest

/-- A phrase is taken apart at its first `to`. -/
theorem exec_sendTo {R D : Text} (hR : ∃ c cs, R = c :: cs ∧ isSpace c = false)
    (hplain : ∀ c ∈ R, isPlain c = true)
    (hspace : ∀ u₁ e u₂, R = u₁ ++ e :: u₂ → isSpace e = true →
      e = ' ' ∧ ∃ c cs, u₂ = c :: cs ∧ c.isDigit = true)
    (hD : ∃ c cs, D = c :: cs ∧ isSpace c = false) (hDplain : ∀ c ∈ D, isPlain c = true) :
    ∃ m, exec sendTo ('s' :: 'e' :: 'n' :: 'd' :: ' ' :: (R ++ ' ' :: 't' :: 'o' :: ' ' :: D)) =
      some m ∧ captured m 1 = R ∧ captured m 2 = D := by
  obtain ⟨c, cs, rfl, hc⟩ := hR
  let start : At :=
    ⟨[' ', 'd', 'n', 'e', 's'], (c :: cs) ++ ' ' :: 't' :: 'o' :: ' ' :: D, []⟩
  let found : At := ⟨D.reverse ++ (' ' :: 'o' :: 't' :: ' ' :: ((c :: cs).reverse ++ start.before)),
    [], [(2, D), (1, c :: cs)]⟩
  -- no shorter amount is followed by `to`
  have hshort : ∀ u₁ u₂, cs = u₁ ++ u₂ → u₂ ≠ [] → ∀ before h,
      toward.run some ⟨before, u₂ ++ ' ' :: 't' :: 'o' :: ' ' :: D, h⟩ = none := by
    intro u₁ u₂ hu hne before h
    obtain ⟨e, u₃, rfl⟩ := List.exists_cons_of_ne_nil hne
    by_cases he : isSpace e = true
    · obtain ⟨rfl, d, ds, rfl, hd⟩ := hspace (c :: u₁) e u₃ (by rw [hu]; rfl) he
      have hlower : d.toLower ≠ 't' := by
        rw [toLower_of_isDigit hd]
        exact digit_ne hd (by decide)
      refine run_space_none (isSpace_of_isDigit hd) ?_
      simp only [Re.all, text_to, run_seq, run_one_cons, hlower, decide_false]
      rfl
    · exact run_spaces_none (by simpa using he)
  have hlazy : (Re.lazy any).run (fun t => toward.run some (t.capture 1 (start.upTo t)))
      ⟨c :: start.before, cs ++ ' ' :: 't' :: 'o' :: ' ' :: D, []⟩ = some found := by
    refine run_lazy_first (fun e he => hplain e (List.mem_cons_of_mem c he))
      (fun u₁ u₂ hu hne => hshort u₁ u₂ hu hne _ _) ?_
    have hupTo : start.upTo ⟨cs.reverse ++ c :: start.before, ' ' :: 't' :: 'o' :: ' ' :: D, []⟩ =
        c :: cs := by
      have hskip : start.upTo ⟨(c :: cs).reverse ++ start.before,
          ' ' :: 't' :: 'o' :: ' ' :: D, []⟩ = c :: cs := upTo_skip []
      rwa [List.reverse_cons, List.append_assoc] at hskip
    rw [hupTo]
    refine (run_toward hD hDplain).trans ?_
    simp [found]
  have hamount : (all [.group 1 (lazyPlus any), toward]).run some start = some found := by
    simp only [Re.all, run_seq, run_group, run_lazyPlus]
    rw [any]
    refine Eq.trans ?_ hlazy
    exact if_pos (hplain c List.mem_cons_self)
  have hspaceAfter : (plus space).run ((all [.group 1 (lazyPlus any), toward]).run some)
      ⟨['d', 'n', 'e', 's'], ' ' :: start.rest, []⟩ = some found :=
    run_space (fun e he => by
      obtain rfl : c = e := Option.some.inj he
      exact hc) hamount
  have hletters : 's'.toLower = 's' ∧ 'e'.toLower = 'e' ∧ 'n'.toLower = 'n' ∧
      'd'.toLower = 'd' := by decide
  have hrun : sendTo.run some ⟨[], 's' :: 'e' :: 'n' :: 'd' :: ' ' :: start.rest, []⟩ =
      some found := by
    have hverb : (Re.text "send").run ((plus space).run
        ((all [.group 1 (lazyPlus any), toward]).run some))
          ⟨[], 's' :: 'e' :: 'n' :: 'd' :: ' ' :: start.rest, []⟩ = some found := by
      simp only [text_send, run_seq, run_one_cons, hletters, decide_true, if_true]
      exact hspaceAfter
    exact hverb
  refine ⟨found, ?_, rfl, rfl⟩
  rw [exec, search_of_run hrun]
  rfl

end amounts

/-! ### Words -/

/-- A word of letters that is not `to`. -/
structure IsWord (w : Text) : Prop where
  ne : w ≠ []
  letters : ∀ c ∈ w, c.isAlpha = true
  not_to : w.map Char.toLower ≠ ['t', 'o']

/-- Words with a space between them. -/
def phrase (words : List Text) : Text := [' '].intercalate words

/-- The words, each with a space behind it. -/
def spaced (words : List Text) : Text := words.flatMap (· ++ [' '])

section words

variable {words : List Text} {w u A B : Text} {c : Char}

theorem phrase_append (words : List Text) (w : Text) :
    phrase (words ++ [w]) = spaced words ++ w := by
  induction words with
  | nil => simp [phrase, spaced, List.intercalate]
  | cons v words ih =>
      have hne : words ++ [w] ≠ [] := by simp
      obtain ⟨x, xs, hcons⟩ := List.exists_cons_of_ne_nil hne
      have hstep : phrase (v :: (words ++ [w])) = v ++ ' ' :: phrase (words ++ [w]) := by
        rw [hcons]
        simp [phrase, List.intercalate]
      rw [List.cons_append, hstep, ih]
      simp [spaced]

theorem not_isDigit_of_isAlpha (h : c.isAlpha = true) : c.isDigit = false := by
  have hrange := isAlpha_iff.mp h
  by_contra hdigit
  have hdigits := Char.isDigit_iff_toNat.mp (by simpa using hdigit)
  have hhigh : c.toNat ≤ 57 := hdigits.2
  omega

theorem not_isSpace_of_isAlpha (h : c.isAlpha = true) : isSpace c = false := by
  have hrange := isAlpha_iff.mp h
  simp only [isSpace, Bool.or_eq_false_iff, Bool.and_eq_false_iff, decide_eq_false_iff_not,
    List.mem_cons, List.not_mem_nil, or_false]
  omega

theorem isPlain_of_isAlpha (h : c.isAlpha = true) : isPlain c = true := by
  have hrange := isAlpha_iff.mp h
  simp only [isPlain, List.mem_cons, List.not_mem_nil, or_false, not_or, decide_eq_true_eq]
  omega

theorem isWord_of_isAlpha (h : c.isAlpha = true) : Regex.isWord c = true := by
  simp [Regex.isWord, Char.isAlphanum, h]

/-- What stands in a text of words. -/
theorem mem_spaced (hwords : ∀ w ∈ words, IsWord w) (h : c ∈ spaced words) :
    c.isAlpha = true ∨ c = ' ' := by
  obtain ⟨w, hw, hc⟩ := List.mem_flatMap.mp h
  rcases List.mem_append.mp hc with hc | hc
  · exact .inl ((hwords w hw).letters c hc)
  · exact .inr (List.mem_singleton.mp hc)

/-- What stands before the first space. -/
theorem eq_of_space (hw : ' ' ∉ w) (hu : ' ' ∉ u) (h : w ++ ' ' :: A = u ++ ' ' :: B) : w = u := by
  rcases List.append_eq_append_iff.mp h with ⟨v, rfl, hv⟩ | ⟨v, rfl, hv⟩
  · cases v with
    | nil => simp
    | cons d v =>
        obtain ⟨rfl, -⟩ := List.cons.inj hv
        exact absurd (List.mem_append_right w List.mem_cons_self) hu
  · cases v with
    | nil => simp
    | cons d v =>
        obtain ⟨rfl, -⟩ := List.cons.inj hv
        exact absurd (List.mem_append_right u List.mem_cons_self) hw

/-- What stands between two spaces is a word of the text. -/
theorem mem_of_spaced (hwords : ∀ w ∈ words, ' ' ∉ w) (hu : ' ' ∉ u)
    (h : spaced words = A ++ (u ++ ' ' :: B)) (hA : A = [] ∨ A.getLast? = some ' ') :
    u ∈ words := by
  induction words generalizing A with
  | nil => simp [spaced] at h
  | cons w words ih =>
      have hw : ' ' ∉ w := hwords w List.mem_cons_self
      have hrest : ∀ v ∈ words, ' ' ∉ v := fun v hv => hwords v (List.mem_cons_of_mem w hv)
      have hspaced : w ++ ' ' :: spaced words = A ++ (u ++ ' ' :: B) := by
        rw [← h]
        simp [spaced]
      rcases hA with rfl | hA
      · obtain rfl := eq_of_space hw hu hspaced
        exact List.mem_cons_self
      · obtain ⟨A', rfl⟩ := List.getLast?_eq_some_iff.mp hA
        rw [List.append_assoc, List.singleton_append] at hspaced
        refine List.mem_cons_of_mem w ?_
        rcases List.append_eq_append_iff.mp hspaced with ⟨v, rfl, hv⟩ | ⟨v, rfl, hv⟩
        · cases v with
          | nil => exact ih hrest (List.cons.inj hv).2 (.inl rfl)
          | cons d v =>
              obtain ⟨rfl, hv⟩ := List.cons.inj hv
              exact ih (A := v ++ [' ']) hrest (by simpa using hv) (.inr (by simp))
        · cases v with
          | nil => exact ih hrest (List.cons.inj hv).2.symm (.inl rfl)
          | cons d v =>
              obtain ⟨rfl, -⟩ := List.cons.inj hv
              exact absurd (List.mem_append_right A' List.mem_cons_self) hw

/-- Words have no spaces in them. -/
theorem IsWord.not_mem_space (h : IsWord w) : ' ' ∉ w := fun hmem => by
  have := h.letters ' ' hmem
  cases this

/-- No two spaces stand next to one another. -/
theorem not_double_space (hwords : ∀ w ∈ words, IsWord w) :
    ¬ spaced words = A ++ ' ' :: ' ' :: B := by
  intro h
  have hnil : [] ∈ words := mem_of_spaced (A := A ++ [' ']) (u := [])
    (fun w hw => (hwords w hw).not_mem_space) (by simp) (by simpa using h) (.inr (by simp))
  exact (hwords [] hnil).ne rfl

/-- White space is collapsed already where it is single spaces. -/
theorem collapseSpaces_eq_self {text : Text} (hblank : ∀ c ∈ text, isSpace c = true → c = ' ')
    (hdouble : ∀ A B, text ≠ A ++ ' ' :: ' ' :: B) : collapseSpaces text = text := by
  refine replaceAll_eq_self (by simp) fun s t hm htext => ?_
  cases hm with
  | seq hone hstar =>
      cases hone with
      | @one _ c before cs g hc =>
          have hmem : ∀ d ∈ c :: cs, d ∈ text := fun d hd => htext ▸ List.mem_append_right _ hd
          obtain rfl := hblank c (hmem c List.mem_cons_self) hc
          cases hstar with
          | starNil => rfl
          | starStep hone' _ =>
              cases hone' with
              | @one _ d _ ds _ hd =>
                  obtain rfl := hblank d (hmem d (by simp)) hd
                  exact absurd htext.symm (hdouble _ _)

/-- A text of words ends in a space. -/
theorem getLast_spaced (hne : words ≠ []) : (spaced words).getLast? = some ' ' := by
  obtain ⟨ws, w, rfl⟩ := (List.eq_nil_or_concat' words).resolve_left hne
  simp [spaced]

/-- There is no `to` among the words. -/
theorem replaceAll_wordTo (hwords : ∀ w ∈ words, IsWord w) :
    replaceAll wordTo [' '] (spaced words) = spaced words := by
  refine replaceAll_of_none (search_none_of_not_matches fun s t htext hm => ?_)
  have hblank : ∀ c ∈ spaced words, Regex.isWord c = false → c = ' ' := by
    intro c hc hword
    refine (mem_spaced hwords hc).resolve_left fun halpha => ?_
    rw [isWord_of_isAlpha halpha] at hword
    cases hword
  cases hm with
  | seq hfront hrest =>
  cases hrest with
  | seq hto hback =>
  rw [text_to] at hto
  cases hto with
  | seq ht ho =>
  cases hfront with
  | look hfront =>
  cases ht with
  | @one _ t' before cs g ht =>
  cases ho with
  | @one _ o' _ rest _ ho =>
  cases hback with
  | look hback =>
  have ht : t'.toLower = 't' := by simpa using ht
  have ho : o'.toLower = 'o' := by simpa using ho
  have hmem : ∀ d ∈ before.reverse ++ t' :: o' :: rest, d ∈ spaced words := fun d hd =>
    htext ▸ hd
  have hletter : ∀ d ∈ [t', o'], d ≠ ' ' := by
    intro d hd
    rcases List.mem_cons.mp hd with rfl | hd
    · rintro rfl
      cases ht
    · rw [List.mem_singleton.mp hd]
      rintro rfl
      cases ho
  have hword : ∀ d ∈ [t', o'], Regex.isWord d = true := fun d hd => by
    by_contra hnot
    exact hletter d hd (hblank d (hmem d (by
      rcases List.mem_cons.mp hd with rfl | hd
      · simp
      · rw [List.mem_singleton.mp hd]
        simp)) (by simpa using hnot))
  simp only [Option.any_some, List.head?_cons, hword t' (by simp), hword o' (by simp),
    bne_iff_ne, ne_eq, Bool.not_eq_true] at hfront hback
  have hbefore : before.reverse = [] ∨ before.reverse.getLast? = some ' ' := by
    cases before with
    | nil => exact .inl rfl
    | cons d ds =>
        have hd : Regex.isWord d = false := by simpa using hfront
        rw [hblank d (hmem d (by simp)) hd]
        exact .inr (by simp)
  cases rest with
  | nil =>
      have hne : words ≠ [] := by
        rintro rfl
        simp [spaced] at htext
      have hlast := getLast_spaced hne
      rw [← htext] at hlast
      have ho' : o' = ' ' := by simpa using hlast
      exact hletter o' (by simp) ho'
  | cons d ds =>
      have hd : Regex.isWord d = false := by simpa using hback
      obtain rfl := hblank d (hmem d (by simp)) hd
      have hfound : [t', o'] ∈ words := mem_of_spaced (A := before.reverse) (B := ds)
        (fun w hw => (hwords w hw).not_mem_space)
        (by simpa using ⟨(hletter t' (by simp)).symm, (hletter o' (by simp)).symm⟩)
        (by simpa using htext.symm) hbefore
      exact (hwords _ hfound).not_to (by simp [ht, ho])

/-! ### Destinations -/

/-- An account number of ten digits. -/
structure IsAccount (n : Text) : Prop where
  length : n.length = 10
  digits : Digits n

theorem IsAccount.cons {n : Text} (hn : IsAccount n) :
    ∃ c cs, n = c :: cs ∧ c.isDigit = true := by
  cases n with
  | nil =>
      have := hn.length
      cases this
  | cons c cs => exact ⟨c, cs, rfl, hn.digits c List.mem_cons_self⟩

theorem not_isDigit_spaced (hwords : ∀ w ∈ words, IsWord w) :
    ∀ c ∈ spaced words, c.isDigit = false := by
  intro c hc
  rcases mem_spaced hwords hc with hc | rfl
  · exact not_isDigit_of_isAlpha hc
  · rfl

/-- A text of words does not begin with white space. -/
theorem head_spaced (hwords : ∀ w ∈ words, IsWord w) :
    ∀ c ∈ (spaced words).head?, isSpace c = false := by
  intro c hc
  cases words with
  | nil => cases hc
  | cons w words =>
      have hw := hwords w List.mem_cons_self
      obtain ⟨d, ds, rfl⟩ := List.exists_cons_of_ne_nil hw.ne
      obtain rfl : d = c := Option.some.inj hc
      exact not_isSpace_of_isAlpha (hw.letters d List.mem_cons_self)

/-- The account behind the words is found. -/
theorem exec_fullAccount (hwords : ∀ w ∈ words, IsWord w) {n : Text} (hn : IsAccount n) :
    ∃ m, exec fullAccount (spaced words ++ n) = some m ∧ captured m 1 = n := by
  obtain ⟨c, cs, hcons, hc⟩ := hn.cons
  have hskip : search fullAccount [] (spaced words ++ n) =
      search fullAccount ((spaced words).reverse ++ []) n := by
    refine search_skip fun u₁ u₂ hu hne => ?_
    obtain ⟨d, ds, rfl⟩ := List.exists_cons_of_ne_nil hne
    have hd := not_isDigit_spaced hwords d (hu ▸ List.mem_append_right u₁ List.mem_cons_self)
    simp [fullAccount, Re.all, Re.rep, boundary, digit, hd]
  have hbefore : ((spaced words).reverse ++ []).head?.any Regex.isWord = false := by
    rw [List.append_nil, List.head?_reverse]
    by_cases hne : words = []
    · subst hne
      rfl
    · rw [getLast_spaced hne]
      rfl
  have hword : ∀ d, d.isDigit = true → Regex.isWord d = true := fun d hd => by
    simp [Regex.isWord, Char.isAlphanum, hd]
  have hlast : n.reverse.head?.any Regex.isWord = true := by
    rw [List.head?_reverse, List.getLast?_eq_some_getLast (by simp [hcons])]
    exact hword _ (hn.digits _ (List.getLast_mem _))
  let end_ : At := ⟨n.reverse ++ ((spaced words).reverse ++ []), [], [(1, n)]⟩
  have hrun : fullAccount.run some ⟨(spaced words).reverse ++ [], n, []⟩ = some end_ := by
    let begin_ : At := ⟨(spaced words).reverse ++ [], n ++ [], []⟩
    have hrep : ((Re.one Char.isDigit).rep n.length).run
        (fun t => boundary.run some (t.capture 1 (begin_.upTo t))) begin_ =
          boundary.run some ((At.mk (n.reverse ++ begin_.before) [] []).capture 1
            (begin_.upTo ⟨n.reverse ++ begin_.before, [], []⟩)) := run_rep hn.digits
    have hupTo : begin_.upTo ⟨n.reverse ++ begin_.before, [], []⟩ = n := upTo_skip []
    simp only [begin_, List.append_nil n, hn.length] at hrep hupTo
    have hfirst : (((spaced words).reverse ++ []).head?.any Regex.isWord !=
        n.head?.any Regex.isWord) = true := by
      rw [hbefore, hcons]
      simp [hword c hc]
    have hend : (((n.reverse ++ ((spaced words).reverse ++ [])).head?.any Regex.isWord) !=
        ([] : Text).head?.any Regex.isWord) = true := by
      rw [List.head?_append_of_ne_nil _ (by simp [hcons]), hlast]
      rfl
    simp only [fullAccount, Re.all, run_seq]
    rw [boundary, run_look, if_pos hfirst]
    refine hrep.trans ?_
    rw [hupTo, boundary, run_look]
    exact if_pos hend
  refine ⟨end_, ?_, rfl⟩
  rw [exec, hskip, search_of_run hrun]
  rfl

/-- The account is taken out. -/
theorem removeFirst_spaced (hwords : ∀ w ∈ words, IsWord w) {n : Text} (hn : IsAccount n) :
    removeFirst n (spaced words ++ n) = spaced words := by
  obtain ⟨c, cs, hcons, hc⟩ := hn.cons
  have hall : ∀ u : Text, (∀ d ∈ u, d.isDigit = false) → removeFirst n (u ++ n) = u := by
    intro u hu
    induction u with
    | nil =>
        subst hcons
        simp [removeFirst]
    | cons d u ih =>
        have hd : ¬ n <+: d :: (u ++ n) := by
          rw [hcons, List.cons_prefix_cons]
          rintro ⟨rfl, -⟩
          rw [hu c List.mem_cons_self] at hc
          cases hc
        rw [List.cons_append, removeFirst, if_neg hd,
          ih fun e he => hu e (List.mem_cons_of_mem d he)]
  exact hall _ (not_isDigit_spaced hwords)

/-- The words are the text without its last space. -/
theorem spaced_eq (hne : words ≠ []) : spaced words = phrase words ++ [' '] := by
  obtain ⟨ws, w, rfl⟩ := (List.eq_nil_or_concat' words).resolve_left hne
  rw [phrase_append]
  simp [spaced]

theorem phrase_ne (hwords : ∀ w ∈ words, IsWord w) (hne : words ≠ []) : phrase words ≠ [] := by
  obtain ⟨ws, w, rfl⟩ := (List.eq_nil_or_concat' words).resolve_left hne
  rw [phrase_append]
  simp [(hwords w (by simp)).ne]

/-- No white space stands around the words. -/
theorem clean_phrase (hwords : ∀ w ∈ words, IsWord w) (hne : words ≠ []) :
    Clean (phrase words) := by
  constructor
  · intro c hc
    refine head_spaced hwords c ?_
    rw [spaced_eq hne, List.head?_append_of_ne_nil _ (phrase_ne hwords hne)]
    exact hc
  · intro c hc
    obtain ⟨ws, w, rfl⟩ := (List.eq_nil_or_concat' words).resolve_left hne
    have hw : IsWord w := hwords w (by simp)
    rw [phrase_append, List.getLast?_append_of_ne_nil _ hw.ne] at hc
    exact not_isSpace_of_isAlpha (hw.letters c (List.mem_of_getLast? hc))

/-- The hint is what is left of the words. -/
theorem trimText_spaced (hwords : ∀ w ∈ words, IsWord w) :
    trimText (spaced words) = phrase words := by
  by_cases hne : words = []
  · subst hne
    rfl
  · rw [spaced_eq hne]
    exact trimText_append (clean_phrase hwords hne) (phrase_ne hwords hne)
      (forall_mem_of_all (by decide))

/-- The hint comes back. -/
theorem bankHintFromRemainder_spaced (hwords : ∀ w ∈ words, IsWord w) {n : Text}
    (hn : IsAccount n) : bankHintFromRemainder (spaced words ++ n) n = phrase words := by
  have hmarks : ∀ c ∈ spaced words, (if c ∈ [',', apostrophe, quotation] then ' ' else c) = c := by
    intro c hc
    refine if_neg fun hmark => ?_
    have hnot : ∀ d ∈ [',', apostrophe, quotation], d.isAlpha = false ∧ d ≠ ' ' :=
      forall_mem_of_all (by decide)
    rcases mem_spaced hwords hc with halpha | hblank
    · rw [(hnot c hmark).1] at halpha
      cases halpha
    · exact (hnot c hmark).2 hblank
  have hcollapse : collapseSpaces (spaced words) = spaced words := by
    refine collapseSpaces_eq_self (fun c hc hspace => ?_) fun A B => not_double_space hwords
    refine (mem_spaced hwords hc).resolve_left fun halpha => ?_
    rw [not_isSpace_of_isAlpha halpha] at hspace
    cases hspace
  unfold bankHintFromRemainder
  dsimp only
  rw [removeFirst_spaced hwords hn, List.map_congr_left hmarks, List.map_id',
    replaceAll_wordTo hwords, hcollapse, trimText_spaced hwords]

/-- No white space stands around the words and the account. -/
theorem clean_account (hwords : ∀ w ∈ words, IsWord w) {n : Text} (hn : IsAccount n) :
    Clean (phrase (words ++ [n])) := by
  obtain ⟨c, cs, hcons, hc⟩ := hn.cons
  rw [phrase_append]
  constructor
  · intro d hd
    cases hspaced : spaced words with
    | nil =>
        rw [hspaced, hcons] at hd
        obtain rfl : c = d := Option.some.inj hd
        exact isSpace_of_isDigit hc
    | cons e es =>
        rw [hspaced] at hd
        exact head_spaced hwords d (by rw [hspaced]; exact hd)
  · intro d hd
    rw [List.getLast?_append_of_ne_nil _ (by simp [hcons])] at hd
    exact isSpace_of_isDigit (hn.digits d (List.mem_of_getLast? hd))

/-- An account behind the words of a hint. -/
theorem parseDestinationPart_account (hwords : ∀ w ∈ words, IsWord w) {n : Text}
    (hn : IsAccount n) : parseDestinationPart (phrase (words ++ [n])) =
      ⟨none, some ⟨n, phrase words, false⟩⟩ := by
  obtain ⟨c, cs, hcons, hc⟩ := hn.cons
  obtain ⟨m, hm, hcaptured⟩ := exec_fullAccount hwords hn
  have hne : phrase (words ++ [n]) ≠ [] := by simp [phrase_append, hcons]
  have htrim := trimText_of_clean (clean_account hwords hn) hne
  unfold parseDestinationPart
  dsimp only
  rw [htrim, phrase_append, hm]
  dsimp only
  rw [hcaptured, bankHintFromRemainder_spaced hwords hn]

/-- A name, of one word or several. -/
theorem parseDestinationPart_name (hwords : ∀ w ∈ words, IsWord w) (hne : words ≠ []) :
    parseDestinationPart (phrase words) = ⟨some (phrase words), none⟩ := by
  have hmem : ∀ c ∈ phrase words, c.isAlpha = true ∨ c = ' ' := fun c hc =>
    mem_spaced hwords (by rw [spaced_eq hne]; exact List.mem_append_left _ hc)
  have hdigit : ∀ c ∈ phrase words, ¬ c.isDigit = true := by
    intro c hc
    rcases hmem c hc with halpha | rfl
    · simp [not_isDigit_of_isAlpha halpha]
    · decide
  have hmarks : ∀ c ∈ phrase words, ¬ c ∈ ['.', '?', '!', ',', apostrophe, quotation] := by
    intro c hc hmark
    have hnot : ∀ d ∈ ['.', '?', '!', ',', apostrophe, quotation],
        d.isAlpha = false ∧ d ≠ ' ' := forall_mem_of_all (by decide)
    rcases hmem c hc with halpha | hblank
    · rw [(hnot c hmark).1] at halpha
      cases halpha
    · exact (hnot c hmark).2 hblank
  have hcollapse : collapseSpaces (phrase words) = phrase words := by
    refine collapseSpaces_eq_self (fun c hc hspace => ?_) fun A B h => ?_
    · refine (hmem c hc).resolve_left fun halpha => ?_
      rw [not_isSpace_of_isAlpha halpha] at hspace
      cases hspace
    · refine not_double_space (A := A) (B := B ++ [' ']) hwords ?_
      rw [spaced_eq hne, h]
      simp
  have hclosing : search closingMarks [] (phrase words) = none :=
    search_eq_none (.inl (.inl fun c hc => by simpa using hc)) hmarks
  have hfull : exec fullAccount (phrase words) = none :=
    exec_eq_none (.inr (.inl (.inl fun c hc => hc))) hdigit
  have hincomplete : exec partialAccount (phrase words) = none :=
    exec_eq_none (.inr (.inl (.inl (.inl fun c hc => hc)))) hdigit
  have htrim : trimText (phrase words) = phrase words :=
    trimText_of_clean (clean_phrase hwords hne) (phrase_ne hwords hne)
  unfold parseDestinationPart
  dsimp only
  rw [htrim, hfull]
  dsimp only
  rw [hincomplete]
  dsimp only
  rw [cleanRecipientName, replaceAll_of_none hclosing, hcollapse, htrim]

end words

/-! ### Round trips -/

section phrases

variable {a : ℕ} {r : Rendering a}

/-- The phrase that sends an amount to a destination. -/
def sendPhrase (r : Rendering a) (dest : Text) : Text :=
  "send ".toList ++ (r.text ++ (" to ".toList ++ dest))

/-- The amount of a phrase, and the destination by itself. -/
theorem parseSendMessage_sendPhrase (hpos : 0 < a) (hlt : a < 2 ^ 53) (hexact : r.figures.Exact)
    {dest : Text} (hne : dest ≠ []) (hclean : Clean dest) (hplain : ∀ c ∈ dest, isPlain c = true) :
    parseSendMessage (sendPhrase r dest) =
      withDestination (some ((a : ℤ) : WithTop ℤ)) (parseDestinationPart dest) := by
  obtain ⟨c, cs, hcons⟩ := List.exists_cons_of_ne_nil hne
  have hletters : sendPhrase r dest =
      's' :: 'e' :: 'n' :: 'd' :: ' ' :: (r.text ++ ' ' :: 't' :: 'o' :: ' ' :: dest) := rfl
  have htrim : trimText (sendPhrase r dest) = sendPhrase r dest := by
    refine trimText_of_clean ⟨fun d hd => ?_, fun d hd => ?_⟩ (by simp [hletters])
    · rw [hletters] at hd
      obtain rfl : 's' = d := Option.some.inj hd
      decide
    · rw [sendPhrase, ← List.append_assoc, ← List.append_assoc,
        List.getLast?_append_of_ne_nil _ hne] at hd
      exact hclean.2 d hd
  obtain ⟨m, hm, hamount, hdest⟩ := exec_sendTo (text_cons r) (fun c hc => isPlain_text hc)
    (fun u₁ e u₂ hu he => space_text hu he)
    ⟨c, cs, hcons, hclean.1 c (by rw [hcons]; rfl)⟩ hplain
  unfold parseSendMessage
  dsimp only
  rw [htrim, hletters, hm]
  dsimp only
  rw [hamount, hdest, parseAmount_text r hpos hlt hexact]

end phrases

end DayfiBackend.Four.SendPhrases
