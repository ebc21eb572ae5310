import DayfiBackend.Four.OtpChallenges

/-!
# The spellings of a phone number

`normalizePhoneE164` makes the login key of a number. A Nigerian number may be spelled bare, after
the trunk zero, or after the country code in three ways, and a country code may be followed by the
trunk zero; formatting may stand anywhere. What follows a country code after `+` or `00` is not
looked at, so that a trunk zero there makes another key of the same number
(`trunk_zero_makes_a_key`). `canonical_iff` says for which spellings the key is the number's.
-/

namespace DayfiBackend.Four

open DayfiBackend.Found DayfiBackend.Found.Keys

/-! ### Numbers and their spellings -/

/-- A Nigerian mobile number: ten digits of which the first is 7, 8 or 9. -/
def IsNational (n : List Char) : Prop :=
  n.length = 10 ∧ n.all Char.isDigit = true ∧ n.head?.any (· ∈ ['7', '8', '9']) = true

instance (n : List Char) : Decidable (IsNational n) := inferInstanceAs (Decidable (_ ∧ _ ∧ _))

/-- What may stand before a national number. -/
inductive NumberPrefix where
  | bare
  | trunk
  | country
  | plus
  | zeros
  | countryTrunk
  | plusTrunk
  | zerosTrunk
  deriving DecidableEq, Repr

def NumberPrefix.text : NumberPrefix → List Char
  | bare => []
  | trunk => ['0']
  | country => ['2', '3', '4']
  | plus => ['+', '2', '3', '4']
  | zeros => ['0', '0', '2', '3', '4']
  | countryTrunk => ['2', '3', '4', '0']
  | plusTrunk => ['+', '2', '3', '4', '0']
  | zerosTrunk => ['0', '0', '2', '3', '4', '0']

/-- A character of the formatting that people type. -/
def isFormatting (c : Char) : Bool :=
  isSpace c || c = '\u00a0' || (0x2000 ≤ c.toNat && c.toNat ≤ 0x200b) ||
    c ∈ ['(', ')', '.', '-', '_'] || (0x2010 ≤ c.toNat && c.toNat ≤ 0x2015)

/-- A text with formatting put in anywhere. -/
inductive Formatted : List Char → List Char → Prop
  | nil : Formatted [] []
  | keep (c : Char) {w s : List Char} (h : Formatted w s) : Formatted (c :: w) (c :: s)
  | insert {c : Char} (hc : isFormatting c = true) {w s : List Char} (h : Formatted w s) :
      Formatted w (c :: s)

/-- The login key of a national number. -/
def nationalKey (n : List Char) : String := String.ofList ('+' :: '2' :: '3' :: '4' :: n)

/-- The international number that an input denotes. -/
inductive Denotes (s : String) : List Char → Prop
  | nigerian (p : NumberPrefix) {n : List Char} (hn : IsNational n)
      (hs : Formatted (p.text ++ n) s.toList) : Denotes s ('2' :: '3' :: '4' :: n)
  | foreign {mark ds : List Char} (hmark : mark = ['+'] ∨ mark = ['0', '0'])
      (hds : ds.all Char.isDigit = true) (hcode : ¬ ['2', '3', '4'] <+: ds)
      (hs : Formatted (mark ++ ds) s.toList) : Denotes s ds

/-- Both denote one number. -/
def SameNumber (s t : String) : Prop := ∃ d, Denotes s d ∧ Denotes t d

/-- The keys of two inputs are those of their numbers. -/
structure Canonical (s t : String) : Prop where
  spelled : ∀ x ∈ [s, t], ∀ (p : NumberPrefix) (n : List Char), IsNational n →
    Formatted (p.text ++ n) x.toList → normalizePhoneE164 x = .ok (nationalKey n)
  injective : ∀ k l, normalizePhoneE164 s = .ok k → normalizePhoneE164 t = .ok l →
    (k = l ↔ SameNumber s t)
  national : ∀ x ∈ [s, t], ∀ k, normalizePhoneE164 x = .ok k →
    ['+', '2', '3', '4'] <+: k.toList → ∃ n, IsNational n ∧ k = nationalKey n
  stable : ∀ x ∈ [s, t], ∀ k, normalizePhoneE164 x = .ok k → normalizePhoneE164 k = .ok k

/-- What stands after `+234` or `00234`. -/
def afterCode (v : List Char) : Option (List Char) :=
  if ['+', '2', '3', '4'].isPrefixOf v then some (v.drop 4)
  else if ['0', '0', '2', '3', '4'].isPrefixOf v then some (v.drop 5)
  else none

/-- An input, without its formatting, that is taken for another number: five to twelve digits after
`+234` or `00234` that are no national number, or a national number after `2340`. -/
def Misread (v : List Char) : Prop :=
  (∃ rest ∈ afterCode v, rest.all Char.isDigit = true ∧ 5 ≤ rest.length ∧ rest.length ≤ 12 ∧
    ¬ IsNational rest) ∨
  (['2', '3', '4', '0'] <+: v ∧ IsNational (v.drop 4))

instance (v : List Char) : Decidable (Misread v) := by
  unfold Misread
  have : Decidable (∃ rest ∈ afterCode v, rest.all Char.isDigit = true ∧ 5 ≤ rest.length ∧
      rest.length ≤ 12 ∧ ¬ IsNational rest) := by
    cases h : afterCode v with
    | none => exact isFalse (by simp)
    | some rest => exact decidable_of_iff (rest.all Char.isDigit = true ∧ 5 ≤ rest.length ∧
        rest.length ≤ 12 ∧ ¬ IsNational rest) (by simp)
  infer_instance

/-! ### Formatting -/

section formatting

variable {s w v : List Char} {c : Char}

theorem stripFormatting_eq (s : List Char) :
    stripFormatting s = s.filter fun c => !isFormatting c := rfl

theorem isDigit_iff : c.isDigit = true ↔ 48 ≤ c.toNat ∧ c.toNat ≤ 57 := by
  simp only [Char.isDigit, Bool.and_eq_true, decide_eq_true_eq]
  exact Iff.rfl

/-- A digit is no formatting. -/
theorem isFormatting_of_isDigit (hc : c.isDigit = true) : isFormatting c = false := by
  obtain ⟨h₁, h₂⟩ := isDigit_iff.mp hc
  have hne : ∀ d : Char, d.isDigit = false → c ≠ d := by
    rintro d hd rfl
    rw [hc] at hd
    cases hd
  have hspace : isSpace c = false := by
    simp only [isSpace, List.mem_cons, List.not_mem_nil, or_false, Bool.or_eq_false_iff,
      Bool.and_eq_false_imp, decide_eq_false_iff_not, decide_eq_true_eq]
    omega
  have hsign : c ∉ ['(', ')', '.', '-', '_'] := by
    intro hmem
    simp only [List.mem_cons, List.not_mem_nil, or_false] at hmem
    rcases hmem with h | h | h | h | h <;> exact hne _ (by decide) h
  have hblank : c ≠ '\u00a0' := hne _ (by decide)
  simp only [isFormatting, hspace, hsign, hblank, Bool.or_eq_false_iff, Bool.and_eq_false_imp,
    decide_eq_false_iff_not, decide_eq_true_eq]
  refine ⟨⟨⟨⟨trivial, not_false⟩, ?_⟩, not_false⟩, ?_⟩ <;> intro _ <;> omega

theorem Formatted.strip (h : Formatted w s) : stripFormatting s = stripFormatting w := by
  induction h with
  | nil => rfl
  | keep c _ ih =>
      rw [stripFormatting_eq, stripFormatting_eq] at ih ⊢
      rw [List.filter_cons, List.filter_cons, ih]
  | insert hc _ ih =>
      rw [stripFormatting_eq, stripFormatting_eq] at ih ⊢
      rw [List.filter_cons_of_neg (by simp [hc]), ih]

/-- A text is what is left of it, with formatting put in. -/
theorem formatted_strip (s : List Char) : Formatted (stripFormatting s) s := by
  induction s with
  | nil => exact .nil
  | cons c s ih =>
      rw [stripFormatting_eq] at ih ⊢
      by_cases hc : isFormatting c = true
      · rw [List.filter_cons_of_neg (by simp [hc])]
        exact .insert hc ih
      · rw [List.filter_cons_of_pos (by simp [hc])]
        exact .keep c ih

/-- Digits and signs stay. -/
theorem strip_plain (h : ∀ c ∈ w, c = '+' ∨ c.isDigit = true) : stripFormatting w = w := by
  rw [stripFormatting_eq]
  refine List.filter_eq_self.mpr fun c hc => ?_
  rcases h c hc with rfl | hd
  · decide
  · simp [isFormatting_of_isDigit hd]

theorem Formatted.strip_plain (h : Formatted w s) (hw : ∀ c ∈ w, c = '+' ∨ c.isDigit = true) :
    stripFormatting s = w :=
  h.strip.trans (Four.strip_plain hw)

end formatting

/-! ### What is accepted -/

section accepted

variable {ds n v : List Char} {x k : String}

/-- A number with its country code. -/
def IsInternational (ds : List Char) : Prop :=
  ds.all Char.isDigit = true ∧ 8 ≤ ds.length ∧ ds.length ≤ 15 ∧ ds.head? ≠ some '0'

theorem normalizeInternational_iff :
    normalizeInternational ds = .ok k ↔ IsInternational ds ∧ k = String.ofList ('+' :: ds) := by
  unfold normalizeInternational IsInternational allDigits
  constructor
  · intro h
    split_ifs at h with h₁ h₂ h₃ h₄
    simp only [Except.ok.injEq] at h
    simp only [Bool.not_eq_true, Bool.not_eq_false', Bool.and_eq_true] at h₁
    exact ⟨⟨h₁.2, not_lt.mp h₂, not_lt.mp h₃, h₄⟩, h.symm⟩
  · rintro ⟨⟨h₁, h₂, h₃, h₄⟩, rfl⟩
    have hne : ds.isEmpty = false := by
      cases ds with
      | nil => simp at h₂
      | cons c ds => rfl
    rw [if_neg (by simp [hne, h₁]), if_neg (by omega), if_neg (by omega), if_neg h₄]

/-- The digits that a national spelling takes for the national number. -/
def nationalPart (ds : List Char) : List Char :=
  if ['2', '3', '4'].isPrefixOf ds then ds.drop 3
  else if ['0'].isPrefixOf ds then ds.drop 1
  else ds

theorem normalizeNigerianNational_iff (hds : ds.all Char.isDigit = true) :
    normalizeNigerianNational ds = .ok k ↔
      IsNational (nationalPart ds) ∧ k = nationalKey (nationalPart ds) := by
  have hdigits : (nationalPart ds).all Char.isDigit = true := by
    rw [List.all_eq_true] at hds ⊢
    unfold nationalPart
    intro c hc
    split_ifs at hc
    · exact hds c (List.mem_of_mem_drop hc)
    · exact hds c (List.mem_of_mem_drop hc)
    · exact hds c hc
  have hrun : normalizeNigerianNational ds =
      if (nationalPart ds).length < 10 then .error .tooShort
      else if 10 < (nationalPart ds).length then .error .tooLong
      else if !((nationalPart ds).head?.any (· ∈ ['7', '8', '9'])) then
        .error .invalidNationalNumber
      else .ok (nationalKey (nationalPart ds)) := rfl
  rw [hrun]
  constructor
  · intro h
    split_ifs at h with h₁ h₂ h₃
    simp only [Except.ok.injEq] at h
    exact ⟨⟨le_antisymm (not_lt.mp h₂) (not_lt.mp h₁), hdigits, by simpa using h₃⟩, h.symm⟩
  · rintro ⟨⟨h₁, -, h₂⟩, rfl⟩
    rw [if_neg (by omega), if_neg (by omega), if_neg (by rw [h₂]; decide)]

theorem IsNational.head (h : IsNational n) :
    ∃ c rest, n = c :: rest ∧ (c = '7' ∨ c = '8' ∨ c = '9') := by
  obtain ⟨-, -, h⟩ := h
  cases n with
  | nil => simp at h
  | cons c rest => exact ⟨c, rest, rfl, by simpa using h⟩

/-- A national spelling: bare, after the trunk zero, or after the country code. -/
theorem nationalPart_iff (hn : IsNational n) (hv : ¬ ['0', '0'] <+: v) :
    nationalPart v = n ↔ v = n ∨ v = '0' :: n ∨ v = '2' :: '3' :: '4' :: n := by
  obtain ⟨c, rest, rfl, hc⟩ := hn.head
  unfold nationalPart
  constructor
  · intro h
    split_ifs at h with h₁ h₂
    · obtain ⟨t, rfl⟩ := List.isPrefixOf_iff_prefix.mp h₁
      exact .inr (.inr (by rw [← h]; rfl))
    · obtain ⟨t, rfl⟩ := List.isPrefixOf_iff_prefix.mp h₂
      exact .inr (.inl (by rw [← h]; rfl))
    · exact .inl h
  · rintro (rfl | rfl | rfl)
    · rcases hc with rfl | rfl | rfl <;> rfl
    · rcases hc with rfl | rfl | rfl <;> rfl
    · rfl

/-- A text of digits and plus signs has no letters. -/
theorem not_any_isAlpha (h : ∀ c ∈ v, c = '+' ∨ c.isDigit = true) : v.any Char.isAlpha = false := by
  rw [List.any_eq_false]
  intro c hc halpha
  rcases h c hc with rfl | hd
  · exact absurd halpha (by decide)
  · have := isDigit_iff.mp hd
    have := isAlpha_iff.mp halpha
    omega

theorem IsInternational.plain (h : IsInternational ds) :
    ∀ c ∈ '+' :: ds, c = '+' ∨ c.isDigit = true := by
  intro c hc
  rcases List.mem_cons.mp hc with rfl | hmem
  · exact .inl rfl
  · exact .inr (List.all_eq_true.mp h.1 c hmem)

theorem IsNational.plain (h : IsNational n) : ∀ c ∈ n, c = '+' ∨ c.isDigit = true :=
  fun c hc => .inr (List.all_eq_true.mp h.2.1 c hc)

/-- What is accepted of an input without its formatting. -/
theorem normalize_stripped (hv : stripFormatting x.toList = v) :
    normalizePhoneE164 x =
      if v.isEmpty then .error .empty
      else if v.any Char.isAlpha then .error .containsLetters
      else if ['0', '0'].isPrefixOf v then normalizeInternational (v.drop 2)
      else if v.head? = some '+' then normalizeInternational v.tail
      else if !allDigits v then .error .containsLetters
      else normalizeNigerianNational v := by
  subst hv
  unfold normalizePhoneE164
  dsimp only
  generalize stripFormatting x.toList = v
  by_cases hzeros : ['0', '0'].isPrefixOf v = true
  · simp [hzeros]
  · cases v with
    | nil => rfl
    | cons c v =>
        by_cases hc : c = '+'
        · subst hc
          simp [hzeros]
        · simp only [hzeros, Bool.false_eq_true, if_false, List.head?_cons, Option.some.injEq, hc]
          refine if_congr Iff.rfl rfl (if_congr Iff.rfl rfl ?_)
          split
          · rename_i heq
            exact absurd (List.cons.inj heq).1 hc
          · rfl

/-- An input of digits and plus signs is accepted as what its first digits say. -/
theorem normalize_plain (hv : stripFormatting x.toList = v) (hne : v ≠ [])
    (hplain : ∀ c ∈ v, c = '+' ∨ c.isDigit = true) :
    normalizePhoneE164 x =
      if ['0', '0'].isPrefixOf v then normalizeInternational (v.drop 2)
      else if v.head? = some '+' then normalizeInternational v.tail
      else if !allDigits v then .error .containsLetters
      else normalizeNigerianNational v := by
  rw [normalize_stripped hv, if_neg (by simpa using hne), if_neg (by simp [not_any_isAlpha hplain])]

/-- An international number, after a plus sign or two zeros. -/
theorem normalize_international (hds : IsInternational ds)
    (hv : stripFormatting x.toList = '+' :: ds ∨ stripFormatting x.toList = '0' :: '0' :: ds) :
    normalizePhoneE164 x = .ok (String.ofList ('+' :: ds)) := by
  rcases hv with hv | hv
  · rw [normalize_plain hv (by simp) hds.plain, if_neg (by simp [List.isPrefixOf]),
      if_pos List.head?_cons]
    exact normalizeInternational_iff.mpr ⟨hds, rfl⟩
  · have hplain : ∀ c ∈ '0' :: '0' :: ds, c = '+' ∨ c.isDigit = true := by
      intro c hc
      simp only [List.mem_cons] at hc
      rcases hc with rfl | rfl | hmem
      · exact .inr (by decide)
      · exact .inr (by decide)
      · exact hds.plain c (List.mem_cons_of_mem _ hmem)
    rw [normalize_plain hv (by simp) hplain, if_pos (by simp [List.isPrefixOf])]
    exact normalizeInternational_iff.mpr ⟨hds, rfl⟩

/-- A national number, in a national spelling. -/
theorem normalize_national (hn : IsNational n)
    (hv : stripFormatting x.toList = n ∨ stripFormatting x.toList = '0' :: n ∨
      stripFormatting x.toList = '2' :: '3' :: '4' :: n) :
    normalizePhoneE164 x = .ok (nationalKey n) := by
  obtain ⟨c, rest, hrest, hc⟩ := hn.head
  generalize hw : stripFormatting x.toList = v at hv
  have hdigits : v.all Char.isDigit = true := by
    have hall := hn.2.1
    rcases hv with rfl | rfl | rfl
    · exact hall
    · rw [List.all_cons, hall]
      decide
    · rw [List.all_cons, List.all_cons, List.all_cons, hall]
      decide
  have hplain : ∀ c ∈ v, c = '+' ∨ c.isDigit = true :=
    fun c hc => .inr (List.all_eq_true.mp hdigits c hc)
  have hzeros : ¬ ['0', '0'] <+: v := by
    rintro ⟨t, ht⟩
    rcases hv with rfl | rfl | rfl
    · rw [hrest] at ht
      rcases hc with rfl | rfl | rfl <;> simp at ht
    · rw [hrest] at ht
      rcases hc with rfl | rfl | rfl <;> simp at ht
    · simp at ht
  have hne : v ≠ [] := by
    rintro rfl
    rcases hv with h | h | h
    · rw [← h] at hrest
      cases hrest
    · cases h
    · cases h
  have hplus : v.head? ≠ some '+' := by
    intro h
    have hmem : '+' ∈ v := List.mem_of_mem_head? h
    exact absurd (List.all_eq_true.mp hdigits _ hmem) (by decide)
  have hall : allDigits v = true := by
    unfold allDigits
    rw [hdigits]
    simpa using hne
  rw [normalize_plain hw hne hplain, if_neg (by simpa using hzeros), if_neg hplus,
    if_neg (by simp [hall])]
  have hpart := (nationalPart_iff hn hzeros).mpr hv
  exact (normalizeNigerianNational_iff hdigits).mpr ⟨hpart ▸ hn, by rw [hpart]⟩

/-- What an accepted input is. -/
theorem normalize_cases (h : normalizePhoneE164 x = .ok k) :
    (∃ ds, (stripFormatting x.toList = '+' :: ds ∨ stripFormatting x.toList = '0' :: '0' :: ds) ∧
        IsInternational ds ∧ k = String.ofList ('+' :: ds)) ∨
      (∃ n, IsNational n ∧ (stripFormatting x.toList = n ∨ stripFormatting x.toList = '0' :: n ∨
        stripFormatting x.toList = '2' :: '3' :: '4' :: n) ∧ k = nationalKey n) := by
  rw [normalize_stripped rfl] at h
  generalize stripFormatting x.toList = v at h ⊢
  split_ifs at h with h₁ h₂ hzeros hplus hdigits
  · obtain ⟨ds, rfl⟩ := List.isPrefixOf_iff_prefix.mp hzeros
    obtain ⟨hds, hk⟩ := normalizeInternational_iff.mp h
    exact .inl ⟨ds, .inr rfl, hds, hk⟩
  · obtain ⟨hds, hk⟩ := normalizeInternational_iff.mp h
    refine .inl ⟨v.tail, .inl ?_, hds, hk⟩
    cases v with
    | nil => cases hplus
    | cons c v => rw [Option.some.inj hplus, List.tail_cons]
  · have hall : v.all Char.isDigit = true := by
      simp only [allDigits, Bool.not_eq_true, Bool.not_eq_false', Bool.and_eq_true] at hdigits
      exact hdigits.2
    obtain ⟨hn, hk⟩ := (normalizeNigerianNational_iff hall).mp h
    have hv := (nationalPart_iff hn (by simpa using hzeros)).mp rfl
    exact .inr ⟨nationalPart v, hn, hv, hk⟩

end accepted

/-! ### The keys of numbers -/

section keys

variable {ds n d v : List Char} {x k : String}

theorem NumberPrefix.plain (p : NumberPrefix) : ∀ c ∈ p.text, c = '+' ∨ c.isDigit = true := by
  cases p <;> simp [NumberPrefix.text]

theorem spelled_plain (p : NumberPrefix) (hn : IsNational n) :
    ∀ c ∈ p.text ++ n, c = '+' ∨ c.isDigit = true := by
  intro c hc
  rcases List.mem_append.mp hc with h | h
  · exact p.plain c h
  · exact hn.plain c h

/-- A number with the Nigerian country code. -/
theorem isInternational_code {rest : List Char} :
    IsInternational ('2' :: '3' :: '4' :: rest) ↔
      rest.all Char.isDigit = true ∧ 5 ≤ rest.length ∧ rest.length ≤ 12 := by
  have hall : ('2' :: '3' :: '4' :: rest).all Char.isDigit = rest.all Char.isDigit := by
    rw [List.all_cons, List.all_cons, List.all_cons]
    rfl
  unfold IsInternational
  rw [hall]
  constructor
  · rintro ⟨h₁, h₂, h₃, -⟩
    simp only [List.length_cons] at h₂ h₃
    exact ⟨h₁, by omega, by omega⟩
  · rintro ⟨h₁, h₂, h₃⟩
    simp only [List.length_cons]
    exact ⟨h₁, by omega, by omega, by simp⟩

theorem IsNational.isInternational (hn : IsNational n) :
    IsInternational ('2' :: '3' :: '4' :: n) :=
  isInternational_code.mpr ⟨hn.2.1, by have := hn.1; omega, by have := hn.1; omega⟩

theorem afterCode_iff {rest : List Char} :
    afterCode v = some rest ↔
      v = '+' :: '2' :: '3' :: '4' :: rest ∨ v = '0' :: '0' :: '2' :: '3' :: '4' :: rest := by
  unfold afterCode
  constructor
  · intro h
    split_ifs at h with h₁ h₂
    · obtain ⟨t, rfl⟩ := List.isPrefixOf_iff_prefix.mp h₁
      exact .inl (by rw [← Option.some.inj h]; rfl)
    · obtain ⟨t, rfl⟩ := List.isPrefixOf_iff_prefix.mp h₂
      exact .inr (by rw [← Option.some.inj h]; rfl)
  · rintro (rfl | rfl)
    · simp [List.isPrefixOf]
    · simp [List.isPrefixOf]

/-- A spelling that is not misread has the key of its number. -/
theorem normalize_spelled {p : NumberPrefix} (hn : IsNational n)
    (hv : stripFormatting x.toList = p.text ++ n) (hx : ¬ Misread (stripFormatting x.toList)) :
    normalizePhoneE164 x = .ok (nationalKey n) := by
  have htrunk : ¬ IsNational ('0' :: n) := by
    intro h
    simpa using h.1.trans hn.1.symm
  have hmisread : ∀ rest, afterCode (stripFormatting x.toList) = some rest → rest = '0' :: n →
      False := by
    rintro rest hrest rfl
    refine hx (.inl ⟨'0' :: n, hrest, ?_, ?_, ?_, htrunk⟩)
    · rw [List.all_cons, hn.2.1]
      decide
    · simp [hn.1]
    · simp [hn.1]
  cases p with
  | bare => exact normalize_national hn (.inl hv)
  | trunk => exact normalize_national hn (.inr (.inl hv))
  | country => exact normalize_national hn (.inr (.inr hv))
  | plus => exact normalize_international hn.isInternational (.inl hv)
  | zeros => exact normalize_international hn.isInternational (.inr hv)
  | countryTrunk =>
      refine absurd (.inr ⟨⟨n, hv.symm⟩, ?_⟩) hx
      rw [hv]
      exact hn
  | plusTrunk => exact (hmisread _ (afterCode_iff.mpr (.inl hv)) rfl).elim
  | zerosTrunk => exact (hmisread _ (afterCode_iff.mpr (.inr hv)) rfl).elim

/-- A key with the Nigerian country code is the key of a national number. -/
theorem national_of_ok (h : normalizePhoneE164 x = .ok k)
    (hx : ¬ Misread (stripFormatting x.toList)) (hk : ['+', '2', '3', '4'] <+: k.toList) :
    ∃ n, IsNational n ∧ k = nationalKey n := by
  rcases normalize_cases h with ⟨ds, hv, hds, rfl⟩ | ⟨n, hn, -, rfl⟩
  · obtain ⟨rest, hrest⟩ := hk
    obtain rfl : ds = '2' :: '3' :: '4' :: rest := by simpa using hrest.symm
    refine ⟨rest, ?_, rfl⟩
    by_contra hnot
    obtain ⟨h₁, h₂, h₃⟩ := isInternational_code.mp hds
    exact hx (.inl ⟨rest, afterCode_iff.mpr hv, h₁, h₂, h₃, hnot⟩)
  · exact ⟨n, hn, rfl⟩

/-- The key of an accepted input is accepted, and its own key. -/
theorem normalize_key (h : normalizePhoneE164 x = .ok k) : normalizePhoneE164 k = .ok k := by
  obtain ⟨ds, hds, rfl⟩ : ∃ ds, IsInternational ds ∧ k = String.ofList ('+' :: ds) := by
    rcases normalize_cases h with ⟨ds, -, hds, hk⟩ | ⟨n, hn, -, hk⟩
    · exact ⟨ds, hds, hk⟩
    · exact ⟨_, hn.isInternational, hk⟩
  refine normalize_international hds (.inl ?_)
  rw [String.toList_ofList, strip_plain hds.plain]

/-- An accepted input that is not misread denotes the number of its key. -/
theorem denotes_of_ok (h : normalizePhoneE164 x = .ok k)
    (hx : ¬ Misread (stripFormatting x.toList)) :
    ∃ d, k = String.ofList ('+' :: d) ∧ Denotes x d := by
  have hformatted : ∀ w, stripFormatting x.toList = w → Formatted w x.toList := by
    rintro w rfl
    exact formatted_strip x.toList
  rcases normalize_cases h with ⟨ds, hv, hds, rfl⟩ | ⟨n, hn, hv, rfl⟩
  · refine ⟨ds, rfl, ?_⟩
    by_cases hcode : ['2', '3', '4'] <+: ds
    · obtain ⟨rest, rfl⟩ := hcode
      obtain ⟨n, hn, hk⟩ := national_of_ok h hx ⟨rest, by simp⟩
      obtain rfl : rest = n := by
        have hlist := String.ofList_injective hk
        simpa using hlist
      rcases hv with hv | hv
      · exact .nigerian .plus hn (hformatted _ hv)
      · exact .nigerian .zeros hn (hformatted _ hv)
    · rcases hv with hv | hv
      · exact .foreign (.inl rfl) hds.1 hcode (hformatted _ hv)
      · exact .foreign (.inr rfl) hds.1 hcode (hformatted _ hv)
  · refine ⟨_, rfl, ?_⟩
    rcases hv with hv | hv | hv
    · exact .nigerian .bare hn (hformatted _ hv)
    · exact .nigerian .trunk hn (hformatted _ hv)
    · exact .nigerian .country hn (hformatted _ hv)

/-- It denotes no other number. -/
theorem key_of_denotes (h : normalizePhoneE164 x = .ok k)
    (hx : ¬ Misread (stripFormatting x.toList)) (hd : Denotes x d) :
    k = String.ofList ('+' :: d) := by
  cases hd with
  | nigerian p hn hs =>
      have hkey := normalize_spelled hn (hs.strip_plain (spelled_plain p hn)) hx
      exact Except.ok.inj (h.symm.trans hkey)
  | @foreign mark ds hmark hds hcode hs =>
      have hplain : ∀ c ∈ mark ++ d, c = '+' ∨ c.isDigit = true := by
        intro c hc
        rcases List.mem_append.mp hc with hc | hc
        · rcases hmark with rfl | rfl
          · exact .inl (by simpa using hc)
          · have hzero : c = '0' := by simpa using hc
            exact .inr (by rw [hzero]; decide)
        · exact .inr (List.all_eq_true.mp hds c hc)
      have hv := hs.strip_plain hplain
      rcases normalize_cases h with ⟨ds, hv', -, rfl⟩ | ⟨n, hn, hv', -⟩
      · rcases hmark with rfl | rfl
        · rcases hv' with hv' | hv'
          · have heq := hv.symm.trans hv'
            simp only [List.cons_append, List.nil_append, List.cons.injEq, true_and] at heq
            rw [heq]
          · have heq := hv.symm.trans hv'
            simp at heq
        · rcases hv' with hv' | hv'
          · have heq := hv.symm.trans hv'
            simp at heq
          · have heq := hv.symm.trans hv'
            simp only [List.cons_append, List.nil_append, List.cons.injEq, true_and] at heq
            rw [heq]
      · obtain ⟨c, rest, rfl, hc⟩ := hn.head
        rw [hv] at hv'
        rcases hmark with rfl | rfl <;> rcases hc with rfl | rfl | rfl <;> simp at hv'

/-- An input that is misread has the key of another number, or none. -/
theorem misread_fails (hspelled : ∀ (p : NumberPrefix) (n : List Char), IsNational n →
      Formatted (p.text ++ n) x.toList → normalizePhoneE164 x = .ok (nationalKey n))
    (hnational : ∀ k, normalizePhoneE164 x = .ok k → ['+', '2', '3', '4'] <+: k.toList →
      ∃ n, IsNational n ∧ k = nationalKey n) : ¬ Misread (stripFormatting x.toList) := by
  rintro (⟨rest, hrest, hdigits, hmin, hmax, hnot⟩ | ⟨⟨n, hn⟩, hnat⟩)
  · have hds : IsInternational ('2' :: '3' :: '4' :: rest) :=
      isInternational_code.mpr ⟨hdigits, hmin, hmax⟩
    have hkey := normalize_international hds (afterCode_iff.mp hrest)
    obtain ⟨n, hn, hk⟩ := hnational _ hkey ⟨rest, by simp⟩
    obtain rfl : rest = n := by
      have hlist := String.ofList_injective hk
      simpa using hlist
    exact hnot hn
  · have hdrop : IsNational n := by
      rw [← hn] at hnat
      exact hnat
    have hformatted := formatted_strip x.toList
    rw [← hn] at hformatted
    have hkey := hspelled .countryTrunk n hdrop hformatted
    obtain ⟨c, rest, rfl, hc⟩ := hdrop.head
    rcases normalize_cases hkey with ⟨ds, hv, -⟩ | ⟨m, hm, hv, -⟩
    · rw [← hn] at hv
      simp at hv
    · rw [← hn] at hv
      have hlen := hm.1
      have hlen' := hdrop.1
      rcases hv with rfl | hv | hv
      · simp at hlen hlen'
        omega
      · simp at hv
      · obtain rfl : '0' :: c :: rest = m := by simpa using hv
        simp at hlen hlen'
        omega

end keys

/-- **The keys of two inputs are those of their numbers exactly when neither is misread: every
spelling has its number's key, inputs that are accepted have one key exactly when they denote one
number, a key with the Nigerian country code is the key of a national number, and a key is its own
key.** -/
theorem canonical_iff (s t : String) :
    Canonical s t ↔
      ¬ Misread (stripFormatting s.toList) ∧ ¬ Misread (stripFormatting t.toList) := by
  constructor
  · intro h
    exact ⟨misread_fails (h.spelled s (by simp)) (h.national s (by simp)),
      misread_fails (h.spelled t (by simp)) (h.national t (by simp))⟩
  · rintro ⟨hs, ht⟩
    have hboth : ∀ x ∈ [s, t], ¬ Misread (stripFormatting x.toList) := by
      intro x hx
      rcases List.mem_cons.mp hx with rfl | hx
      · exact hs
      · obtain rfl : x = t := by simpa using hx
        exact ht
    refine ⟨fun x hx p n hn hx' => ?_, fun k l hk hl => ⟨fun hkl => ?_, fun hsame => ?_⟩,
      fun x hx k hk => national_of_ok hk (hboth x hx), fun x _ k hk => normalize_key hk⟩
    · exact normalize_spelled hn (hx'.strip_plain (spelled_plain p hn)) (hboth x hx)
    · obtain ⟨d, hd, hds⟩ := denotes_of_ok hk hs
      obtain ⟨e, he, hes⟩ := denotes_of_ok hl ht
      have hlist : ('+' :: d : List Char) = '+' :: e :=
        String.ofList_injective (hd.symm.trans (hkl.trans he))
      obtain rfl : d = e := by simpa using hlist
      exact ⟨d, hds, hes⟩
    · obtain ⟨d, hds, hes⟩ := hsame
      exact (key_of_denotes hk hs hds).trans (key_of_denotes hl ht hes).symm

/-- Two spellings of one number, the second with the trunk zero after the country code, have two
keys. -/
theorem trunk_zero_makes_a_key :
    normalizePhoneE164 "+234 801 234 5678" = .ok "+2348012345678" ∧
      normalizePhoneE164 "+234 0801 234 5678" = .ok "+23408012345678" ∧
      ¬ Canonical "+234 801 234 5678" "+234 0801 234 5678" := by
  have hkey : normalizePhoneE164 "+234 0801 234 5678" = .ok "+23408012345678" := by
    decide +kernel
  have hstrip : stripFormatting "+234 0801 234 5678".toList =
      NumberPrefix.text .plusTrunk ++ "8012345678".toList := by decide +kernel
  refine ⟨by decide +kernel, hkey, fun h => ?_⟩
  have hformatted := formatted_strip "+234 0801 234 5678".toList
  rw [hstrip] at hformatted
  have hspelled := h.spelled _ (by simp) .plusTrunk _ (by decide +kernel) hformatted
  rw [hkey] at hspelled
  exact absurd (Except.ok.inj hspelled) (by decide +kernel)

end DayfiBackend.Four
