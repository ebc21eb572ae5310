import DayfiBackend.Four.AmountReaders

/-!
# Amounts of orders

What `parseAmount` reads in an order: the amount in units (`parseAmount_units`), or in thousands
where a "k" stands behind it, also as the first word (`parseAmount_thousands`).
-/

namespace DayfiBackend.Four.AmountReaders

open DayfiBackend.Four.SendPhrases
open DayfiBackend.Found DayfiBackend.Found.Keys DayfiBackend.Found.Regex
open DayfiBackend.Found.Regex.Re (opt plus atMost anyOf all)
open DayfiBackend.Found.Decimals
open DayfiBackend.Infra.BulkCsv (Text trimText Clean)

section tokens

variable {t : Token} {words : List Text} {c : Char}

/-- The figures in a text without other commas. -/
theorem filter_order (t : Token) (hwords : AreWords words) {front : Text}
    (hfront : front.filter (· ≠ ',') = front) :
    (front ++ t.text ++ following words).filter (· ≠ ',') =
      front ++ (t.sign.toList ++ (t.plain ++ following words)) := by
  have hsign : t.sign.toList.filter (· ≠ ',') = t.sign.toList := by
    have hall : ∀ c ∈ currencySigns, c ≠ ',' := forall_mem_of_all (by decide)
    refine List.filter_eq_self.mpr fun c hc => ?_
    simpa using hall c (t.sign_mem c (by simpa using hc))
  have hkilo : (if t.kilo then ['k'] else []).filter (· ≠ ',') = if t.kilo then ['k'] else [] := by
    split_ifs <;> rfl
  have hrest : (following words).filter (· ≠ ',') = following words := by
    refine List.filter_eq_self.mpr fun c hc => ?_
    have hne : c ≠ ',' := by
      rintro rfl
      exact not_mem_following hwords (by decide) (by decide) hc
    simpa using hne
  simp only [Token.text, List.filter_append, hfront, hsign, filter_token_figures, hkilo, hrest,
    Token.plain, List.append_assoc]

/-- What stands in an amount without commas. -/
theorem mem_plain (h : c ∈ t.plain) : c.isDigit = true ∨ c = '.' ∨ c = 'k' := by
  rcases List.mem_append.mp h with h | h
  · exact (mem_unsigned h).imp_right .inl
  · split_ifs at h
    · exact .inr (.inr (List.mem_singleton.mp h))
    · cases h

theorem isSpace_plain (h : c ∈ t.plain) : isSpace c = false := by
  rcases mem_plain h with hdigit | rfl | rfl
  · exact isSpace_of_isDigit hdigit
  · decide
  · decide

/-- An amount begins with a digit. -/
theorem plain_cons (t : Token) : ∃ c cs, t.plain = c :: cs ∧ c.isDigit = true := by
  obtain ⟨c, cs, hcons, hc⟩ := unsigned_cons t.amount
  exact ⟨c, cs ++ (if t.kilo then ['k'] else []), by rw [Token.plain, hcons]; rfl, hc⟩

/-- An amount and the words behind it end in no white space. -/
theorem getLast_order (hwords : AreWords words) :
    ∀ c ∈ (t.plain ++ following words).getLast?, isSpace c = false := by
  intro c hc
  obtain ⟨d, ds, hcons, -⟩ := plain_cons t
  cases hfollowing : following words with
  | nil =>
      rw [hfollowing, List.append_nil] at hc
      exact isSpace_plain (List.mem_of_getLast? hc)
  | cons e es =>
      rw [List.getLast?_append_of_ne_nil _ (by simp [hfollowing])] at hc
      exact not_isSpace_of_isAlpha (getLast_following hwords c hc)

/-- What stands in front of an amount is no white space. -/
theorem head_order (t : Token) (rest : Text) :
    ∀ c ∈ (t.sign.toList ++ (t.plain ++ rest)).head?, isSpace c = false := by
  intro c hc
  have hsigns : ∀ c ∈ currencySigns, isSpace c = false := forall_mem_of_all (by decide)
  obtain ⟨d, ds, hcons, hd⟩ := plain_cons t
  cases hsign : t.sign with
  | none =>
      rw [hsign, hcons] at hc
      obtain rfl : d = c := Option.some.inj hc
      exact isSpace_of_isDigit hd
  | some sign =>
      rw [hsign] at hc
      obtain rfl : sign = c := Option.some.inj hc
      exact hsigns sign (t.sign_mem sign (by rw [hsign]; rfl))

/-- A text with an amount has no white space around it. -/
theorem clean_order (hwords : AreWords words) {front : Text}
    (hfront : ∀ c ∈ front.head?, isSpace c = false) :
    Clean (front ++ (t.sign.toList ++ (t.plain ++ following words))) := by
  obtain ⟨d, ds, hcons, -⟩ := plain_cons t
  constructor
  · intro c hc
    cases front with
    | nil => exact head_order t _ c hc
    | cons e front => exact hfront c hc
  · intro c hc
    rw [List.getLast?_append_of_ne_nil _ (by simp [hcons]),
      List.getLast?_append_of_ne_nil _ (by simp [hcons])] at hc
    exact getLast_order hwords c hc

/-- An order, as it is read: without commas. -/
theorem normalized_order (t : Token) (hwords : AreWords words) {front : Text}
    (hfront : front = [] ∨ front = "send ".toList) :
    trimText ((front ++ t.text ++ following words).filter (· ≠ ',')) =
      front ++ (t.sign.toList ++ (t.plain ++ following words)) := by
  obtain ⟨d, ds, hcons, -⟩ := plain_cons t
  have hcomma : front.filter (· ≠ ',') = front := by
    rcases hfront with rfl | rfl
    · rfl
    · decide
  rw [filter_order t hwords hcomma]
  refine trimText_of_clean (clean_order hwords fun c hc => ?_) (by simp [hcons])
  rcases hfront with rfl | rfl
  · cases hc
  · obtain rfl : 's' = c := Option.some.inj hc
    decide

/-- In an order the amount is the first place where a pattern of digits matches. -/
theorem exec_order {front sign v : Text} (hfront : front = [] ∨ front = "send ".toList)
    (hsign : sign = [] ∨ ∃ e ∈ currencySigns, sign = [e]) {q : Re} {T : Text → At}
    (hv : ∃ c cs, v = c :: cs ∧ c.isDigit = true)
    (hrest : ∀ before, q.run some ⟨before, v, []⟩ = some (T before))
    (hnone : ∀ before c cs, c.isDigit = false → q.run some ⟨before, c :: cs, []⟩ = none) :
    ∃ before, exec (.seq nairaSign q) (front ++ (sign ++ v)) = some (T before) := by
  obtain ⟨c, cs, rfl, hc⟩ := hv
  have hskip : ∀ before d cs, d.isDigit = false → d ≠ '₦' → d.toLower ≠ 'n' →
      (Re.seq nairaSign q).run some ⟨before, d :: cs, []⟩ = none := by
    intro before d cs hd h₁ h₂
    rw [run_seq, run_nairaSign_skip h₁ h₂, hnone before d cs hd]
  have hfound : ∀ before, ∃ before', (search (.seq nairaSign q) before (sign ++ c :: cs)).map
      Prod.snd = some (T before') := by
    intro before
    have hdigit : ∀ before, (Re.seq nairaSign q).run some ⟨before, c :: cs, []⟩ =
        some (T before) := by
      intro before
      rw [run_seq, run_nairaSign_skip (digit_not_sign hc).1 (digit_not_sign hc).2, hrest]
    rcases hsign with rfl | ⟨e, he, rfl⟩
    · refine ⟨before, ?_⟩
      rw [List.nil_append, search_of_run (hdigit before)]
      rfl
    · refine ⟨e :: before, ?_⟩
      rw [List.singleton_append]
      by_cases hnaira : e = '₦'
      · have hrun : (Re.seq nairaSign q).run some ⟨before, e :: c :: cs, []⟩ =
            some (T (e :: before)) := by
          simp [nairaSign, hrest, hnaira]
        rw [search_of_run hrun]
        rfl
      · -- another sign is passed over
        have hsigns : ∀ e ∈ currencySigns, e.isDigit = false ∧ e.toLower ≠ 'n' :=
          forall_mem_of_all (by decide)
        rw [search, hskip before e _ (hsigns e he).1 hnaira (hsigns e he).2]
        exact congrArg (Option.map Prod.snd) (search_of_run (hdigit (e :: before)))
  rcases hfront with rfl | rfl
  · exact hfound []
  · have hn : ∀ before cs, (Re.seq nairaSign q).run some ⟨before, 'n' :: 'd' :: cs, []⟩ = none := by
      intro before cs
      have hlower : 'n'.toLower = 'n' ∧ 'd'.toLower = 'd' := by decide
      simp [nairaSign, text_ngn, hlower, hnone before 'n' ('d' :: cs) (by decide)]
    obtain ⟨before, h⟩ := hfound [' ', 'd', 'n', 'e', 's']
    refine ⟨before, ?_⟩
    rw [← h]
    change (search (.seq nairaSign q) [] ('s' :: 'e' :: 'n' :: 'd' :: ' ' :: (sign ++ c :: cs))).map
      Prod.snd = _
    simp only [search, hskip [] 's' _ (by decide) (by decide) (by decide),
      hskip ['s'] 'e' _ (by decide) (by decide) (by decide), hn,
      hskip ['n', 'e', 's'] 'd' _ (by decide) (by decide) (by decide),
      hskip ['d', 'n', 'e', 's'] ' ' _ (by decide) (by decide) (by decide)]

/-- The units in an order are found. -/
theorem exec_plain_order {front sign v : Text} (d : Decimal)
    (hfront : front = [] ∨ front = "send ".toList)
    (hsign : sign = [] ∨ ∃ e ∈ currencySigns, sign = [e])
    (hv : ∀ c ∈ v.head?, c.isDigit = false ∧ c ≠ '.') :
    ∃ m, exec plainAmount (front ++ (sign ++ (d.unsigned ++ v))) = some m ∧
      captured m 1 = d.unsigned := by
  obtain ⟨c, cs, hcons, hc⟩ := unsigned_cons d
  obtain ⟨before, h⟩ := exec_order (q := .group 1 SendPhrases.digits) hfront hsign
    (T := fun before => ⟨d.unsigned.reverse ++ before, v, [(1, d.unsigned)]⟩)
    ⟨c, cs ++ v, by rw [hcons]; rfl, hc⟩ (fun before => run_group_digits hv rfl)
    fun before c cs hc => run_digits_none hc
  exact ⟨_, h, rfl⟩

/-- The thousands in an order are found: a "k" behind some white space, and no letter behind it. -/
theorem exec_kilo_order {front sign sp v : Text} {k : Char} (d : Decimal)
    (hfront : front = [] ∨ front = "send ".toList)
    (hsign : sign = [] ∨ ∃ e ∈ currencySigns, sign = [e])
    (hsp : ∀ c ∈ sp, isSpace c = true) (hk : k.toLower = 'k') (hletter : k.isAlpha = true)
    (hv : ∀ c ∈ v.head?, Regex.isWord c = false) :
    ∃ m, exec kiloAmount (front ++ (sign ++ (d.unsigned ++ (sp ++ k :: v)))) = some m ∧
      captured m 1 = d.unsigned := by
  obtain ⟨c, cs, hcons, hc⟩ := unsigned_cons d
  have hhead : ∀ e ∈ (sp ++ k :: v).head?, e.isDigit = false ∧ e ≠ '.' := by
    intro e he
    cases sp with
    | nil =>
        obtain rfl : k = e := Option.some.inj he
        refine ⟨not_isDigit_of_isAlpha hletter, ?_⟩
        rintro rfl
        cases hletter
    | cons b sp =>
        obtain rfl : b = e := Option.some.inj he
        have hb := hsp b List.mem_cons_self
        constructor
        · by_contra hdigit
          rw [isSpace_of_isDigit (by simpa using hdigit)] at hb
          cases hb
        · rintro rfl
          cases hb
  have hlast : v.head?.any Regex.isWord = false := by
    cases v with
    | nil => rfl
    | cons e v => exact hv e rfl
  have hend : ∀ before, (all [.star space, letterK, boundary]).run some
      ⟨d.unsigned.reverse ++ before, sp ++ k :: v, [(1, d.unsigned)]⟩ =
        some ⟨k :: (sp.reverse ++ (d.unsigned.reverse ++ before)), v, [(1, d.unsigned)]⟩ := by
    intro before
    refine run_star_full hsp (fun e he => ?_) ?_
    · obtain rfl : k = e := Option.some.inj he
      exact not_isSpace_of_isAlpha hletter
    · simp [Re.all, letterK, boundary, hk, isWord_of_isAlpha hletter, hlast]
  obtain ⟨before, h⟩ := exec_order
    (q := all [.group 1 SendPhrases.digits, .star space, letterK, boundary])
    hfront hsign ⟨c, cs ++ (sp ++ k :: v), by rw [hcons]; rfl, hc⟩
    (fun before => run_group_digits hhead (hend before)) fun before c cs hc => run_digits_none hc
  exact ⟨_, h, rfl⟩

/-- What is only in the middle of a text. -/
theorem split_middle {A M C B R : Text} {d : Char} (h : A ++ (M ++ C) = B ++ d :: R) (hA : d ∉ A)
    (hC : d ∉ C) : ∃ u₁ u₂, M = u₁ ++ d :: u₂ ∧ B = A ++ u₁ ∧ R = u₂ ++ C := by
  rcases List.append_eq_append_iff.mp h with ⟨u₁, rfl, hrest⟩ | ⟨v, rfl, hrest⟩
  · rcases List.append_eq_append_iff.mp hrest with ⟨v, rfl, hC'⟩ | ⟨u₂, rfl, hu⟩
    · exact absurd (hC' ▸ List.mem_append_right v List.mem_cons_self) hC
    · cases u₂ with
      | nil =>
          rw [List.nil_append] at hu
          exact absurd (hu ▸ List.mem_cons_self) hC
      | cons e u₂ =>
          obtain ⟨rfl, rfl⟩ := List.cons.inj hu
          exact ⟨u₁, u₂, rfl, rfl, rfl⟩
  · cases v with
    | nil =>
        rw [List.nil_append] at hrest
        cases M with
        | nil =>
            rw [List.nil_append] at hrest
            exact absurd (hrest ▸ List.mem_cons_self) hC
        | cons e M =>
            obtain ⟨rfl, rfl⟩ := List.cons.inj hrest
            exact ⟨[], M, rfl, by simp, rfl⟩
    | cons e v =>
        obtain ⟨rfl, -⟩ := List.cons.inj hrest
        exact absurd (List.mem_append_right B List.mem_cons_self) hA

/-- What stands behind a digit of an amount. -/
theorem after_digit {A B R : Text} {d : Char} {a : Decimal} (hwords : AreWords words)
    (hA : ∀ c ∈ A, c.isDigit = false) (hd : d.isDigit = true)
    (h : A ++ (a.unsigned ++ following words) = B ++ d :: R) :
    (∃ c ∈ R.head?, c.isDigit = true ∨ c = '.') ∨ R = following words := by
  have hnotA : d ∉ A := fun hmem => by
    rw [hA d hmem] at hd
    cases hd
  have hnotC : d ∉ following words := by
    refine not_mem_following hwords ?_ (digit_ne hd (by decide))
    by_contra halpha
    rw [not_isDigit_of_isAlpha (by simpa using halpha)] at hd
    cases hd
  obtain ⟨u₁, u₂, hu, -, rfl⟩ := split_middle h hnotA hnotC
  cases u₂ with
  | nil => exact .inr rfl
  | cons c u₂ => exact .inl ⟨c, rfl, mem_unsigned (d := a) (hu ▸ by simp)⟩

/-- A decimal ends in a digit. -/
theorem ends_digits {s s' : At} (h : Matches (.group 1 SendPhrases.digits) s s') :
    ∃ d before, s'.before = d :: before ∧ d.isDigit = true := by
  have hends : (Re.group 1 SendPhrases.digits).Ends fun c => c.isDigit = true := by
    simp [Re.Ends, Re.Needs, SendPhrases.digits, digit, plus, opt]
  have hneeds : (Re.group 1 SendPhrases.digits).Needs fun _ => True := by
    simp [Re.Needs, SendPhrases.digits, digit, plus]
  refine (h.ends hends).resolve_left fun hsame => ?_
  obtain ⟨u, hu, c, hc, -⟩ := h.takes hneeds
  rw [hsame.1, List.self_eq_append_left] at hu
  rw [hu] at hc
  cases hc

/-- A "k" behind a digit and white space, with no letter behind it, is the first word. -/
theorem first_word_of_kilo {A B sp v : Text} {a : Decimal} {d k : Char} (hwords : AreWords words)
    (hA : ∀ c ∈ A, c.isDigit = false) (hd : d.isDigit = true) (hblank : ∀ c ∈ sp, isSpace c = true)
    (hletter : k.toLower = 'k') (hv : k.isAlpha = true → v.head?.any Regex.isWord = false)
    (htext : A ++ (a.unsigned ++ following words) = B ++ d :: (sp ++ k :: v)) :
    words.head? = some [k] := by
  rcases after_digit hwords hA hd htext with ⟨c, hc, hdigit⟩ | hrest
  · -- a digit or a point is no white space and no letter
    exfalso
    cases sp with
    | nil =>
        obtain rfl : k = c := Option.some.inj hc
        rcases hdigit with hdigit | rfl
        · rw [toLower_of_isDigit hdigit] at hletter
          exact digit_ne hdigit (by decide) hletter
        · exact absurd hletter (by decide)
    | cons b sp =>
        obtain rfl : b = c := Option.some.inj hc
        have hb := hblank b List.mem_cons_self
        rcases hdigit with hdigit | rfl
        · rw [isSpace_of_isDigit hdigit] at hb
          cases hb
        · exact absurd hb (by decide)
  · -- the white space is the one space, and the letter is a word
    cases words with
    | nil => simp [following] at hrest
    | cons w ws =>
        obtain ⟨e, w, rfl⟩ := List.exists_cons_of_ne_nil (hwords w List.mem_cons_self).1
        have halpha := (hwords _ List.mem_cons_self).2
        have hrest : sp ++ k :: v = ' ' :: e :: (w ++ following ws) := by
          rw [hrest]
          simp [following]
        cases sp with
        | nil =>
            obtain ⟨rfl, -⟩ := List.cons.inj hrest
            exact absurd hletter (by decide)
        | cons b sp =>
            obtain ⟨-, htail⟩ := List.cons.inj hrest
            cases sp with
            | cons b sp =>
                obtain ⟨rfl, -⟩ := List.cons.inj htail
                have hb := hblank b (by simp)
                rw [not_isSpace_of_isAlpha (halpha b List.mem_cons_self)] at hb
                cases hb
            | nil =>
                obtain ⟨rfl, rfl⟩ := List.cons.inj htail
                have hlast := hv (halpha k List.mem_cons_self)
                cases w with
                | nil => rfl
                | cons c w =>
                    have hc := isWord_of_isAlpha (halpha c (by simp))
                    simp [hc] at hlast

/-- No thousands are found in an order where no word "k" stands behind the amount. -/
theorem exec_kilo_order_none {A : Text} (a : Decimal) (hwords : AreWords words)
    (hA : ∀ c ∈ A, c.isDigit = false) (hk : ∀ w ∈ words.head?, w.map Char.toLower ≠ ['k']) :
    exec kiloAmount (A ++ (a.unsigned ++ following words)) = none := by
  rw [exec, search_none_of_not_matches, Option.map_none]
  intro s t htext hm
  cases hm with
  | @seq _ _ _ s₁ _ hsign hm =>
  cases hm with
  | @seq _ _ _ s₂ _ hdigits hm =>
  cases hm with
  | @seq _ _ _ s₃ _ hspaces hm =>
  cases hm with
  | @seq _ _ _ s₄ _ hletter hboundary =>
  obtain ⟨d, before, hbefore, hd⟩ := ends_digits hdigits
  obtain ⟨sp, hsp, hblank⟩ := hspaces.star_one
  cases hletter with
  | @one _ k _ v _ hletter =>
  cases hboundary with
  | look hboundary =>
  have htext₂ : A ++ (a.unsigned ++ following words) = before.reverse ++ d :: (sp ++ k :: v) := by
    rw [← htext, ← hsign.whole, ← hdigits.whole, hbefore, hsp]
    simp
  have hletter : k.toLower = 'k' := by simpa using hletter
  have hfirst := first_word_of_kilo hwords hA hd hblank hletter
    (fun halpha => by simpa [isWord_of_isAlpha halpha] using hboundary) htext₂
  exact hk [k] hfirst (by simp [hletter])

/-- Behind an amount there is no digit and no point. -/
theorem head_following (hwords : AreWords words) :
    ∀ c ∈ (following words).head?, c.isDigit = false ∧ c ≠ '.' := by
  intro c hc
  rcases mem_following hwords (List.mem_of_mem_head? hc) with halpha | rfl
  · refine ⟨not_isDigit_of_isAlpha halpha, ?_⟩
    rintro rfl
    cases halpha
  · decide

/-- An order in units is read as their number, rounded. -/
theorem parseAmount_units {front : Text} (hfront : front = [] ∨ front = "send ".toList)
    (hwords : AreWords words) (hkilo : t.kilo = false)
    (hk : ∀ w ∈ words.head?, w.map Char.toLower ≠ ['k'])
    (hlt : t.amount.magnitude < 2 ^ 1024 - 2 ^ 970) :
    parseAmount (front ++ t.text ++ following words) =
      some (mathRound (Binary64.nearest t.amount.magnitude : ℚ)) := by
  have hplain : t.plain = t.amount.unsigned := by simp [Token.plain, hkilo]
  have hge := magnitude_ge t.frac_le t.pos
  have hA : ∀ c ∈ front ++ t.sign.toList, c.isDigit = false := by
    intro c hc
    rcases List.mem_append.mp hc with hc | hc
    · rcases hfront with rfl | rfl
      · cases hc
      · exact forall_mem_of_all (p := fun c => c.isDigit = false) (by decide) c hc
    · have hsigns : ∀ e ∈ currencySigns, e.isDigit = false := forall_mem_of_all (by decide)
      exact hsigns c (t.sign_mem c (by simpa using hc))
  have hnone := exec_kilo_order_none t.amount hwords hA hk
  rw [List.append_assoc] at hnone
  obtain ⟨m, hm, hcaptured⟩ := exec_plain_order t.amount hfront (signs t) (head_following hwords)
  have hnear := nearest_ge hge
  have hne : ((Binary64.nearest t.amount.magnitude : ℚ) : WithTop ℚ) ≠ ((0 : ℚ) : WithTop ℚ) := by
    rw [Ne, WithTop.coe_eq_coe]
    linarith
  unfold parseAmount
  dsimp only
  rw [normalized_order t hwords hfront, hplain, hnone, hm]
  dsimp only
  rw [hcaptured, number_of_lt hlt hge, if_pos (by simpa using hne)]

/-- An order in thousands is read as their number, times a thousand, rounded. -/
theorem parseAmount_thousands {front sp v : Text} {k : Char}
    (hfront : front = [] ∨ front = "send ".toList) (hwords : AreWords words)
    (hsp : ∀ c ∈ sp, isSpace c = true) (hk : k.toLower = 'k') (hletter : k.isAlpha = true)
    (hv : ∀ c ∈ v.head?, Regex.isWord c = false)
    (htext : t.plain ++ following words = t.amount.unsigned ++ (sp ++ k :: v))
    (hlt : t.amount.magnitude < 2 ^ 1024 - 2 ^ 970) :
    parseAmount (front ++ t.text ++ following words) =
      some (mathRound (times (Binary64.nearest t.amount.magnitude : ℚ) 1000)) := by
  obtain ⟨m, hm, hcaptured⟩ := exec_kilo_order t.amount hfront (signs t) hsp hk hletter hv
  unfold parseAmount
  dsimp only
  rw [normalized_order t hwords hfront, htext, hm]
  dsimp only
  rw [hcaptured, number_of_lt hlt (magnitude_ge t.frac_le t.pos), if_pos WithTop.coe_ne_top]

end tokens

end DayfiBackend.Four.AmountReaders
