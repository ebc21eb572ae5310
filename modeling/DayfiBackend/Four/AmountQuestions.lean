import DayfiBackend.Four.AmountOrders

/-!
# Amounts of questions

What `parseSendCostQuote` reads in a question for the cost (`parseSendCostQuote_units`,
`parseSendCostQuote_sign`). So the four readers do not agree on thousands (`kilo_read_unlike`), nor
on other signs than that of the naira, and a word that ends in "k" makes thousands of units
(`read_alike_iff`).
-/

namespace DayfiBackend.Four.AmountReaders

open DayfiBackend.Four.SendPhrases
open DayfiBackend.Found DayfiBackend.Found.Keys DayfiBackend.Found.Regex
open DayfiBackend.Found.Regex.Re (opt plus atMost anyOf all)
open DayfiBackend.Found.Decimals
open DayfiBackend.Infra.BulkCsv (Text trimText Clean)

section tokens

variable {t : Token} {words : List Text} {c : Char}

/-! ### Questions -/

/-- The words in lower case. -/
def lowered (words : List Text) : List Text := words.map (·.map Char.toLower)

theorem isAlpha_toLower {c : Char} (h : c.isAlpha = true) : c.toLower.isAlpha = true := by
  by_cases hupper : c.val ≥ 'A'.val ∧ c.val ≤ 'Z'.val
  · have hge : 65 ≤ c.toNat := UInt32.le_iff_toNat_le.mp hupper.1
    have hle : c.toNat ≤ 90 := UInt32.le_iff_toNat_le.mp hupper.2
    have hlower : c.toLower.toNat = c.toNat + 32 := by
      unfold Char.toLower
      rw [dif_pos hupper]
      change (c.val + 32).toNat = _
      rw [UInt32.toNat_add]
      change (c.toNat + 32) % 2 ^ 32 = _
      omega
    refine isAlpha_iff.mpr (.inr ?_)
    omega
  · have hsame : c.toLower = c := by
      unfold Char.toLower
      rw [dif_neg hupper]
    rwa [hsame]

theorem areWords_lowered (hwords : AreWords words) : AreWords (lowered words) := by
  intro w hw
  obtain ⟨v, hv, rfl⟩ := List.mem_map.mp hw
  refine ⟨by simpa using (hwords v hv).1, fun c hc => ?_⟩
  obtain ⟨d, hd, rfl⟩ := List.mem_map.mp hc
  exact isAlpha_toLower ((hwords v hv).2 d hd)

/-- In lower case, where none of the two other letters stands. -/
theorem lowerCase_eq_map {text : Text}
    (h : ∀ c ∈ text, c ≠ Char.ofNat 0x212A ∧ c ≠ Char.ofNat 0x130) :
    lowerCase text = text.map Char.toLower := by
  induction text with
  | nil => rfl
  | cons c cs ih =>
      have hc := h c List.mem_cons_self
      have hcs := ih fun e he => h e (List.mem_cons_of_mem c he)
      have hlower : lower c = [c.toLower] := by rw [lower, if_neg hc.1, if_neg hc.2]
      rw [lowerCase, List.flatMap_cons, hlower, List.map_cons, ← hcs]
      rfl

/-- No two spaces stand next to one another. -/
def Single (text : Text) : Prop := text.IsChain fun a b => a ≠ ' ' ∨ b ≠ ' '

theorem single_of_not_mem {text : Text} (h : ' ' ∉ text) : Single text := by
  induction text with
  | nil => exact List.IsChain.nil
  | cons c cs ih =>
      refine List.isChain_cons.mpr ⟨fun d hd => .inl ?_,
        ih fun hmem => h (List.mem_cons_of_mem c hmem)⟩
      rintro rfl
      exact h List.mem_cons_self

theorem single_append {A B : Text} (hA : Single A) (hB : Single B)
    (h : (∀ c ∈ A.getLast?, c ≠ ' ') ∨ ∀ c ∈ B.head?, c ≠ ' ') : Single (A ++ B) :=
  List.isChain_append.mpr ⟨hA, hB, fun a ha b hb => h.imp (fun h => h a ha) fun h => h b hb⟩

theorem single_following (hwords : AreWords words) : Single (following words) := by
  induction words with
  | nil => exact List.IsChain.nil
  | cons w ws ih =>
      have hw := hwords w List.mem_cons_self
      have hnot : ' ' ∉ w := fun h => absurd (hw.2 ' ' h) (by decide)
      have hrest := ih fun v hv => hwords v (List.mem_cons_of_mem w hv)
      have hsplit : following (w :: ws) = [' '] ++ (w ++ following ws) := by simp [following]
      rw [hsplit]
      refine single_append (List.isChain_singleton _) (single_append (single_of_not_mem hnot) hrest
        (.inl fun c hc => ?_)) (.inr fun c hc => ?_)
      · rintro rfl
        exact hnot (List.mem_of_getLast? hc)
      · rw [List.head?_append_of_ne_nil _ hw.1] at hc
        rintro rfl
        exact hnot (List.mem_of_mem_head? hc)

theorem collapseSpaces_single {text : Text} (hblank : ∀ c ∈ text, isSpace c = true → c = ' ')
    (h : Single text) : collapseSpaces text = text := by
  refine collapseSpaces_eq_self hblank fun A B hsplit => ?_
  rw [hsplit, Single, List.isChain_append_cons_cons] at h
  exact h.2.1.elim (· rfl) (· rfl)

/-- How a question begins. -/
def question : Text := "how much usdc do i need to send ".toList

/-- A question in lower case. -/
theorem lowerCase_question (t : Token) (hwords : AreWords words) :
    lowerCase (question ++ t.text ++ following words) =
      question ++ t.text ++ following (lowered words) := by
  have hquestion : ∀ c ∈ question ++ ([',', '.', 'k'] ++ currencySigns),
      c ≠ Char.ofNat 0x212A ∧ c ≠ Char.ofNat 0x130 ∧ c.toLower = c :=
    forall_mem_of_all (by decide)
  have hsame : ∀ c ∈ question ++ t.text, c.toLower = c := by
    intro c hc
    rcases List.mem_append.mp hc with hc | hc
    · exact (hquestion c (List.mem_append_left _ hc)).2.2
    · rcases mem_token hc with hdigit | hc
      · exact toLower_of_isDigit hdigit
      · exact (hquestion c (List.mem_append_right _ hc)).2.2
  have hrest : (following words).map Char.toLower = following (lowered words) := by
    have hblank : ' '.toLower = ' ' := by decide
    induction words with
    | nil => rfl
    | cons w ws ih =>
        have hws := ih fun v hv => hwords v (List.mem_cons_of_mem w hv)
        simp only [following, lowered, List.flatMap_cons, List.map_cons, List.map_append, hblank,
          List.cons_append] at hws ⊢
        rw [hws]
  rw [lowerCase_eq_map, List.map_append, List.map_congr_left hsame, List.map_id', hrest]
  intro c hc
  rcases List.mem_append.mp hc with hc | hc
  · rcases List.mem_append.mp hc with hc | hc
    · exact ⟨(hquestion c (List.mem_append_left _ hc)).1,
        (hquestion c (List.mem_append_left _ hc)).2.1⟩
    · rcases mem_token hc with hdigit | hc
      · exact ⟨digit_ne hdigit (by decide), digit_ne hdigit (by decide)⟩
      · exact ⟨(hquestion c (List.mem_append_right _ hc)).1,
          (hquestion c (List.mem_append_right _ hc)).2.1⟩
  · rcases mem_following hwords hc with halpha | rfl
    · constructor
      · rintro rfl
        exact absurd halpha (by decide)
      · rintro rfl
        exact absurd halpha (by decide)
    · decide

/-- A question, as it is read. -/
theorem normalized_question (t : Token) (hwords : AreWords words) :
    trimText (collapseSpaces ((lowerCase (question ++ t.text ++ following words)).filter
        (· ≠ ','))) =
      question ++ (t.sign.toList ++ (t.plain ++ following (lowered words))) := by
  have hlowered := areWords_lowered hwords
  obtain ⟨d, ds, hcons, hd⟩ := plain_cons t
  have hplain : ' ' ∉ t.plain := fun h => absurd (isSpace_plain h) (by decide)
  have hsigns : ∀ c ∈ currencySigns, isSpace c = false := forall_mem_of_all (by decide)
  have hsign : ' ' ∉ t.sign.toList := fun h =>
    absurd (hsigns ' ' (t.sign_mem ' ' (by simpa using h))) (by decide)
  have hsingle :
      Single (question ++ (t.sign.toList ++ (t.plain ++ following (lowered words)))) := by
    refine single_append (by unfold Single question; decide) (single_append
      (single_of_not_mem hsign) (single_append (single_of_not_mem hplain)
        (single_following hlowered) (.inl fun c hc => ?_)) (.inl fun c hc => ?_))
      (.inr fun c hc => ?_)
    · rintro rfl
      exact hplain (List.mem_of_getLast? hc)
    · rintro rfl
      exact hsign (List.mem_of_getLast? hc)
    · rintro rfl
      exact absurd (head_order t _ ' ' hc) (by decide)
  have hblank : ∀ c ∈ question ++ (t.sign.toList ++ (t.plain ++ following (lowered words))),
      isSpace c = true → c = ' ' := by
    have hquestion : ∀ c ∈ question, isSpace c = true → c = ' ' := forall_mem_of_all (by decide)
    intro c hc hspace
    rcases List.mem_append.mp hc with hc | hc
    · exact hquestion c hc hspace
    · rcases List.mem_append.mp hc with hc | hc
      · rw [hsigns c (t.sign_mem c (by simpa using hc))] at hspace
        cases hspace
      · rcases List.mem_append.mp hc with hc | hc
        · rw [isSpace_plain hc] at hspace
          cases hspace
        · refine (mem_following hlowered hc).resolve_left fun halpha => ?_
          rw [not_isSpace_of_isAlpha halpha] at hspace
          cases hspace
  rw [lowerCase_question t hwords, filter_order t hlowered (by decide),
    collapseSpaces_single hblank hsingle]
  refine trimText_of_clean (clean_order hlowered fun c hc => ?_) (by simp [hcons])
  obtain rfl : 'h' = c := Option.some.inj hc
  decide

section question

variable {k : At → Option At} {x : At} {before v : Text} {g : List (ℕ × Text)} {a : Re}

theorem run_opt_some {s : At} (h : a.run k s = some x) : (opt a).run k s = some x := by
  rw [run_opt, h]
  rfl

/-- Behind the digits there are words, or nothing. -/
theorem run_afterDigits (hwords : AreWords words) {d : Char} (hd : d.isDigit = true) :
    ∃ m, afterDigits.run some ⟨d :: before, following words, g⟩ = some m ∧ m.groups = g := by
  have hdigit : Regex.isWord d = true := by simp [Regex.isWord, Char.isAlphanum, hd]
  cases words with
  | nil =>
      refine ⟨⟨d :: before, [], g⟩, ?_, rfl⟩
      have hend : (Re.seq (opt (.one (· = 'k'))) boundary).run some ⟨d :: before, [], g⟩ =
          some ⟨d :: before, [], g⟩ := by
        simp [boundary, hdigit]
      exact run_star_full (u := []) (fun c hc => (by cases hc)) (fun c hc => (by cases hc)) hend
  | cons w ws =>
      obtain ⟨e, w, rfl⟩ := List.exists_cons_of_ne_nil (hwords w List.mem_cons_self).1
      have he : e.isAlpha = true := (hwords _ List.mem_cons_self).2 e List.mem_cons_self
      have hword := isWord_of_isAlpha he
      have hblank : Regex.isWord ' ' = false := by decide
      obtain ⟨m, hm, hgroups⟩ : ∃ m, (Re.seq (opt (.one (· = 'k'))) boundary).run some
          ⟨' ' :: d :: before, e :: (w ++ following ws), g⟩ = some m ∧ m.groups = g := by
        rw [run_seq, run_opt, run_one_cons]
        have hskip : boundary.run some ⟨' ' :: d :: before, e :: (w ++ following ws), g⟩ =
            some ⟨' ' :: d :: before, e :: (w ++ following ws), g⟩ := by
          simp [boundary, hword, hblank]
        rw [hskip]
        by_cases hk : (if decide (e = 'k') then boundary.run some
            ⟨e :: ' ' :: d :: before, w ++ following ws, g⟩ else none) = none
        · exact ⟨_, by rw [hk]; rfl, rfl⟩
        · obtain ⟨m, hm⟩ := Option.ne_none_iff_exists'.mp hk
          refine ⟨m, by rw [hm]; rfl, ?_⟩
          split_ifs at hm
          rw [boundary, run_look] at hm
          split_ifs at hm
          cases hm
          rfl
      refine ⟨m, ?_, hgroups⟩
      have hstar : (Re.star space).run ((Re.seq (opt (.one (· = 'k'))) boundary).run some)
          ⟨d :: before, [' '] ++ e :: (w ++ following ws), g⟩ = some m := by
        refine run_star_full (fun c hc => ?_) (fun c hc => ?_) hm
        · rw [List.mem_singleton.mp hc]
          decide
        · obtain rfl : e = c := Option.some.inj hc
          exact not_isSpace_of_isAlpha he
      have hsplit : following ((e :: w) :: ws) = [' '] ++ e :: (w ++ following ws) := by
        simp [following]
      rw [hsplit]
      exact hstar

/-- The amount of a question is captured. -/
theorem run_amount (d : Decimal) (hwords : AreWords words) (before : Text) :
    ∃ m, (Re.seq (.group 1 SendPhrases.digits) afterDigits).run some
      ⟨before, d.unsigned ++ following words, []⟩ = some m ∧ captured m 1 = d.unsigned := by
  obtain ⟨es, e, hlast, he⟩ := unsigned_last d
  obtain ⟨m, hm, hgroups⟩ : ∃ m, afterDigits.run some ⟨e :: (es.reverse ++ before),
      following words, [(1, d.unsigned)]⟩ = some m ∧ m.groups = [(1, d.unsigned)] :=
    run_afterDigits hwords he
  refine ⟨m, run_group_digits (head_following hwords) ?_, ?_⟩
  · rw [hlast] at hm ⊢
    simpa using hm
  · rw [captured, At.group, hgroups]
    rfl

/-- The question is recognised, and the amount in it found. -/
theorem search_question (d : Decimal) {sign : Text} (hsign : sign = [] ∨ sign = ['₦'])
    (hwords : AreWords words) :
    ∃ m, search needPattern [] (question ++ (sign ++ (d.unsigned ++ following words))) =
      some (⟨[], question ++ (sign ++ (d.unsigned ++ following words)), []⟩, m) ∧
      captured m 1 = d.unsigned := by
  obtain ⟨c, cs, hcons, hc⟩ := unsigned_cons d
  have hamount := run_amount d hwords
  -- its sign
  obtain ⟨m, hm, hcaptured⟩ : ∃ m, (opt (anyOf [.one (· = '₦'), .seq (.text "ngn") (.star space),
      .seq (.text "n") (.star space)])).run
        ((Re.seq (.group 1 SendPhrases.digits) afterDigits).run some)
        ⟨question.reverse, sign ++ (d.unsigned ++ following words), []⟩ = some m ∧
      captured m 1 = d.unsigned := by
    rcases hsign with rfl | rfl
    · obtain ⟨m, hm, hcaptured⟩ := hamount question.reverse
      refine ⟨m, ?_, hcaptured⟩
      have hlower : c.toLower ≠ 'n' := (digit_not_sign hc).2
      have hn : ∀ w ∈ ["ngn", "n"], ∀ {k : At → Option At} {before rest : Text},
          (Re.text w).run k ⟨before, c :: rest, []⟩ = none := by
        intro w hw k before rest
        rcases List.mem_pair.mp hw with rfl | rfl
        · exact run_text_none (fun e he => by obtain rfl := Option.some.inj he; exact hlower)
            (by decide)
        · exact run_text_none (fun e he => by obtain rfl := Option.some.inj he; exact hlower)
            (by decide)
      rw [hcons] at hm ⊢
      simp only [List.nil_append, List.cons_append] at hm ⊢
      simp only [run_opt, anyOf, run_alt, run_seq, run_one_cons, (digit_not_sign hc).1,
        decide_false, hn "ngn" (by simp), hn "n" (by simp)]
      exact hm
    · obtain ⟨m, hm, hcaptured⟩ := hamount ('₦' :: question.reverse)
      refine ⟨m, run_opt_some ?_, hcaptured⟩
      simp only [anyOf, run_alt, List.singleton_append, run_one_cons, decide_true, if_true, hm]
      rfl
  -- the words of the question, one after the other
  have hfirst : ∀ c ∈ (sign ++ (d.unsigned ++ following words)).head?, isSpace c = false := by
    intro e he
    rcases hsign with rfl | rfl
    · rw [hcons] at he
      obtain rfl : c = e := Option.some.inj he
      exact isSpace_of_isDigit hc
    · obtain rfl : '₦' = e := Option.some.inj he
      decide
  let k₀ := (Re.seq (.group 1 SendPhrases.digits) afterDigits).run (some : At → Option At)
  let k₁ := (opt (anyOf [.one (· = '₦'), .seq (.text "ngn") (.star space),
    .seq (.text "n") (.star space)])).run k₀
  let k₂ := (opt (.seq (.text "send") (plus space))).run k₁
  let k₃ := (Re.star space).run k₂
  have hsend : k₂ ⟨"how much usdc do i need to ".toList.reverse,
      "send".toList ++ (' ' :: (sign ++ (d.unsigned ++ following words))), []⟩ = some m := by
    refine run_opt_some ?_
    rw [run_seq, run_text (by decide)]
    exact run_space hfirst hm
  have hspace : k₃ ⟨"how much usdc do i need to".toList.reverse,
      [' '] ++ ("send".toList ++ (' ' :: (sign ++ (d.unsigned ++ following words)))), []⟩ =
        some m :=
    run_star_full (fun c hc => by rw [List.mem_singleton.mp hc]; decide)
      (fun c hc => by obtain rfl : 's' = c := Option.some.inj hc; decide) hsend
  have hto : (opt (.text " to")).run k₃ ⟨"how much usdc do i need".toList.reverse,
      " to".toList ++ ([' '] ++ ("send".toList ++ (' ' :: (sign ++ (d.unsigned ++
        following words))))), []⟩ = some m := by
    refine run_opt_some ?_
    rw [run_text (by decide)]
    exact hspace
  have hneed : (opt (.text " do i need")).run ((opt (.text " to")).run k₃)
      ⟨"how much usdc".toList.reverse, " do i need".toList ++ (" to".toList ++ ([' '] ++
        ("send".toList ++ (' ' :: (sign ++ (d.unsigned ++ following words)))))), []⟩ =
          some m := by
    refine run_opt_some ?_
    rw [run_text (by decide)]
    exact hto
  have husdc : (opt (.text " usdc")).run ((opt (.text " do i need")).run
      ((opt (.text " to")).run k₃)) ⟨"how much".toList.reverse, " usdc".toList ++
        (" do i need".toList ++ (" to".toList ++ ([' '] ++ ("send".toList ++ (' ' :: (sign ++
          (d.unsigned ++ following words))))))), []⟩ = some m := by
    refine run_opt_some ?_
    rw [run_text (by decide)]
    exact hneed
  have hmuch : (Re.text "how much").run ((opt (.text " usdc")).run
      ((opt (.text " do i need")).run ((opt (.text " to")).run k₃)))
        ⟨[], "how much".toList ++ (" usdc".toList ++ (" do i need".toList ++ (" to".toList ++
          ([' '] ++ ("send".toList ++ (' ' :: (sign ++ (d.unsigned ++ following words)))))))),
          []⟩ = some m := by
    rw [run_text (by decide)]
    exact husdc
  refine ⟨m, search_of_run ?_, hcaptured⟩
  have hcost : ∀ s, (Re.text "how much").run ((opt (.text " usdc")).run
      ((opt (.text " do i need")).run ((opt (.text " to")).run k₃))) s = some m →
        needPattern.run some s = some m := fun s h => by
    change Option.or ((Re.text "how much").run ((opt (.text " usdc")).run
      ((opt (.text " do i need")).run ((opt (.text " to")).run k₃))) s) _ = _
    rw [h]
    rfl
  exact hcost _ hmuch

/-- Where a "k" ends a word. -/
theorem getLast_of_following (hwords : AreWords words) {u : Text} {c : Char}
    (h : following words = u ++ c :: v) (hc : c.isAlpha = true)
    (hv : v.head?.any Regex.isWord = false) : ∃ w ∈ words, w.getLast? = some c := by
  induction words generalizing u with
  | nil => simp [following] at h
  | cons w ws ih =>
      have hletters := (hwords w List.mem_cons_self).2
      have hsplit : ' ' :: (w ++ following ws) = u ++ c :: v := by
        rw [← h]
        simp [following]
      cases u with
      | nil =>
          obtain ⟨rfl, -⟩ := List.cons.inj hsplit
          cases hc
      | cons b u =>
          obtain ⟨-, hrest⟩ := List.cons.inj hsplit
          rcases List.append_eq_append_iff.mp hrest with ⟨z, rfl, hz⟩ | ⟨z, rfl, hz⟩
          · obtain ⟨w', hw', hlast⟩ := ih (fun w hw => hwords w (List.mem_cons_of_mem _ hw)) hz
            exact ⟨w', List.mem_cons_of_mem _ hw', hlast⟩
          · cases z with
            | nil =>
                obtain ⟨w', hw', hlast⟩ := ih (u := [])
                  (fun w hw => hwords w (List.mem_cons_of_mem _ hw)) hz.symm
                exact ⟨w', List.mem_cons_of_mem _ hw', hlast⟩
            | cons e z =>
                obtain ⟨rfl, rfl⟩ := List.cons.inj hz
                cases z with
                | nil => exact ⟨u ++ [c], List.mem_cons_self, by simp⟩
                | cons e z =>
                    have he := isWord_of_isAlpha (hletters e (by simp))
                    simp [he] at hv

/-- A word that ends in a letter. -/
theorem following_of_getLast {w : Text} {c : Char} (hw : w ∈ words) (hlast : w.getLast? = some c) :
    ∃ u v, following words = u ++ c :: v ∧ v.head?.any Regex.isWord = false := by
  obtain ⟨l, r, rfl⟩ := List.append_of_mem hw
  obtain ⟨w, rfl⟩ := List.getLast?_eq_some_iff.mp hlast
  refine ⟨following l ++ ' ' :: w, following r, by simp [following], ?_⟩
  cases r with
  | nil => rfl
  | cons w r =>
      simp only [following, List.flatMap_cons, List.cons_append, List.head?_cons, Option.any_some]
      decide

/-- A "k" at the end of a word is found. -/
theorem test_endsInK_iff {A : Text} (hA : 'k' ∉ A) (hwords : AreWords words) :
    test endsInK (A ++ following words) = true ↔ ∃ w ∈ words, w.getLast? = some 'k' := by
  have hword : Regex.isWord 'k' = true := by decide
  constructor
  · intro h
    obtain ⟨s, t, htext, hm⟩ := matches_of_test h
    cases hm with
    | seq hone hboundary =>
    cases hone with
    | @one _ c before v _ hc =>
    cases hboundary with
    | look hboundary =>
    obtain rfl : c = 'k' := by simpa using hc
    have hv : v.head?.any Regex.isWord = false := by simpa [hword] using hboundary
    rcases List.append_eq_append_iff.mp htext with ⟨z, hz, hrest⟩ | ⟨z, -, hrest⟩
    · cases z with
      | nil =>
          rw [List.nil_append] at hrest
          exact getLast_of_following (u := []) hwords hrest.symm (by decide) hv
      | cons e z =>
          obtain ⟨rfl, -⟩ := List.cons.inj hrest
          exact absurd (hz ▸ List.mem_append_right _ List.mem_cons_self) hA
    · exact getLast_of_following hwords hrest (by decide) hv
  · rintro ⟨w, hw, hlast⟩
    obtain ⟨u, v, hfollowing, hv⟩ := following_of_getLast hw hlast
    rw [hfollowing, ← List.append_assoc]
    apply test_of_run
    simp [endsInK, boundary, hword, hv]

/-- The thousands of the second pattern. -/
theorem test_kilo_iff {A : Text} (a : Decimal) (hwords : AreWords words)
    (hA : ∀ c ∈ A, c.isDigit = false) :
    test (all [plus digit, .star space, endsInK]) (A ++ (a.unsigned ++ following words)) = true ↔
      words.head? = some ['k'] := by
  have hword : Regex.isWord 'k' = true := by decide
  constructor
  · intro h
    obtain ⟨s, t, htext, hm⟩ := matches_of_test h
    cases hm with
    | @seq _ _ _ s₂ _ hdigits hm =>
    cases hm with
    | @seq _ _ _ s₃ _ hspaces hm =>
    cases hm with
    | seq hletter hboundary =>
    obtain ⟨sp, hsp, hblank⟩ := hspaces.star_one
    have hends : (plus digit).Ends fun c => c.isDigit = true := by
      simp [Re.Ends, Re.Needs, digit, plus]
    obtain ⟨d, before, hbefore, hd⟩ := (hdigits.ends hends).resolve_left fun hsame => by
      obtain ⟨u, hu, c, hc, -⟩ := hdigits.takes (q := fun _ => True) (.inl fun c hc => trivial)
      rw [hsame.1, List.self_eq_append_left] at hu
      rw [hu] at hc
      cases hc
    cases hletter with
    | @one _ k _ v _ hk =>
    cases hboundary with
    | look hboundary =>
    obtain rfl : k = 'k' := by simpa using hk
    have htext₂ : A ++ (a.unsigned ++ following words) =
        before.reverse ++ d :: (sp ++ 'k' :: v) := by
      rw [← htext, ← hdigits.whole, hbefore, hsp]
      simp
    have hv : v.head?.any Regex.isWord = false := by simpa [hword] using hboundary
    exact first_word_of_kilo hwords hA hd hblank (by decide) (fun _ => hv) htext₂
  · intro h
    obtain ⟨ws, rfl⟩ : ∃ ws, words = ['k'] :: ws := by
      cases words with
      | nil => cases h
      | cons w ws => exact ⟨ws, by rw [Option.some.inj h]⟩
    obtain ⟨cs, c, hlast, hc⟩ := unsigned_last a
    have hsplit : A ++ (a.unsigned ++ following (['k'] :: ws)) =
        (A ++ cs) ++ (c :: ' ' :: 'k' :: following ws) := by
      rw [hlast]
      simp [following]
    have hrest : (following ws).head?.any Regex.isWord = false := by
      cases ws with
      | nil => rfl
      | cons w ws =>
          simp only [following, List.flatMap_cons, List.cons_append, List.head?_cons,
            Option.any_some]
          decide
    let end_ : At := ⟨'k' :: ' ' :: c :: (A ++ cs).reverse, following ws, []⟩
    have hend : (all [.star space, endsInK]).run some
        ⟨[c].reverse ++ (A ++ cs).reverse, ' ' :: 'k' :: following ws, []⟩ = some end_ := by
      have hstar : (Re.star space).run (endsInK.run some)
          ⟨c :: (A ++ cs).reverse, [' '] ++ 'k' :: following ws, []⟩ = some end_ := by
        refine run_star_full (fun e he => ?_) (fun e he => ?_) ?_
        · rw [List.mem_singleton.mp he]
          decide
        · obtain rfl : 'k' = e := Option.some.inj he
          decide
        · simp [endsInK, boundary, hword, hrest, end_]
      exact hstar
    have hrun : (all [plus digit, .star space, endsInK]).run some
        ⟨(A ++ cs).reverse, [c] ++ ' ' :: 'k' :: following ws, []⟩ = some end_ :=
      run_plus_digit (fun e he => by rwa [List.mem_singleton.mp he]) (List.cons_ne_nil _ _)
        (fun e he => by obtain rfl : ' ' = e := Option.some.inj he; decide) hend
    rw [hsplit]
    exact test_of_run (by rw [List.singleton_append] at hrun; rw [hrun]; rfl)

/-- A decimal begins with a digit. -/
theorem begins_digits {s s' : At} (h : Matches (.group 1 SendPhrases.digits) s s') :
    ∃ d R, s.rest = d :: R ∧ d.isDigit = true := by
  cases h with
  | group h =>
  cases h with
  | seq h _ =>
  cases h with
  | seq h _ =>
  cases h with
  | @one _ c _ cs _ hc => exact ⟨c, cs, rfl, hc⟩

/-- What a pattern takes in front of the amount. -/
theorem in_front_of_digits {F A : Text} {r : Re} {d : Decimal} {s s' : At}
    (hwords : AreWords words) (hF : ∀ c ∈ F, c.isDigit = false)
    (htext : A ++ s.rest = F ++ (d.unsigned ++ following words))
    (h : Matches (.seq r (.seq (.group 1 SendPhrases.digits) afterDigits)) s s') :
    ∃ s₁ us, Matches r s s₁ ∧ ∃ u, s.rest = u ++ s₁.rest ∧ A ++ u = F ++ us ∧
      ∀ c ∈ us, c.isDigit = true ∨ c = '.' := by
  cases h with
  | @seq _ _ _ s₁ _ hr hrest =>
  cases hrest with
  | seq hdigits _ =>
  obtain ⟨e, R, hR, he⟩ := begins_digits hdigits
  obtain ⟨u, hu, -⟩ := hr.consumed
  have hnotF : e ∉ F := fun hmem => by
    rw [hF e hmem] at he
    cases he
  have hnotC : e ∉ following words := by
    refine not_mem_following hwords ?_ (digit_ne he (by decide))
    by_contra halpha
    rw [not_isDigit_of_isAlpha (by simpa using halpha)] at he
    cases he
  have hsplit : F ++ (d.unsigned ++ following words) = (A ++ u) ++ e :: R := by
    rw [← htext, hu, hR, List.append_assoc]
  obtain ⟨us, u₂, hus, hB, -⟩ := split_middle hsplit hnotF hnotC
  exact ⟨s₁, us, hr, u, hu, hB, fun c hc => mem_unsigned (d := d) (hus ▸ by simp [hc])⟩

/-- A character is the letter that it is in lower case, or another letter. -/
theorem toLower_eq {c e : Char} (h : c.toLower = e) : c.isAlpha = true ∨ c = e := by
  by_cases hupper : c.val ≥ 'A'.val ∧ c.val ≤ 'Z'.val
  · left
    exact isAlpha_iff.mpr
      (.inl ⟨UInt32.le_iff_toNat_le.mp hupper.1, UInt32.le_iff_toNat_le.mp hupper.2⟩)
  · right
    rw [← h]
    unfold Char.toLower
    rw [dif_neg hupper]

/-- The second pattern wants the sign of the naira, or its letters. -/
theorem exec_altPattern_none {F : Text} {d : Decimal} (hwords : AreWords words)
    (hF : ∀ c ∈ F, c.isDigit = false ∧ c ≠ '₦' ∧ c.toLower ≠ 'g') :
    exec altPattern (F ++ (d.unsigned ++ following words)) = none := by
  rw [exec, search_none_of_not_matches, Option.map_none]
  intro s t htext hm
  obtain ⟨s₁, us, hr, u, hu, hsplit, hus⟩ :=
    in_front_of_digits hwords (fun c hc => (hF c hc).1) htext hm
  have hneeds : (all [anyOf [.text "cost", .text "need", .text "quote"], atMost any 24,
      .alt (.one (· = '₦')) (.seq (.text "ngn") (.star space))]).Needs
        fun c => c = '₦' ∨ c.toLower = 'g' := by
    refine .inr (.inr ⟨fun c hc => .inl (by simpa using hc), .inl ?_⟩)
    exact Re.needs_text (e := 'g') (by decide) fun d hd => .inr hd
  obtain ⟨u', hu', c, hc, hq⟩ := hr.takes hneeds
  obtain rfl := List.append_cancel_right (hu.symm.trans hu')
  have hmem : c ∈ F ++ us := hsplit ▸ List.mem_append_right _ hc
  rcases List.mem_append.mp hmem with hmem | hmem
  · exact hq.elim (hF c hmem).2.1 (hF c hmem).2.2
  · rcases hus c hmem with hdigit | rfl
    · rcases hq with rfl | hq
      · exact absurd hdigit (by decide)
      · rw [toLower_of_isDigit hdigit] at hq
        exact digit_ne hdigit (by decide) hq
    · exact absurd hq (by decide)

/-- What stands directly in front of the amount in a question. -/
theorem ends_question : (all [costQuestion, .star space, opt (.seq (.text "send") (plus space)),
    opt (anyOf [.one (· = '₦'), .seq (.text "ngn") (.star space),
      .seq (.text "n") (.star space)])]).Ends
        fun c => c.isAlpha = true ∨ isSpace c = true ∨ c = '₦' ∨ c = apostrophe := by
  have htext : ∀ w : String, w.toList.all (fun e => e.isAlpha || e = ' ') = true →
      (Re.text w).Ends fun c => c.isAlpha = true ∨ isSpace c = true ∨ c = '₦' ∨ c = apostrophe := by
    intro w hw
    refine Re.ends_text fun e he d hd => ?_
    rcases toLower_eq hd with halpha | rfl
    · exact .inl halpha
    · have hd' := List.all_eq_true.mp hw d he
      simp only [Bool.or_eq_true, decide_eq_true_eq] at hd'
      rcases hd' with halpha | rfl
      · exact .inl halpha
      · exact .inr (.inl (by decide))
  have htexts : ∀ w ∈ ["how much", " usdc", " do i need", " to", "what", " is", " the ", "usdc ",
      "cost", "how much will", "send", "ngn", "n"], (Re.text w).Ends
        fun c => c.isAlpha = true ∨ isSpace c = true ∨ c = '₦' ∨ c = apostrophe := fun w hw =>
    htext w (forall_mem_of_all (p := fun w : String => w.toList.all fun e => e.isAlpha || e = ' ')
      (by decide) w hw)
  have hspace : space.Ends fun c => c.isAlpha = true ∨ isSpace c = true ∨ c = '₦' ∨
      c = apostrophe := fun c hc => .inr (.inl hc)
  have hs : ('s' : Char).isAlpha = true := by decide
  simp [all, anyOf, opt, plus, costQuestion, Re.Ends, htexts, hspace, hs]

/-- With another sign in front of the amount, the question is not recognised. -/
theorem search_question_none {e : Char} {d : Decimal} (hwords : AreWords words)
    (he : e ∈ ['$', '€', '£', '¥']) :
    search needPattern [] (question ++ e :: (d.unsigned ++ following words)) = none := by
  have hsign : e.isDigit = false ∧ ¬ (e.isAlpha = true ∨ isSpace e = true ∨ e = '₦' ∨
      e = apostrophe) :=
    forall_mem_of_all (p := fun e => Char.isDigit e = false ∧ ¬ (e.isAlpha = true ∨
      isSpace e = true ∨ e = '₦' ∨ e = apostrophe)) (by decide) e he
  have hF : ∀ c ∈ question ++ [e], c.isDigit = false := by
    intro c hc
    rcases List.mem_append.mp hc with hc | hc
    · exact forall_mem_of_all (p := fun c => c.isDigit = false) (by decide) c hc
    · rw [List.mem_singleton.mp hc]
      exact hsign.1
  rw [List.append_cons]
  refine search_none_of_not_matches fun s t htext hm => ?_
  obtain ⟨s₁, us, hr, u, hu, hsplit, hus⟩ := in_front_of_digits hwords hF htext hm
  -- the pattern takes something, and the last character of it is none of the amount or its sign
  have hneeds : (all [costQuestion, .star space, opt (.seq (.text "send") (plus space)),
      opt (anyOf [.one (· = '₦'), .seq (.text "ngn") (.star space),
        .seq (.text "n") (.star space)])]).Needs fun _ => True :=
    .inl ⟨.inl (Re.needs_text (e := 'h') (by decide) fun _ _ => trivial),
      .inl (Re.needs_text (e := 'w') (by decide) fun _ _ => trivial),
      Re.needs_text (e := 'h') (by decide) fun _ _ => trivial⟩
  obtain ⟨u', hu', c', hc', -⟩ := hr.takes hneeds
  obtain rfl := List.append_cancel_right (hu.symm.trans hu')
  rcases hr.ends ends_question with hsame | ⟨c, before, hbefore, hc⟩
  · rw [hsame.1, List.self_eq_append_left] at hu
    rw [hu] at hc'
    cases hc'
  · have hwhole : s₁.before.reverse = question ++ e :: us := by
      have hwhole := hr.whole
      rw [hu, ← List.append_assoc, hsplit] at hwhole
      simpa using List.append_cancel_right hwhole
    have hlast : c ∈ e :: us := by
      rw [hbefore, List.reverse_cons] at hwhole
      have hget := congrArg List.getLast? hwhole
      rw [List.getLast?_concat, List.getLast?_append_cons] at hget
      exact List.mem_of_getLast? hget.symm
    rcases List.mem_cons.mp hlast with rfl | hmem
    · exact hsign.2 hc
    · rcases hus c hmem with hdigit | rfl
      · rcases hc with halpha | hblank | rfl | rfl
        · rw [not_isDigit_of_isAlpha halpha] at hdigit
          cases hdigit
        · rw [isSpace_of_isDigit hdigit] at hblank
          cases hblank
        · cases hdigit
        · cases hdigit
      · exact absurd hc (by decide)

/-- In naira, the second pattern finds the amount of the question. -/
theorem exec_altPattern_question (d : Decimal) (hwords : AreWords words) :
    ∃ m, exec altPattern (question ++ '₦' :: (d.unsigned ++ following words)) = some m ∧
      captured m 1 = d.unsigned := by
  obtain ⟨m, hm, hcaptured⟩ := run_amount d hwords ('₦' :: question.reverse)
  refine ⟨m, ?_, hcaptured⟩
  have hsplit : question ++ '₦' :: (d.unsigned ++ following words) =
      "how much usdc do i ".toList ++ ("need".toList ++ (" to send ".toList ++
        '₦' :: (d.unsigned ++ following words))) := by
    have hquestion : question = "how much usdc do i ".toList ++ ("need".toList ++
      " to send ".toList) := by decide
    rw [hquestion, List.append_assoc, List.append_assoc]
  -- no word in front of "need" is one of the pattern
  have hskip : ∀ u₁ u₂, "how much usdc do i ".toList = u₁ ++ u₂ → u₂ ≠ [] →
      altPattern.run some ⟨u₁.reverse ++ [], u₂ ++ ("need".toList ++ (" to send ".toList ++
        '₦' :: (d.unsigned ++ following words))), []⟩ = none := by
    intro u₁ u₂ hu hne
    have hnone : ∀ w ∈ ["cost", "need", "quote"], ∀ k : At → Option At, (Re.text w).run k
        ⟨u₁.reverse ++ [], u₂ ++ ("need".toList ++ (" to send ".toList ++
          '₦' :: (d.unsigned ++ following words))), []⟩ = none := by
      have htails : ∀ w ∈ ["cost", "need", "quote"],
          ∀ r ∈ ("how much usdc do i ".toList ++ "need".toList).tails, 4 < r.length →
            ¬ w.toList.take 5 <+: r.map Char.toLower := forall_mem_of_all (by decide +kernel)
      exact fun w hw k => run_text_none_of_tails hu hne (htails w hw)
    have hall : ∀ k : At → Option At, (anyOf [.text "cost", .text "need", .text "quote"]).run k
        ⟨u₁.reverse ++ [], u₂ ++ ("need".toList ++ (" to send ".toList ++
          '₦' :: (d.unsigned ++ following words))), []⟩ = none := by
      intro k
      change Option.or _ (Option.or _ ((Re.text "quote").run k _)) = none
      rw [hnone "cost" (by simp), hnone "need" (by simp), hnone "quote" (by simp)]
      rfl
    exact hall _
  rw [hsplit, exec, search_skip hskip, search_of_run (t := m)]
  · rfl
  let k₀ := (Re.seq (.group 1 SendPhrases.digits) afterDigits).run (some : At → Option At)
  let k₁ := (Re.alt (.one (· = '₦')) (.seq (.text "ngn") (.star space))).run k₀
  have hsign : k₁ ⟨question.reverse, '₦' :: (d.unsigned ++ following words), []⟩ = some m := by
    change (Re.alt _ _).run k₀ _ = _
    rw [run_alt, run_one_cons, if_pos (by decide)]
    exact congrArg (Option.or · _) hm
  -- there is no sign behind it
  have hlast : ∀ c v₁ v₂, '₦' :: (d.unsigned ++ following words) = c :: v₁ ++ v₂ →
      k₁ ⟨(c :: v₁).reverse ++ question.reverse, v₂, []⟩ = none := by
    intro c v₁ v₂ hv
    by_contra hsome
    obtain ⟨x, hx⟩ := Option.ne_none_iff_exists'.mp hsome
    obtain ⟨t, hmatch, -⟩ := matches_of_run (r := .seq (.alt (.one (· = '₦'))
      (.seq (.text "ngn") (.star space))) (.seq (.group 1 SendPhrases.digits) afterDigits)) hx
    obtain ⟨s₁, us, hr, u, hu, hsplit, hus⟩ := in_front_of_digits (F := ['₦']) hwords
      (fun c hc => by rw [List.mem_singleton.mp hc]; decide) hv.symm hmatch
    have hneeds : (Re.alt (.one (· = '₦')) (.seq (.text "ngn") (.star space))).Needs
        fun c => c = '₦' ∨ c.toLower = 'g' :=
      ⟨fun c hc => .inl (by simpa using hc),
        .inl (Re.needs_text (e := 'g') (by decide) fun d hd => .inr hd)⟩
    obtain ⟨u', hu', e, he, hq⟩ := hr.takes hneeds
    obtain rfl := List.append_cancel_right (hu.symm.trans hu')
    obtain ⟨-, hus'⟩ := List.cons.inj (show c :: (v₁ ++ u) = '₦' :: us from hsplit)
    rcases hus e (hus' ▸ List.mem_append_right v₁ he) with hdigit | rfl
    · rcases hq with rfl | hq
      · exact absurd hdigit (by decide)
      · rw [toLower_of_isDigit hdigit] at hq
        exact digit_ne hdigit (by decide) hq
    · exact absurd hq (by decide)
  have hany : (atMost any 24).run k₁ ⟨"how much usdc do i need".toList.reverse,
      " to send ".toList ++ '₦' :: (d.unsigned ++ following words), []⟩ = some m :=
    run_atMost_last (forall_mem_of_all (by decide)) (by decide) hsign hlast
  have hneed : (Re.text "need").run ((atMost any 24).run k₁) ⟨"how much usdc do i ".toList.reverse,
      "need".toList ++ (" to send ".toList ++ '₦' :: (d.unsigned ++ following words)), []⟩ =
        some m := by
    rw [run_text (by decide)]
    exact hany
  have hcost : (Re.text "cost").run ((atMost any 24).run k₁) ⟨"how much usdc do i ".toList.reverse,
      "need".toList ++ (" to send ".toList ++ '₦' :: (d.unsigned ++ following words)), []⟩ =
        none :=
    run_text_none (fun e he => by obtain rfl : 'c' = e := Option.some.inj he; decide) (by decide)
  have hany : ∀ s, (Re.text "cost").run ((atMost any 24).run k₁) s = none →
      (Re.text "need").run ((atMost any 24).run k₁) s = some m →
        altPattern.run some s = some m := by
    intro s hcost hneed
    change Option.or ((Re.text "cost").run ((atMost any 24).run k₁) s)
      (Option.or ((Re.text "need").run ((atMost any 24).run k₁) s) _) = _
    rw [hcost, hneed]
    rfl
  exact hany _ hcost hneed

end question

/-! ### Questions, as they are answered -/

/-- What the question is read as, in naira or without a sign, in units. -/
theorem parseSendCostQuote_units (hwords : AreWords words) (hkilo : t.kilo = false)
    (hsign : t.sign ∈ [none, some '₦']) :
    parseSendCostQuote (question ++ t.text ++ following words) =
      (positive (if ∃ w ∈ lowered words, w.getLast? = some 'k' then
          rounded (times (number t.amount.unsigned) 1000) else number t.amount.unsigned)).or
        (if t.sign = some '₦' then
          positive (if (lowered words).head? = some ['k'] then
            rounded (times (number t.amount.unsigned) 1000) else number t.amount.unsigned)
        else none) := by
  have hlowered := areWords_lowered hwords
  have hplain : t.plain = t.amount.unsigned := by simp [Token.plain, hkilo]
  obtain ⟨m, hsearch, hcaptured⟩ := search_question t.amount (sign_cases hsign) hlowered
  have hthousands : test endsInK (question ++ (t.sign.toList ++ (t.amount.unsigned ++
      following (lowered words)))) = true ↔ ∃ w ∈ lowered words, w.getLast? = some 'k' := by
    have hA : 'k' ∉ question ++ (t.sign.toList ++ t.amount.unsigned) := by
      intro hmem
      rcases List.mem_append.mp hmem with hmem | hmem
      · exact absurd hmem (by decide)
      · rcases List.mem_append.mp hmem with hmem | hmem
        · exact absurd (t.sign_mem 'k' (by simpa using hmem)) (by decide)
        · rcases mem_unsigned hmem with hdigit | hpoint
          · cases hdigit
          · exact absurd hpoint (by decide)
    have hiff := test_endsInK_iff hA hlowered
    simpa only [List.append_assoc] using hiff
  have halt : (exec altPattern (question ++ (t.sign.toList ++ (t.amount.unsigned ++
      following (lowered words))))).bind (fun m =>
        let n := number (captured m 1)
        positive (if test (all [plus digit, .star space, endsInK]) (question ++ (t.sign.toList ++
          (t.amount.unsigned ++ following (lowered words)))) then rounded (times n 1000) else n)) =
      if t.sign = some '₦' then
        positive (if (lowered words).head? = some ['k'] then
          rounded (times (number t.amount.unsigned) 1000) else number t.amount.unsigned)
      else none := by
    by_cases hs : t.sign = some '₦'
    · obtain ⟨m', hm', hcaptured'⟩ := exec_altPattern_question t.amount hlowered
      have hkilos := test_kilo_iff (A := question ++ ['₦']) t.amount hlowered
        (forall_mem_of_all (by decide))
      rw [List.append_assoc] at hkilos
      rw [hs]
      change (exec altPattern (question ++ '₦' :: (t.amount.unsigned ++
        following (lowered words)))).bind _ = _
      rw [hm', Option.bind_some, hcaptured', if_pos rfl]
      dsimp only
      exact congrArg positive (if_congr hkilos rfl rfl)
    · have hs' : t.sign = none := (List.mem_pair.mp hsign).resolve_right hs
      rw [if_neg hs, hs']
      change (exec altPattern (question ++ (t.amount.unsigned ++
        following (lowered words)))).bind _ = _
      rw [exec_altPattern_none hlowered (forall_mem_of_all (by decide)), Option.bind_none]
  unfold parseSendCostQuote
  rw [normalized_question t hwords, hplain]
  dsimp only
  rw [hsearch, halt, Option.bind_some, hcaptured]
  simp only [hthousands]

/-- With another sign, the question is not answered. -/
theorem parseSendCostQuote_sign (hwords : AreWords words) (hkilo : t.kilo = false)
    (hsign : t.sign ∉ [none, some '₦']) :
    parseSendCostQuote (question ++ t.text ++ following words) = none := by
  have hlowered := areWords_lowered hwords
  have hplain : t.plain = t.amount.unsigned := by simp [Token.plain, hkilo]
  obtain ⟨e, hs⟩ : ∃ e, t.sign = some e :=
    Option.ne_none_iff_exists'.mp fun h => hsign (by simp [h])
  have he : e ∈ ['$', '€', '£', '¥'] :=
    (List.mem_cons.mp (t.sign_mem e hs)).resolve_left fun h => hsign (by simp [hs, h])
  have hF : ∀ c ∈ question ++ [e], c.isDigit = false ∧ c ≠ '₦' ∧ c.toLower ≠ 'g' := by
    have hall : ∀ c ∈ question ++ ['$', '€', '£', '¥'],
        c.isDigit = false ∧ c ≠ '₦' ∧ c.toLower ≠ 'g' := forall_mem_of_all (by decide)
    intro c hc
    rcases List.mem_append.mp hc with hc | hc
    · exact hall c (List.mem_append_left _ hc)
    · exact hall c (List.mem_append_right _ (List.mem_singleton.mp hc ▸ he))
  have halt := exec_altPattern_none (d := t.amount) hlowered hF
  rw [List.append_assoc, List.singleton_append] at halt
  unfold parseSendCostQuote
  rw [normalized_question t hwords, hplain, hs]
  dsimp only [Option.toList_some, List.cons_append, List.nil_append]
  rw [search_question_none hlowered he, halt]
  rfl

end tokens

/-- A number that is above zero. -/
theorem positive_coe {n : ℚ} (h : 0 < n) : positive n = some (n : WithTop ℚ) := by
  rw [positive, if_pos ⟨WithTop.coe_ne_top, WithTop.coe_pos.mpr h⟩]

/-- The thousands of a number are none where they are too large, and another number otherwise. -/
theorem positive_thousands {n : ℚ} (h : 1 / 200 ≤ n) :
    positive (rounded (times n 1000)) = none ∧ 2 ^ 1024 - 2 ^ 970 ≤ n * 1000 ∨
      positive (rounded (times n 1000)) ≠ none ∧ positive (rounded (times n 1000)) ≠ some n ∧
        n * 1000 < 2 ^ 1024 - 2 ^ 970 := by
  by_cases hlarge : 2 ^ 1024 - 2 ^ 970 ≤ n * 1000
  · have htop : times n 1000 = ⊤ := if_pos hlarge
    exact .inl ⟨by rw [htop]; rfl, hlarge⟩
  · obtain ⟨x, hx, hle⟩ : ∃ x : ℚ, times n 1000 = x ∧ n + 2 ≤ x :=
      (times_thousand_ge h).resolve_left fun htop =>
        WithTop.coe_ne_top ((if_neg hlarge).symm.trans htop)
    have hfloor : (0 : ℚ) < ⌊x + 1 / 2⌋ := by
      have hlt := Int.lt_floor_add_one (x + 1 / 2)
      linarith
    have hpos : positive (rounded (times n 1000)) = some (rounded (times n 1000)) := by
      rw [hx]
      exact positive_coe hfloor
    refine .inr ⟨by rw [hpos]; exact Option.some_ne_none _, ?_, not_le.mp hlarge⟩
    rw [hpos]
    exact fun heq => rounded_thousand_ne h (Option.some.inj heq)

/-- "10k". -/
def tenThousand : Token where
  sign := none
  amount := ⟨false, ['1', '0'], [], by decide, forall_mem_of_all (by decide), digits_nil⟩
  commas := false
  kilo := true
  sign_mem := fun c hc => (by cases hc)
  frac_le := by decide
  pos := by decide +kernel

end DayfiBackend.Four.AmountReaders
