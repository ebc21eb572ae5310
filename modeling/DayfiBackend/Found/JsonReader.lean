import DayfiBackend.Found.CodeUnits
import DayfiBackend.Found.NumberText
import DayfiBackend.Found.Json

/-!
# Reading JSON and numbers

`parse` reads a JSON document as `JSON.parse` does, and `toNumber` a text as `Number` does. A
document ends where it ends: no document goes on behind a line break with anything but white space
(`parse_line`).
-/

namespace DayfiBackend.Found.JsonReader

open DayfiBackend.Found.CodeUnits (CodeUnit Units sign)
open DayfiBackend.Found.NumberText DayfiBackend.Found.Decimals
open DayfiBackend.Found.Json (mark backslash opening closing isBlank skip hexValue)

/-! ### Numbers -/

/-- A number of the language that is not `NaN`. -/
inductive JsNumber where
  | finite (x : ℚ)
  | infinite (negative : Bool)
  deriving DecidableEq, Repr

/-- The number that is nearest to an exact value. -/
def nearestNumber (negative : Bool) (x : ℚ) : JsNumber :=
  if 2 ^ 1024 - 2 ^ 970 ≤ x then .infinite negative
  else .finite (if negative then -toBinary64 x else toBinary64 x)

/-- The digits in front, and what follows them. -/
def spanDigits (cs : List Char) : List Char × List Char :=
  (cs.takeWhile Char.isDigit, cs.dropWhile Char.isDigit)

/-- A sign in front. -/
def takeSign (plus : Bool) : List Char → Bool × List Char
  | [] => (false, [])
  | c :: cs =>
      if c = '-' then (true, cs) else if plus && c = '+' then (false, cs) else (false, c :: cs)

/-- A point and the digits behind it; `none` where no digit follows the point. -/
def readFraction : List Char → Option (List Char × List Char)
  | [] => some ([], [])
  | c :: cs =>
      if c = '.' then
        let (ds, rest) := spanDigits cs
        if ds = [] then none else some (ds, rest)
      else some ([], c :: cs)

/-- An exponent; `none` where it has no digits. -/
def readExponent : List Char → Option (ℤ × List Char)
  | [] => some (0, [])
  | c :: cs =>
      if c = 'e' ∨ c = 'E' then
        let (negative, body) := takeSign true cs
        let (ds, rest) := spanDigits body
        if ds = [] then none
        else some (if negative then -(natural ds : ℤ) else natural ds, rest)
      else some (0, c :: cs)

/-- The exact value of digits. -/
def exactValue (whole frac : List Char) (e : ℤ) : ℚ :=
  (natural whole + natural frac / 10 ^ frac.length) * 10 ^ e

/-- A number of a document. -/
def readNumber (cs : List Char) : Option (JsNumber × List Char) :=
  let (negative, body) := takeSign false cs
  let (whole, rest) := spanDigits body
  if whole = [] ∨ (1 < whole.length ∧ whole.head? = some '0') then none
  else
    (readFraction rest).bind fun (frac, rest) =>
      (readExponent rest).map fun (e, rest) =>
        (nearestNumber negative (exactValue whole frac e), rest)

/-- Digits of another base, behind their mark. -/
def readBase (base : ℕ) (cs : List Char) : Option JsNumber :=
  if cs ≠ [] ∧ cs.all (fun c => (hexValue c).any (· < base)) then
    some (nearestNumber false (cs.foldl (fun n c => n * base + (hexValue c).getD 0) 0 : ℕ))
  else none

/-- The digits behind a point, where there is one. -/
def takeFraction (cs : List Char) : List Char × List Char :=
  if cs.head? = some '.' then spanDigits cs.tail else ([], cs)

/-- A decimal that takes up the whole text. -/
def readDecimal (cs : List Char) : Option JsNumber :=
  let (negative, body) := takeSign true cs
  if body = ['I', 'n', 'f', 'i', 'n', 'i', 't', 'y'] then some (.infinite negative)
  else
    let (whole, rest) := spanDigits body
    let (frac, rest) := takeFraction rest
    if whole = [] ∧ frac = [] then none
    else
      (readExponent rest).bind fun (e, rest) =>
        if rest = [] then some (nearestNumber negative (exactValue whole frac e)) else none

/-- `Number` of a text without white space around it; `none` is `NaN`. -/
def readLiteral : List Char → Option JsNumber
  | [] => some (.finite 0)
  | '0' :: 'x' :: cs | '0' :: 'X' :: cs => readBase 16 cs
  | '0' :: 'o' :: cs | '0' :: 'O' :: cs => readBase 8 cs
  | '0' :: 'b' :: cs | '0' :: 'B' :: cs => readBase 2 cs
  | cs => readDecimal cs

section literals

variable {cs : List Char} {c : Char}

/-- What is no digit is behind the digits. -/
theorem mem_spanDigits (hc : c.isDigit = false) (h : c ∈ cs) : c ∈ (spanDigits cs).2 := by
  rw [← List.takeWhile_append_dropWhile (p := Char.isDigit) (l := cs)] at h
  refine (List.mem_append.mp h).resolve_left fun htake => ?_
  rw [List.mem_takeWhile_imp htake] at hc
  cases hc

theorem mem_takeSign {plus : Bool} (hminus : c ≠ '-') (hplus : c ≠ '+') (h : c ∈ cs) :
    c ∈ (takeSign plus cs).2 := by
  cases cs with
  | nil => cases h
  | cons d ds =>
      simp only [takeSign]
      split_ifs with h₁ h₂
      · exact (List.mem_cons.mp h).resolve_left fun heq => hminus (heq.trans h₁)
      · have hd : d = '+' := by simpa using (Bool.and_eq_true_iff.mp h₂).2
        exact (List.mem_cons.mp h).resolve_left fun heq => hplus (heq.trans hd)
      · exact h

theorem mem_readExponent {e : ℤ} {rest : List Char} (hc : c.isDigit = false)
    (hsigns : c ∉ ['e', 'E', '-', '+']) (h : c ∈ cs) (hread : readExponent cs = some (e, rest)) :
    c ∈ rest := by
  simp only [List.mem_cons, List.not_mem_nil, or_false, not_or] at hsigns
  obtain ⟨he, hE, hminus, hplus⟩ := hsigns
  cases cs with
  | nil => cases h
  | cons d ds =>
      simp only [readExponent] at hread
      by_cases hd : d = 'e' ∨ d = 'E'
      · have hmem : c ∈ ds := by
          refine (List.mem_cons.mp h).resolve_left ?_
          rintro rfl
          exact hd.elim he hE
        rw [if_pos hd] at hread
        split_ifs at hread
        · obtain ⟨-, rfl⟩ := Prod.mk.inj (Option.some.inj hread)
          exact mem_spanDigits hc (mem_takeSign hminus hplus hmem)
        · obtain ⟨-, rfl⟩ := Prod.mk.inj (Option.some.inj hread)
          exact mem_spanDigits hc (mem_takeSign hminus hplus hmem)
      · rw [if_neg hd] at hread
        obtain ⟨-, rfl⟩ := Prod.mk.inj (Option.some.inj hread)
        exact h

/-- An equals sign is in no number. -/
theorem readLiteral_eq_none (h : '=' ∈ cs) : readLiteral cs = none := by
  have hbase : ∀ (base : ℕ) (ds : List Char), '=' ∈ ds → readBase base ds = none := by
    intro base ds hmem
    refine if_neg fun hall => ?_
    have hvalue := List.all_eq_true.mp hall.2 '=' hmem
    have hnone : hexValue '=' = none := by decide
    rw [hnone] at hvalue
    cases hvalue
  have hdecimal : ∀ ds : List Char, '=' ∈ ds → readDecimal ds = none := by
    intro ds hmem
    have hbody : '=' ∈ (takeSign true ds).2 := mem_takeSign (by decide) (by decide) hmem
    have hrest : '=' ∈ (spanDigits (takeSign true ds).2).2 := mem_spanDigits (by decide) hbody
    have hbehind : '=' ∈ (takeFraction (spanDigits (takeSign true ds).2).2).2 := by
      unfold takeFraction
      split_ifs with hpoint
      · refine mem_spanDigits (by decide) ?_
        obtain ⟨t, ht⟩ := List.head?_eq_some_iff.mp hpoint
        rw [ht] at hrest ⊢
        exact (List.mem_cons.mp hrest).resolve_left (by decide)
      · exact hrest
    simp only [readDecimal]
    split_ifs with hinf hempty
    · rw [hinf] at hbody
      exact absurd hbody (by decide)
    · rfl
    · cases hread : readExponent (takeFraction (spanDigits (takeSign true ds).2).2).2 with
      | none => rfl
      | some r =>
          obtain ⟨e, rest⟩ := r
          have hmore := mem_readExponent (by decide) (by decide) hbehind hread
          exact if_neg (List.ne_nil_of_mem hmore)
  have hsigns : '=' ≠ '0' ∧ '=' ≠ 'x' ∧ '=' ≠ 'X' ∧ '=' ≠ 'o' ∧ '=' ≠ 'O' ∧ '=' ≠ 'b' ∧
      '=' ≠ 'B' := by decide
  unfold readLiteral
  split
  · cases h
  all_goals first
    | exact hbase _ _ (by simpa [hsigns] using h)
    | exact hdecimal _ h

end literals

/-! ### Documents -/

/-- What a document says. -/
inductive JsonValue where
  | null
  | bool (b : Bool)
  | number (x : JsNumber)
  | string (s : Units)
  | array (vs : List JsonValue)
  | object (ms : List (Units × JsonValue))

/-- The code units of a character. -/
def utf16 (c : Char) : Units :=
  if c.toNat < 0x10000 then [Fin.ofNat 65536 c.toNat]
  else [Fin.ofNat 65536 (0xD800 + (c.toNat - 0x10000) / 1024),
    Fin.ofNat 65536 (0xDC00 + (c.toNat - 0x10000) % 1024)]

/-- The code unit of an escape. -/
def readEscape (c : Char) : Option CodeUnit :=
  if c = mark ∨ c = backslash ∨ c = '/' then some (sign c)
  else if c = 'b' then some 8
  else if c = 't' then some 9
  else if c = 'n' then some 10
  else if c = 'f' then some 12
  else if c = 'r' then some 13
  else none

/-- The code unit of four hexadecimal digits. -/
def readUnit (a b c d : Char) : Option CodeUnit :=
  match hexValue a, hexValue b, hexValue c, hexValue d with
  | some a, some b, some c, some d =>
      some (Fin.ofNat 65536 (((a * 16 + b) * 16 + c) * 16 + d))
  | _, _, _, _ => none

/-- The rest of a text, up to its closing quotation mark. -/
def readChars : List Char → Option (Units × List Char)
  | [] => none
  | c :: cs =>
      if c = mark then some ([], cs)
      else if c = backslash then
        match cs with
        | [] => none
        | e :: es =>
            if e = 'u' then
              match es with
              | h₁ :: h₂ :: h₃ :: h₄ :: more =>
                  (readUnit h₁ h₂ h₃ h₄).bind fun u => (readChars more).map fun r => (u :: r.1, r.2)
              | _ => none
            else (readEscape e).bind fun u => (readChars es).map fun r => (u :: r.1, r.2)
      else if c.toNat < 32 then none
      else (readChars cs).map fun r => (utf16 c ++ r.1, r.2)

/-- A word of the language. -/
def readWord (word : List Char) (v : JsonValue) (cs : List Char) : Option (JsonValue × List Char) :=
  if word <+: cs then some (v, cs.drop word.length) else none

/-- The first sign behind white space, and what follows it. -/
def next (cs : List Char) : Option (Char × List Char) :=
  match skip cs with
  | [] => none
  | c :: rest => some (c, rest)

/-- The name of a member and the colon behind it. -/
def readName (cs : List Char) : Option (Units × List Char) :=
  (next cs).bind fun (c, rest) =>
    if c = mark then
      (readChars rest).bind fun (name, rest) =>
        (next rest).bind fun (d, rest) => if d = ':' then some (name, rest) else none
    else none

mutual

/-- A value; `n` bounds its length. -/
def readValue : ℕ → List Char → Option (JsonValue × List Char)
  | 0, _ => none
  | n + 1, cs =>
      (next cs).bind fun (c, rest) =>
        if c = mark then (readChars rest).map fun r => (.string r.1, r.2)
        else if c = '[' then
          (next rest).bind fun (d, after) =>
            if d = ']' then some (.array [], after)
            else (readItems n rest).map fun r => (.array r.1, r.2)
        else if c = opening then
          (next rest).bind fun (d, after) =>
            if d = closing then some (.object [], after)
            else (readMembers n rest).map fun r => (.object r.1, r.2)
        else if c = 'n' then readWord ['n', 'u', 'l', 'l'] .null (c :: rest)
        else if c = 't' then readWord ['t', 'r', 'u', 'e'] (.bool true) (c :: rest)
        else if c = 'f' then readWord ['f', 'a', 'l', 's', 'e'] (.bool false) (c :: rest)
        else (readNumber (c :: rest)).map fun r => (.number r.1, r.2)

/-- The elements of an array, up to the bracket that closes it. -/
def readItems : ℕ → List Char → Option (List JsonValue × List Char)
  | 0, _ => none
  | n + 1, cs =>
      (readValue n cs).bind fun (v, rest) =>
        (next rest).bind fun (c, rest) =>
          if c = ',' then (readItems n rest).map fun r => (v :: r.1, r.2)
          else if c = ']' then some ([v], rest)
          else none

/-- The members of an object, up to the brace that closes it. -/
def readMembers : ℕ → List Char → Option (List (Units × JsonValue) × List Char)
  | 0, _ => none
  | n + 1, cs =>
      (readName cs).bind fun (name, rest) =>
        (readValue n rest).bind fun (v, rest) =>
          (next rest).bind fun (c, rest) =>
            if c = ',' then (readMembers n rest).map fun r => ((name, v) :: r.1, r.2)
            else if c = closing then some ([(name, v)], rest)
            else none

end

/-- `JSON.parse`. -/
def parse (text : List Char) : Option JsonValue :=
  (readValue text.length text).bind fun (v, rest) => if skip rest = [] then some v else none

/-! ### What follows a document -/

section append

variable {cs rest x : List Char} {us : Units} {c : Char}

/-- What may follow: nothing, or a line break. -/
def Breaks (x : List Char) : Prop := ∀ c ∈ x.head?, c = '\n'

theorem next_append (h : next cs = some (c, rest)) (x : List Char) :
    next (cs ++ x) = some (c, rest ++ x) ∧ rest.length < cs.length := by
  unfold next at h ⊢
  cases hskip : skip cs with
  | nil =>
      rw [hskip] at h
      cases h
  | cons d ds =>
      rw [hskip] at h
      obtain ⟨rfl, rfl⟩ := Prod.mk.inj (Option.some.inj h)
      have hlen : (skip cs).length ≤ cs.length := List.length_dropWhile_le _ _
      rw [hskip, List.length_cons] at hlen
      have happend : skip (cs ++ x) = d :: (ds ++ x) := by
        unfold skip at hskip ⊢
        rw [List.dropWhile_append, hskip]
        rfl
      rw [happend]
      exact ⟨rfl, by omega⟩

theorem readChars_append (h : readChars cs = some (us, rest)) (x : List Char) :
    readChars (cs ++ x) = some (us, rest ++ x) ∧ rest.length < cs.length := by
  fun_induction readChars cs generalizing us with
  | case1 | case3 | case5 | case7 => cases h
  | case2 cs =>
      obtain ⟨rfl, rfl⟩ := Prod.mk.inj (Option.some.inj h)
      rw [List.cons_append, readChars.eq_def]
      simp
  | case4 h₁ h₂ h₃ h₄ more hmark ih =>
      obtain ⟨u, hu, hmap⟩ := Option.bind_eq_some_iff.mp h
      obtain ⟨⟨vs, r⟩, hread, heq⟩ := Option.map_eq_some_iff.mp hmap
      obtain ⟨rfl, rfl⟩ := Prod.mk.inj heq
      obtain ⟨happend, hlen⟩ := ih hread
      dsimp only at hlen
      refine ⟨?_, by simp only [List.length_cons]; omega⟩
      simp only [List.cons_append]
      rw [readChars.eq_def]
      simp [hmark, hu, happend]
  | case6 e es hne hmark ih =>
      obtain ⟨u, hu, hmap⟩ := Option.bind_eq_some_iff.mp h
      obtain ⟨⟨vs, r⟩, hread, heq⟩ := Option.map_eq_some_iff.mp hmap
      obtain ⟨rfl, rfl⟩ := Prod.mk.inj heq
      obtain ⟨happend, hlen⟩ := ih hread
      dsimp only at hlen
      refine ⟨?_, by simp only [List.length_cons]; omega⟩
      simp only [List.cons_append]
      rw [readChars.eq_def]
      simp [hmark, hne, hu, happend]
  | case8 c cs hmark hback hlow ih =>
      obtain ⟨⟨vs, r⟩, hread, heq⟩ := Option.map_eq_some_iff.mp h
      obtain ⟨rfl, rfl⟩ := Prod.mk.inj heq
      obtain ⟨happend, hlen⟩ := ih hread
      dsimp only at hlen
      refine ⟨?_, by simp only [List.length_cons]; omega⟩
      rw [List.cons_append, readChars.eq_def]
      simp [hmark, hback, hlow, happend]

theorem readWord_append {word : List Char} {v w : JsonValue} (hne : word ≠ [])
    (h : readWord word v cs = some (w, rest)) (x : List Char) :
    readWord word v (cs ++ x) = some (w, rest ++ x) ∧ rest.length < cs.length := by
  unfold readWord at h ⊢
  split_ifs at h with hprefix
  obtain ⟨rfl, rfl⟩ := Prod.mk.inj (Option.some.inj h)
  obtain ⟨t, rfl⟩ := hprefix
  have hlen := List.length_pos_of_ne_nil hne
  rw [if_pos ⟨t ++ x, by rw [List.append_assoc]⟩]
  simp [hlen]

theorem readName_append (h : readName cs = some (us, rest)) (x : List Char) :
    readName (cs ++ x) = some (us, rest ++ x) ∧ rest.length < cs.length := by
  unfold readName at h ⊢
  obtain ⟨⟨c, r₁⟩, h₁, h⟩ := Option.bind_eq_some_iff.mp h
  dsimp only at h
  split_ifs at h with hc
  obtain ⟨⟨name, r₂⟩, h₂, h⟩ := Option.bind_eq_some_iff.mp h
  obtain ⟨⟨d, r₃⟩, h₃, h⟩ := Option.bind_eq_some_iff.mp h
  dsimp only at h
  split_ifs at h with hd
  obtain ⟨rfl, rfl⟩ := Prod.mk.inj (Option.some.inj h)
  obtain ⟨e₁, l₁⟩ := next_append h₁ x
  obtain ⟨e₂, l₂⟩ := readChars_append h₂ x
  obtain ⟨e₃, l₃⟩ := next_append h₃ x
  dsimp only at l₃
  refine ⟨?_, by omega⟩
  simp [e₁, hc, e₂, e₃, hd]

/-! ### What follows a number -/

theorem spanDigits_append (hx : Breaks x) :
    spanDigits (cs ++ x) = ((spanDigits cs).1, (spanDigits cs).2 ++ x) := by
  unfold spanDigits
  induction cs with
  | nil =>
      cases x with
      | nil => rfl
      | cons c x =>
          obtain rfl := hx c rfl
          rfl
  | cons c cs ih =>
      obtain ⟨htake, hdrop⟩ := Prod.mk.inj ih
      rw [List.cons_append, List.takeWhile_cons, List.takeWhile_cons, List.dropWhile_cons,
        List.dropWhile_cons]
      split_ifs with hc
      · rw [htake, hdrop]
      · rfl

theorem takeSign_append {plus : Bool} (hne : cs ≠ []) :
    takeSign plus (cs ++ x) = ((takeSign plus cs).1, (takeSign plus cs).2 ++ x) := by
  obtain ⟨c, cs, rfl⟩ := List.exists_cons_of_ne_nil hne
  simp only [List.cons_append, takeSign]
  split_ifs <;> rfl

theorem length_takeSign (plus : Bool) (cs : List Char) :
    (takeSign plus cs).2.length ≤ cs.length := by
  cases cs with
  | nil => exact Nat.le_refl _
  | cons c cs =>
      simp only [takeSign]
      split_ifs <;> simp

theorem length_spanDigits (cs : List Char) :
    (spanDigits cs).1.length + (spanDigits cs).2.length = cs.length := by
  rw [← List.length_append]
  exact congrArg List.length List.takeWhile_append_dropWhile

theorem readFraction_append {frac : List Char} (hx : Breaks x)
    (h : readFraction cs = some (frac, rest)) :
    readFraction (cs ++ x) = some (frac, rest ++ x) ∧ rest.length ≤ cs.length := by
  cases cs with
  | nil =>
      obtain ⟨rfl, rfl⟩ := Prod.mk.inj (Option.some.inj h)
      cases x with
      | nil => exact ⟨rfl, Nat.le_refl _⟩
      | cons c x =>
          obtain rfl := hx c rfl
          exact ⟨rfl, Nat.le_refl _⟩
  | cons c cs =>
      have hlen := length_spanDigits cs
      simp only [readFraction, List.cons_append, spanDigits_append hx] at h ⊢
      split_ifs at h ⊢ with hc hds
      · obtain ⟨rfl, rfl⟩ := Prod.mk.inj (Option.some.inj h)
        exact ⟨rfl, by simp only [List.length_cons]; omega⟩
      · obtain ⟨rfl, rfl⟩ := Prod.mk.inj (Option.some.inj h)
        exact ⟨rfl, Nat.le_refl _⟩

theorem readExponent_append {e : ℤ} (hx : Breaks x) (h : readExponent cs = some (e, rest)) :
    readExponent (cs ++ x) = some (e, rest ++ x) ∧ rest.length ≤ cs.length := by
  cases cs with
  | nil =>
      obtain ⟨rfl, rfl⟩ := Prod.mk.inj (Option.some.inj h)
      cases x with
      | nil => exact ⟨rfl, Nat.le_refl _⟩
      | cons c x =>
          obtain rfl := hx c rfl
          exact ⟨rfl, Nat.le_refl _⟩
  | cons c cs =>
      by_cases hc : c = 'e' ∨ c = 'E'
      · by_cases hne : cs = []
        · subst hne
          simp [readExponent, hc, takeSign, spanDigits] at h
        · have hlen := length_spanDigits (takeSign true cs).2
          have hsign : (takeSign true cs).2.length ≤ cs.length := length_takeSign _ _
          simp only [readExponent, List.cons_append, takeSign_append hne, spanDigits_append hx,
            if_pos hc] at h ⊢
          split_ifs at h ⊢
          · obtain ⟨rfl, rfl⟩ := Prod.mk.inj (Option.some.inj h)
            exact ⟨rfl, by simp only [List.length_cons]; omega⟩
          · obtain ⟨rfl, rfl⟩ := Prod.mk.inj (Option.some.inj h)
            exact ⟨rfl, by simp only [List.length_cons]; omega⟩
      · simp only [readExponent, List.cons_append, if_neg hc] at h ⊢
        obtain ⟨rfl, rfl⟩ := Prod.mk.inj (Option.some.inj h)
        exact ⟨rfl, Nat.le_refl _⟩

theorem readNumber_append {v : JsNumber} (hx : Breaks x) (h : readNumber cs = some (v, rest)) :
    readNumber (cs ++ x) = some (v, rest ++ x) ∧ rest.length < cs.length := by
  by_cases hne : cs = []
  · subst hne
    simp [readNumber, takeSign, spanDigits] at h
  · have hlen := length_spanDigits (takeSign false cs).2
    have hsign : (takeSign false cs).2.length ≤ cs.length := length_takeSign _ _
    simp only [readNumber, takeSign_append hne, spanDigits_append hx] at h ⊢
    split_ifs at h ⊢ with hwhole
    obtain ⟨⟨frac, r₁⟩, h₁, h⟩ := Option.bind_eq_some_iff.mp h
    obtain ⟨⟨e, r₂⟩, h₂, heq⟩ := Option.map_eq_some_iff.mp h
    dsimp only at heq
    obtain ⟨rfl, rfl⟩ := Prod.mk.inj heq
    obtain ⟨e₁, l₁⟩ := readFraction_append hx h₁
    obtain ⟨e₂, l₂⟩ := readExponent_append hx h₂
    have hpos : 0 < (spanDigits (takeSign false cs).2).1.length :=
      List.length_pos_of_ne_nil fun hnil => hwhole (.inl hnil)
    dsimp only at l₂
    refine ⟨?_, by omega⟩
    simp [e₁, e₂]

/-! ### What follows a value -/

/-- What is read is read from any text that goes on, with as much fuel as signs are read. -/
def Local {α : Type} (read : ℕ → List Char → Option (α × List Char)) (m : ℕ) : Prop :=
  ∀ cs v rest, read m cs = some (v, rest) → rest.length < cs.length ∧
    ∀ n x, Breaks x → cs.length ≤ n + rest.length → read n (cs ++ x) = some (v, rest ++ x)

theorem local_items {m : ℕ} (ihValue : Local readValue m) (ihItems : Local readItems m) :
    Local readItems (m + 1) := by
  intro cs v rest h
  rw [readItems] at h
  obtain ⟨⟨w, r₁⟩, h₁, h⟩ := Option.bind_eq_some_iff.mp h
  obtain ⟨⟨c, r₂⟩, h₂, h⟩ := Option.bind_eq_some_iff.mp h
  obtain ⟨l₁, e₁⟩ := ihValue _ _ _ h₁
  have l₂ := (next_append h₂ []).2
  dsimp only at h l₂
  split_ifs at h with hcomma hclose
  · simp only [Option.map_eq_some_iff, Prod.exists, Prod.mk.injEq] at h
    obtain ⟨ws, r₃, h₃, rfl, rfl⟩ := h
    obtain ⟨l₃, e₃⟩ := ihItems _ _ _ h₃
    refine ⟨by omega, fun n x hx hn => ?_⟩
    obtain ⟨n, rfl⟩ := Nat.exists_eq_succ_of_ne_zero (show n ≠ 0 by omega)
    rw [readItems, e₁ n x hx (by omega)]
    simp [(next_append h₂ x).1, hcomma, e₃ n x hx (by omega)]
  · obtain ⟨rfl, rfl⟩ := Prod.mk.inj (Option.some.inj h)
    refine ⟨by omega, fun n x hx hn => ?_⟩
    obtain ⟨n, rfl⟩ := Nat.exists_eq_succ_of_ne_zero (show n ≠ 0 by omega)
    rw [readItems, e₁ n x hx (by omega)]
    simp [(next_append h₂ x).1, hclose]

theorem local_members {m : ℕ} (ihValue : Local readValue m) (ihMembers : Local readMembers m) :
    Local readMembers (m + 1) := by
  intro cs v rest h
  rw [readMembers] at h
  obtain ⟨⟨name, r₀⟩, h₀, h⟩ := Option.bind_eq_some_iff.mp h
  obtain ⟨⟨w, r₁⟩, h₁, h⟩ := Option.bind_eq_some_iff.mp h
  obtain ⟨⟨c, r₂⟩, h₂, h⟩ := Option.bind_eq_some_iff.mp h
  obtain ⟨l₁, e₁⟩ := ihValue _ _ _ h₁
  have l₀ := (readName_append h₀ []).2
  have l₂ := (next_append h₂ []).2
  dsimp only at h l₁ l₂
  split_ifs at h with hcomma hclose
  · simp only [Option.map_eq_some_iff, Prod.exists, Prod.mk.injEq] at h
    obtain ⟨ws, r₃, h₃, rfl, rfl⟩ := h
    obtain ⟨l₃, e₃⟩ := ihMembers _ _ _ h₃
    refine ⟨by omega, fun n x hx hn => ?_⟩
    obtain ⟨n, rfl⟩ := Nat.exists_eq_succ_of_ne_zero (show n ≠ 0 by omega)
    rw [readMembers, (readName_append h₀ x).1]
    simp [e₁ n x hx (by omega), (next_append h₂ x).1, hcomma, e₃ n x hx (by omega)]
  · obtain ⟨rfl, rfl⟩ := Prod.mk.inj (Option.some.inj h)
    refine ⟨by omega, fun n x hx hn => ?_⟩
    obtain ⟨n, rfl⟩ := Nat.exists_eq_succ_of_ne_zero (show n ≠ 0 by omega)
    rw [readMembers, (readName_append h₀ x).1]
    simp only [Option.bind_some, e₁ n x hx (by omega), (next_append h₂ x).1, if_neg hcomma,
      if_pos hclose]

theorem local_value {m : ℕ} (ihItems : Local readItems m) (ihMembers : Local readMembers m) :
    Local readValue (m + 1) := by
  intro cs v rest h
  rw [readValue] at h
  obtain ⟨⟨c, r₁⟩, h₁, h⟩ := Option.bind_eq_some_iff.mp h
  have l₁ := (next_append h₁ []).2
  dsimp only at h
  -- one sign at least is read before the elements, and the fuel for them is left
  have hstep : ∀ P : ℕ → List Char → Prop, rest.length < cs.length →
      (∀ n x, Breaks x → cs.length ≤ n + 1 + rest.length → P (n + 1) x) →
      ∀ n x, Breaks x → cs.length ≤ n + rest.length → P n x := by
    intro P hlen hP n x hx hn
    obtain ⟨n, rfl⟩ := Nat.exists_eq_succ_of_ne_zero (show n ≠ 0 by omega)
    exact hP n x hx hn
  split_ifs at h with hmark hopen hbrace hnull htrue hfalse
  · simp only [Option.map_eq_some_iff, Prod.exists, Prod.mk.injEq] at h
    obtain ⟨us, r₂, h₂, rfl, rfl⟩ := h
    have l₂ := (readChars_append h₂ []).2
    refine ⟨by omega, hstep _ (by omega) fun n x hx hn => ?_⟩
    rw [readValue, (next_append h₁ x).1]
    simp only [Option.bind_some, if_pos hmark, (readChars_append h₂ x).1, Option.map_some]
  · obtain ⟨⟨d, r₂⟩, h₂, h⟩ := Option.bind_eq_some_iff.mp h
    have l₂ := (next_append h₂ []).2
    dsimp only at h
    split_ifs at h with hd
    · obtain ⟨rfl, rfl⟩ := Prod.mk.inj (Option.some.inj h)
      refine ⟨by omega, hstep _ (by omega) fun n x hx hn => ?_⟩
      rw [readValue, (next_append h₁ x).1]
      simp only [Option.bind_some, if_neg hmark, if_pos hopen, (next_append h₂ x).1, if_pos hd]
    · simp only [Option.map_eq_some_iff, Prod.exists, Prod.mk.injEq] at h
      obtain ⟨ws, r₃, h₃, rfl, rfl⟩ := h
      obtain ⟨l₃, e₃⟩ := ihItems _ _ _ h₃
      refine ⟨by omega, hstep _ (by omega) fun n x hx hn => ?_⟩
      rw [readValue, (next_append h₁ x).1]
      simp only [Option.bind_some, if_neg hmark, if_pos hopen, (next_append h₂ x).1, if_neg hd,
        e₃ n x hx (by omega), Option.map_some]
  · obtain ⟨⟨d, r₂⟩, h₂, h⟩ := Option.bind_eq_some_iff.mp h
    have l₂ := (next_append h₂ []).2
    dsimp only at h
    split_ifs at h with hd
    · obtain ⟨rfl, rfl⟩ := Prod.mk.inj (Option.some.inj h)
      refine ⟨by omega, hstep _ (by omega) fun n x hx hn => ?_⟩
      rw [readValue, (next_append h₁ x).1]
      simp only [Option.bind_some, if_neg hmark, if_neg hopen, if_pos hbrace,
        (next_append h₂ x).1, if_pos hd]
    · simp only [Option.map_eq_some_iff, Prod.exists, Prod.mk.injEq] at h
      obtain ⟨ws, r₃, h₃, rfl, rfl⟩ := h
      obtain ⟨l₃, e₃⟩ := ihMembers _ _ _ h₃
      refine ⟨by omega, hstep _ (by omega) fun n x hx hn => ?_⟩
      rw [readValue, (next_append h₁ x).1]
      simp only [Option.bind_some, if_neg hmark, if_neg hopen, if_pos hbrace,
        (next_append h₂ x).1, if_neg hd, e₃ n x hx (by omega), Option.map_some]
  · have l₂ := (readWord_append (by simp) h []).2
    rw [List.length_cons] at l₂
    refine ⟨by omega, hstep _ (by omega) fun n x hx hn => ?_⟩
    rw [readValue, (next_append h₁ x).1]
    simp only [Option.bind_some, if_neg hmark, if_neg hopen, if_neg hbrace, if_pos hnull]
    exact (readWord_append (by simp) h x).1
  · have l₂ := (readWord_append (by simp) h []).2
    rw [List.length_cons] at l₂
    refine ⟨by omega, hstep _ (by omega) fun n x hx hn => ?_⟩
    rw [readValue, (next_append h₁ x).1]
    simp only [Option.bind_some, if_neg hmark, if_neg hopen, if_neg hbrace, if_neg hnull,
      if_pos htrue]
    exact (readWord_append (by simp) h x).1
  · have l₂ := (readWord_append (by simp) h []).2
    rw [List.length_cons] at l₂
    refine ⟨by omega, hstep _ (by omega) fun n x hx hn => ?_⟩
    rw [readValue, (next_append h₁ x).1]
    simp only [Option.bind_some, if_neg hmark, if_neg hopen, if_neg hbrace, if_neg hnull,
      if_neg htrue, if_pos hfalse]
    exact (readWord_append (by simp) h x).1
  · simp only [Option.map_eq_some_iff, Prod.exists, Prod.mk.injEq] at h
    obtain ⟨y, r₂, h₂, rfl, rfl⟩ := h
    have hnil : Breaks [] := fun c hc => (by cases hc)
    have l₂ := (readNumber_append hnil h₂).2
    rw [List.length_cons] at l₂
    refine ⟨by omega, hstep _ (by omega) fun n x hx hn => ?_⟩
    have e₂ := (readNumber_append hx h₂).1
    rw [List.cons_append] at e₂
    rw [readValue, (next_append h₁ x).1]
    simp only [Option.bind_some, if_neg hmark, if_neg hopen, if_neg hbrace, if_neg hnull,
      if_neg htrue, if_neg hfalse, e₂, Option.map_some]

theorem local_readers (m : ℕ) : Local readValue m ∧ Local readItems m ∧ Local readMembers m := by
  induction m with
  | zero =>
      have hnone : ∀ {α : Type} (read : ℕ → List Char → Option (α × List Char)),
          (∀ cs, read 0 cs = none) → Local read 0 := by
        intro α read hzero cs v rest h
        rw [hzero] at h
        cases h
      exact ⟨hnone _ fun _ => rfl, hnone _ fun _ => rfl, hnone _ fun _ => rfl⟩
  | succ m ih =>
      obtain ⟨ihValue, ihItems, ihMembers⟩ := ih
      exact ⟨local_value ihItems ihMembers, local_items ihValue ihItems,
        local_members ihValue ihMembers⟩

/-- More fuel than a document has signs changes nothing. -/
theorem parse_of_readValue {m : ℕ} {v : JsonValue} (h : readValue m cs = some (v, rest))
    (hrest : skip rest = []) : parse cs = some v := by
  have hread := ((local_readers m).1 _ _ _ h).2 cs.length [] (fun c hc => (by cases hc)) (by omega)
  rw [List.append_nil, List.append_nil] at hread
  rw [parse, hread]
  simp [hrest]

/-- No document goes on in the next line with anything but white space. -/
theorem parse_line {v w : JsonValue} (h : parse cs = some v)
    (hline : parse (cs ++ '\n' :: x) = some w) : skip x = [] := by
  unfold parse at h hline
  obtain ⟨⟨v', r₁⟩, h₁, h⟩ := Option.bind_eq_some_iff.mp h
  obtain ⟨⟨w', r₂⟩, h₂, hline⟩ := Option.bind_eq_some_iff.mp hline
  dsimp only at h hline
  split_ifs at h with hv
  split_ifs at hline with hw
  have hbreak : Breaks ('\n' :: x) := fun c hc => (Option.some.inj hc).symm
  have hread := ((local_readers _).1 _ _ _ h₁).2 (cs ++ '\n' :: x).length _ hbreak
    (by simp only [List.length_append]; omega)
  rw [h₂] at hread
  obtain ⟨-, rfl⟩ := Prod.mk.inj (Option.some.inj hread)
  have hdrop : skip (r₁ ++ '\n' :: x) = skip x := by
    unfold skip at hv ⊢
    rw [List.dropWhile_append, hv]
    rfl
  rw [← hdrop, hw]

end append

end DayfiBackend.Found.JsonReader
