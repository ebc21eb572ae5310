import DayfiBackend.Found.Keys

/-!
# Flat JSON documents

Objects whose values are texts and whole numbers: what `JSON.stringify` writes for them, and what
`JSON.parse` reads (`parse_stringify`). The reader takes spaces between tokens and every escape;
documents of another shape are refused.
-/

namespace DayfiBackend.Found.Json

open DayfiBackend.Found.Keys

/-- A value of a flat document. -/
inductive Value where
  | text (s : String)
  | number (n : ℕ)
  deriving DecidableEq, Repr

/-- The members of an object, in order. -/
abbrev Members := List (String × Value)

/-- The value of a member; of two with one name the last. -/
def field (ms : Members) (name : String) : Option Value :=
  (ms.reverse.find? (·.1 = name)).map (·.2)

/-! ### Signs -/

/-- The quotation mark. -/
def mark : Char := Char.ofNat 34

/-- The backslash. -/
def backslash : Char := Char.ofNat 92

/-- The braces of an object. -/
def opening : Char := Char.ofNat 0x7B

@[inherit_doc opening]
def closing : Char := Char.ofNat 0x7D

/-- A hexadecimal digit. -/
def hexDigit (n : ℕ) : Char := if n < 10 then Char.ofNat (48 + n) else Char.ofNat (87 + n)

/-- The value of a hexadecimal digit. -/
def hexValue (c : Char) : Option ℕ :=
  if 48 ≤ c.toNat ∧ c.toNat ≤ 57 then some (c.toNat - 48)
  else if 97 ≤ c.toNat ∧ c.toNat ≤ 102 then some (c.toNat - 87)
  else if 65 ≤ c.toNat ∧ c.toNat ≤ 70 then some (c.toNat - 55)
  else none

/-! ### Writing -/

/-- A character inside quotation marks. -/
def escape (c : Char) : List Char :=
  if c = mark then [backslash, mark]
  else if c = backslash then [backslash, backslash]
  else if c.toNat = 8 then [backslash, 'b']
  else if c.toNat = 9 then [backslash, 't']
  else if c.toNat = 10 then [backslash, 'n']
  else if c.toNat = 12 then [backslash, 'f']
  else if c.toNat = 13 then [backslash, 'r']
  else if c.toNat < 32 then
    [backslash, 'u', '0', '0', hexDigit (c.toNat / 16), hexDigit (c.toNat % 16)]
  else [c]

/-- A text in quotation marks. -/
def quote (s : String) : List Char := mark :: (s.toList.flatMap escape ++ [mark])

/-- A value. -/
def printValue : Value → List Char
  | .text s => quote s
  | .number n => (toString n).toList

/-- A member. -/
def printMember (m : String × Value) : List Char := quote m.1 ++ ':' :: printValue m.2

/-- The members of an object, and the brace that closes it. -/
def printMembers : Members → List Char
  | [] => [closing]
  | [m] => printMember m ++ [closing]
  | m :: ms => printMember m ++ ',' :: printMembers ms

/-- `JSON.stringify` of an object. -/
def stringify (ms : Members) : String := String.ofList (opening :: printMembers ms)

/-! ### Reading -/

/-- The white space between tokens. -/
def isBlank (c : Char) : Bool := c.toNat ∈ [9, 10, 13, 32]

/-- Skip white space. -/
def skip (cs : List Char) : List Char := cs.dropWhile isBlank

/-- Four hexadecimal digits. -/
def readUnit : List Char → Option (ℕ × List Char)
  | a :: b :: c :: d :: rest =>
      match hexValue a, hexValue b, hexValue c, hexValue d with
      | some a, some b, some c, some d => some (((a * 16 + b) * 16 + c) * 16 + d, rest)
      | _, _, _, _ => none
  | _ => none

/-- The character of a code unit; the first of a pair takes the second with it, and half a pair is
a replacement character. -/
def readUnicode (cs : List Char) : Option (Char × List Char) :=
  match readUnit cs with
  | none => none
  | some (u, rest) =>
      if 0xD800 ≤ u ∧ u < 0xDC00 then
        match rest with
        | x :: y :: more =>
            match (if x = backslash ∧ y = 'u' then readUnit more else none) with
            | some (v, after) =>
                if 0xDC00 ≤ v ∧ v < 0xE000 then
                  some (Char.ofNat (0x10000 + (u - 0xD800) * 1024 + (v - 0xDC00)), after)
                else some (Char.ofNat 0xFFFD, rest)
            | none => some (Char.ofNat 0xFFFD, rest)
        | _ => some (Char.ofNat 0xFFFD, rest)
      else if 0xDC00 ≤ u ∧ u < 0xE000 then some (Char.ofNat 0xFFFD, rest)
      else some (Char.ofNat u, rest)

/-- What follows a backslash. -/
def readEscape : List Char → Option (Char × List Char)
  | [] => none
  | c :: cs =>
      if c = mark ∨ c = backslash ∨ c = '/' then some (c, cs)
      else if c = 'b' then some (Char.ofNat 8, cs)
      else if c = 't' then some (Char.ofNat 9, cs)
      else if c = 'n' then some (Char.ofNat 10, cs)
      else if c = 'f' then some (Char.ofNat 12, cs)
      else if c = 'r' then some (Char.ofNat 13, cs)
      else if c = 'u' then readUnicode cs
      else none

/-- The rest of a text, up to its closing quotation mark; `n` bounds its length. -/
def readChars : ℕ → List Char → Option (List Char × List Char)
  | 0, _ => none
  | _ + 1, [] => none
  | n + 1, c :: cs =>
      if c = mark then some ([], cs)
      else if c = backslash then
        match readEscape cs with
        | none => none
        | some (d, rest) => (readChars n rest).map fun r => (d :: r.1, r.2)
      else if c.toNat < 32 then none
      else (readChars n cs).map fun r => (c :: r.1, r.2)

/-- A text in quotation marks. -/
def readText : List Char → Option (String × List Char)
  | [] => none
  | c :: cs =>
      if c = mark then (readChars cs.length cs).map fun r => (String.ofList r.1, r.2) else none

/-- A whole number, without zeros in front. -/
def readNumber (cs : List Char) : Option (ℕ × List Char) :=
  let digits := cs.takeWhile Char.isDigit
  let n := Nat.ofDigitChars 10 digits 0
  if digits = (toString n).toList then some (n, cs.dropWhile Char.isDigit) else none

/-- A value. -/
def readValue (cs : List Char) : Option (Value × List Char) :=
  match readText cs with
  | some (s, rest) => some (.text s, rest)
  | none => (readNumber cs).map fun r => (.number r.1, r.2)

/-- A member. -/
def readMember (cs : List Char) : Option ((String × Value) × List Char) :=
  match readText (skip cs) with
  | none => none
  | some (name, rest) =>
      match skip rest with
      | [] => none
      | c :: rest =>
          if c = ':' then (readValue (skip rest)).map fun r => ((name, r.1), r.2) else none

/-- Members up to the closing brace; `n` bounds their number. -/
def readMembers : ℕ → List Char → Option (Members × List Char)
  | 0, _ => none
  | n + 1, cs =>
      match readMember cs with
      | none => none
      | some (m, rest) =>
          match skip rest with
          | [] => none
          | c :: rest =>
              if c = ',' then (readMembers n rest).map fun r => (m :: r.1, r.2)
              else if c = closing then some ([m], rest)
              else none

/-- The members after the opening brace. -/
def readObject (cs : List Char) : Option (Members × List Char) :=
  match skip cs with
  | [] => none
  | c :: rest => if c = closing then some ([], rest) else readMembers cs.length cs

/-- `JSON.parse` of a flat document. -/
def parse (s : String) : Option Members :=
  match skip s.toList with
  | [] => none
  | c :: cs =>
      if c = opening then
        match readObject cs with
        | some (ms, rest) => if skip rest = [] then some ms else none
        | none => none
      else none

/-! ### Reading what was written -/

theorem hexValue_hexDigit : ∀ k < 16, hexValue (hexDigit k) = some k := by
  decide

theorem readChars_cons (n : ℕ) (c : Char) (cs : List Char) :
    readChars (n + 1) (c :: cs) =
      if c = mark then some ([], cs)
      else if c = backslash then
        match readEscape cs with
        | none => none
        | some (d, rest) => (readChars n rest).map fun r => (d :: r.1, r.2)
      else if c.toNat < 32 then none
      else (readChars n cs).map fun r => (c :: r.1, r.2) := rfl

/-- A character is read back from inside quotation marks. -/
theorem readChars_escape (c : Char) (rest : List Char) (n : ℕ) :
    readChars (n + 1) (escape c ++ rest) = (readChars n rest).map fun r => (c :: r.1, r.2) := by
  have hchar : ∀ k, c.toNat = k → Char.ofNat k = c := by
    rintro _ rfl
    exact Char.ofNat_toNat c
  have hslash : ∀ d cs, readEscape d = some (c, cs) →
      readChars (n + 1) (backslash :: d) = (readChars n cs).map fun r => (c :: r.1, r.2) := by
    intro d cs hd
    rw [readChars_cons, if_neg (by decide), if_pos rfl, hd]
  unfold escape
  split_ifs with h1 h2 h3 h4 h5 h6 h7 h8
  · refine hslash (mark :: rest) rest ?_
    rw [h1]
    rfl
  · refine hslash (backslash :: rest) rest ?_
    rw [h2]
    rfl
  · refine hslash ('b' :: rest) rest ?_
    rw [← hchar 8 h3]
    rfl
  · refine hslash ('t' :: rest) rest ?_
    rw [← hchar 9 h4]
    rfl
  · refine hslash ('n' :: rest) rest ?_
    rw [← hchar 10 h5]
    rfl
  · refine hslash ('f' :: rest) rest ?_
    rw [← hchar 12 h6]
    rfl
  · refine hslash ('r' :: rest) rest ?_
    rw [← hchar 13 h7]
    rfl
  · refine hslash ('u' :: '0' :: '0' :: hexDigit (c.toNat / 16) :: hexDigit (c.toNat % 16) :: rest)
      rest ?_
    have hzero : hexValue '0' = some 0 := by decide
    have hunit : readUnit ('0' :: '0' :: hexDigit (c.toNat / 16) ::
        hexDigit (c.toNat % 16) :: rest) = some (c.toNat, rest) := by
      unfold readUnit
      dsimp only
      rw [hzero, hexValue_hexDigit _ (by omega), hexValue_hexDigit _ (by omega)]
      simp only [Option.some.injEq, Prod.mk.injEq, and_true]
      omega
    have hescape : readEscape ('u' :: '0' :: '0' :: hexDigit (c.toNat / 16) ::
        hexDigit (c.toNat % 16) :: rest) =
          readUnicode ('0' :: '0' :: hexDigit (c.toNat / 16) ::
            hexDigit (c.toNat % 16) :: rest) := rfl
    rw [hescape]
    unfold readUnicode
    rw [hunit]
    dsimp only
    rw [if_neg (by omega), if_neg (by omega), Char.ofNat_toNat]
  · rw [List.cons_append, List.nil_append, readChars_cons, if_neg h1, if_neg h2, if_neg h8]

theorem readChars_flatMap (cs : List Char) (rest : List Char) {n : ℕ} (hn : cs.length < n) :
    readChars n (cs.flatMap escape ++ mark :: rest) = some (cs, rest) := by
  induction cs generalizing n with
  | nil =>
      obtain ⟨n, rfl⟩ : ∃ m, n = m + 1 := ⟨n - 1, by simp at hn; omega⟩
      rw [List.flatMap_nil, List.nil_append, readChars_cons, if_pos rfl]
  | cons c cs ih =>
      obtain ⟨n, rfl⟩ : ∃ m, n = m + 1 := ⟨n - 1, by simp at hn; omega⟩
      rw [List.flatMap_cons, List.append_assoc, readChars_escape,
        ih (Nat.lt_of_succ_lt_succ hn)]
      rfl

theorem length_le_flatMap_escape (cs : List Char) : cs.length ≤ (cs.flatMap escape).length := by
  have hpos : ∀ c, 1 ≤ (escape c).length := by
    intro c
    unfold escape
    split_ifs <;> simp
  induction cs with
  | nil => simp
  | cons c cs ih =>
      rw [List.flatMap_cons, List.length_append, List.length_cons]
      have := hpos c
      omega

/-- A text is read back from its quotation. -/
theorem readText_quote (s : String) (rest : List Char) :
    readText (quote s ++ rest) = some (s, rest) := by
  have hlen := length_le_flatMap_escape s.toList
  have hchars := readChars_flatMap s.toList rest
    (n := (s.toList.flatMap escape ++ mark :: rest).length) (by
      rw [List.length_append, List.length_cons]
      omega)
  have hquote : quote s ++ rest = mark :: (s.toList.flatMap escape ++ mark :: rest) := by
    simp [quote]
  rw [hquote]
  unfold readText
  dsimp only
  rw [if_pos rfl, hchars, Option.map_some, String.ofList_toList]

/-- A number is read back when no digit follows it. -/
theorem readNumber_toString (n : ℕ) {rest : List Char}
    (hrest : rest.head?.all (fun c => !c.isDigit) = true) :
    readNumber ((toString n).toList ++ rest) = some (n, rest) := by
  have hall : ∀ c ∈ (toString n).toList, c.isDigit = true := fun _ hc => isDigit_of_mem_toString hc
  have htake : rest.takeWhile Char.isDigit = [] := by
    cases rest with
    | nil => rfl
    | cons c cs => rw [List.takeWhile_cons_of_neg (by simpa using hrest)]
  have hdrop : rest.dropWhile Char.isDigit = rest := by
    cases rest with
    | nil => rfl
    | cons c cs => rw [List.dropWhile_cons_of_neg (by simpa using hrest)]
  unfold readNumber
  rw [List.takeWhile_append_of_pos hall, htake, List.append_nil,
    List.dropWhile_append_of_pos hall, hdrop]
  dsimp only
  rw [ofDigitChars_toString, if_pos rfl]

theorem skip_cons {c : Char} (h : isBlank c = false) (cs : List Char) :
    skip (c :: cs) = c :: cs := by
  unfold skip
  rw [List.dropWhile_cons_of_neg (by simp [h])]

theorem isBlank_of_isDigit {c : Char} (h : c.isDigit = true) : isBlank c = false := by
  have hlo : 48 ≤ c.toNat ∧ c.toNat ≤ 57 := by
    simpa [Char.isDigit, Char.le_def, UInt32.le_iff_toNat_le] using h
  unfold isBlank
  simp
  omega

/-- A value is read back, and does not begin with white space. -/
theorem readValue_printValue (v : Value) {rest : List Char}
    (hrest : rest.head?.all (fun c => !c.isDigit) = true) :
    readValue (skip (printValue v ++ rest)) = some (v, rest) := by
  cases v with
  | text s =>
      have hskip : skip (quote s ++ rest) = quote s ++ rest := skip_cons (by decide) _
      unfold printValue readValue
      rw [hskip, readText_quote]
  | number n =>
      unfold printValue
      cases hdigits : (toString n).toList with
      | nil => exact absurd hdigits (toList_toString_ne_nil n)
      | cons c cs =>
          have hc : c.isDigit = true := isDigit_of_mem_toString (by rw [hdigits]; simp)
          have hmark : c ≠ mark := by
            rintro rfl
            exact absurd hc (by decide)
          have hnumber := readNumber_toString n hrest
          rw [hdigits, List.cons_append] at hnumber
          dsimp only
          rw [hdigits, List.cons_append, skip_cons (isBlank_of_isDigit hc)]
          unfold readValue readText
          dsimp only
          rw [if_neg hmark]
          simp only [hnumber, Option.map_some]

theorem readMember_printMember (m : String × Value) {rest : List Char}
    (hrest : rest.head?.all (fun c => !c.isDigit) = true) :
    readMember (printMember m ++ rest) = some (m, rest) := by
  unfold printMember readMember
  have hskip : skip (quote m.1 ++ ':' :: printValue m.2 ++ rest) =
      quote m.1 ++ (':' :: (printValue m.2 ++ rest)) := by
    rw [List.append_assoc, List.cons_append]
    exact skip_cons (by decide) _
  rw [hskip, readText_quote]
  dsimp only
  rw [skip_cons (by decide)]
  dsimp only
  rw [if_pos rfl, readValue_printValue m.2 hrest, Option.map_some]

theorem readMembers_printMembers {ms : Members} (hms : ms ≠ []) (rest : List Char) {n : ℕ}
    (hn : ms.length ≤ n) : readMembers n (printMembers ms ++ rest) = some (ms, rest) := by
  induction ms generalizing n with
  | nil => exact absurd rfl hms
  | cons m ms ih =>
      obtain ⟨n, rfl⟩ : ∃ k, n = k + 1 := ⟨n - 1, by simp at hn; omega⟩
      cases ms with
      | nil =>
          unfold printMembers readMembers
          rw [List.append_assoc, readMember_printMember m (by rfl)]
          dsimp only [List.cons_append, List.nil_append]
          rw [skip_cons (by decide)]
          dsimp only
          rw [if_neg (by decide), if_pos rfl]
      | cons m' ms =>
          unfold printMembers readMembers
          rw [List.append_assoc, readMember_printMember m (by rfl)]
          dsimp only [List.cons_append]
          rw [skip_cons (by decide)]
          dsimp only
          rw [if_pos rfl, ih (by simp) (Nat.le_of_succ_le_succ hn)]
          rfl

theorem length_le_printMembers (ms : Members) : ms.length ≤ (printMembers ms).length := by
  induction ms with
  | nil => simp
  | cons m ms ih =>
      cases ms with
      | nil => simp [printMembers]
      | cons m' ms =>
          unfold printMembers
          simp only [List.length_append, List.length_cons] at ih ⊢
          omega

/-- **What was written is read back.** -/
@[simp] theorem parse_stringify (ms : Members) : parse (stringify ms) = some ms := by
  unfold stringify parse
  rw [String.toList_ofList, skip_cons (by decide)]
  dsimp only
  rw [if_pos rfl]
  cases ms with
  | nil => rfl
  | cons m ms =>
      have hlen := length_le_printMembers (m :: ms)
      have hread := readMembers_printMembers (List.cons_ne_nil m ms) [] hlen
      rw [List.append_nil] at hread
      obtain ⟨cs, hcs⟩ : ∃ cs, printMembers (m :: ms) = mark :: cs := by
        cases ms with
        | nil => exact ⟨_, rfl⟩
        | cons m' ms => exact ⟨_, rfl⟩
      unfold readObject
      rw [hcs, skip_cons (by decide)]
      dsimp only
      rw [if_neg (by decide), ← hcs, hread]
      rfl

theorem stringify_inj {ms ms' : Members} (h : stringify ms = stringify ms') : ms = ms' := by
  have hparse := congrArg parse h
  rw [parse_stringify, parse_stringify] at hparse
  exact Option.some.inj hparse

end DayfiBackend.Found.Json
