import Mathlib.Data.List.Basic
import Mathlib.Data.Nat.Notation
import Mathlib.Tactic.Common

/-!
# Texts as bytes, and bytes as base64url

`utf8` and `ofUtf8` go from texts to bytes and back; `ofUtf8` reads any bytes, putting a
replacement character for what is ill-formed. `encodeUrl` writes bytes as base64 with the URL
alphabet and without padding; `decodeUrl` reads it back (`decodeUrl_encodeUrl`, for any bytes).
-/

namespace DayfiBackend.Found.Base64

/-! ### UTF-8 -/

/-- The bytes of a text. -/
def utf8 (s : String) : List UInt8 := s.toList.flatMap String.utf8EncodeChar

/-- What a first byte says: the bits it carries, how many bytes follow, and the bounds of the next
one; `none` when no sequence begins with it. -/
def leadByte (b : ℕ) : Option (ℕ × ℕ × ℕ × ℕ) :=
  if b < 0x80 then some (b, 0, 0x80, 0xBF)
  else if b < 0xC2 then none
  else if b < 0xE0 then some (b - 0xC0, 1, 0x80, 0xBF)
  else if b = 0xE0 then some (0, 2, 0xA0, 0xBF)
  else if b = 0xED then some (0xD, 2, 0x80, 0x9F)
  else if b < 0xF0 then some (b - 0xE0, 2, 0x80, 0xBF)
  else if b = 0xF0 then some (0, 3, 0x90, 0xBF)
  else if b < 0xF4 then some (b - 0xF0, 3, 0x80, 0xBF)
  else if b = 0xF4 then some (4, 3, 0x80, 0x8F)
  else none

/-- The character of a sequence begun, and the bytes after it; a sequence that breaks off is one
replacement character. -/
def continueChar (bits : ℕ) : ℕ → ℕ → ℕ → List UInt8 → Char × List UInt8
  | 0, _, _, bs => (Char.ofNat bits, bs)
  | _ + 1, _, _, [] => (Char.ofNat 0xFFFD, [])
  | n + 1, lo, hi, b :: bs =>
      if lo ≤ b.toNat ∧ b.toNat ≤ hi then
        continueChar (bits * 64 + b.toNat % 64) n 0x80 0xBF bs
      else (Char.ofNat 0xFFFD, b :: bs)

/-- The first character of some bytes, and the bytes after it. -/
def nextChar (b : UInt8) (bs : List UInt8) : Char × List UInt8 :=
  match leadByte b.toNat with
  | none => (Char.ofNat 0xFFFD, bs)
  | some (bits, n, lo, hi) => continueChar bits n lo hi bs

theorem length_continueChar (bits n lo hi : ℕ) (bs : List UInt8) :
    (continueChar bits n lo hi bs).2.length ≤ bs.length := by
  induction n generalizing bits lo hi bs with
  | zero => exact Nat.le_refl _
  | succ n ih =>
      cases bs with
      | nil => exact Nat.le_refl _
      | cons b bs =>
          unfold continueChar
          split_ifs
          · exact Nat.le_trans (ih _ _ _ bs) (Nat.le_succ _)
          · exact Nat.le_refl _

/-- The characters of any bytes. -/
def chars : List UInt8 → List Char
  | [] => []
  | b :: bs => (nextChar b bs).1 :: chars (nextChar b bs).2
termination_by bs => bs.length
decreasing_by
  unfold nextChar
  split
  · simp
  · exact Nat.lt_succ_of_le (length_continueChar _ _ _ _ _)

/-- The text of any bytes. -/
def ofUtf8 (bs : List UInt8) : String := String.ofList (chars bs)

theorem leadByte_two : ∀ k < 32, leadByte (k + 192) =
    if k < 2 then none else some (k, 1, 0x80, 0xBF) := by
  decide

theorem leadByte_three : ∀ k < 16, leadByte (k + 224) =
    some (k, 2, if k = 0 then 0xA0 else 0x80, if k = 13 then 0x9F else 0xBF) := by
  decide

theorem leadByte_four : ∀ k < 5, leadByte (k + 240) =
    some (k, 3, if k = 0 then 0x90 else 0x80, if k = 4 then 0x8F else 0xBF) := by
  decide

theorem toNat_ofNat_byte {n : ℕ} (hn : n < 256) : (UInt8.ofNat n).toNat = n := by
  rw [UInt8.toNat_ofNat', Nat.mod_eq_of_lt hn]

/-- A byte that continues a sequence. -/
theorem continueChar_byte {bits n lo hi k : ℕ} {bs : List UInt8} (hk : k < 64)
    (hlo : lo ≤ k + 128) (hhi : k + 128 ≤ hi) :
    continueChar bits (n + 1) lo hi (UInt8.ofNat (k + 128) :: bs) =
      continueChar (bits * 64 + k) n 0x80 0xBF bs := by
  have hbyte : (UInt8.ofNat (k + 128)).toNat = k + 128 := toNat_ofNat_byte (by omega)
  conv_lhs => unfold continueChar
  rw [hbyte, if_pos ⟨hlo, hhi⟩]
  congr 1
  omega

theorem nextChar_of_lead {k n lo hi b : ℕ} {bs : List UInt8} (hb : b < 256)
    (h : leadByte b = some (k, n, lo, hi)) :
    nextChar (UInt8.ofNat b) bs = continueChar k n lo hi bs := by
  unfold nextChar
  rw [toNat_ofNat_byte hb, h]

/-- The bytes of a character are read back as it. -/
theorem nextChar_utf8EncodeChar (c : Char) (rest : List UInt8) :
    ∃ b bs, String.utf8EncodeChar c ++ rest = b :: bs ∧ nextChar b bs = (c, rest) := by
  have hvalid : c.val.toNat < 0xD800 ∨ 0xDFFF < c.val.toNat ∧ c.val.toNat < 0x110000 := c.valid
  have hchar : Char.ofNat c.val.toNat = c := Char.ofNat_toNat c
  unfold String.utf8EncodeChar
  dsimp only
  generalize c.val.toNat = v at *
  split_ifs with h1 h2 h3
  · refine ⟨UInt8.ofNat v, rest, rfl, ?_⟩
    have hlead : leadByte v = some (v, 0, 0x80, 0xBF) := by
      unfold leadByte
      rw [if_pos (by omega)]
    rw [nextChar_of_lead (by omega) hlead]
    simp only [continueChar, hchar]
  · refine ⟨_, _, rfl, ?_⟩
    rw [nextChar_of_lead (by omega) ((leadByte_two _ (by omega)).trans (if_neg (by omega)))]
    rw [List.append_eq, List.cons_append, List.nil_append,
      continueChar_byte (by omega) (by omega) (by omega)]
    unfold continueChar
    rw [← hchar]
    congr 2
    omega
  · refine ⟨_, _, rfl, ?_⟩
    rw [nextChar_of_lead (by omega) (leadByte_three _ (by omega))]
    rw [List.append_eq, List.cons_append, List.cons_append, List.nil_append,
      continueChar_byte (by omega) (by split_ifs <;> omega) (by split_ifs <;> omega),
      continueChar_byte (by omega) (by omega) (by omega)]
    unfold continueChar
    rw [← hchar]
    congr 2
    omega
  · refine ⟨_, _, rfl, ?_⟩
    have hlead : v / 262144 % 8 < 5 := by omega
    rw [nextChar_of_lead (by omega) (leadByte_four _ hlead)]
    rw [List.append_eq, List.cons_append, List.cons_append, List.cons_append, List.nil_append,
      continueChar_byte (by omega) (by split_ifs <;> omega) (by split_ifs <;> omega),
      continueChar_byte (by omega) (by omega) (by omega),
      continueChar_byte (by omega) (by omega) (by omega)]
    unfold continueChar
    rw [← hchar]
    congr 2
    omega

/-- A text is read back from its bytes. -/
@[simp] theorem ofUtf8_utf8 (s : String) : ofUtf8 (utf8 s) = s := by
  have hchars : ∀ cs : List Char, chars (cs.flatMap String.utf8EncodeChar) = cs := by
    intro cs
    induction cs with
    | nil => simp [chars]
    | cons c cs ih =>
        obtain ⟨b, bs, hbytes, hnext⟩ :=
          nextChar_utf8EncodeChar c (cs.flatMap String.utf8EncodeChar)
        rw [List.flatMap_cons, hbytes, chars, hnext, ih]
  unfold ofUtf8 utf8
  rw [hchars, String.ofList_toList]

theorem utf8_inj {s t : String} (h : utf8 s = utf8 t) : s = t := by
  rw [← ofUtf8_utf8 s, h, ofUtf8_utf8]

theorem utf8_ne_nil {s : String} (hs : s ≠ "") : utf8 s ≠ [] := fun h => hs (utf8_inj h)

/-! ### Base64 -/

/-- A digit of the standard alphabet. -/
def digit (n : ℕ) : Char :=
  if n < 26 then Char.ofNat (65 + n)
  else if n < 52 then Char.ofNat (71 + n)
  else if n < 62 then Char.ofNat (n - 4)
  else if n = 62 then '+'
  else '/'

/-- The value of a digit of either alphabet. -/
def value (c : Char) : Option ℕ :=
  if 65 ≤ c.toNat ∧ c.toNat ≤ 90 then some (c.toNat - 65)
  else if 97 ≤ c.toNat ∧ c.toNat ≤ 122 then some (c.toNat - 71)
  else if 48 ≤ c.toNat ∧ c.toNat ≤ 57 then some (c.toNat + 4)
  else if c = '+' ∨ c = '-' then some 62
  else if c = '/' ∨ c = '_' then some 63
  else none

/-- `buffer.toString('base64')`. -/
def encode : List UInt8 → List Char
  | a :: b :: c :: rest =>
      digit (a.toNat / 4) :: digit (a.toNat % 4 * 16 + b.toNat / 16) ::
        digit (b.toNat % 16 * 4 + c.toNat / 64) :: digit (c.toNat % 64) :: encode rest
  | [a, b] =>
      [digit (a.toNat / 4), digit (a.toNat % 4 * 16 + b.toNat / 16), digit (b.toNat % 16 * 4), '=']
  | [a] => [digit (a.toNat / 4), digit (a.toNat % 4 * 16), '=', '=']
  | [] => []

/-- The bytes of digits; what is left of less than a byte is dropped. -/
def bytes : List ℕ → List UInt8
  | a :: b :: c :: d :: rest =>
      UInt8.ofNat (a * 4 + b / 16) :: UInt8.ofNat (b % 16 * 16 + c / 4) ::
        UInt8.ofNat (c % 4 * 64 + d) :: bytes rest
  | [a, b, c] => [UInt8.ofNat (a * 4 + b / 16), UInt8.ofNat (b % 16 * 16 + c / 4)]
  | [a, b] => [UInt8.ofNat (a * 4 + b / 16)]
  | _ => []

/-- `Buffer.from(text, 'base64')`: what is no digit is passed over. -/
def decode (cs : List Char) : List UInt8 := bytes (cs.filterMap value)

/-- A digit in the URL alphabet. -/
def toUrl (c : Char) : Char := if c = '+' then '-' else if c = '/' then '_' else c

/-- A digit back in the standard alphabet. -/
def ofUrl (c : Char) : Char := if c = '-' then '+' else if c = '_' then '/' else c

/-- Base64url without padding. -/
def encodeUrl (bs : List UInt8) : String :=
  String.ofList (((encode bs).map toUrl).reverse.dropWhile (· = '=')).reverse

/-- Base64url, padded again and read. -/
def decodeUrl (s : String) : List UInt8 :=
  let padded := s.toList.map ofUrl
  decode (padded ++
    if padded.length % 4 = 0 then [] else List.replicate (4 - padded.length % 4) '=')

theorem value_digit : ∀ n < 64, value (digit n) = some n := by
  decide

theorem ofNat_eq_of_toNat {b : UInt8} {n : ℕ} (h : n = b.toNat) : UInt8.ofNat n = b := by
  rw [h, UInt8.ofNat_toNat]

/-- Bytes are read back from their digits. -/
theorem decode_encode (bs : List UInt8) : decode (encode bs) = bs := by
  have hlt : ∀ b : UInt8, b.toNat < 256 := fun b => b.toNat_lt
  unfold decode
  fun_induction encode bs with
  | case1 a b c rest ih =>
      have ha := hlt a
      have hb := hlt b
      have hc := hlt c
      simp only [List.filterMap_cons, value_digit (a.toNat / 4) (by omega),
        value_digit (a.toNat % 4 * 16 + b.toNat / 16) (by omega),
        value_digit (b.toNat % 16 * 4 + c.toNat / 64) (by omega),
        value_digit (c.toNat % 64) (by omega), bytes, ih]
      congr 1
      · exact ofNat_eq_of_toNat (by omega)
      · congr 1
        · exact ofNat_eq_of_toNat (by omega)
        · congr 1
          exact ofNat_eq_of_toNat (by omega)
  | case2 a b =>
      have ha := hlt a
      have hb := hlt b
      have hpad : value '=' = none := by decide
      simp only [List.filterMap_cons, value_digit (a.toNat / 4) (by omega),
        value_digit (a.toNat % 4 * 16 + b.toNat / 16) (by omega),
        value_digit (b.toNat % 16 * 4) (by omega), hpad, List.filterMap_nil, bytes]
      congr 1
      · exact ofNat_eq_of_toNat (by omega)
      · congr 1
        exact ofNat_eq_of_toNat (by omega)
  | case3 a =>
      have ha := hlt a
      have hpad : value '=' = none := by decide
      simp only [List.filterMap_cons, value_digit (a.toNat / 4) (by omega),
        value_digit (a.toNat % 4 * 16) (by omega), hpad, List.filterMap_nil, bytes]
      congr 1
      exact ofNat_eq_of_toNat (by omega)
  | case4 => rfl

theorem value_ofUrl_toUrl (c : Char) : value (ofUrl (toUrl c)) = value c := by
  unfold toUrl
  split_ifs with h1 h2
  · subst h1
    rfl
  · subst h2
    rfl
  · unfold ofUrl
    split_ifs with h3 h4
    · subst h3
      rfl
    · subst h4
      rfl
    · rfl

/-- What has no value may be dropped at the end. -/
theorem filterMap_dropEnd {α β : Type} {f : α → Option β} {p : α → Bool}
    (h : ∀ a, p a = true → f a = none) (l : List α) :
    (l.reverse.dropWhile p).reverse.filterMap f = l.filterMap f := by
  have hdrop : ∀ l : List α, (l.dropWhile p).filterMap f = l.filterMap f := by
    intro l
    induction l with
    | nil => rfl
    | cons a l ih =>
        by_cases ha : p a = true
        · rw [List.dropWhile_cons_of_pos ha, ih, List.filterMap_cons, h a ha]
        · rw [List.dropWhile_cons_of_neg ha]
  rw [List.filterMap_reverse, hdrop, List.filterMap_reverse, List.reverse_reverse]

/-- **Base64url round-trips for any bytes.** -/
@[simp] theorem decodeUrl_encodeUrl (bs : List UInt8) : decodeUrl (encodeUrl bs) = bs := by
  have hpad : ∀ l : List Char, ∀ n, decode (l ++ if l.length % 4 = 0 then []
      else List.replicate n '=') = decode l := by
    intro l n
    have hnone : (List.replicate n '=').filterMap value = [] := by
      refine List.filterMap_eq_nil_iff.mpr fun c hc => ?_
      rw [List.eq_of_mem_replicate hc]
      decide
    unfold decode
    split_ifs
    · rw [List.append_nil]
    · rw [List.filterMap_append, hnone, List.append_nil]
  unfold decodeUrl
  dsimp only
  rw [hpad]
  conv_rhs => rw [← decode_encode bs]
  unfold decode encodeUrl
  rw [String.toList_ofList, List.filterMap_map]
  rw [filterMap_dropEnd (f := value ∘ ofUrl) (p := fun c => decide (c = '=')) (fun c hc => by
    rw [decide_eq_true_eq] at hc
    subst hc
    decide), List.filterMap_map]
  congr 2
  funext c
  exact value_ofUrl_toUrl c

theorem encodeUrl_inj {a b : List UInt8} (h : encodeUrl a = encodeUrl b) : a = b := by
  rw [← decodeUrl_encodeUrl a, h, decodeUrl_encodeUrl]

theorem encodeUrl_ne_empty {bs : List UInt8} (h : bs ≠ []) : encodeUrl bs ≠ "" := by
  intro he
  apply h
  rw [← decodeUrl_encodeUrl bs, he]
  rfl

/-- What base64url is written in: digits, with `-` and `_`. -/
theorem mem_encodeUrl {bs : List UInt8} {c : Char} (h : c ∈ (encodeUrl bs).toList) :
    c = '=' ∨ ∃ n < 64, c = toUrl (digit n) := by
  unfold encodeUrl at h
  rw [String.toList_ofList, List.mem_reverse] at h
  have hmem := (List.dropWhile_suffix _).subset h
  rw [List.mem_reverse, List.mem_map] at hmem
  obtain ⟨d, hd, rfl⟩ := hmem
  have hlt : ∀ b : UInt8, b.toNat < 256 := fun b => b.toNat_lt
  have hdigits : ∀ d ∈ encode bs, d = '=' ∨ ∃ n < 64, d = digit n := by
    clear h hd
    fun_induction encode bs with
    | case1 a b c rest ih =>
        have ha := hlt a
        have hb := hlt b
        have hc := hlt c
        intro d hd
        simp only [List.mem_cons] at hd
        rcases hd with rfl | rfl | rfl | rfl | hd
        · exact .inr ⟨_, by omega, rfl⟩
        · exact .inr ⟨_, by omega, rfl⟩
        · exact .inr ⟨_, by omega, rfl⟩
        · exact .inr ⟨_, by omega, rfl⟩
        · exact ih d hd
    | case2 a b =>
        have ha := hlt a
        have hb := hlt b
        intro d hd
        simp only [List.mem_cons, List.not_mem_nil, or_false] at hd
        rcases hd with rfl | rfl | rfl | rfl
        · exact .inr ⟨_, by omega, rfl⟩
        · exact .inr ⟨_, by omega, rfl⟩
        · exact .inr ⟨_, by omega, rfl⟩
        · exact .inl rfl
    | case3 a =>
        have ha := hlt a
        intro d hd
        simp only [List.mem_cons, List.not_mem_nil, or_false] at hd
        rcases hd with rfl | rfl | rfl | rfl
        · exact .inr ⟨_, by omega, rfl⟩
        · exact .inr ⟨_, by omega, rfl⟩
        · exact .inl rfl
        · exact .inl rfl
    | case4 => exact fun d hd => absurd hd List.not_mem_nil
  rcases hdigits d hd with rfl | ⟨n, hn, rfl⟩
  · exact .inl rfl
  · exact .inr ⟨n, hn, rfl⟩

end DayfiBackend.Found.Base64
