import Mathlib.Data.List.Infix
import Mathlib.Data.List.TakeWhile
import Mathlib.Tactic.Common

/-!
# Text keys built from a prefix, an identifier and a suffix

Idempotency keys are texts such as `kind:` ++ id ++ `:step`. Two facts about them are used: the
identifier can be read off a key with known prefix and suffix (`key_inj`), and keys whose
suffixes are not suffixes of one another never coincide (`append_ne_of_not_suffix`). The trimming
of user-supplied keys and the "first non-empty text" default are here too.
-/

namespace DayfiBackend.Found.Keys

/-- One proof for all the places where texts are looked for among texts. -/
instance lawfulBEqText : LawfulBEq (List Char) := inferInstance

theorem isAlpha_iff {c : Char} :
    c.isAlpha = true ↔ 65 ≤ c.toNat ∧ c.toNat ≤ 90 ∨ 97 ≤ c.toNat ∧ c.toNat ≤ 122 := by
  change (decide (65 ≤ c.toNat ∧ c.toNat ≤ 90) ||
    (decide (97 ≤ c.toNat) && decide (c.toNat ≤ 122))) = true ↔ _
  rw [Bool.or_eq_true, Bool.and_eq_true, decide_eq_true_iff, decide_eq_true_iff,
    decide_eq_true_iff]

/-- White space and line terminators, as `String.prototype.trim` removes them. -/
def isSpace (c : Char) : Bool :=
  c.toNat ∈ [0x9, 0xA, 0xB, 0xC, 0xD, 0x20, 0xA0, 0x1680, 0x2028, 0x2029, 0x202F, 0x205F, 0x3000,
    0xFEFF] || (0x2000 ≤ c.toNat && c.toNat ≤ 0x200A)

/-- `String.prototype.trim`. -/
def trim (s : String) : String :=
  String.ofList ((s.toList.dropWhile isSpace).reverse.dropWhile isSpace).reverse

/-- `value || null` on a text: the empty text counts as absent. -/
def orNull (s : Option String) : Option String := s.filter (· ≠ "")

/-- `value || fallback` on a text. -/
def orDefault (s : Option String) (fallback : String) : String := (orNull s).getD fallback

/-- A character in lower case; outside ASCII, the two that come out with an ASCII letter. -/
def lower (c : Char) : List Char :=
  if c = Char.ofNat 0x212A then ['k']
  else if c = Char.ofNat 0x130 then ['i', Char.ofNat 0x307]
  else [c.toLower]

/-- `String.prototype.toLowerCase`, so far as ASCII comes of it. -/
def lowerCase (text : List Char) : List Char := text.flatMap lower

/-- `String.prototype.includes`. -/
def includes (s sub : String) : Bool := decide (sub.toList <:+: s.toList)

/-- `String.prototype.endsWith`. -/
def endsWith (s sub : String) : Bool := decide (sub.toList <:+ s.toList)

/-- `String.prototype.startsWith`. -/
def startsWith (s sub : String) : Bool := decide (sub.toList <+: s.toList)

/-- The identifier of a key with known ends. -/
@[simp] theorem key_inj (p s a b : String) : p ++ a ++ s = p ++ b ++ s ↔ a = b := by
  rw [String.append_left_inj, String.append_right_inj]

/-- Texts ending in suffixes that are not suffixes of one another differ. -/
theorem append_ne_of_not_suffix {s t : String} (hst : ¬ s.toList <:+ t.toList)
    (hts : ¬ t.toList <:+ s.toList) (a b : String) : a ++ s ≠ b ++ t := by
  intro h
  have hl : a.toList ++ s.toList = b.toList ++ t.toList := by
    rw [← String.toList_append, ← String.toList_append, h]
  rcases List.suffix_or_suffix_of_suffix (List.suffix_append a.toList s.toList)
      (hl ▸ List.suffix_append b.toList t.toList) with h' | h'
  · exact hst h'
  · exact hts h'

/-- Texts starting with prefixes that are not prefixes of one another differ. -/
theorem append_ne_append_of_heads {p q : String} (hpq : ¬ p.toList <+: q.toList)
    (hqp : ¬ q.toList <+: p.toList) (a b : String) : p ++ a ≠ q ++ b := by
  intro h
  have hl : p.toList ++ a.toList = q.toList ++ b.toList := by
    rw [← String.toList_append, ← String.toList_append, h]
  rcases List.prefix_or_prefix_of_prefix (List.prefix_append p.toList a.toList)
      (hl ▸ List.prefix_append q.toList b.toList) with h' | h'
  · exact hpq h'
  · exact hqp h'

/-- A number can be read off its decimal text. -/
@[simp] theorem toString_inj {m n : ℕ} : toString m = toString n ↔ m = n := by
  constructor
  · intro h
    have hdigits : Nat.toDigits 10 m = Nat.toDigits 10 n := by
      rw [← Nat.toList_repr, ← Nat.toList_repr]
      exact congrArg String.toList h
    rw [← Nat.ofDigitChars_ten_toDigits (n := m), hdigits, Nat.ofDigitChars_ten_toDigits]
  · rintro rfl
    rfl

/-- A text that ends in a decimal number differs from one whose end is no digit. -/
theorem append_toString_ne {s : String} (hs : s.toList.getLast?.any (fun c => !c.isDigit) = true)
    (a b : String) (n : ℕ) : a ++ toString n ≠ b ++ s := by
  intro h
  obtain ⟨c, hc, hdigit⟩ : ∃ c, s.toList.getLast? = some c ∧ (!c.isDigit) = true :=
    Option.any_eq_true _ _ |>.mp hs
  obtain ⟨d, hd⟩ : ∃ d, (toString n).toList.getLast? = some d := by
    refine ⟨_, List.getLast?_eq_some_getLast (fun hnil => ?_)⟩
    rw [show (toString n).toList = Nat.toDigits 10 n from Nat.toList_repr] at hnil
    exact Nat.toDigits_ne_nil hnil
  have hlast := congrArg (fun t : String => t.toList.getLast?) h
  simp only [String.toList_append, List.getLast?_append, hc, hd, Option.some_or] at hlast
  have hmem : d ∈ Nat.toDigits 10 n := by
    rw [← Nat.toList_repr]
    exact List.mem_of_getLast? hd
  rw [← Option.some.inj hlast, Nat.isDigit_of_mem_toDigits (by decide) (by decide) hmem] at hdigit
  cases hdigit

/-- Nothing is dropped in front of a character that is not white space. -/
theorem dropWhile_isSpace {l : List Char} (h : l.head?.any (fun c => !isSpace c) = true) :
    l.dropWhile isSpace = l := by
  cases l with
  | nil => rfl
  | cons c cs =>
      have hc : isSpace c = false := by simpa using h
      rw [List.dropWhile_cons_of_neg (by simp [hc])]

/-- A text that begins with a character that is not white space is not blank. -/
theorem trim_ne_empty {p : String} (hp : p.toList.head?.any (fun c => !isSpace c) = true)
    (a : String) : trim (p ++ a) ≠ "" := by
  intro h
  cases hl : p.toList with
  | nil => simp [hl] at hp
  | cons c cs =>
      have hc : isSpace c = false := by simpa [hl] using hp
      have hnil : ((p ++ a).toList.dropWhile isSpace).reverse.dropWhile isSpace = [] := by
        simpa [trim] using congrArg String.toList h
      have hfront : (c :: (cs ++ a.toList)).dropWhile isSpace = c :: (cs ++ a.toList) :=
        dropWhile_isSpace (by simp [hc])
      rw [String.toList_append, hl, List.cons_append, hfront, List.dropWhile_eq_nil_iff] at hnil
      have hspace : isSpace c = true := hnil c (by simp)
      rw [hc] at hspace
      cases hspace

/-- A key whose ends are not white space is not changed by trimming. -/
theorem trim_eq_self {p a s : String} (hp : p.toList.head?.any (fun c => !isSpace c) = true)
    (hs : s.toList.getLast?.any (fun c => !isSpace c) = true) :
    trim (p ++ a ++ s) = p ++ a ++ s := by
  unfold trim
  have h1 : ((p ++ a ++ s).toList.head?.any fun c => !isSpace c) = true := by
    rw [String.toList_append, String.toList_append]
    cases hl : p.toList with
    | nil => simp [hl] at hp
    | cons c cs => simpa [hl] using hp
  have h2 : ((p ++ a ++ s).toList.reverse.head?.any fun c => !isSpace c) = true := by
    rw [String.toList_append, List.reverse_append, List.head?_append]
    rw [List.head?_reverse]
    cases hl : s.toList.getLast? with
    | none => simp [hl] at hs
    | some c => simpa [hl] using hs
  rw [dropWhile_isSpace h1, dropWhile_isSpace h2, List.reverse_reverse, String.ofList_toList]

/-- A text without white space is not changed by trimming. -/
theorem trim_eq_of_forall {s : String} (h : ∀ c ∈ s.toList, isSpace c = false) : trim s = s := by
  have hdrop : ∀ l : List Char, (∀ c ∈ l, isSpace c = false) → l.dropWhile isSpace = l := by
    intro l hl
    cases l with
    | nil => rfl
    | cons c cs => rw [List.dropWhile_cons_of_neg (by simp [hl c (by simp)])]
  unfold trim
  rw [hdrop _ h, hdrop _ fun c hc => h c (List.mem_reverse.mp hc), List.reverse_reverse,
    String.ofList_toList]

theorem isSpace_of_isDigit {c : Char} (h : c.isDigit = true) : isSpace c = false := by
  have hlo : 48 ≤ c.toNat ∧ c.toNat ≤ 57 := by
    simpa [Char.isDigit, Char.le_def, UInt32.le_iff_toNat_le] using h
  unfold isSpace
  simp
  omega

theorem isDigit_of_mem_toString {n : ℕ} {c : Char} (h : c ∈ (toString n).toList) :
    c.isDigit = true := by
  rw [show (toString n).toList = Nat.toDigits 10 n from Nat.toList_repr] at h
  exact Nat.isDigit_of_mem_toDigits (by decide) (by decide) h

/-- The decimal text of a number is not changed by trimming. -/
@[simp] theorem trim_toString (n : ℕ) : trim (toString n) = toString n :=
  trim_eq_of_forall fun _ hc => isSpace_of_isDigit (isDigit_of_mem_toString hc)

theorem toList_toString_ne_nil (n : ℕ) : (toString n).toList ≠ [] := by
  rw [show (toString n).toList = Nat.toDigits 10 n from Nat.toList_repr]
  exact Nat.toDigits_ne_nil

/-- The decimal text of a number is read as that number. -/
@[simp] theorem ofDigitChars_toString (n : ℕ) :
    Nat.ofDigitChars 10 (toString n).toList 0 = n := by
  rw [show (toString n).toList = Nat.toDigits 10 n from Nat.toList_repr,
    Nat.ofDigitChars_ten_toDigits]

/-- What is decided for the members of a list one by one. -/
theorem forall_mem_of_all {α : Type*} {p : α → Prop} [DecidablePred p] {l : List α}
    (h : l.all (fun a => decide (p a)) = true) : ∀ a ∈ l, p a := fun a ha =>
  of_decide_eq_true (List.all_eq_true.mp h a ha)

/-- Where no two rows have one key, at most one has a given key. -/
theorem length_filter_le_one {α β : Type} {key : α → β} {rows : List α} {p : α → Bool} {k : β}
    (hkeys : (rows.map key).Nodup) (hp : ∀ row ∈ rows, p row = true → key row = k) :
    (rows.filter p).length ≤ 1 := by
  have hnodup : ((rows.filter p).map key).Nodup := hkeys.sublist ((List.filter_sublist).map key)
  have hall : ∀ b ∈ (rows.filter p).map key, b = k := by
    intro b hb
    obtain ⟨row, hrow, rfl⟩ := List.mem_map.mp hb
    obtain ⟨hmem, hpr⟩ := List.mem_filter.mp hrow
    exact hp row hmem hpr
  rw [List.eq_replicate_of_mem hall, List.nodup_replicate, List.length_map] at hnodup
  exact hnodup

end DayfiBackend.Found.Keys
