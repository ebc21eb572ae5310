import DayfiBackend.Found.Binary64
import DayfiBackend.Found.Decimals

/-!
# Dynamic values

A `Value` is what a member of a JSON document holds. The definitions are the conversions of
JavaScript: `truthy`, `print` (`String(v)`) and `toNumber` (`Number(v)`). An array or an object is
taken with the text it prints as, which is also what it is a number by.
-/

namespace DayfiBackend.Found.Values

open DayfiBackend.Found.Binary64 DayfiBackend.Found.Decimals DayfiBackend.Found.Keys

/-! ### Values -/

/-- What a member holds; one that is absent is `null`. -/
inductive Value where
  | null
  | bool (b : Bool)
  | number (v : ℚ)
  | text (s : String)
  | structured (printed : String) (members : List (String × Value))

/-- The members of an object. -/
abbrev Members := List (String × Value)

/-- `ms.name`. -/
def member (ms : Members) (name : String) : Value :=
  match ms with
  | [] => .null
  | (n, v) :: rest => if n = name then v else member rest name

/-- `v ?? w`. -/
def Value.orElse (v w : Value) : Value :=
  match v with
  | .null => w
  | v => v

/-- `Boolean(v)`. -/
def Value.truthy : Value → Bool
  | .null => false
  | .bool b => b
  | .number v => v ≠ 0
  | .text s => s ≠ ""
  | .structured _ _ => true

/-- `v || w`. -/
def Value.or (v w : Value) : Value := if v.truthy then v else w

/-- `v === true`. -/
def Value.isTrue : Value → Bool
  | .bool b => b
  | _ => false

/-- `typeof v === 'string' && v`, when it is not empty. -/
def Value.string? : Value → Option String
  | .text s => orNull (some s)
  | _ => none

/-- The members a value has. -/
def Value.members : Value → Members
  | .structured _ ms => ms
  | _ => []

/-! ### Texts -/

/-- The digits of a number that is not zero, as an integer without zeros at its end, and the
exponent of the place before the first one. -/
def shortest (x : ℚ) : List Char × ℤ :=
  let d := toDecimal |x|
  let n := Int.log 10 d + 1
  (stripZeros (toString ⌊d * 10 ^ (17 - n)⌋.natAbs).toList, n)

/-- `Number.prototype.toString`. -/
def printNumber (x : ℚ) : String :=
  if x = 0 then "0"
  else
    let (s, n) := shortest x
    let k : ℤ := s.length
    let body :=
      if k ≤ n ∧ n ≤ 21 then s ++ List.replicate (n - k).toNat '0'
      else if 0 < n ∧ n ≤ 21 then s.take n.toNat ++ '.' :: s.drop n.toNat
      else if -6 < n ∧ n ≤ 0 then '0' :: '.' :: List.replicate (-n).toNat '0' ++ s
      else
        s.take 1 ++ (if k = 1 then [] else '.' :: s.tail) ++
          ('e' :: (if n - 1 < 0 then '-' else '+') :: (toString (n - 1).natAbs).toList)
    String.ofList (if x < 0 then '-' :: body else body)

/-- `String(v)`. -/
def Value.print : Value → String
  | .null => "null"
  | .bool b => toString b
  | .number v => printNumber v
  | .text s => s
  | .structured printed _ => printed

/-- `String(v || '')`. -/
def Value.printOr (v : Value) : String := if v.truthy then v.print else ""

/-- `toUpperCase`, on letters whose capitals are ASCII. -/
def upperCase (s : String) : String :=
  String.ofList (s.toList.flatMap fun c =>
    if c = 'ſ' then ['S'] else if c = 'ﬅ' ∨ c = 'ﬆ' then ['S', 'T']
    else if c = 'ß' then ['S', 'S'] else if c = 'ı' then ['I'] else [c.toUpper])

/-! ### Numbers -/

/-- From here on numbers overflow. -/
def overflow : ℚ := 2 ^ 1024

/-- A number, when it is finite. -/
def finite? (x : ℚ) : Option ℚ := if overflow ≤ |x| then none else some x

/-- The digits of a base, read as a number. -/
def radix (base : ℕ) (cs : List Char) : Option ℚ :=
  let digit (c : Char) : ℕ :=
    if c.isDigit then c.toNat - 48 else if c.isAlpha then c.toLower.toNat - 87 else base
  if cs ≠ [] ∧ cs.all (fun c => digit c < base) then
    finite? (nearest (cs.foldl (fun (n : ℕ) c => n * base + digit c) 0 : ℕ))
  else none

/-- An optional sign, and what follows it. -/
def signed : List Char → Bool × List Char
  | '-' :: cs => (true, cs)
  | '+' :: cs => (false, cs)
  | cs => (false, cs)

/-- The exponent of a decimal literal, zero when it has none. -/
def exponent : List Char → Option ℤ
  | [] => some 0
  | c :: cs =>
      let (neg, ds) := signed cs
      if (c = 'e' ∨ c = 'E') ∧ ds ≠ [] ∧ ds.all (·.isDigit) then
        some (if neg then -(natural ds : ℤ) else natural ds)
      else none

/-- A decimal literal: digits, a point and digits, an exponent. -/
def decimalLiteral (cs : List Char) : Option ℚ :=
  let (neg, cs) := signed cs
  let whole := cs.takeWhile (·.isDigit)
  let rest := cs.dropWhile (·.isDigit)
  let (frac, rest) :=
    match rest with
    | '.' :: ds => (ds.takeWhile (·.isDigit), ds.dropWhile (·.isDigit))
    | rest => ([], rest)
  if whole ++ frac = [] then none
  else do
    let e ← exponent rest
    let v := nearest (natural (whole ++ frac) * (10 : ℚ) ^ (e - frac.length))
    finite? (if neg then -v else v)

/-- `Number(text)`, when it is finite. -/
def numberOfText (s : String) : Option ℚ :=
  match (trim s).toList with
  | [] => some 0
  | '0' :: c :: ds =>
      if c = 'x' ∨ c = 'X' then radix 16 ds
      else if c = 'o' ∨ c = 'O' then radix 8 ds
      else if c = 'b' ∨ c = 'B' then radix 2 ds
      else decimalLiteral ('0' :: c :: ds)
  | cs => decimalLiteral cs

/-- `Number(v)`, when it is finite. -/
def Value.toNumber : Value → Option ℚ
  | .null => some 0
  | .bool b => some (if b then 1 else 0)
  | .number v => some v
  | .text s => numberOfText s
  | .structured printed _ => numberOfText printed

end DayfiBackend.Found.Values
