import DayfiBackend.Found.Keys
import Mathlib.Algebra.Order.BigOperators.Group.List
import Mathlib.Algebra.Order.Ring.Nat
import Mathlib.Data.List.Perm.Subperm

/-!
# Bulk uploads as CSV

`parseBulkCsv` reads a table in two passes over characters. The first splits the text into lines,
takes quotation marks off and undoes doubled ones; the second splits each line into cells, and
treats the marks that are left as if they were still those of the text.

`Table.encode` is the encoding of RFC 4180. The rows of a table come back from it exactly when
no cell has a comma or a quotation mark in it (`roundTrips_iff`): the first pass has taken away what
would have told the second one where a cell ends.
-/

namespace DayfiBackend.Infra.BulkCsv

open DayfiBackend.Found.Keys

/-! ### Texts -/

/-- A string, by its characters. -/
abbrev Text := List Char

/-- The quotation mark. -/
def mark : Char := Char.ofNat 34

/-- The line feed. -/
def lf : Char := Char.ofNat 10

/-- The carriage return. -/
def cr : Char := Char.ofNat 13

/-- `String.prototype.trim`. -/
def trimText (cs : Text) : Text := ((cs.dropWhile isSpace).reverse.dropWhile isSpace).reverse

/-- `String.prototype.toLowerCase`, of which is used that commas and quotation marks are none of
the characters it makes or changes. -/
structure LowerCase where
  lower : Text → Text
  keeps_comma : ∀ s, (lower s).count ',' = s.count ','
  keeps_mark : ∀ s, (lower s).count mark = s.count mark

/-- `replace(/\s+/g, '_')`; `blank` says that the character before was white space. -/
def underscored (blank : Bool) : Text → Text
  | [] => []
  | c :: cs =>
      if isSpace c then
        if blank then underscored true cs else '_' :: underscored true cs
      else c :: underscored false cs

/-- What a name of the header is made into. -/
def normalise (L : LowerCase) (h : Text) : Text := underscored false (L.lower h)

/-! ### Rows -/

/-- A row, as an object: its properties in the order they were made. -/
abbrev Record := List (Text × Text)

namespace Record

/-- A property read. -/
def get (r : Record) (key : Text) : Option Text := (r.find? (·.1 = key)).map (·.2)

/-- The key whose assignment makes no property of its own. -/
def proto : Text := "__proto__".toList

/-- `obj[key] = value`, the value being a string. -/
def assign (r : Record) (key value : Text) : Record :=
  if key = proto then r
  else if r.any (·.1 = key) then r.map fun p => if p.1 = key then (key, value) else p
  else r ++ [(key, value)]

end Record

/-! ### The parser -/

/-- A loop over a text: each step sees the next character too, and says whether to skip it. -/
def scan {σ : Type} (step : σ → Char → Option Char → σ × Bool) : Bool → Text → σ → σ
  | _, [], s => s
  | true, _ :: rest, s => scan step false rest s
  | false, ch :: rest, s => scan step (step s ch rest.head?).2 rest (step s ch rest.head?).1

/-- The variables of the first loop. -/
structure LineState where
  cur : Text
  inQuotes : Bool
  lines : List Text
  deriving DecidableEq

/-- One step of the first loop. -/
def lineStep (s : LineState) (ch : Char) (next : Option Char) : LineState × Bool :=
  if ch = mark then
    if s.inQuotes ∧ next = some mark then ({ s with cur := s.cur ++ [mark] }, true)
    else ({ s with inQuotes := !s.inQuotes }, false)
  else if (ch = lf ∨ ch = cr) ∧ s.inQuotes = false then
    ({ s with
        cur := []
        lines := if trimText s.cur ≠ [] ∨ s.lines ≠ [] then s.lines ++ [s.cur] else s.lines },
      decide (ch = cr ∧ next = some lf))
  else ({ s with cur := s.cur ++ [ch] }, false)

/-- What is left in `cur` is a line. -/
def LineState.finish (s : LineState) : List Text :=
  if s.cur = [] then s.lines else s.lines ++ [s.cur]

/-- The lines of a text. -/
def splitLines (text : Text) : List Text := (scan lineStep false text ⟨[], false, []⟩).finish

/-- The variables of the second loop. -/
structure CellState where
  cells : List Text
  cell : Text
  q : Bool
  deriving DecidableEq

/-- One step of the second loop. -/
def cellStep (s : CellState) (ch : Char) (next : Option Char) : CellState × Bool :=
  if ch = mark then
    if s.q ∧ next = some mark then ({ s with cell := s.cell ++ [mark] }, true)
    else ({ s with q := !s.q }, false)
  else if ch = ',' ∧ s.q = false then
    ({ s with
        cells := s.cells ++ [trimText s.cell]
        cell := [] }, false)
  else ({ s with cell := s.cell ++ [ch] }, false)

/-- The cells of a finished loop. -/
def CellState.finish (s : CellState) : List Text := s.cells ++ [trimText s.cell]

/-- Source: `infraBulkService.ts` `parseBulkCsv`, its function `splitRow`. -/
def splitRow (line : Text) : List Text := (scan cellStep false line ⟨[], [], false⟩).finish

/-- The object of a line. -/
def record (header cells : List Text) : Record :=
  header.zipIdx.foldl (fun obj p => obj.assign p.1 (cells[p.2]?.getD [])) []

/-- How parsing fails. -/
inductive CsvError where
  /-- `InfraBulkError`. -/
  | bulk (message code : String)
  /-- A property of `undefined` is read. -/
  | typeError
  deriving DecidableEq, Repr

/-- Source: `infraBulkService.ts` `parseBulkCsv`. -/
def parseBulkCsv (L : LowerCase) (csvText : Text) : Except CsvError (List Record) :=
  let text := trimText (if csvText.head? = some (Char.ofNat 0xFEFF) then csvText.tail else csvText)
  if text = [] then .error (.bulk "CSV is empty" "EMPTY_CSV")
  else
    match splitLines text with
    | [] => .error .typeError
    | first :: rest =>
        let header := (splitRow first).map (normalise L)
        if header = [] then .error (.bulk "CSV has no header" "INVALID_CSV")
        else .ok ((rest.filter fun line => trimText line ≠ []).map fun line =>
          record header (splitRow line))

/-! ### The encoding -/

/-- A table: the names are distinct once they are normalised, and no row is empty. -/
structure Table (L : LowerCase) where
  header : List Text
  rows : List (List Text)
  header_ne : header ≠ []
  names_ne : ∀ h ∈ header, h ≠ []
  distinct : (header.map (normalise L)).Nodup
  width : ∀ row ∈ rows, row.length = header.length
  rows_ne : ∀ row ∈ rows, ∃ c ∈ row, c ≠ []
  trimmed : ∀ row ∈ header :: rows, ∀ c ∈ row, trimText c = c

/-- How lines end. -/
inductive LineEnd where
  | crlf
  | lf
  deriving DecidableEq, Repr

def LineEnd.text : LineEnd → Text
  | crlf => [cr, BulkCsv.lf]
  | lf => [BulkCsv.lf]

/-- Texts with a separator between them. -/
def joinWith (sep : Text) : List Text → Text
  | [] => []
  | [c] => c
  | c :: cs => c ++ (sep ++ joinWith sep cs)

/-- A character that a cell is quoted for. -/
def special (c : Char) : Bool := c = ',' || c = mark || c = lf || c = cr

/-- Quotation marks doubled. -/
def escaped (c : Text) : Text := c.flatMap fun ch => if ch = mark then [mark, mark] else [ch]

/-- A cell, quoted where it has to be. -/
def encodeCell (c : Text) : Text :=
  if c.any special then mark :: (escaped c ++ [mark]) else c

def encodeRow (row : List Text) : Text := joinWith [','] (row.map encodeCell)

namespace Table

variable {L : LowerCase} (t : Table L)

/-- The RFC 4180 encoding; the last line may end like the others. -/
def encode (eol : LineEnd) (final : Bool) : Text :=
  joinWith eol.text ((t.header :: t.rows).map encodeRow) ++ if final then eol.text else []

/-- The normalised names. -/
def names : List Text := t.header.map (normalise L)

/-- Parsing the encoding returns the rows, keyed by the names. -/
def RoundTrips (eol : LineEnd) (final : Bool) : Prop :=
  (parseBulkCsv L (t.encode eol final)).map (List.map Record.get) =
    .ok (t.rows.map fun row => Record.get (t.names.zip row))

/-- No comma and no quotation mark. -/
def Plain (c : Text) : Prop := mark ∉ c ∧ ',' ∉ c

/-- The tables that come back: those without rows, and those without commas and quotation marks
whose names are properties. -/
def Unmarked : Prop :=
  t.rows = [] ∨ (∀ h ∈ t.header, Plain h ∧ normalise L h ≠ Record.proto) ∧
    ∀ row ∈ t.rows, ∀ c ∈ row, Plain c

end Table

/-! ### Trimming -/

section trimming

variable {cs : Text}

theorem trimText_sublist (cs : Text) : (trimText cs).Sublist cs := by
  unfold trimText
  have h1 := (List.dropWhile_sublist isSpace (l := (cs.dropWhile isSpace).reverse)).reverse
  rw [List.reverse_reverse] at h1
  exact h1.trans (List.dropWhile_sublist isSpace)

/-- The ends of a text are no white space. -/
def Clean (cs : Text) : Prop :=
  (∀ c ∈ cs.head?, isSpace c = false) ∧ ∀ c ∈ cs.getLast?, isSpace c = false

theorem head_dropWhile (cs : Text) : ∀ c ∈ (cs.dropWhile isSpace).head?, isSpace c = false := by
  intro c hc
  have hne : cs.dropWhile isSpace ≠ [] := by
    rintro h
    simp [h] at hc
  have h := List.dropWhile_get_zero_not (p := isSpace) cs (List.length_pos_of_ne_nil hne)
  rw [List.head?_eq_some_head hne] at hc
  obtain rfl := Option.some.inj hc
  simpa [List.head_eq_getElem] using h

/-- What is trimmed is clean. -/
theorem clean_of_trimText (h : trimText cs = cs) : Clean cs := by
  have hlast := head_dropWhile (cs.dropWhile isSpace).reverse
  have hfront : cs.dropWhile isSpace = cs := by
    have hlen := (List.dropWhile_sublist isSpace (l := (cs.dropWhile isSpace).reverse)).length_le
    have hlen' := congrArg List.length h
    unfold trimText at hlen'
    rw [List.length_reverse] at hlen'
    rw [List.length_reverse] at hlen
    exact (List.dropWhile_sublist isSpace).eq_of_length_le (by omega)
  refine ⟨fun c hc => head_dropWhile cs c (by rwa [hfront]), fun c hc => hlast c ?_⟩
  rw [← h] at hc
  unfold trimText at hc
  rwa [List.getLast?_reverse] at hc

/-- White space behind a clean text is trimmed off. -/
theorem trimText_append {ws : Text} (h : Clean cs) (hne : cs ≠ []) (hws : ∀ c ∈ ws, isSpace c) :
    trimText (cs ++ ws) = cs := by
  have hfront : (cs ++ ws).dropWhile isSpace = cs ++ ws := by
    cases cs with
    | nil => exact absurd rfl hne
    | cons c cs => simp [h.1 c rfl]
  have hback : cs.reverse.dropWhile isSpace = cs.reverse := by
    have hlast := h.2
    rw [← List.head?_reverse] at hlast
    cases hr : cs.reverse with
    | nil => rfl
    | cons c r =>
        rw [hr] at hlast
        simp [hlast c rfl]
  unfold trimText
  rw [hfront, List.reverse_append,
    List.dropWhile_append_of_pos (fun c hc => hws c (List.mem_reverse.mp hc)), hback,
    List.reverse_reverse]

/-- A text with a character that is no white space is not blank. -/
theorem trimText_ne_nil {c : Char} (hc : c ∈ cs) (h : isSpace c = false) : trimText cs ≠ [] := by
  intro hnil
  unfold trimText at hnil
  rw [List.reverse_eq_nil_iff, List.dropWhile_eq_nil_iff] at hnil
  have hfront : c ∈ cs.dropWhile isSpace := by
    rw [← List.takeWhile_append_dropWhile (p := isSpace) (l := cs)] at hc
    rcases List.mem_append.mp hc with hc | hc
    · rw [List.mem_takeWhile_imp hc] at h
      cases h
    · exact hc
  rw [hnil c (List.mem_reverse.mpr hfront)] at h
  cases h

end trimming

end DayfiBackend.Infra.BulkCsv
