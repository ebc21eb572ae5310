import DayfiBackend.Infra.BulkCsv

/-!
# Which tables come back from their CSV

The first pass takes an encoded table apart exactly: its lines are the rows, with their cells as
they are and commas between them (`splitLines_encode`). The second pass is right on cells without
commas and quotation marks (`splitRow_plain`). On others it is wrong, by counting: every quotation
mark it keeps costs it two (`count_mark_splitRow`), and without quotation marks it keeps no comma
(`comma_notMem_splitRow`).
-/

namespace DayfiBackend.Infra.BulkCsv

open DayfiBackend.Found.Keys

/-! ### The first pass -/

section lines

variable {cur : Text} {lines : List Text}

theorem scan_cons {σ : Type} (step : σ → Char → Option Char → σ × Bool) (ch : Char) (rest : Text)
    (s : σ) :
    scan step false (ch :: rest) s =
      scan step (step s ch rest.head?).2 rest (step s ch rest.head?).1 := rfl

/-- A character that is only copied. -/
theorem scan_lineStep_copy {ch : Char} {inQuotes : Bool} (rest : Text) (hmark : ch ≠ mark)
    (hbreak : inQuotes = true ∨ (ch ≠ lf ∧ ch ≠ cr)) :
    scan lineStep false (ch :: rest) ⟨cur, inQuotes, lines⟩ =
      scan lineStep false rest ⟨cur ++ [ch], inQuotes, lines⟩ := by
  have hstep : lineStep ⟨cur, inQuotes, lines⟩ ch rest.head? =
      (⟨cur ++ [ch], inQuotes, lines⟩, false) := by
    unfold lineStep
    rw [if_neg hmark, if_neg]
    rintro ⟨hch, hq⟩
    rcases hbreak with hb | ⟨h1, h2⟩
    · rw [hb] at hq
      cases hq
    · exact hch.elim h1 h2
  rw [scan_cons, hstep]

/-- A quotation mark that opens or closes a cell. -/
theorem scan_lineStep_mark {inQuotes : Bool} {rest : Text}
    (hnext : inQuotes = true → rest.head? ≠ some mark) :
    scan lineStep false (mark :: rest) ⟨cur, inQuotes, lines⟩ =
      scan lineStep false rest ⟨cur, !inQuotes, lines⟩ := by
  have hstep : lineStep ⟨cur, inQuotes, lines⟩ mark rest.head? =
      (⟨cur, !inQuotes, lines⟩, false) := by
    unfold lineStep
    rw [if_pos rfl, if_neg (fun h => hnext h.1 h.2)]
  rw [scan_cons, hstep]

/-- Inside quotation marks the doubled ones become single again. -/
theorem scan_escaped {rest : Text} (hrest : rest.head? ≠ some mark) (c cur : Text) :
    scan lineStep false (escaped c ++ mark :: rest) ⟨cur, true, lines⟩ =
      scan lineStep false rest ⟨cur ++ c, false, lines⟩ := by
  induction c generalizing cur with
  | nil =>
      rw [List.append_nil]
      exact scan_lineStep_mark fun _ => hrest
  | cons ch c ih =>
      have happ : cur ++ ch :: c = cur ++ [ch] ++ c := by simp
      by_cases hch : ch = mark
      · subst hch
        have hsplit : escaped (mark :: c) ++ mark :: rest =
            mark :: mark :: (escaped c ++ mark :: rest) := by
          simp [escaped]
        rw [hsplit, scan_cons, happ, ← ih]
        simp [lineStep, scan]
      · have hsplit : escaped (ch :: c) ++ mark :: rest = ch :: (escaped c ++ mark :: rest) := by
          simp [escaped, hch]
        rw [hsplit, scan_lineStep_copy _ hch (.inl rfl), ih, happ]

/-- A cell is read as it was written. -/
theorem scan_encodeCell {rest : Text} (hrest : rest.head? ≠ some mark) (c cur : Text) :
    scan lineStep false (encodeCell c ++ rest) ⟨cur, false, lines⟩ =
      scan lineStep false rest ⟨cur ++ c, false, lines⟩ := by
  unfold encodeCell
  split_ifs with hspecial
  · have hsplit : mark :: (escaped c ++ [mark]) ++ rest = mark :: (escaped c ++ mark :: rest) := by
      simp
    rw [hsplit, scan_lineStep_mark (fun h => by cases h)]
    exact scan_escaped hrest c cur
  · have hplain : ∀ ch ∈ c, special ch = false := by simpa using hspecial
    clear hspecial
    induction c generalizing cur with
    | nil => simp
    | cons ch c ih =>
        have hch : ch ≠ ',' ∧ ch ≠ mark ∧ ch ≠ lf ∧ ch ≠ cr := by
          simpa [special, and_assoc] using hplain ch (by simp)
        rw [List.cons_append, scan_lineStep_copy _ hch.2.1 (.inr hch.2.2),
          ih _ fun e he => hplain e (by simp [he])]
        simp

/-- A row is read as its cells with commas between them. -/
theorem scan_encodeRow {rest : Text} (hrest : rest.head? ≠ some mark) (row : List Text)
    (cur : Text) :
    scan lineStep false (encodeRow row ++ rest) ⟨cur, false, lines⟩ =
      scan lineStep false rest ⟨cur ++ joinWith [','] row, false, lines⟩ := by
  unfold encodeRow
  induction row generalizing cur with
  | nil => simp [joinWith]
  | cons c row ih =>
      cases row with
      | nil => exact scan_encodeCell hrest c cur
      | cons c' row =>
          have hsplit : joinWith [','] ((c :: c' :: row).map encodeCell) ++ rest =
              encodeCell c ++ (',' :: (joinWith [','] ((c' :: row).map encodeCell) ++ rest)) := by
            simp [joinWith]
          rw [hsplit, scan_encodeCell (by simp [mark]), scan_lineStep_copy _ (by decide)
            (.inr ⟨by decide, by decide⟩), ih]
          simp [joinWith]

/-- A line ends. -/
theorem scan_lineEnd (eol : LineEnd) (rest : Text) (h : trimText cur ≠ []) :
    scan lineStep false (eol.text ++ rest) ⟨cur, false, lines⟩ =
      scan lineStep false rest ⟨[], false, lines ++ [cur]⟩ := by
  cases eol with
  | crlf =>
      show scan lineStep false (cr :: lf :: rest) _ = _
      have hstep : lineStep ⟨cur, false, lines⟩ cr (lf :: rest).head? =
          (⟨[], false, lines ++ [cur]⟩, true) := by
        simp [lineStep, h, show cr ≠ mark by decide]
      rw [scan_cons, hstep]
      rfl
  | lf =>
      show scan lineStep false (lf :: rest) _ = _
      have hstep : lineStep ⟨cur, false, lines⟩ lf rest.head? =
          (⟨[], false, lines ++ [cur]⟩, false) := by
        simp [lineStep, h, show lf ≠ mark by decide, show lf ≠ cr by decide]
      rw [scan_cons, hstep]

/-- The lines are the rows. -/
theorem scan_rows (eol : LineEnd) (rows : List (List Text)) (hne : rows ≠ [])
    (h : ∀ row ∈ rows, trimText (joinWith [','] row) ≠ []) (lines : List Text) :
    (scan lineStep false (joinWith eol.text (rows.map encodeRow)) ⟨[], false, lines⟩).finish =
      lines ++ rows.map (joinWith [',']) := by
  induction rows generalizing lines with
  | nil => exact absurd rfl hne
  | cons row rows ih =>
      have hrow := h row (by simp)
      cases rows with
      | nil =>
          have hread : scan lineStep false (encodeRow row ++ []) ⟨[], false, lines⟩ =
              scan lineStep false [] ⟨[] ++ joinWith [','] row, false, lines⟩ :=
            scan_encodeRow (by simp) row []
          rw [List.append_nil] at hread
          simp only [List.map_cons, List.map_nil, joinWith]
          rw [hread]
          have hraw : joinWith [','] row ≠ [] := by
            rintro hnil
            exact hrow (by rw [hnil]; rfl)
          simp [scan, LineState.finish, hraw]
      | cons row' rows =>
          have heol : ((eol.text ++ joinWith eol.text ((row' :: rows).map encodeRow)).head?) ≠
              some mark := by
            cases eol <;> simp [LineEnd.text, mark, cr, lf]
          have hsplit : joinWith eol.text ((row :: row' :: rows).map encodeRow) =
              encodeRow row ++ (eol.text ++ joinWith eol.text ((row' :: rows).map encodeRow)) := by
            simp [joinWith]
          rw [hsplit, scan_encodeRow heol, List.nil_append, scan_lineEnd eol _ hrow,
            ih (by simp) (fun r hr => h r (by simp [List.mem_cons.mp hr]))]
          simp

end lines

/-! ### The text around the lines -/

section text

variable {L : LowerCase} (t : Table L)

/-- The end of a text that is not empty is no white space. -/
def EndsClean (cs : Text) : Prop := ∀ c ∈ cs.getLast?, isSpace c = false

theorem endsClean_encodeCell {c : Text} (h : trimText c = c) : EndsClean (encodeCell c) := by
  unfold encodeCell
  split_ifs
  · intro e he
    rw [show mark :: (escaped c ++ [mark]) = (mark :: escaped c) ++ [mark] by simp,
      List.getLast?_concat] at he
    rw [← Option.some.inj he]
    decide
  · exact (clean_of_trimText h).2

/-- Texts that end clean, joined by anything before a text that is not empty. -/
theorem EndsClean.append {a b : Text} (hb : EndsClean b) (hne : b ≠ []) : EndsClean (a ++ b) := by
  intro e he
  rw [List.getLast?_append_of_ne_nil _ hne] at he
  exact hb e he

theorem endsClean_encodeRow {row : List Text} (h : ∀ c ∈ row, trimText c = c) :
    EndsClean (encodeRow row) := by
  unfold encodeRow
  induction row with
  | nil => simp [EndsClean, joinWith]
  | cons c row ih =>
      cases row with
      | nil => exact endsClean_encodeCell (h c (by simp))
      | cons c' row =>
          have htail := ih fun e he => h e (by simp [List.mem_cons.mp he])
          show EndsClean (encodeCell c ++ ([','] ++ joinWith [','] ((c' :: row).map encodeCell)))
          refine EndsClean.append ?_ (by simp)
          by_cases hnil : joinWith [','] ((c' :: row).map encodeCell) = []
          · rw [hnil]
            intro e he
            rw [← Option.some.inj he]
            decide
          · exact htail.append hnil

theorem head_encodeCell {c : Text} (h : trimText c = c) (hne : c ≠ []) :
    encodeCell c ≠ [] ∧ ∀ e ∈ (encodeCell c).head?, isSpace e = false := by
  unfold encodeCell
  split_ifs
  · refine ⟨by simp, fun e he => ?_⟩
    rw [← Option.some.inj he]
    decide
  · exact ⟨hne, (clean_of_trimText h).1⟩

theorem joinWith_cons_append (sep c : Text) (cs : List Text) :
    ∃ rest, joinWith sep (c :: cs) = c ++ rest := by
  cases cs with
  | nil => exact ⟨[], (List.append_nil c).symm⟩
  | cons c' cs => exact ⟨_, rfl⟩

theorem mem_joinWith {sep : Text} {cs : List Text} {c : Text} (h : c ∈ cs) {e : Char}
    (he : e ∈ c) : e ∈ joinWith sep cs := by
  induction cs with
  | nil => cases h
  | cons d cs ih =>
      cases cs with
      | nil =>
          rw [List.mem_singleton] at h
          subst h
          exact he
      | cons d' cs =>
          rcases List.mem_cons.mp h with rfl | h
          · exact List.mem_append_left _ he
          · exact List.mem_append_right _ (List.mem_append_right _ (ih h))

/-- A row with a cell that is not empty is not blank. -/
theorem trimText_joinWith {row : List Text} (htrim : ∀ c ∈ row, trimText c = c)
    (h : ∃ c ∈ row, c ≠ []) : trimText (joinWith [','] row) ≠ [] := by
  obtain ⟨c, hc, hne⟩ := h
  obtain ⟨e, hcs⟩ : ∃ e, c.head? = some e := ⟨_, List.head?_eq_some_head hne⟩
  have hspace := (clean_of_trimText (htrim c hc)).1 e hcs
  exact trimText_ne_nil (mem_joinWith hc (List.mem_of_head? hcs)) hspace

namespace Table

/-- No line is blank. -/
theorem lines_ne : ∀ row ∈ t.header :: t.rows, trimText (joinWith [','] row) ≠ [] := by
  intro row hrow
  refine trimText_joinWith (t.trimmed row hrow) ?_
  rcases List.mem_cons.mp hrow with rfl | hrow
  · obtain ⟨h, hs, hcons⟩ := List.exists_cons_of_ne_nil t.header_ne
    exact ⟨h, by simp [hcons], t.names_ne h (by simp [hcons])⟩
  · exact t.rows_ne row hrow

/-- The lines, joined. -/
def body (eol : LineEnd) : Text := joinWith eol.text ((t.header :: t.rows).map encodeRow)

theorem encodeRow_ne {row : List Text} (hrow : row ∈ t.header :: t.rows) : encodeRow row ≠ [] := by
  intro hnil
  have hread : scan lineStep false (encodeRow row ++ []) ⟨[], false, []⟩ =
      scan lineStep false [] ⟨[] ++ joinWith [','] row, false, []⟩ :=
    scan_encodeRow (by simp) row []
  rw [hnil] at hread
  have hraw : joinWith [','] row = [] := by
    simpa [scan] using (congrArg LineState.cur hread).symm
  exact t.lines_ne row hrow (by rw [hraw]; rfl)

theorem clean_body (eol : LineEnd) : t.body eol ≠ [] ∧ Clean (t.body eol) := by
  obtain ⟨h, hs, hcons⟩ := List.exists_cons_of_ne_nil t.header_ne
  obtain ⟨hne, hhead⟩ := head_encodeCell (t.trimmed t.header (by simp) h (by simp [hcons]))
    (t.names_ne h (by simp [hcons]))
  obtain ⟨rest, hrest⟩ : ∃ rest, t.body eol = encodeCell h ++ rest := by
    obtain ⟨r, hr⟩ := joinWith_cons_append eol.text (encodeRow t.header) (t.rows.map encodeRow)
    obtain ⟨r', hr'⟩ := joinWith_cons_append [','] (encodeCell h) (hs.map encodeCell)
    refine ⟨r' ++ r, ?_⟩
    show joinWith eol.text (encodeRow t.header :: t.rows.map encodeRow) = _
    rw [hr, show encodeRow t.header = joinWith [','] (encodeCell h :: hs.map encodeCell) by
      rw [hcons]; rfl, hr', List.append_assoc]
  have hlast : ∀ rows : List (List Text), (∀ row ∈ rows, row ∈ t.header :: t.rows) →
      EndsClean (joinWith eol.text (rows.map encodeRow)) := by
    intro rows hrows
    induction rows with
    | nil => simp [EndsClean, joinWith]
    | cons row rows ih =>
        have hrow := hrows row (by simp)
        cases rows with
        | nil => exact endsClean_encodeRow (t.trimmed row hrow)
        | cons row' rows =>
            obtain ⟨r, hr⟩ :=
              joinWith_cons_append eol.text (encodeRow row') (rows.map encodeRow)
            have htail := ih fun e he => hrows e (by simp [List.mem_cons.mp he])
            show EndsClean (encodeRow row ++
              (eol.text ++ joinWith eol.text ((row' :: rows).map encodeRow)))
            rw [← List.append_assoc]
            refine htail.append ?_
            rw [List.map_cons, hr]
            simp [t.encodeRow_ne (hrows row' (by simp))]
  refine ⟨by rw [hrest]; simp [hne], fun e he => hhead e ?_, hlast _ fun _ hrow => hrow⟩
  rw [hrest, List.head?_append_of_ne_nil _ hne] at he
  exact he

/-- The text that is split is that of the lines. -/
theorem trimText_encode (eol : LineEnd) (final : Bool) :
    trimText (if (t.encode eol final).head? = some (Char.ofNat 0xFEFF) then
      (t.encode eol final).tail else t.encode eol final) = t.body eol := by
  obtain ⟨hne, hclean⟩ := t.clean_body eol
  have hbom : (t.encode eol final).head? ≠ some (Char.ofNat 0xFEFF) := by
    intro h
    have h' : (t.body eol ++ if final then eol.text else []).head? =
      some (Char.ofNat 0xFEFF) := h
    rw [List.head?_append_of_ne_nil _ hne] at h'
    have hspace := hclean.1 _ h'
    revert hspace
    decide
  rw [if_neg hbom]
  refine trimText_append hclean hne fun c hc => ?_
  cases final with
  | false => cases hc
  | true => cases eol <;> simp [LineEnd.text] at hc <;> rcases hc with rfl | rfl <;> decide

/-- **The first pass is exact**: the lines are the rows, with commas between their cells. -/
theorem splitLines_body (eol : LineEnd) :
    splitLines (t.body eol) = (t.header :: t.rows).map (joinWith [',']) := by
  have h := scan_rows eol (t.header :: t.rows) (by simp) t.lines_ne []
  rwa [List.nil_append] at h

/-- What parsing comes to. -/
theorem parseBulkCsv_encode (eol : LineEnd) (final : Bool) :
    parseBulkCsv L (t.encode eol final) =
      .ok (t.rows.map fun row => record ((splitRow (joinWith [','] t.header)).map (normalise L))
        (splitRow (joinWith [','] row))) := by
  have hheader : splitRow (joinWith [','] t.header) ≠ [] := by
    unfold splitRow CellState.finish
    simp
  unfold parseBulkCsv
  dsimp only
  rw [t.trimText_encode, if_neg (t.clean_body eol).1, t.splitLines_body, List.map_cons]
  dsimp only
  rw [if_neg (by simpa using hheader)]
  have hkeep : (t.rows.map (joinWith [','])).filter (fun line => decide (trimText line ≠ [])) =
      t.rows.map (joinWith [',']) := by
    refine List.filter_eq_self.mpr fun line hline => ?_
    obtain ⟨row, hrow, rfl⟩ := List.mem_map.mp hline
    simpa using t.lines_ne row (List.mem_cons_of_mem _ hrow)
  rw [hkeep, List.map_map]
  rfl

end Table

end text

/-! ### The second pass -/

section cells

/-- A character that is only copied. -/
theorem scan_cellStep_copy {ch : Char} {s : CellState} (rest : Text) (hmark : ch ≠ mark)
    (hcomma : ch ≠ ',') :
    scan cellStep false (ch :: rest) s =
      scan cellStep false rest { s with cell := s.cell ++ [ch] } := by
  have hstep : cellStep s ch rest.head? = ({ s with cell := s.cell ++ [ch] }, false) := by
    unfold cellStep
    rw [if_neg hmark, if_neg fun h => hcomma h.1]
  rw [scan_cons, hstep]

theorem scan_cell {c : Text} (h : Table.Plain c) (rest : Text) (s : CellState) :
    scan cellStep false (c ++ rest) s =
      scan cellStep false rest { s with cell := s.cell ++ c } := by
  induction c generalizing s with
  | nil => simp
  | cons ch c ih =>
      rw [List.cons_append, scan_cellStep_copy _ (fun he => h.1 (by simp [he]))
        (fun he => h.2 (by simp [he])),
        ih ⟨fun hm => h.1 (by simp [hm]), fun hm => h.2 (by simp [hm])⟩]
      simp

/-- Cells without commas and quotation marks are split as they were joined. -/
theorem splitRow_plain {row : List Text} (hne : row ≠ [])
    (h : ∀ c ∈ row, Table.Plain c ∧ trimText c = c) : splitRow (joinWith [','] row) = row := by
  have key : ∀ (row : List Text) (cells : List Text), row ≠ [] →
      (∀ c ∈ row, Table.Plain c ∧ trimText c = c) →
        (scan cellStep false (joinWith [','] row) ⟨cells, [], false⟩).finish = cells ++ row := by
    intro row
    induction row with
    | nil => exact fun _ hne => absurd rfl hne
    | cons c row ih =>
        intro cells _ h
        obtain ⟨hplain, htrim⟩ := h c (by simp)
        cases row with
        | nil =>
            have hread := scan_cell hplain [] ⟨cells, [], false⟩
            rw [List.append_nil] at hread
            show (scan cellStep false c _).finish = _
            rw [hread]
            simp [scan, CellState.finish, htrim]
        | cons c' row =>
            have hcomma : scan cellStep false (',' :: joinWith [','] (c' :: row))
                ⟨cells, c, false⟩ =
                scan cellStep false (joinWith [','] (c' :: row)) ⟨cells ++ [c], [], false⟩ := by
              rw [scan_cons]
              simp [cellStep, htrim, show ',' ≠ mark by decide]
            show (scan cellStep false (c ++ (',' :: joinWith [','] (c' :: row))) _).finish = _
            rw [scan_cell hplain]
            simp only [List.nil_append]
            rw [hcomma, ih _ (by simp) fun e he => h e (by simp [List.mem_cons.mp he])]
            simp
  exact key row [] hne h

/-- How often a character is kept so far. -/
def CellState.kept (s : CellState) (k : Char) : ℕ :=
  (s.cells.map (·.count k)).sum + s.cell.count k

theorem count_trimText_le (k : Char) (cs : Text) : (trimText cs).count k ≤ cs.count k :=
  (trimText_sublist cs).count_le k

/-- What one step keeps of the quotation marks: none, or one that makes it skip another. -/
theorem kept_cellStep (s : CellState) (ch : Char) (rest : Text) :
    ((cellStep s ch rest.head?).2 = false ∧
        (cellStep s ch rest.head?).1.kept mark ≤ s.kept mark) ∨
      ((cellStep s ch rest.head?).2 = true ∧ ch = mark ∧ rest.head? = some mark ∧
        (cellStep s ch rest.head?).1.kept mark ≤ s.kept mark + 1) := by
  unfold cellStep
  split_ifs with hch hnext hcomma
  · refine .inr ⟨rfl, hch, hnext.2, ?_⟩
    simp [CellState.kept, Nat.add_assoc]
  · exact .inl ⟨rfl, le_refl _⟩
  · refine .inl ⟨rfl, ?_⟩
    have htrim := count_trimText_le mark s.cell
    simp only [CellState.kept, List.map_append, List.map_cons, List.map_nil, List.sum_append,
      List.sum_cons, List.sum_nil, List.count_nil]
    omega
  · refine .inl ⟨rfl, ?_⟩
    simp [CellState.kept, List.count_append, hch]

theorem kept_scan (l : Text) :
    (∀ s, 2 * (scan cellStep false l s).kept mark ≤ 2 * s.kept mark + l.count mark) ∧
      ∀ s, 2 * (scan cellStep true l s).kept mark ≤ 2 * s.kept mark + l.tail.count mark := by
  induction l with
  | nil => exact ⟨fun s => by simp [scan], fun s => by simp [scan]⟩
  | cons ch rest ih =>
      refine ⟨fun s => ?_, ih.1⟩
      rw [scan_cons]
      rcases kept_cellStep s ch rest with ⟨hskip, hkept⟩ | ⟨hskip, hch, hnext, hkept⟩
      · rw [hskip]
        have h := ih.1 (cellStep s ch rest.head?).1
        have hcount : rest.count mark ≤ (ch :: rest).count mark :=
          (List.sublist_cons_self ch rest).count_le mark
        omega
      · rw [hskip]
        have h := ih.2 (cellStep s ch rest.head?).1
        subst hch
        obtain ⟨rest', rfl⟩ : ∃ rest', rest = mark :: rest' := by
          cases rest with
          | nil => cases hnext
          | cons e rest' => exact ⟨rest', by rw [Option.some.inj hnext]⟩
        simp only [List.tail_cons, List.count_cons_self] at h ⊢
        omega

/-- Every quotation mark in a cell has cost two of the line. -/
theorem count_mark_splitRow (line : Text) :
    2 * ((splitRow line).map (·.count mark)).sum ≤ line.count mark := by
  have h := (kept_scan line).1 ⟨[], [], false⟩
  have htrim := count_trimText_le mark (scan cellStep false line ⟨[], [], false⟩).cell
  have hzero : CellState.kept ⟨[], [], false⟩ mark = 0 := rfl
  rw [hzero] at h
  unfold splitRow CellState.finish
  simp only [CellState.kept] at h
  simp only [List.map_append, List.map_cons, List.map_nil, List.sum_append, List.sum_cons,
    List.sum_nil]
  omega

/-- No cell of a line without quotation marks has a comma. -/
theorem comma_notMem_splitRow {line : Text} (h : mark ∉ line) : ∀ c ∈ splitRow line, ',' ∉ c := by
  have key : ∀ (l : Text) (s : CellState), mark ∉ l → s.q = false →
      (∀ c ∈ s.cells, ',' ∉ c) → ',' ∉ s.cell →
        ∀ c ∈ (scan cellStep false l s).finish, ',' ∉ c := by
    intro l
    induction l with
    | nil =>
        intro s _ _ hcells hcell c hc
        rcases List.mem_append.mp hc with hc | hc
        · exact hcells c hc
        · rw [List.mem_singleton] at hc
          subst hc
          exact fun hmem => hcell ((trimText_sublist s.cell).mem hmem)
    | cons ch rest ih =>
        intro s hmark hq hcells hcell
        have hch : ch ≠ mark := fun he => hmark (by simp [he])
        have hrest : mark ∉ rest := fun hm => hmark (by simp [hm])
        by_cases hcomma : ch = ','
        · have hstep : cellStep s ch rest.head? =
              (⟨s.cells ++ [trimText s.cell], [], s.q⟩, false) := by
            simp [cellStep, hcomma, hq, show ',' ≠ mark by decide]
          rw [scan_cons, hstep]
          refine ih _ hrest hq (fun c hc => ?_) (by simp)
          rcases List.mem_append.mp hc with hc | hc
          · exact hcells c hc
          · rw [List.mem_singleton] at hc
            subst hc
            exact fun hmem => hcell ((trimText_sublist s.cell).mem hmem)
        · rw [scan_cellStep_copy rest hch hcomma]
          refine ih _ hrest hq hcells ?_
          simp [hcell, Ne.symm hcomma]
  exact key line _ h rfl (by simp) (by simp)

/-- The quotation marks of a line are those of its cells. -/
theorem count_mark_joinWith (row : List Text) :
    (joinWith [','] row).count mark = (row.map (·.count mark)).sum := by
  induction row with
  | nil => rfl
  | cons c row ih =>
      cases row with
      | nil => simp [joinWith]
      | cons c' row =>
          have hjoin : joinWith [','] (c :: c' :: row) =
              c ++ ([','] ++ joinWith [','] (c' :: row)) := rfl
          rw [hjoin, List.count_append, List.count_append, ih]
          simp [show ',' ≠ mark by decide]

/-- When as many quotation marks come out of a line as went in, there are none. -/
theorem mark_notMem_of_le {row : List Text}
    (h : (row.map (·.count mark)).sum ≤ ((splitRow (joinWith [','] row)).map (·.count mark)).sum) :
    mark ∉ joinWith [','] row := by
  have hhalf := count_mark_splitRow (joinWith [','] row)
  have htotal := count_mark_joinWith row
  rw [← List.count_eq_zero]
  omega

end cells

/-! ### Names and objects -/

section names

variable {L : LowerCase}

theorem count_underscored {k : Char} (hspace : isSpace k = false) (hk : k ≠ '_') (blank : Bool)
    (cs : Text) : (underscored blank cs).count k = cs.count k := by
  induction cs generalizing blank with
  | nil => rfl
  | cons c cs ih =>
      unfold underscored
      split_ifs with hc hblank
      · have hne : c ≠ k := by
          rintro rfl
          rw [hspace] at hc
          cases hc
        rw [ih, List.count_cons_of_ne hne]
      · have hne : c ≠ k := by
          rintro rfl
          rw [hspace] at hc
          cases hc
        rw [List.count_cons_of_ne (Ne.symm hk), ih, List.count_cons_of_ne hne]
      · rw [List.count_cons, List.count_cons, ih]

/-- Normalising a name keeps its quotation marks. -/
theorem count_mark_normalise (h : Text) : (normalise L h).count mark = h.count mark := by
  unfold normalise
  rw [count_underscored (by decide) (by decide), L.keeps_mark]

/-- Normalising a name keeps its commas. -/
theorem comma_mem_normalise {h : Text} : ',' ∈ normalise L h ↔ ',' ∈ h := by
  rw [← List.count_pos_iff, ← List.count_pos_iff]
  unfold normalise
  rw [count_underscored (by decide) (by decide), L.keeps_comma]

namespace Record

variable {r : Record} {key value k : Text}

theorem get_nil (k : Text) : Record.get [] k = none := rfl

theorem get_cons (p : Text × Text) (r : Record) (k : Text) :
    Record.get (p :: r) k = if p.1 = k then some p.2 else r.get k := by
  unfold get
  split_ifs with h
  · rw [List.find?_cons_of_pos (by simpa using h), Option.map_some]
  · rw [List.find?_cons_of_neg (by simpa using h)]

/-- Reading after an assignment. -/
theorem get_assign (hkey : key ≠ proto) :
    (r.assign key value).get k = if key = k then some value else r.get k := by
  unfold assign
  rw [if_neg hkey]
  induction r with
  | nil => simp [get_cons, get_nil]
  | cons p r ih =>
      by_cases hp : p.1 = key
      · subst hp
        simp only [List.any_cons, decide_true, Bool.true_or, if_true, List.map_cons, get_cons]
        split_ifs with hk
        · rfl
        · clear ih
          -- the properties behind it have other keys, or are behind one with the same key
          induction r with
          | nil => rfl
          | cons q r ihr =>
              rw [List.map_cons, get_cons, get_cons, ihr]
              by_cases hq : q.1 = p.1
              · simp [hq, hk]
              · simp [hq]
      · simp only [List.any_cons, hp, decide_false, Bool.false_or, List.map_cons, if_false,
          List.cons_append, get_cons]
        split_ifs at ih ⊢ with hany hpk hkk hpk hkk <;> simp_all [get_cons]

theorem get_assign_proto : (r.assign proto value) = r := if_pos rfl

end Record

variable {cells : List Text} {k v : Text}

/-- The loop that makes an object. -/
theorem get_foldl_of_mem (l : List (Text × ℕ)) (r : Record) (n : ℕ)
    (hnodup : (l.map (·.1)).Nodup) (hmem : (k, n) ∈ l) (hk : k ≠ Record.proto) :
    Record.get (l.foldl (fun obj p => obj.assign p.1 (cells[p.2]?.getD [])) r) k =
      some (cells[n]?.getD []) := by
  have hother : ∀ (l : List (Text × ℕ)) (r : Record), k ∉ l.map (·.1) →
      Record.get (l.foldl (fun obj p => obj.assign p.1 (cells[p.2]?.getD [])) r) k = r.get k := by
    intro l
    induction l with
    | nil => exact fun _ _ => rfl
    | cons p l ih =>
        intro r hnot
        have hp : p.1 ≠ k := fun he => hnot (by simp [he])
        rw [List.foldl_cons, ih _ fun h => hnot (by simp [h])]
        by_cases hproto : p.1 = Record.proto
        · rw [hproto, Record.get_assign_proto]
        · rw [Record.get_assign hproto, if_neg hp]
  induction l generalizing r with
  | nil => cases hmem
  | cons p l ih =>
      obtain ⟨hnot, hnodup'⟩ := List.nodup_cons.mp hnodup
      rw [List.foldl_cons]
      rcases List.mem_cons.mp hmem with rfl | hmem
      · rw [hother l _ hnot, Record.get_assign hk, if_pos rfl]
      · exact ih _ hnodup' hmem

/-- The properties of the object of a line are names of the header. -/
theorem mem_of_get_record {header : List Text} (h : (record header cells).get k = some v) :
    k ∈ header ∧ k ≠ Record.proto := by
  have key : ∀ (l : List (Text × ℕ)) (r : Record),
      Record.get (l.foldl (fun obj p => obj.assign p.1 (cells[p.2]?.getD [])) r) k = some v →
        (k ∈ l.map (·.1) ∧ k ≠ Record.proto) ∨ r.get k = some v := by
    intro l
    induction l with
    | nil => exact fun _ h => .inr h
    | cons p l ih =>
        intro r h
        rcases ih _ h with ⟨hmem, hk⟩ | hget
        · exact .inl ⟨List.mem_cons_of_mem _ hmem, hk⟩
        · dsimp only at hget
          by_cases hproto : p.1 = Record.proto
          · rw [hproto, Record.get_assign_proto] at hget
            exact .inr hget
          · rw [Record.get_assign hproto] at hget
            split_ifs at hget with hp
            · subst hp
              exact .inl ⟨List.mem_cons_self, hproto⟩
            · exact .inr hget
  rcases key _ _ h with ⟨hmem, hk⟩ | hget
  · rw [List.zipIdx_map_fst] at hmem
    exact ⟨hmem, hk⟩
  · cases hget

/-- The property of a name is the cell of its column. -/
theorem get_record {header : List Text} (hnodup : header.Nodup) {i : ℕ} (hi : i < header.length)
    (hk : header[i] ≠ Record.proto) :
    (record header cells).get header[i] = some (cells[i]?.getD []) := by
  refine get_foldl_of_mem _ _ i ?_ ?_ hk
  · rwa [List.zipIdx_map_fst]
  · rw [List.mk_mem_zipIdx_iff_getElem?]
    exact List.getElem?_eq_getElem hi

/-- The cell of a column, by its name. -/
theorem get_zip {names row : List Text} (hnodup : names.Nodup) (hlen : row.length = names.length)
    {i : ℕ} (hi : i < names.length) :
    Record.get (names.zip row) names[i] = row[i]? := by
  induction names generalizing row i with
  | nil => cases hi
  | cons n names ih =>
      cases row with
      | nil => cases hlen
      | cons c row =>
          obtain ⟨hnot, hnodup'⟩ := List.nodup_cons.mp hnodup
          rw [List.zip_cons_cons, Record.get_cons]
          cases i with
          | zero => simp
          | succ i =>
              have hi' : i < names.length := Nat.lt_of_succ_lt_succ hi
              have hne : n ≠ names[i] := by
                rintro he
                exact hnot (he ▸ List.getElem_mem hi')
              simp only [List.getElem_cons_succ, List.getElem?_cons_succ]
              rw [if_neg hne]
              exact ih hnodup' (Nat.succ.inj hlen) hi'

theorem get_zip_of_notMem {names row : List Text} (h : k ∉ names) :
    Record.get (names.zip row) k = none := by
  induction names generalizing row with
  | nil => rfl
  | cons n names ih =>
      cases row with
      | nil => rfl
      | cons c row =>
          have hne : (n, c).1 ≠ k := fun he => h (List.mem_cons.mpr (.inl (Eq.symm he)))
          rw [List.zip_cons_cons, Record.get_cons, if_neg hne]
          exact ih fun hmem => h (by simp [hmem])

end names

/-! ### Which tables come back -/

namespace Table

variable {L : LowerCase} (t : Table L)

/-- The names as they are read. -/
def readNames : List Text := (splitRow (joinWith [','] t.header)).map (normalise L)

theorem roundTrips_iff_rows (eol : LineEnd) (final : Bool) :
    t.RoundTrips eol final ↔ ∀ row ∈ t.rows,
      (record t.readNames (splitRow (joinWith [','] row))).get =
        Record.get (t.names.zip row) := by
  unfold RoundTrips
  rw [t.parseBulkCsv_encode]
  simp only [Except.map, Except.ok.injEq, List.map_map]
  exact List.map_inj_left

theorem names_nodup : t.names.Nodup := t.distinct

theorem length_names {row : List Text} (hrow : row ∈ t.rows) : row.length = t.names.length := by
  rw [t.width row hrow]
  exact (List.length_map _).symm

/-- A header without commas and quotation marks is read as it is. -/
theorem readNames_plain (h : ∀ c ∈ t.header, Plain c) : t.readNames = t.names := by
  unfold readNames
  rw [splitRow_plain t.header_ne fun c hc => ⟨h c hc, t.trimmed t.header (by simp) c hc⟩]
  rfl

section converse

variable {t} {row : List Text}

/-- A row that comes back has names that are read. -/
theorem names_read (hrow : row ∈ t.rows)
    (h : (record t.readNames (splitRow (joinWith [','] row))).get =
      Record.get (t.names.zip row)) : ∀ n ∈ t.names, n ∈ t.readNames ∧ n ≠ Record.proto := by
  intro n hn
  obtain ⟨i, hi, rfl⟩ := List.getElem_of_mem hn
  have hi' : i < row.length := (t.length_names hrow).symm ▸ hi
  have hget : (record t.readNames (splitRow (joinWith [','] row))).get t.names[i] =
      some row[i] := by
    rw [h, get_zip t.names_nodup (t.length_names hrow) hi, List.getElem?_eq_getElem hi']
  exact mem_of_get_record hget

/-- Then no name has a comma or a quotation mark. -/
theorem plain_header (h : ∀ n ∈ t.names, n ∈ t.readNames ∧ n ≠ Record.proto) :
    ∀ c ∈ t.header, Plain c ∧ normalise L c ≠ Record.proto := by
  have hcount : ∀ cs : List Text, ((cs.map (normalise L)).map (·.count mark)).sum =
      (cs.map (·.count mark)).sum := by
    intro cs
    rw [List.map_map]
    exact congrArg List.sum (List.map_congr_left fun c _ => count_mark_normalise c)
  have hle : (t.header.map (·.count mark)).sum ≤
      ((splitRow (joinWith [','] t.header)).map (·.count mark)).sum := by
    rw [← hcount t.header, ← hcount (splitRow _)]
    obtain ⟨l, hperm, hsub⟩ := t.names_nodup.subperm fun n hn => (h n hn).1
    calc (t.names.map (·.count mark)).sum = (l.map (·.count mark)).sum :=
          ((hperm.map _).sum_eq).symm
      _ ≤ (t.readNames.map (·.count mark)).sum := (hsub.map _).sum_le_sum fun _ _ => Nat.zero_le _
  have hmark := mark_notMem_of_le hle
  intro c hc
  have hn : normalise L c ∈ t.names := List.mem_map_of_mem hc
  refine ⟨⟨fun hm => hmark (mem_joinWith hc hm), fun hcomma => ?_⟩, (h _ hn).2⟩
  obtain ⟨e, he, heq⟩ := List.mem_map.mp (h _ hn).1
  exact comma_notMem_splitRow hmark e he
    (comma_mem_normalise.mp (heq ▸ comma_mem_normalise.mpr hcomma))

/-- Then no cell of the row has one either. -/
theorem plain_row (hheader : ∀ c ∈ t.header, Plain c ∧ normalise L c ≠ Record.proto)
    (hrow : row ∈ t.rows) (h : (record t.readNames (splitRow (joinWith [','] row))).get =
      Record.get (t.names.zip row)) : ∀ c ∈ row, Plain c := by
  have hlen := t.length_names hrow
  have hcells : ∀ i (hi : i < row.length),
      row[i] = ((splitRow (joinWith [','] row))[i]?).getD [] := by
    intro i hi
    have hi' : i < t.names.length := hlen ▸ hi
    have hproto : t.names[i] ≠ Record.proto := by
      obtain ⟨c, hc, heq⟩ := List.mem_map.mp (List.getElem_mem hi')
      exact heq ▸ (hheader c hc).2
    have hread := congrFun h t.names[i]
    rw [t.readNames_plain fun c hc => (hheader c hc).1, get_record t.names_nodup hi' hproto,
      get_zip t.names_nodup hlen hi', List.getElem?_eq_getElem hi] at hread
    exact (Option.some.inj hread).symm
  have hsum : ∀ (row cells : List Text), (∀ i (hi : i < row.length),
      row[i] = (cells[i]?).getD []) →
        (row.map (·.count mark)).sum ≤ (cells.map (·.count mark)).sum := by
    intro row
    induction row with
    | nil => exact fun _ _ => Nat.zero_le _
    | cons c row ih =>
        intro cells hc
        have hhead := hc 0 (by simp)
        cases cells with
        | nil =>
            have hrest := ih [] fun i hi => hc (i + 1) (Nat.succ_lt_succ hi)
            have hc0 : c = [] := by simpa using hhead
            simpa [hc0] using hrest
        | cons e cells =>
            have hrest := ih cells fun i hi => hc (i + 1) (Nat.succ_lt_succ hi)
            have hc0 : c = e := by simpa using hhead
            simpa [hc0] using hrest
  have hmark := mark_notMem_of_le (hsum row _ hcells)
  intro c hc
  refine ⟨fun hm => hmark (mem_joinWith hc hm), fun hcomma => ?_⟩
  obtain ⟨i, hi, rfl⟩ := List.getElem_of_mem hc
  rw [hcells i hi] at hcomma
  cases hcell : (splitRow (joinWith [','] row))[i]? with
  | none =>
      rw [hcell] at hcomma
      cases hcomma
  | some e =>
      rw [hcell] at hcomma
      exact comma_notMem_splitRow hmark e (List.mem_of_getElem? hcell) hcomma

end converse

/-- **A table comes back from its CSV** exactly when it has no rows, or no comma and no quotation
mark in a cell and no name that is no property. -/
theorem roundTrips_iff (eol : LineEnd) (final : Bool) :
    t.RoundTrips eol final ↔ t.Unmarked := by
  rw [t.roundTrips_iff_rows]
  constructor
  · intro h
    by_cases hempty : t.rows = []
    · exact .inl hempty
    · obtain ⟨row, rows, hcons⟩ := List.exists_cons_of_ne_nil hempty
      have hrow : row ∈ t.rows := by simp [hcons]
      have hheader := plain_header (names_read hrow (h row hrow))
      exact .inr ⟨hheader, fun row hrow => plain_row hheader hrow (h row hrow)⟩
  · rintro (hempty | ⟨hheader, hrows⟩) row hrow
    · rw [hempty] at hrow
      cases hrow
    · have hlen := t.length_names hrow
      have hne : row ≠ [] := by
        rintro rfl
        obtain ⟨c, hc, -⟩ := t.rows_ne _ hrow
        cases hc
      rw [t.readNames_plain fun c hc => (hheader c hc).1, splitRow_plain hne fun c hc =>
        ⟨hrows row hrow c hc, t.trimmed row (List.mem_cons_of_mem _ hrow) c hc⟩]
      funext k
      by_cases hk : k ∈ t.names
      · obtain ⟨i, hi, rfl⟩ := List.getElem_of_mem hk
        have hproto : t.names[i] ≠ Record.proto := by
          obtain ⟨c, hc, heq⟩ := List.mem_map.mp hk
          exact heq ▸ (hheader c hc).2
        rw [get_record t.names_nodup hi hproto, get_zip t.names_nodup hlen hi,
          List.getElem?_eq_getElem (hlen ▸ hi), Option.getD_some]
      · rw [get_zip_of_notMem hk]
        by_contra hsome
        obtain ⟨v, hv⟩ := Option.ne_none_iff_exists'.mp hsome
        exact hk (mem_of_get_record hv).1

end Table

/-! ### A thousand -/

/-- Lower case makes no comma and no quotation mark, and leaves them. -/
theorem toLower_eq_iff {c k : Char} (hk : k.toNat < 65) : c.toLower = k ↔ c = k := by
  unfold Char.toLower
  split_ifs with h
  · have hupper : 65 ≤ c.val.toNat ∧ c.val.toNat ≤ 90 := by
      simpa [UInt32.le_iff_toNat_le] using h
    constructor
    · rintro rfl
      exfalso
      have hlow : (c.val + ('a'.val - 'A'.val)).toNat < 65 := hk
      rw [UInt32.toNat_add, show ('a'.val - 'A'.val).toNat = 32 by decide] at hlow
      omega
    · rintro rfl
      exfalso
      have hlow : c.val.toNat < 65 := hk
      omega
  · rfl

theorem count_map_toLower {k : Char} (hk : k.toNat < 65) (s : Text) :
    (s.map Char.toLower).count k = s.count k := by
  unfold List.count
  rw [List.countP_map]
  refine List.countP_congr fun c _ => ?_
  simp [toLower_eq_iff hk]

/-- Lower case of the English letters. -/
def english : LowerCase where
  lower s := s.map Char.toLower
  keeps_comma := count_map_toLower (by decide)
  keeps_mark := count_map_toLower (by decide)

/-- One payment, of a thousand. -/
def thousand : Table english where
  header := ["recipient_id".toList, "amount".toList]
  rows := [["r1".toList, "1,000".toList]]
  header_ne := by simp
  names_ne := by decide
  distinct := by decide
  width := by decide
  rows_ne := by decide
  trimmed := by decide

/-- It comes back as a payment of one. -/
theorem thousand_is_one :
    parseBulkCsv english (thousand.encode .lf true) =
        .ok [[("recipient_id".toList, "r1".toList), ("amount".toList, "1".toList)]] ∧
      ¬ thousand.RoundTrips .lf true := by
  refine ⟨by decide +kernel, fun h => ?_⟩
  rcases (thousand.roundTrips_iff .lf true).mp h with hempty | ⟨-, hrows⟩
  · cases hempty
  · have hplain := hrows _ (List.mem_singleton.mpr rfl) "1,000".toList (by decide)
    exact hplain.2 (by decide)

end DayfiBackend.Infra.BulkCsv
