import LeadSheet.Proofs.Markup.LyricSheet

/-!
# Tables

A table is written as a header, a line of marks for its columns and any number of rows, with a bar before, between
and after the cells of each. It keeps every cell (`render_tableSheet`): the header has its cells in order, and so has
each row, which may have more or fewer of them.

* `TableSheet.text`, `TableSheet.html` : the table as it is written, and what it reads like in a document;
* `cutAtBars_barred` : the parts of a line with bars around them;
* `isSeparator_separator` : the line of marks makes the line before it a header;
* `cells_rowText` : reading a row gives its cells;
* `readBlocks_sources` : the lines of the table are one block, which ends at a blank line;
* `print_renderTable` : what the block reads like.
-/

namespace LeadSheet.Markup

open Text

/-! ## Tables and their meaning -/

/-- A cell: a text without markup and without white space at either end. -/
structure Cell where
  text : List Char
  isLyric_text : IsLyric text
  trim_text : Text.trim text = text

/-- The mark of a column: hyphens, one and possibly more, and perhaps a colon at either end. -/
structure ColumnMark where
  colonBefore : Bool
  moreHyphens : Nat
  colonAfter : Bool

def Cell.phrase (c : Cell) : Phrase := ⟨c.text, [], c.isLyric_text⟩

/-- A header of two cells or more, a mark for each of them, and rows of one cell or more. -/
structure TableSheet where
  header : List Cell
  marks : List ColumnMark
  rows : List (List Cell)
  two_le_header : 2 ≤ header.length
  length_marks : marks.length = header.length
  rows_ne_nil : ∀ row ∈ rows, row ≠ []

/-- A line of parts with a bar before, between and after them. -/
def barred (parts : List (List Char)) : List Char := '|' :: (List.intercalate ['|'] parts ++ ['|'])

def Cell.padded (c : Cell) : List Char := ' ' :: (c.text ++ [' '])

/-- A row as it is written. -/
def rowText (row : List Cell) : List Char := barred (row.map Cell.padded)

/-- A colon where there is one. -/
def colonText (colon : Bool) : List Char := if colon then [':'] else []

def ColumnMark.text (m : ColumnMark) : List Char :=
  colonText m.colonBefore ++ (List.replicate (m.moreHyphens + 1) '-' ++ colonText m.colonAfter)

def elementHtml (name : String) (content : List Char) : List Char :=
  '<' :: name.toList ++ '>' :: content ++ '<' :: '/' :: name.toList ++ ['>']

def rowHtml (name : String) (row : List Cell) : List Char :=
  elementHtml "tr" (row.flatMap fun c => elementHtml name c.text)

namespace TableSheet

/-- The line under the header. -/
def separator (t : TableSheet) : List Char := barred (t.marks.map ColumnMark.text)

def textLines (t : TableSheet) : List (List Char) := rowText t.header :: t.separator :: t.rows.map rowText

def text (t : TableSheet) : List Char := joinLines t.textLines

def html (t : TableSheet) : List Char :=
  "<table class=\"tab-table\">".toList ++ elementHtml "thead" (rowHtml "th" t.header) ++
    elementHtml "tbody" (t.rows.flatMap (rowHtml "td")) ++ "</table>".toList

end TableSheet

/-! ## Lines with bars -/

section Barred

variable {parts : List (List Char)}

theorem ofChars_barred (parts : List (List Char)) :
    Line.ofChars (barred parts) =
      .char '|' :: (Line.ofChars (List.intercalate ['|'] parts) ++ [.char '|']) := by
  rw [barred, Line.ofChars_cons, Line.ofChars_append]
  rfl

/-- The bars at its ends keep the line from being trimmed. -/
theorem dropEnds_barred {p : Piece → Bool} (hp : p (.char '|') = false) (parts : List (List Char)) :
    dropEndWhile p ((Line.ofChars (barred parts)).dropWhile p) = Line.ofChars (barred parts) := by
  have hstart : (Line.ofChars (barred parts)).dropWhile p = Line.ofChars (barred parts) := by
    rw [ofChars_barred, List.dropWhile_cons, hp, if_neg Bool.false_ne_true]
  rw [hstart, ofChars_barred, ← List.cons_append, dropEndWhile_append_mark hp]
  rfl

/-- The parts of the line are found between its bars. -/
theorem cutAtBars_barred (hne : parts ≠ []) (h : ∀ part ∈ parts, '|' ∉ part) :
    cutAtBars (dropEndBar (dropBar (Line.ofChars (barred parts)))) = parts.map Line.ofChars := by
  have hinner : dropEndBar (dropBar (Line.ofChars (barred parts))) = Line.ofChars (List.intercalate ['|'] parts) := by
    have hbar : Piece.is '|' (.char '|') = true := rfl
    rw [ofChars_barred, dropBar, if_pos hbar, dropEndBar, List.reverse_append, List.reverse_singleton,
      List.singleton_append, dropBar, if_pos hbar, List.reverse_reverse]
  have huncut : ∀ part ∈ parts, ∀ c ∈ part, (c == '|') = false :=
    fun part hpart c hc => beq_eq_false_iff_ne.mpr fun heq => h part hpart (heq ▸ hc)
  rw [hinner, cutAtBars, Line.ofChars, cutAt_map (p := (· == '|')) fun _ _ => rfl, cutAt_intercalate rfl hne huncut]
  rfl

theorem hasBar_barred (parts : List (List Char)) : hasBar (Line.ofChars (barred parts)) = true := by
  rw [ofChars_barred]
  rfl

theorem isEmptyLine_barred (parts : List (List Char)) : Line.isEmptyLine (Line.ofChars (barred parts)) = false := by
  have hbar : Piece.sat isSpace (.char '|') = false := by decide
  rw [ofChars_barred, Line.isEmptyLine, List.all_cons, hbar, Bool.false_and]

theorem not_mem_barred {c : Char} (hc : c ≠ '|') (h : ∀ part ∈ parts, c ∉ part) : c ∉ barred parts := by
  have hinner := not_mem_intercalate hc h
  simp [barred, hc, hinner]

end Barred

/-! ## The line of marks -/

namespace ColumnMark

theorem mem_text {m : ColumnMark} {c : Char} (h : c ∈ m.text) : c = ':' ∨ c = '-' := by
  have hcolon : ∀ colon, c ∈ colonText colon → c = ':' := by
    intro colon hc
    unfold colonText at hc
    split at hc
    · exact List.mem_singleton.mp hc
    · exact absurd hc List.not_mem_nil
  rcases List.mem_append.mp h with h | h
  · exact Or.inl (hcolon _ h)
  · rcases List.mem_append.mp h with h | h
    · exact Or.inr (List.eq_of_mem_replicate h)
    · exact Or.inl (hcolon _ h)

theorem isSeparatorCell_text (m : ColumnMark) : isSeparatorCell (Line.ofChars m.text) = true := by
  have hnone : ∀ a ∈ Line.ofChars m.text, Piece.sat isBlank a = false := by
    refine List.forall_mem_map.mpr fun c hc => ?_
    rcases mem_text hc with rfl | rfl <;> rfl
  have hblankless : Line.dropEndBlanks (Line.dropBlanks (Line.ofChars m.text)) = Line.ofChars m.text := by
    rw [Line.dropBlanks, dropWhile_of_none hnone, Line.dropEndBlanks, dropEndWhile_of_none hnone]
  have hyphens : ∀ a ∈ Line.ofChars (List.replicate (m.moreHyphens + 1) '-'), Piece.is '-' a = true := by
    rw [Line.ofChars, List.map_replicate]
    intro a ha
    rw [List.eq_of_mem_replicate ha]
    rfl
  have hhead : (Line.ofChars m.text).head?.any (Piece.is ':') = m.colonBefore := by
    cases hcolon : m.colonBefore with
    | false => simp [text, hcolon, colonText, List.replicate_succ, Piece.is, Piece.sat]
    | true => simp [text, hcolon, colonText, Piece.is, Piece.sat]
  have hdrop : (if m.colonBefore then (Line.ofChars m.text).drop 1 else Line.ofChars m.text) =
      Line.ofChars (List.replicate (m.moreHyphens + 1) '-') ++ Line.ofChars (colonText m.colonAfter) := by
    rw [← Line.ofChars_append, text]
    cases m.colonBefore with
    | false => rfl
    | true => rfl
  simp only [isSeparatorCell, hblankless, hhead, hdrop]
  rw [List.takeWhile_append_of_pos hyphens, List.dropWhile_append_of_pos hyphens]
  cases m.colonAfter with
  | false => simp [colonText, List.replicate_succ]
  | true => simp [colonText, List.replicate_succ, Piece.is, Piece.sat]

end ColumnMark

/-! ## Rows -/

theorem Cell.text_phrase (c : Cell) : c.phrase.text = c.text := List.append_nil c.text

theorem Cell.html_phrase (db : Chord.Database) (c : Cell) : c.phrase.html db = c.text := List.append_nil c.text

def rowLines (row : List Cell) : List Line := (row.map Cell.phrase).map Phrase.line

theorem trim_padded (c : Cell) : Text.trim c.padded = c.text := by
  have hspace : isSpace ' ' = true := by decide
  have hstart : Text.trim c.padded = Text.trim (c.text ++ [' ']) := by
    rw [Text.trim, Cell.padded, trimStart, List.dropWhile_cons, if_pos hspace]
    rfl
  have hend : ∀ s, Text.trimEnd (s ++ [' ']) = Text.trimEnd s := by
    intro s
    rw [Text.trimEnd, dropEndWhile, List.reverse_append, List.reverse_singleton, List.singleton_append,
      List.dropWhile_cons, if_pos hspace]
    rfl
  rw [hstart]
  have htrim := c.trim_text
  cases htext : c.text with
  | nil => decide
  | cons d s =>
      rw [htext] at htrim
      have hd : isSpace d = false := isSpace_head_of_trim htrim
      have hkeep : ∀ t, trimStart (d :: t) = d :: t := fun _ => dropWhile_of_head hd
      rw [Text.trim, hkeep] at htrim
      rw [List.cons_append, Text.trim, hkeep, ← List.cons_append, hend, htrim]

/-- The cells of a row are read as they were written, whatever their number. -/
theorem cells_rowText {row : List Cell} (hne : row ≠ []) :
    cells (Line.ofChars (rowText row)) = rowLines row := by
  have hbar : Piece.sat isSpace (.char '|') = false := by decide
  have huncut : ∀ part ∈ row.map Cell.padded, '|' ∉ part := by
    refine List.forall_mem_map.mpr fun c _ => ?_
    have htext : '|' ∉ c.text := c.isLyric_text.not_mem (by decide)
    simp [Cell.padded, htext]
  have htrim : ∀ c : Cell, Line.trim (Line.ofChars c.padded) = c.phrase.line := by
    intro c
    rw [trim_ofChars, trim_padded, Phrase.line, c.text_phrase]
  rw [cells, Line.trim, rowText, dropEnds_barred hbar, cutAtBars_barred (by simpa using hne) huncut, List.map_map,
    List.map_map, rowLines, List.map_map]
  exact List.map_congr_left fun c _ => htrim c

def rowSource (row : List Cell) : Source Line := .line (Line.ofChars (rowText row))

theorem continuesTable_rowSource (row : List Cell) : continuesTable (rowSource row) = true := by
  rw [rowSource, continuesTable, rowText, isEmptyLine_barred, hasBar_barred]
  rfl

/-! ## The block of a table -/

namespace TableSheet

variable (t : TableSheet)

def sources : List (Source Line) := t.textLines.map fun l => .line (Line.ofChars l)

/-- The line of marks makes the line before it a header. -/
theorem isSeparator_separator : isSeparator (Line.ofChars t.separator) = true := by
  have hbar : Piece.sat isBlank (.char '|') = false := by decide
  have huncut : ∀ part ∈ t.marks.map ColumnMark.text, '|' ∉ part :=
    List.forall_mem_map.mpr fun m _ hmem => absurd (ColumnMark.mem_text hmem) (by decide)
  have htwo : 2 ≤ t.marks.length := t.length_marks ▸ t.two_le_header
  have hne : t.marks.map ColumnMark.text ≠ [] :=
    List.ne_nil_of_length_pos (by rw [List.length_map]; exact Nat.lt_of_lt_of_le Nat.two_pos htwo)
  have hparts : cutAtBars (dropEndBar (dropBar (Line.dropEndBlanks (Line.dropBlanks (Line.ofChars t.separator))))) =
      t.marks.map fun m => Line.ofChars m.text := by
    rw [Line.dropBlanks, Line.dropEndBlanks, separator, dropEnds_barred hbar, cutAtBars_barred hne huncut, List.map_map]
    rfl
  have hall : (t.marks.map fun m => Line.ofChars m.text).all isSeparatorCell = true :=
    List.all_eq_true.mpr (List.forall_mem_map.mpr fun m _ => m.isSeparatorCell_text)
  simp only [isSeparator, hparts, hall, List.length_map, htwo, decide_true, Bool.and_self]

theorem kind_header (db : Chord.Database) :
    kind db (Line.ofChars (rowText t.header)) (some (.line (Line.ofChars t.separator))) = .table := by
  have hline : Line.dropBlanks (Line.ofChars (rowText t.header)) =
      .char '|' :: (Line.ofChars (List.intercalate ['|'] (t.header.map Cell.padded)) ++ [.char '|']) := by
    rw [rowText, ofChars_barred]
    rfl
  rw [kind_of_head hline (by decide), rowText, hasBar_barred, Option.any_some]
  simp only [t.isSeparator_separator, Bool.and_self, if_true]

/-- The lines of the table are one block, which ends before a line that is no further row. -/
theorem readBlocks_sources (db : Chord.Database) {rest : List (Source Line)}
    (hrest : rest.head?.any continuesTable = false) :
    readBlocks db (t.sources ++ rest) =
      .table (rowLines t.header) (t.rows.map rowLines) :: readBlocks db rest := by
  have hrows : ∀ s ∈ t.rows.map rowSource, continuesTable s = true :=
    List.forall_mem_map.mpr fun row _ => continuesTable_rowSource row
  have hcells : (t.rows.map rowSource).map rowCells = t.rows.map rowLines := by
    rw [List.map_map]
    exact List.map_congr_left fun row hrow => cells_rowText (t.rows_ne_nil row hrow)
  have hheader : t.header ≠ [] := List.ne_nil_of_length_pos (Nat.lt_of_lt_of_le Nat.two_pos t.two_le_header)
  have hsources : t.sources ++ rest = rowSource t.header ::
      .line (Line.ofChars t.separator) :: (t.rows.map rowSource ++ rest) := by
    rw [sources, textLines, List.map_cons, List.map_cons, List.map_map]
    rfl
  rw [hsources, rowSource, readBlocks, List.head?_cons, t.kind_header]
  simp only [List.tail_cons, List.takeWhile_append_of_pos hrows, List.dropWhile_append_of_pos hrows,
    takeWhile_of_head hrest, dropWhile_of_head hrest, List.append_nil, hcells, cells_rowText hheader]

end TableSheet

/-! ## The document of a table -/

theorem print_element_name {e : Element} {name : String} (hname : e.name = name.toList)
    (hrole : (Tag.opening e).attributes = []) (ts : List Token) :
    Token.print (Token.element e ts) = elementHtml name (Token.print ts) := by
  rw [print_element, Tag.text, Tag.text, hrole, elementHtml]
  simp [Tag.name, Tag.attributes, hname]

section Render

variable (db : Chord.Database)

theorem print_renderCells (n : Nat) {e : Element} {name : String} (hname : e.name = name.toList)
    (hrole : (Tag.opening e).attributes = []) (row : List Cell) :
    ∃ ts, renderCells db n e (rowLines row) = (ts, n) ∧ Token.print ts = rowHtml name row := by
  obtain ⟨tss, htss, hprints⟩ := renderLines_phrases db n (row.map Cell.phrase)
  have htexts : tss.map Token.print = row.map Cell.text := by
    rw [hprints, List.map_map]
    exact List.map_congr_left fun c _ => c.html_phrase db
  have hcells : Token.print (tss.flatMap (Token.element e)) = row.flatMap fun c => elementHtml name c.text := calc
    Token.print (tss.flatMap (Token.element e)) = tss.flatMap fun ts => Token.print (Token.element e ts) :=
      List.flatMap_assoc
    _ = tss.flatMap fun ts => elementHtml name (Token.print ts) := by
      simp only [print_element_name hname hrole]
    _ = (tss.map Token.print).flatMap (elementHtml name) := (List.flatMap_map ..).symm
    _ = row.flatMap fun c => elementHtml name c.text := by rw [htexts, List.flatMap_map]
  refine ⟨Token.element .tableRow (tss.flatMap (Token.element e)), ?_, ?_⟩
  · simp only [renderCells, rowLines, htss]
  · rw [@print_element_name .tableRow "tr" rfl rfl, hcells, rowHtml]

theorem print_renderRows (n : Nat) (rows : List (List Cell)) :
    ∃ ts, renderRows db n (rows.map rowLines) = (ts, n) ∧ Token.print ts = rows.flatMap (rowHtml "td") := by
  induction rows with
  | nil => exact ⟨[], rfl, rfl⟩
  | cons row rows ih =>
      obtain ⟨first, hfirst, hprint⟩ := @print_renderCells db n .cell "td" rfl rfl row
      obtain ⟨others, hothers, hprints⟩ := ih
      refine ⟨first ++ others, ?_, ?_⟩
      · simp only [List.map_cons, renderRows, hfirst, hothers]
      · rw [print_append, hprint, hprints, List.flatMap_cons]

namespace TableSheet

variable (t : TableSheet)

theorem print_renderTable (n : Nat) :
    ∃ ts, renderTable db n (rowLines t.header) (t.rows.map rowLines) = (ts, n) ∧ Token.print ts = t.html := by
  obtain ⟨head, hhead, hprint⟩ := @print_renderCells db n .headCell "th" rfl rfl t.header
  obtain ⟨body, hbody, hprints⟩ := print_renderRows db n t.rows
  have hopen : (Tag.opening .table).text = "<table class=\"tab-table\">".toList := by decide
  have hclose : (Tag.closing .table).text = "</table>".toList := by decide
  refine ⟨Token.element .table (Token.element .tableHead head ++ Token.element .tableBody body), ?_, ?_⟩
  · simp only [renderTable, hhead, hbody]
  · have hparts : Token.print (Token.element .tableHead head ++ Token.element .tableBody body) =
        elementHtml "thead" (rowHtml "th" t.header) ++ elementHtml "tbody" (t.rows.flatMap (rowHtml "td")) := by
      rw [print_append, @print_element_name .tableHead "thead" rfl rfl, @print_element_name .tableBody "tbody" rfl rfl,
        hprint, hprints]
    -- unfolded first, since the two texts would be compared by evaluating their literals
    unfold html
    rw [print_element, hparts, hopen, hclose]
    simp only [List.append_assoc]

/-- The lines of the table are one block of the document. -/
theorem exists_renderBlocks_sources (n : Nat) {rest : List (Source Line)}
    (hrest : rest.head?.any continuesTable = false) :
    ∃ ts, Token.print ts = t.html ∧
      renderBlocks db n (readBlocks db (t.sources ++ rest)) = ts :: renderBlocks db n (readBlocks db rest) := by
  obtain ⟨ts, hts, hprint⟩ := t.print_renderTable db n
  have hblock : renderBlock db n (.table (rowLines t.header) (t.rows.map rowLines)) = (ts, n) := hts
  refine ⟨ts, hprint, ?_⟩
  rw [t.readBlocks_sources db hrest]
  simp only [renderBlocks, hblock]

end TableSheet

end Render

theorem not_mem_rowText (row : List Cell) {c : Char} (hc : isLyricChar c = false) (hbar : c ≠ '|')
    (hspace : c ≠ ' ') : c ∉ rowText row := by
  refine not_mem_barred hbar (List.forall_mem_map.mpr fun cell _ => ?_)
  have htext : c ∉ cell.text := cell.isLyric_text.not_mem hc
  simp [Cell.padded, htext, hspace]

theorem TableSheet.not_mem_textLines (t : TableSheet) :
    ∀ l ∈ t.textLines, ∀ c ∈ ['\r', '\n', '`'], c ∉ l := by
  have hchars : ∀ c ∈ ['\r', '\n', '`'],
      isLyricChar c = false ∧ c ≠ '|' ∧ c ≠ ' ' ∧ c ≠ ':' ∧ c ≠ '-' := by simp [isLyricChar]
  intro l hl c hc
  obtain ⟨hlyric, hbar, hspace, hcolon, hhyphen⟩ := hchars c hc
  have hseparator : c ∉ t.separator :=
    not_mem_barred hbar (List.forall_mem_map.mpr fun m _ hmem => (ColumnMark.mem_text hmem).elim hcolon hhyphen)
  rcases List.mem_cons.mp hl with rfl | hl
  · exact not_mem_rowText t.header hlyric hbar hspace
  · rcases List.mem_cons.mp hl with rfl | hl
    · exact hseparator
    · obtain ⟨row, -, rfl⟩ := List.mem_map.mp hl
      exact not_mem_rowText row hlyric hbar hspace

/-- A table keeps every cell, in a document of its own and before a blank line with anything after it. -/
theorem render_tableSheet (db : Chord.Database) (t : TableSheet) :
    render db (String.ofList t.text) = String.ofList t.html ∧
      ∀ body : List Char, StartsBlank body →
        render db (String.ofList (t.text ++ '\n' :: body)) =
          String.ofList (t.html ++ if HasText body then '\n' :: (render db (String.ofList body)).toList else []) := by
  have hne : t.textLines ≠ [] := List.cons_ne_nil _ _
  constructor
  · obtain ⟨ts, hprint, hblocks⟩ := @t.exists_renderBlocks_sources db 0 [] rfl
    rw [List.append_nil, readBlocks, renderBlocks] at hblocks
    have hcode : setCode t.text = (t.sources, 0) := setCode_joinLines hne t.not_mem_textLines
    have htokens : bodyTokens db t.text = ts := by
      simp only [bodyTokens, hcode, hblocks, List.intercalate_singleton]
    rw [render, String.toList_ofList, htokens, hprint]
  · intro body hblank
    obtain ⟨line, rest, hsources, hempty⟩ := exists_setCode_of_startsBlank hblank
    have hstop : (setCode body).1.head?.any continuesTable = false := by
      rw [hsources, List.head?_cons, Option.any_some, continuesTable, hempty]
      rfl
    obtain ⟨ts, hprint, hblocks⟩ := t.exists_renderBlocks_sources db (setCode body).2 hstop
    rw [render, render, String.toList_ofList, String.toList_ofList, String.toList_ofList, TableSheet.text,
      print_bodyTokens_append hne t.not_mem_textLines hblocks, hprint]

/-- A table with an empty cell, a row longer than its header and a shorter one. -/
def TableSheet.ragged : TableSheet where
  header := [⟨"E".toList, by decide, by decide⟩, ⟨"A".toList, by decide, by decide⟩]
  marks := [⟨true, 2, false⟩, ⟨false, 0, true⟩]
  rows :=
    [[⟨[], by decide, by decide⟩, ⟨"2".toList, by decide, by decide⟩, ⟨"x 0".toList, by decide, by decide⟩],
      [⟨"3".toList, by decide, by decide⟩]]
  two_le_header := by decide
  length_marks := by decide
  rows_ne_nil := by simp

theorem render_tableSheet_ragged :
    StartsBlank " \nla".toList ∧
      render .cMajor (String.ofList (TableSheet.ragged.text ++ '\n' :: " \nla".toList)) =
        String.ofList (TableSheet.ragged.html ++ '\n' :: (render .cMajor " \nla").toList) := by
  have hblank : StartsBlank " \nla".toList := by decide +kernel
  have htext : HasText " \nla".toList := by decide +kernel
  have h := (render_tableSheet .cMajor TableSheet.ragged).2 _ hblank
  rw [if_pos htext, String.ofList_toList] at h
  exact ⟨hblank, h⟩

example : TableSheet.ragged.text = "| E | A |\n|:---|-:|\n|  | 2 | x 0 |\n| 3 |".toList := by decide

end LeadSheet.Markup
