import LeadSheet.Proofs.Markup.LyricSheet

/-!
# Reference lines

A reference line says how a chord is held: `- name: [label|frets]`. Whether the name is a chord is for the database to
say, and letter case does not matter to it. But a line is read as a reference line only if its name begins with a
capital letter from A to G; any other line of this form is an item of a list, also when its name is a chord.

* `ReferenceLine` : a line of this form by its parts;
* `ReferenceLine.html`, `ReferenceLine.itemHtml` : what it reads like as a reference line and as an item;
* `ReferenceLine.kind_line` : which of the two it is;
* `ReferenceLine.render_eq_html_iff` : so a body of just this line is a reference line, or else a list.
-/

namespace LeadSheet.Markup

open Text

/-! ## Lines of this form -/

/-- A name, a label and the frets, as they stand in a line `- name: [label|frets]`. -/
structure ReferenceLine where
  name : List Char
  label : List Char
  frets : List Char
  name_ne_nil : name ≠ []
  trim_name : Text.trim name = name
  isLyric_name : IsLyric name
  colon_not_mem : ':' ∉ name
  isLyric_label : IsLyric label
  frets_ne_nil : frets ≠ []
  isFretChar_frets : ∀ c ∈ frets, isFretChar c = true

namespace ReferenceLine

variable (r : ReferenceLine)

/-- What stands between the brackets. -/
def content : List Char := r.label ++ '|' :: r.frets

/-- The line behind its hyphen. -/
def entry : List Char := r.name ++ ':' :: ' ' :: '[' :: (r.content ++ [']'])

def text : List Char := '-' :: ' ' :: r.entry

/-- What it reads like in a document as a reference line. -/
def html : List Char :=
  "<div class=\"chord-ref-line\">".toList ++ ("<span class=\"chord-name\">".toList ++ r.name ++ "</span>".toList) ++
    ": ".toList ++ ("<span class=\"chord-frets\">".toList ++ r.frets ++ "</span>".toList) ++ "</div>".toList

/-- The brackets with their content inside a line. A database may even have a chord by the name of all the content. -/
def contentHtml (db : Chord.Database) : List Char :=
  if db.isChord r.content then "<span class=\"chord-inline\">".toList ++ r.content ++ "</span>".toList
  else '[' :: r.content ++ [']']

/-- What the line reads like as a list of one item. -/
def itemHtml (db : Chord.Database) : List Char :=
  "<ul>".toList ++ ("<li>".toList ++ (r.name ++ ": ".toList ++ r.contentHtml db) ++ "</li>".toList) ++ "</ul>".toList

/-- The name begins with a capital letter from A to G. -/
def opensCapital : Bool := r.name.head?.any fun c => 'A' ≤ c && c ≤ 'G'

theorem isLyric_frets : IsLyric r.frets := by
  have hmarks : ∀ c ∈ ['[', ']', '*', '_', '~', '<', '>', '&', '|', '`', '\r', '\n'], isFretChar c = false := by
    simp [isFretChar, isAsciiHexDigit, isAsciiDigit]
  intro c hc
  rw [isLyricChar, Bool.not_eq_true', Bool.eq_false_iff, ne_eq, List.contains_iff_mem]
  intro hmem
  simpa [hmarks c hmem] using r.isFretChar_frets c hc

/-- No character of a line of this form has a meaning inside a line, but for the brackets and the bar. -/
theorem not_mem_text {c : Char} (hc : isLyricChar c = false) (hne : c ≠ '[' ∧ c ≠ ']' ∧ c ≠ '|') : c ∉ r.text := by
  have hother : ∀ d ∈ ['-', ' ', ':'], c ≠ d := by
    rintro d hd rfl
    have : ∀ d ∈ ['-', ' ', ':'], isLyricChar d = true := by simp [isLyricChar]
    simp [this c hd] at hc
  simp only [List.forall_mem_cons] at hother
  simp [text, entry, content, hne, hother, r.isLyric_name.not_mem hc, r.isLyric_label.not_mem hc,
    r.isLyric_frets.not_mem hc]

theorem not_mem_content {c : Char} (hc : isLyricChar c = false) (hne : c ≠ '|') : c ∉ r.content := by
  simp [content, hne, r.isLyric_label.not_mem hc, r.isLyric_frets.not_mem hc]

theorem escape_content : escape r.content = r.content := by
  have hbar : escape ('|' :: r.frets) = '|' :: escape r.frets := rfl
  rw [content, escape_append, hbar, r.isLyric_label.escape_eq, r.isLyric_frets.escape_eq]

theorem line_entry :
    Line.ofChars r.entry = Line.ofChars r.name ++ .char ':' :: .char ' ' :: .char '[' ::
      (Line.ofChars r.content ++ [.char ']']) := by
  simp [entry]

/-! ## What kind of line it is -/

/-- The name ends at the colon. -/
theorem span_entry :
    (Line.ofChars r.entry).takeWhile (Piece.sat (· != ':')) = Line.ofChars r.name ∧
      (Line.ofChars r.entry).dropWhile (Piece.sat (· != ':')) =
        .char ':' :: .char ' ' :: .char '[' :: (Line.ofChars r.content ++ [.char ']']) := by
  have hname : ∀ c ∈ r.name, Piece.sat (· != ':') (.char c) = true := fun c hc =>
    bne_iff_ne.mpr fun heq => r.colon_not_mem (heq ▸ hc)
  have hcolon : Piece.sat (· != ':') (.char ':') = false := rfl
  rw [line_entry]
  exact ⟨takeWhile_ofChars_mark hname hcolon _, dropWhile_ofChars_mark hname hcolon _⟩

/-- The content ends at the closing bracket. -/
theorem span_content :
    (Line.ofChars r.content ++ [Piece.char ']']).takeWhile (!Piece.is ']' ·) = Line.ofChars r.content ∧
      (Line.ofChars r.content ++ [Piece.char ']']).dropWhile (!Piece.is ']' ·) = [.char ']'] := by
  have hcontent := not_is_of_not_mem (r.not_mem_content (c := ']') (by decide) (by decide))
  have hclose : (!Piece.is ']' (.char ']')) = false := rfl
  exact ⟨takeWhile_ofChars_mark (p := (!Piece.is ']' ·)) hcontent hclose _,
    dropWhile_ofChars_mark (p := (!Piece.is ']' ·)) hcontent hclose _⟩

/-- The frets stand after the last bar. -/
theorem takeWhile_reverse_content :
    (Line.ofChars r.content).reverse.takeWhile (!Piece.is '|' ·) = (Line.ofChars r.frets).reverse := by
  have hfrets : '|' ∉ r.frets.reverse := by simp [r.isLyric_frets.not_mem (c := '|') (by decide)]
  have hbar : (!Piece.is '|' (.char '|')) = false := rfl
  have hreverse : (Line.ofChars r.content).reverse =
      Line.ofChars r.frets.reverse ++ .char '|' :: Line.ofChars r.label.reverse := by
    simp [content, Line.ofChars]
  rw [hreverse, takeWhile_ofChars_mark (p := (!Piece.is '|' ·)) (not_is_of_not_mem hfrets) hbar, Line.ofChars,
    List.map_reverse, Line.ofChars]

theorem referenceParts?_line :
    referenceParts? (Line.ofChars r.text) =
      if r.opensCapital then some ⟨Line.ofChars r.name, Line.ofChars r.frets, []⟩ else none := by
  have hmark : Line.dropMark? ['-', ' '] (Line.ofChars r.text) = some (Line.ofChars r.entry) := rfl
  have hinner : ∀ l, Line.dropMark? [':', ' ', '['] (.char ':' :: .char ' ' :: .char '[' :: l) = some l := fun _ => rfl
  have hhead : (Line.ofChars r.name).head?.any (Piece.sat fun c => 'A' ≤ c && c ≤ 'G') = r.opensCapital := by
    rw [opensCapital]
    cases r.name with
    | nil => rfl
    | cons c name => rfl
  have hbar : hasBar (Line.ofChars r.content) = true :=
    List.any_eq_true.mpr ⟨.char '|', char_mem_ofChars.mpr (by simp [content]), rfl⟩
  have hempty : (Line.ofChars r.frets).isEmpty = false := by simpa [Line.ofChars] using r.frets_ne_nil
  have hall : (Line.ofChars r.frets).all (Piece.sat isFretChar) = true :=
    List.all_eq_true.mpr (List.forall_mem_map.mpr r.isFretChar_frets)
  rw [referenceParts?, hmark]
  simp only [r.span_entry, hinner, r.span_content, r.takeWhile_reverse_content, List.reverse_reverse, hhead, hbar,
    hempty, hall, trim_ofChars, r.trim_name, Bool.not_false, Bool.and_true]

theorem reference?_line (db : Chord.Database) :
    reference? db (Line.ofChars r.text) =
      if r.opensCapital = true ∧ db.isChord r.name = true then some ⟨Line.ofChars r.name, Line.ofChars r.frets, []⟩
      else none := by
  rw [reference?, referenceParts?_line]
  cases r.opensCapital with
  | false => rfl
  | true =>
      have hsource : Line.source (Line.ofChars r.name) = r.name := by rw [source_ofChars, r.isLyric_name.escape_eq]
      simp only [if_true, Option.filter_some, hsource, true_and]

theorem isRule_line : isRule (Line.ofChars r.text) = false := by
  have hstart : Line.dropBlanks (Line.ofChars r.text) = Line.ofChars r.text := rfl
  have hend : Line.dropEndBlanks (Line.ofChars r.text) = Line.ofChars r.text := by
    have hclose : Piece.sat isBlank (.char ']') = false := rfl
    have hline : Line.ofChars r.text =
        Line.ofChars ('-' :: ' ' :: (r.name ++ ':' :: ' ' :: '[' :: r.content)) ++ .char ']' :: [] := by
      simp [text, entry]
    rw [hline, Line.dropEndBlanks, dropEndWhile_append_mark hclose]
    rfl
  have hmarks : (['-', '*', '_'].any fun c => (Line.ofChars r.text).all (Piece.is c)) = false := by
    rw [List.any_eq_false]
    intro c hc hall
    simp only [text, Line.ofChars_cons, List.all_cons, Bool.and_eq_true, Piece.is, Piece.sat, beq_iff_eq] at hall
    exact absurd (hall.1.trans hall.2.1.symm) (by decide)
  simp only [isRule, hstart, hend, hmarks, Bool.and_false]

theorem item?_line : item? (Line.ofChars r.text) = some ⟨0, false, Line.ofChars r.entry⟩ := by
  have hentry : Line.dropBlanks (.char ' ' :: Line.ofChars r.entry) = Line.ofChars r.entry := by
    obtain ⟨c, name, hname⟩ := List.exists_cons_of_ne_nil r.name_ne_nil
    have hspace : isSpace c = false := isSpace_head_of_trim (hname ▸ r.trim_name)
    have hblank : Piece.sat isBlank (.char c) = false := by
      rw [Piece.sat, Bool.eq_false_iff]
      exact fun hblank => by simp [isSpace_of_isBlank hblank] at hspace
    have hfirst : Piece.sat isBlank (.char ' ') = true := rfl
    rw [entry, hname, List.cons_append, Line.ofChars_cons, Line.dropBlanks, List.dropWhile_cons, hfirst, if_pos rfl,
      List.dropWhile_cons, hblank]
    rfl
  have hitem : item? (Line.ofChars r.text) =
      if isRule (Line.ofChars r.text) then none
      else some ⟨0, false, Line.dropBlanks (.char ' ' :: Line.ofChars r.entry)⟩ := rfl
  rw [hitem, r.isRule_line, hentry]
  rfl

/-- The line is a reference line if its name is a chord that begins with a capital letter, and an item otherwise. -/
theorem kind_line (db : Chord.Database) :
    kind db (Line.ofChars r.text) none =
      if r.opensCapital = true ∧ db.isChord r.name = true then
        .reference ⟨Line.ofChars r.name, Line.ofChars r.frets, []⟩
      else .item := by
  have hempty : Line.isEmptyLine (Line.ofChars r.text) = false := rfl
  have hheading : heading? (Line.ofChars r.text) = none := heading?_eq_none (by simp [text])
  have hquoted : quoted? (Line.ofChars r.text) = none := rfl
  by_cases h : r.opensCapital = true ∧ db.isChord r.name = true
  · have hreference := r.reference?_line db
    rw [if_pos h] at hreference
    rw [kind, hempty, hheading, r.isRule_line, hreference, if_pos h]
    rfl
  · have hreference := r.reference?_line db
    rw [if_neg h] at hreference
    rw [kind, hempty, hheading, r.isRule_line, hreference, hquoted, r.item?_line, if_neg h]
    simp

/-! ## The document -/

/-- The line by itself. -/
theorem setCode_text : setCode r.text = ([.line (Line.ofChars r.text)], 0) := by
  have hchars : ∀ l ∈ [r.text], ∀ c ∈ ['\r', '\n', '`'], c ∉ l := by
    intro l hl c hc
    rw [List.mem_singleton.mp hl]
    have hforeign : ∀ c ∈ ['\r', '\n', '`'], isLyricChar c = false ∧ c ≠ '[' ∧ c ≠ ']' ∧ c ≠ '|' := by
      simp [isLyricChar]
    exact r.not_mem_text (hforeign c hc).1 (hforeign c hc).2
  have h := setCode_joinLines (List.cons_ne_nil r.text []) hchars
  rwa [joinLines, List.intercalate_singleton] at h

theorem print_referenceTokens :
    Token.print (referenceTokens ⟨Line.ofChars r.name, Line.ofChars r.frets, []⟩ []) = r.html := by
  have hreference : (Tag.opening .reference).text = "<div class=\"chord-ref-line\">".toList ∧
      (Tag.closing .reference).text = "</div>".toList := by decide
  have hname : (Tag.opening .referenceName).text = "<span class=\"chord-name\">".toList ∧
      (Tag.closing .referenceName).text = "</span>".toList := by decide
  have hfrets : (Tag.opening .referenceFrets).text = "<span class=\"chord-frets\">".toList ∧
      (Tag.closing .referenceFrets).text = "</span>".toList := by decide
  have hcolon : Token.print [.char ':', .char ' '] = ": ".toList := by decide
  rw [referenceTokens, List.append_nil]
  simp only [print_element, print_append, r.isLyric_name.print_line, r.isLyric_frets.print_line, hreference, hname,
    hfrets, hcolon]
  unfold html
  simp only [List.append_assoc]

theorem linkless_entry : Linkless (Line.ofChars r.entry) := by
  have hfront : ']' ∉ r.name ++ ':' :: ' ' :: '[' :: r.content := by
    simp [r.isLyric_name.not_mem (c := ']') (by decide), r.not_mem_content (c := ']') (by decide) (by decide)]
  have hentry : r.entry = (r.name ++ ':' :: ' ' :: '[' :: r.content) ++ [']'] := by simp [entry]
  intro h
  rw [Line.infix_ofChars_iff, hentry] at h
  exact absurd (infix_of_infix_append hfront h).length_le (by decide)

theorem print_setChords_content (db : Chord.Database) :
    Token.print (Line.tokens (setChords db (.char '[' :: (Line.ofChars r.content ++ [.char ']'])))) =
      r.contentHtml db := by
  have hnil : setChords db [] = [] := by rw [setChords]
  rw [print_setChords_name db (by simp [content]) (r.not_mem_content (by decide) (by decide)) r.escape_content, hnil]
  exact List.append_nil _

/-- Marking up the entry can only show the content of its brackets as a chord. -/
theorem renderLine_entry (db : Chord.Database) (n : Nat) :
    ∃ ts, renderLine db n (Line.ofChars r.entry) = (ts, n) ∧
      Token.print ts = r.name ++ ": ".toList ++ r.contentHtml db := by
  have hmarks : ∀ c ∈ ['~', '*', '_'], .char c ∉ Line.ofChars r.entry := by
    intro c hc
    have hforeign : ∀ c ∈ ['~', '*', '_'], isLyricChar c = false ∧ c ≠ '[' ∧ c ≠ ']' ∧ c ≠ '|' := by simp [isLyricChar]
    have htext := r.not_mem_text (hforeign c hc).1 (hforeign c hc).2
    rw [text, List.mem_cons, List.mem_cons, not_or, not_or] at htext
    rw [char_mem_ofChars]
    exact htext.2.2
  have hfront : Line.ofChars r.entry =
      Line.ofChars (r.name ++ [':', ' ']) ++ .char '[' :: (Line.ofChars r.content ++ [.char ']']) := by
    simp [entry]
  have hopen : '[' ∉ r.name ++ [':', ' '] := by simp [r.isLyric_name.not_mem (c := '[') (by decide)]
  have hcolon : escape [':', ' '] = ": ".toList := by decide
  refine ⟨Line.tokens (setChords db (Line.ofChars r.entry)), ?_, ?_⟩
  · simp only [renderLine, setImages_of_linkless r.linkless_entry, setLinks_of_linkless r.linkless_entry,
      setEmphases_of_not_mem hmarks]
  · rw [hfront, setChords_ofChars_append db hopen, Line.tokens_append, print_append, r.print_setChords_content,
      Line.tokens_ofChars, print_ofChars, escape_append, r.isLyric_name.escape_eq, hcolon]

theorem print_renderList (db : Chord.Database) (n : Nat) :
    ∃ ts, renderList db n [⟨0, false, Line.ofChars r.entry⟩] = (ts, n) ∧ Token.print ts = r.itemHtml db := by
  obtain ⟨ts, hline, hprint⟩ := r.renderLine_entry db n
  refine ⟨Token.element .bulletList (Token.element .item ts), ?_, ?_⟩
  · have hnest : nestItems [] [(⟨0, false⟩, ts)] = Token.element .bulletList (Token.element .item ts) := by
      simp [nestItems, enterList, OpenList.closeAll, OpenList.close, OpenList.element, Token.element]
    simp only [renderList, renderLines, List.map_cons, List.map_nil, hline, List.zip_cons_cons, List.zip_nil_left,
      hnest]
  · have hlist : (Tag.opening .bulletList).text = "<ul>".toList ∧ (Tag.closing .bulletList).text = "</ul>".toList := by
      decide
    have hitem : (Tag.opening .item).text = "<li>".toList ∧ (Tag.closing .item).text = "</li>".toList := by decide
    simp only [print_element, hprint, hlist, hitem]
    unfold itemHtml
    simp only [List.append_assoc]

/-- The line by itself is one block. -/
theorem print_renderBlocks (db : Chord.Database) :
    ∃ ts, renderBlocks db 0 (readBlocks db [.line (Line.ofChars r.text)]) = [ts] ∧
      Token.print ts = if r.opensCapital = true ∧ db.isChord r.name = true then r.html else r.itemHtml db := by
  have hkind := r.kind_line db
  by_cases h : r.opensCapital = true ∧ db.isChord r.name = true
  · rw [if_pos h] at hkind ⊢
    refine ⟨_, ?_, r.print_referenceTokens⟩
    rw [readBlocks]
    simp only [List.head?_nil, hkind, readBlocks]
    rfl
  · rw [if_neg h] at hkind ⊢
    obtain ⟨ts, hlist, hprint⟩ := r.print_renderList db 0
    refine ⟨ts, ?_, hprint⟩
    rw [readBlocks]
    simp only [List.head?_nil, hkind, readBlocks, List.takeWhile_nil, List.dropWhile_nil, List.filterMap_cons,
      List.filterMap_nil, lineItem?, r.item?_line]
    simp only [renderBlocks, renderBlock, hlist]

theorem render_text (db : Chord.Database) :
    (render db (String.ofList r.text)).toList =
      if r.opensCapital = true ∧ db.isChord r.name = true then r.html else r.itemHtml db := by
  obtain ⟨ts, hblocks, hprint⟩ := r.print_renderBlocks db
  rw [render, String.toList_ofList, String.toList_ofList, bodyTokens, r.setCode_text, ← hprint]
  simp only [hblocks, List.intercalate_singleton]

theorem html_ne_itemHtml (db : Chord.Database) : r.html ≠ r.itemHtml db := by
  obtain ⟨s, hs⟩ : ∃ s, r.html = '<' :: 'd' :: s := ⟨_, rfl⟩
  obtain ⟨t, ht⟩ : ∃ t, r.itemHtml db = '<' :: 'u' :: t := ⟨_, rfl⟩
  rw [hs, ht]
  simp

/-- A body of this one line is a reference line just if its name is a chord that begins with a capital letter from A to
G. Otherwise it is a list with one item. -/
theorem render_eq_html_iff (db : Chord.Database) :
    ((render db (String.ofList r.text)).toList = r.html ↔ r.opensCapital = true ∧ db.isChord r.name = true) ∧
      ((render db (String.ofList r.text)).toList ≠ r.html →
        (render db (String.ofList r.text)).toList = r.itemHtml db) := by
  rw [r.render_text db]
  by_cases h : r.opensCapital = true ∧ db.isChord r.name = true
  · rw [if_pos h]
    exact ⟨iff_of_true rfl h, fun hne => absurd rfl hne⟩
  · rw [if_neg h]
    exact ⟨iff_of_false (r.html_ne_itemHtml db).symm h, fun _ => rfl⟩

example :
    render .cMajor "- C: [open|x32010]" =
      "<div class=\"chord-ref-line\"><span class=\"chord-name\">C</span>: " ++
        "<span class=\"chord-frets\">x32010</span></div>" := by
  decide +kernel

/-- A chord in small letters. -/
def lowerC : ReferenceLine where
  name := ['c']
  label := ['c']
  frets := "x32010".toList
  name_ne_nil := by decide
  trim_name := by decide
  isLyric_name := by decide
  colon_not_mem := by decide
  isLyric_label := by decide
  frets_ne_nil := by decide
  isFretChar_frets := List.all_eq_true.mp (by decide)

/-- In a lyric the name is a chord, and in a line of this form it is not. -/
theorem not_html_lowerC :
    lowerC.text = "- c: [c|x32010]".toList ∧ Chord.Database.cMajor.isChord lowerC.name = true ∧
      render .cMajor "la [c]" = "<p>la <span class=\"chord-inline\">c</span></p>" ∧
      render .cMajor "- c: [c|x32010]" = "<ul><li>c: [c|x32010]</li></ul>" ∧
      ¬ ((render .cMajor (String.ofList lowerC.text)).toList = lowerC.html ↔
        Chord.Database.cMajor.isChord lowerC.name = true) := by
  decide +kernel

end ReferenceLine

end LeadSheet.Markup
