import LeadSheet.Proofs.Chord.Names
import LeadSheet.Proofs.Markup.Codeless
import LeadSheet.Proofs.Markup.Lyrics

/-!
# Lyric sheets

A lyric sheet has three kinds of lines: blank ones, lyrics with bracketed names in them, and lines that begin with a
bracketed name. Such a sheet has one meaning, which is found by going through its lines once (`render_sheet`).

* `Draft.read` : what a line does to the document so far;
* `kind_of_head` : the first character of a line keeps it from opening a block other than a table or a label;
* `renderBlocks_foldr` : the lines read so far are the first ones of the paragraph that comes next;
* `Draft.finish_cons` : reading a line leaves the finished document as it is.
-/

namespace LeadSheet.Markup

open Text

/-! ## Sheets and their meaning -/

inductive SheetLine
  | blank (blanks : List Char) (h : AllBlank blanks)
  | lyric (phrase : Phrase) (h : phrase.first.head?.any isAsciiLetter = true)
  | bracketed (indent : List Char) (h : AllBlank indent) (head : Bracket) (rest : List Bracket)

/-- A bracketed name, what comes after it, and some blanks before it. -/
def Bracket.phrase (b : Bracket) {indent : List Char} (h : AllBlank indent) (rest : List Bracket) : Phrase :=
  ⟨indent, b :: rest, isLyric_of_allBlank h⟩

def Bracket.remainder (b : Bracket) (rest : List Bracket) : Phrase := ⟨b.text, rest, b.isLyric_text⟩

def SheetLine.text : SheetLine → List Char
  | .blank blanks _ => blanks
  | .lyric phrase _ => phrase.text
  | .bracketed _ h head rest => (head.phrase h rest).text

def paragraphHtml (lines : List (List Char)) : List Char :=
  "<p>".toList ++ List.intercalate "<br>".toList lines ++ "</p>".toList

def labelHtml (name : List Char) : List Char := "<div class=\"section-label\">".toList ++ name ++ "</div>".toList

/-- A document so far: its blocks, and the lines of the paragraph that has not ended yet. -/
structure Draft where
  blocks : List (List Char)
  paragraph : List (List Char)

namespace Draft

/-- Ends the paragraph. -/
def flush (d : Draft) : Draft := if d.paragraph = [] then d else ⟨d.blocks ++ [paragraphHtml d.paragraph], []⟩

def append (d : Draft) (line : List Char) : Draft := { d with paragraph := d.paragraph ++ [line] }

def addLabel (d : Draft) (name : List Char) : Draft := ⟨d.flush.blocks ++ [labelHtml name], []⟩

def read (db : Chord.Database) (d : Draft) : SheetLine → Draft
  | .blank _ _ => d.flush
  | .lyric phrase _ => d.append (phrase.html db)
  | .bracketed _ h head rest =>
    if Text.trim (head.remainder rest).text = [] then d.addLabel head.name
    else if db.isChord head.name then d.append ((head.phrase h rest).html db)
    else (d.addLabel head.name).append ((head.remainder rest).trim.html db)

/-- The document with its paragraph ended. -/
def html (d : Draft) : List Char :=
  match d.flush.blocks with
  | [] => "<p></p>".toList
  | blocks => joinLines blocks

end Draft

/-! ## Kinds of lines -/

/-- A character that a block other than a label or a paragraph can begin with, or white space. -/
def opensBlock (c : Char) : Bool := isSpace c || isDigit c || ['#', '-', '*', '_', '+', '>'].contains c

theorem opensBlock_of_isAsciiLetter {c : Char} (h : isAsciiLetter c = true) : opensBlock c = false := by
  have hspace : isSpace c = false := by
    rw [Bool.eq_false_iff]
    exact fun hspace => by simp [isAsciiLetter_of_isSpace hspace] at h
  have hdigit : isDigit c = false := by
    rw [Bool.eq_false_iff]
    exact fun hdigit => by simp [isAsciiLetter_of_isDigit hdigit] at h
  have hmark : ['#', '-', '*', '_', '+', '>'].contains c = false := by
    have hletters : ∀ d ∈ ['#', '-', '*', '_', '+', '>'], isAsciiLetter d = false := by simp [isAsciiLetter]
    rw [Bool.eq_false_iff, ne_eq, List.contains_iff_mem]
    exact fun hmark => by simp [hletters c hmark] at h
  rw [opensBlock, hspace, hdigit, hmark]
  rfl

section Head

variable {db : Chord.Database} {line rest : Line} {c : Char}

theorem ne_of_dropBlanks (hline : Line.dropBlanks line = .char c :: rest) {d : Char} (hd : isBlank d = false)
    (hne : d ≠ c) : ∀ rest', line ≠ .char d :: rest' := by
  rintro rest' rfl
  have hpiece : Piece.sat isBlank (.char d) = false := hd
  rw [Line.dropBlanks, List.dropWhile_cons, hpiece] at hline
  exact hne (Piece.char.inj (List.cons.inj hline).1)

theorem heading?_eq_none (h : ∀ rest, line ≠ .char '#' :: rest) : heading? line = none := by
  have hmarks : line.takeWhile (Piece.is '#') = [] := by
    cases line with
    | nil => rfl
    | cons p line =>
        rw [List.takeWhile_cons, if_neg]
        exact fun hp => h line (by rw [Piece.eq_char_of_is hp])
  simp [heading?, hmarks]

theorem reference?_eq_none (h : ∀ rest, line ≠ .char '-' :: rest) : reference? db line = none := by
  rw [reference?, referenceParts?, Line.dropMark?_of_ne h]
  rfl

theorem isRule_eq_false (hline : Line.dropBlanks line = .char c :: rest) (hblank : isBlank c = false)
    (hc : c ∉ ['-', '*', '_']) : isRule line = false := by
  have hpiece : Piece.sat isBlank (.char c) = false := hblank
  have hmarks : Line.dropEndBlanks (.char c :: rest) = .char c :: Line.dropEndBlanks rest :=
    dropEndWhile_append_mark hpiece [] rest
  have hany : (['-', '*', '_'].any fun d => (Line.dropEndBlanks (.char c :: rest)).all (Piece.is d)) = false := by
    rw [List.any_eq_false]
    intro d hd hall
    rw [hmarks, List.all_cons, Bool.and_eq_true] at hall
    have hcd : c = d := by simpa [Piece.is, Piece.sat] using hall.1
    exact hc (hcd ▸ hd)
  rw [isRule, hline, hany, Bool.and_false]

theorem item?_eq_none (hline : Line.dropBlanks line = .char c :: rest) (hdigit : isDigit c = false)
    (hbullet : isBulletChar c = false) : item? line = none := by
  have hspan : (Line.spanChars isDigit (.char c :: rest)).1 = [] := by simp [Line.spanChars, hdigit]
  have hnone : bullet? (Line.dropBlanks line) = none := by
    rw [hline, bullet?_eq, if_neg (by simp [Piece.sat, hbullet]), if_pos hspan]
  unfold item?
  split
  · rfl
  · rw [hnone]
    rfl

theorem isEmptyLine_eq_false (hline : Line.dropBlanks line = .char c :: rest) (hspace : isSpace c = false) :
    Line.isEmptyLine line = false := by
  have hmem : .char c ∈ line := (List.dropWhile_sublist _).mem (hline ▸ List.mem_cons_self)
  rw [Line.isEmptyLine, List.all_eq_false]
  exact ⟨_, hmem, by simp [Piece.sat, hspace]⟩

theorem quoted?_eq_none (hline : Line.dropBlanks line = .char c :: rest) (hc : c ≠ '>') : quoted? line = none := by
  rw [quoted?_eq, hline, Line.dropMark?_of_ne fun _ h => hc (Piece.char.inj (List.cons.inj h).1)]
  rfl

/-- A line with such a character after its blanks opens no block other than a table or a label. -/
theorem opensNothing_of_head (hline : Line.dropBlanks line = .char c :: rest) (hc : opensBlock c = false) :
    Line.isEmptyLine line = false ∧ heading? line = none ∧ isRule line = false ∧ quoted? line = none ∧
      item? line = none ∧ ∀ db, reference? db line = none := by
  simp only [opensBlock, Bool.or_eq_false_iff, List.contains_eq_mem, decide_eq_false_iff_not, List.mem_cons,
    List.not_mem_nil, or_false, not_or] at hc
  obtain ⟨⟨hspace, hdigit⟩, hhash, hhyphen, hstar, hunder, hplus, hquote⟩ := hc
  have hblank : isBlank c = false := by
    rw [Bool.eq_false_iff]
    exact fun hblank => by simp [isSpace_of_isBlank hblank] at hspace
  exact ⟨isEmptyLine_eq_false hline hspace, heading?_eq_none (ne_of_dropBlanks hline (by decide) (Ne.symm hhash)),
    isRule_eq_false hline hblank (by simp [hhyphen, hstar, hunder]), quoted?_eq_none hline hquote,
    item?_eq_none hline hdigit (by simp [isBulletChar, hhyphen, hstar, hplus]),
    fun _ => reference?_eq_none (ne_of_dropBlanks hline (by decide) (Ne.symm hhyphen))⟩

/-- It is the header of a table or a label, or belongs to a paragraph. -/
theorem kind_of_head (hline : Line.dropBlanks line = .char c :: rest) (hc : opensBlock c = false)
    (next : Option (Source Line)) :
    kind db line next =
      if hasBar line && next.any (fun | .line l => isSeparator l | .fence _ _ => false) then .table
      else match label? db line with
        | some (name, remainder) => .label name remainder
        | none => .plain := by
  obtain ⟨hempty, hheading, hrule, hquoted, hitem, hreference⟩ := opensNothing_of_head hline hc
  rw [kind, hempty, hheading, hrule, hreference, hquoted, hitem]
  rfl

/-- Without a bar it is no header. -/
theorem kind_of_head_barless (hline : Line.dropBlanks line = .char c :: rest) (hc : opensBlock c = false)
    (hbar : hasBar line = false) (next : Option (Source Line)) :
    kind db line next = match label? db line with
      | some (name, remainder) => .label name remainder
      | none => .plain := by
  rw [kind_of_head hline hc, hbar]
  rfl

end Head

theorem hasBar_ofChars {s : List Char} (h : '|' ∉ s) : hasBar (Line.ofChars s) = false := by
  rw [hasBar, List.any_eq_false]
  rintro p hp hbar
  rw [Piece.eq_char_of_is hbar, char_mem_ofChars] at hp
  exact h hp

theorem trim_ofChars (s : List Char) : Line.trim (Line.ofChars s) = Line.ofChars (Text.trim s) := by
  have hsat : Piece.sat isSpace ∘ Piece.char = isSpace := rfl
  rw [Line.trim, Line.ofChars, List.dropWhile_map, dropEndWhile, ← List.map_reverse, List.dropWhile_map,
    ← List.map_reverse, hsat]
  rfl

section Kinds

variable {db : Chord.Database}

theorem allBlank_nil : AllBlank [] := by simp [AllBlank]

theorem forall_sat_blank {s : List Char} (h : AllBlank s) : ∀ p ∈ Line.ofChars s, Piece.sat isBlank p = true :=
  List.forall_mem_map.mpr h

theorem dropBlanks_indent {indent : List Char} (h : AllBlank indent) {c : Char} (hc : isBlank c = false) (rest : Line) :
    Line.dropBlanks (Line.ofChars indent ++ .char c :: rest) = .char c :: rest := by
  have hpiece : Piece.sat isBlank (.char c) = false := hc
  rw [Line.dropBlanks, List.dropWhile_append_of_pos (forall_sat_blank h), List.dropWhile_cons, hpiece]
  rfl

theorem dropBlanks_letter {c : Char} (hc : isAsciiLetter c = true) (s : List Char) :
    Line.dropBlanks (Line.ofChars (c :: s)) = .char c :: Line.ofChars s := by
  have hblank : isBlank c = false := by
    rw [Bool.eq_false_iff]
    exact fun hblank => by simp [isAsciiLetter_of_isSpace (isSpace_of_isBlank hblank)] at hc
  exact dropBlanks_indent allBlank_nil hblank (Line.ofChars s)

theorem kind_blank {blanks : List Char} (h : AllBlank blanks) (next : Option (Source Line)) :
    kind db (Line.ofChars blanks) next = .blank := by
  have hempty : Line.isEmptyLine (Line.ofChars blanks) = true := by
    rw [Line.isEmptyLine, List.all_eq_true]
    intro p hp
    obtain ⟨c, hc, rfl⟩ := List.mem_map.mp hp
    exact isSpace_of_isBlank (h c hc)
  rw [kind, if_pos hempty]

/-- A line that begins with a letter and holds no bar belongs to a paragraph. -/
theorem kind_letter {s : List Char} (h : s.head?.any isAsciiLetter = true) (hbar : '|' ∉ s)
    (next : Option (Source Line)) : kind db (Line.ofChars s) next = .plain := by
  obtain ⟨c, hhead, hc⟩ := (Option.any_eq_true _ _).mp h
  obtain ⟨rest, rfl⟩ := List.head?_eq_some_iff.mp hhead
  have hline := dropBlanks_letter hc rest
  have hlabel : label? db (Line.ofChars (c :: rest)) = none := by
    have hopen : c ≠ '[' := by
      rintro rfl
      exact absurd hc (by decide)
    rw [label?_eq, hline, Line.dropMark?_of_ne fun _ heq => hopen (Piece.char.inj (List.cons.inj heq).1)]
    rfl
  rw [kind_of_head_barless hline (opensBlock_of_isAsciiLetter hc) (hasBar_ofChars hbar), hlabel]

theorem kind_lyric {p : Phrase} (h : p.first.head?.any isAsciiLetter = true) (next : Option (Source Line)) :
    kind db (Line.ofChars p.text) next = .plain := by
  have hhead : p.text.head?.any isAsciiLetter = true := by
    obtain ⟨c, hhead, hc⟩ := (Option.any_eq_true _ _).mp h
    obtain ⟨first, hfirst⟩ := List.head?_eq_some_iff.mp hhead
    rw [Phrase.text, hfirst, List.cons_append, List.head?_cons, Option.any_some, hc]
  exact kind_letter hhead (p.not_mem_text (by decide) (by decide)) next

theorem kind_bracketed {indent : List Char} (h : AllBlank indent) (b : Bracket) (rest : List Bracket)
    (next : Option (Source Line)) :
    kind db (Line.ofChars (b.phrase h rest).text) next =
      if Text.trim (b.remainder rest).text ≠ [] ∧ db.isChord b.name = true then .plain
      else .label (Line.ofChars b.name) (Line.ofChars (Text.trim (b.remainder rest).text)) := by
  have hclose : isLyricChar ']' = false := by decide
  have htext : (b.phrase h rest).text = indent ++ '[' :: (b.name ++ ']' :: (b.remainder rest).text) := by
    simp [Phrase.text, Bracket.phrase, Bracket.remainder, Bracket.source]
  have hline : Line.dropBlanks (Line.ofChars (b.phrase h rest).text) =
      .char '[' :: (Line.ofChars b.name ++ .char ']' :: Line.ofChars (b.remainder rest).text) := by
    rw [htext, Line.ofChars_append, Line.ofChars_cons, dropBlanks_indent h (by decide), Line.ofChars_append,
      Line.ofChars_cons]
  have haddress : (Line.ofChars (b.remainder rest).text).head?.any (Piece.is '(') = false := by
    have hhead : (b.remainder rest).text.head? ≠ some '(' := b.head_text rest
    cases hremainder : (b.remainder rest).text with
    | nil => rfl
    | cons c s =>
        rw [hremainder] at hhead
        simpa [Piece.is, Piece.sat] using hhead
  have hempty : ∀ s, (Line.ofChars s).isEmpty = s.isEmpty := fun s => List.isEmpty_map
  have hlabel : label? db (Line.ofChars (b.phrase h rest).text) =
      if Text.trim (b.remainder rest).text ≠ [] ∧ db.isChord b.name = true then none
      else some (Line.ofChars b.name, Line.ofChars (Text.trim (b.remainder rest).text)) := by
    rw [label?_eq, hline, Line.dropMark?_char, Line.dropMark?, Option.bind_some,
      bracketed?_ofChars b.name_ne_nil (b.isLyric_name.not_mem hclose), Option.bind_some]
    simp only [haddress, hempty, source_ofChars, b.isLyric_name.escape_eq, trim_ofChars, Bool.false_or]
    refine if_congr ?_ rfl rfl
    simp
  rw [kind_of_head_barless hline (by decide) (hasBar_ofChars ((b.phrase h rest).not_mem_text (by decide) (by decide))),
    hlabel]
  split_ifs
  · rfl
  · rfl

end Kinds

/-! ## Paragraphs -/

section Paragraphs

variable (db : Chord.Database)

theorem foldr_addLine {ls : List Line} {bs : List Block} (hne : ls ≠ [])
    (hbs : ∀ lines rest, bs ≠ .paragraph lines :: rest) : ls.foldr addLine bs = .paragraph ls :: bs := by
  induction ls with
  | nil => exact absurd rfl hne
  | cons l ls ih =>
      cases ls with
      | nil =>
          rw [List.foldr_cons, List.foldr_nil, addLine]
          exact hbs
      | cons l' ls => rw [List.foldr_cons, ih (List.cons_ne_nil _ _), addLine]

theorem renderLines_phrases (n : Nat) (ps : List Phrase) :
    ∃ tss, renderLines db n (ps.map Phrase.line) = (tss, n) ∧
      tss.map Token.print = ps.map (Phrase.html db) := by
  induction ps with
  | nil => exact ⟨[], rfl, rfl⟩
  | cons p ps ih =>
      obtain ⟨tss, htss, hprints⟩ := ih
      obtain ⟨ts, hts, hprint⟩ := renderLine_phrase db n p
      refine ⟨ts :: tss, ?_, by rw [List.map_cons, hprint, hprints, List.map_cons]⟩
      simp only [List.map_cons, renderLines, hts, htss]

theorem renderParagraph_phrases (n : Nat) (ps : List Phrase) :
    ∃ ts, renderParagraph db n (ps.map Phrase.line) = (ts, n) ∧
      Token.print ts = paragraphHtml (ps.map (Phrase.html db)) := by
  obtain ⟨tss, htss, hprints⟩ := renderLines_phrases db n ps
  refine ⟨Token.element .paragraph (joinBreaks tss), ?_, ?_⟩
  · simp only [renderParagraph, htss]
  · have hopen : (Tag.opening .paragraph).text = "<p>".toList := by decide
    have hclose : (Tag.closing .paragraph).text = "</p>".toList := by decide
    have hbreak : Token.print [.tag .lineBreak] = "<br>".toList := by decide
    rw [print_element, joinBreaks, print_intercalate, hprints, hopen, hclose, hbreak, paragraphHtml, List.append_assoc]

theorem Draft.flush_blocks (d : Draft) :
    d.flush.blocks = d.blocks ++ if d.paragraph = [] then [] else [paragraphHtml d.paragraph] := by
  unfold flush
  split
  · rw [List.append_nil]
  · rfl

theorem Draft.flush_paragraph (d : Draft) : d.flush.paragraph = [] := by
  unfold flush
  split
  · assumption
  · rfl

/-- The lines read so far are the first ones of the paragraph that comes next; without one, they are a paragraph. -/
theorem renderBlocks_foldr (n : Nat) {d : Draft} {ps : List Phrase} (hd : d.paragraph = ps.map (Phrase.html db))
    {bs : List Block} (hparagraph : ∀ lines rest, bs ≠ .paragraph lines :: rest)
    (hreference : ∀ r rest, bs ≠ .reference r :: rest) :
    d.blocks ++ (renderBlocks db n ((ps.map Phrase.line).foldr addLine bs)).map Token.print =
      d.flush.blocks ++ (renderBlocks db n bs).map Token.print := by
  rw [Draft.flush_blocks, List.append_assoc]
  refine congrArg (d.blocks ++ ·) ?_
  cases ps with
  | nil =>
      have hnone : d.paragraph = [] := hd
      rw [if_pos hnone, List.nil_append, List.map_nil, List.foldr_nil]
  | cons p ps =>
      obtain ⟨ts, hts, hprint⟩ := renderParagraph_phrases db n (p :: ps)
      have hne : d.paragraph ≠ [] := by simp [hd]
      have hblock : renderBlock db n (.paragraph ((p :: ps).map Phrase.line)) = (ts, n) := hts
      rw [foldr_addLine (by simp) hparagraph, if_neg hne, hd, renderBlocks]
      · simp only [hblock]
        rw [List.map_cons, hprint, List.singleton_append]
      · simp
      · intro lines r rest _ hrest
        exact hreference r rest hrest
      · simp

end Paragraphs

/-! ## The lines of a sheet -/

theorem SheetLine.not_mem_text (l : SheetLine) {c : Char} (hc : isLyricChar c = false) (hne : c ≠ '[' ∧ c ≠ ']') :
    c ∉ l.text := by
  cases l with
  | blank blanks h => exact (isLyric_of_allBlank h).not_mem hc
  | lyric phrase h => exact phrase.not_mem_text hc hne
  | bracketed indent h head rest => exact (head.phrase h rest).not_mem_text hc hne

/-! ## The blocks of a sheet -/

def SheetLine.source (l : SheetLine) : Source Line := .line (Line.ofChars l.text)

section Sheet

variable (db : Chord.Database)

theorem renderBlocks_label (n : Nat) (name : List Char) (bs : List Block) (hname : IsLyric name) :
    (renderBlocks db n (.label (Line.ofChars name) :: bs)).map Token.print =
      labelHtml name :: (renderBlocks db n bs).map Token.print := by
  have hopen : (Tag.opening .label).text = "<div class=\"section-label\">".toList := by decide
  have hclose : (Tag.closing .label).text = "</div>".toList := by decide
  have hprint : Token.print (Token.element .label (Line.tokens (Line.ofChars name))) = labelHtml name := by
    rw [print_element, hname.print_line, hopen, hclose, ← List.append_assoc]
    rfl
  simp only [renderBlocks, renderBlock, List.map_cons, hprint]

/-- The blocks of the draft and those of further lines, with the lines `ps` of the draft's paragraph in front. -/
def Draft.finish (n : Nat) (d : Draft) (ps : List Phrase) (ls : List SheetLine) : List (List Char) :=
  d.blocks ++ (renderBlocks db n ((ps.map Phrase.line).foldr addLine
    (readBlocks db (ls.map SheetLine.source)))).map Token.print

theorem Draft.append_paragraph {d : Draft} {ps : List Phrase} (hd : d.paragraph = ps.map (Phrase.html db))
    (p : Phrase) : (d.append (p.html db)).paragraph = (ps ++ [p]).map (Phrase.html db) := by
  rw [append, hd, List.map_append, List.map_singleton]

/-- Reading a line moves it from the lines that follow into the draft. -/
theorem Draft.finish_cons (n : Nat) {d : Draft} {ps : List Phrase} (hd : d.paragraph = ps.map (Phrase.html db))
    (l : SheetLine) (ls : List SheetLine) :
    ∃ ps', (d.read db l).paragraph = ps'.map (Phrase.html db) ∧
      d.finish db n ps (l :: ls) = (d.read db l).finish db n ps' ls := by
  have hplain : ∀ p : Phrase, ∀ bs : List Block, (ps.map Phrase.line).foldr addLine (addLine p.line bs) =
      ((ps ++ [p]).map Phrase.line).foldr addLine bs := by
    intro p bs
    rw [List.map_append, List.foldr_append]
    rfl
  rw [finish, List.map_cons, SheetLine.source, readBlocks]
  cases l with
  | blank blanks h =>
      refine ⟨[], d.flush_paragraph, ?_⟩
      simp only [SheetLine.text, kind_blank h, read]
      rw [renderBlocks_foldr db n hd (by simp) (by simp), renderBlocks]
      rfl
  | lyric phrase h =>
      refine ⟨ps ++ [phrase], append_paragraph db hd phrase, ?_⟩
      simp only [SheetLine.text, kind_lyric h, read]
      exact congrArg (fun bs => d.blocks ++ (renderBlocks db n bs).map Token.print) (hplain phrase _)
  | bracketed indent h head rest =>
      simp only [SheetLine.text, kind_bracketed h, read]
      by_cases hempty : Text.trim (head.remainder rest).text = []
      · refine ⟨[], by rw [if_pos hempty]; rfl, ?_⟩
        simp only [hempty, ne_eq, not_true_eq_false, false_and, if_false, if_true]
        rw [renderBlocks_foldr db n hd (by simp) (by simp), renderBlocks_label db n _ _ head.isLyric_name,
          List.append_cons]
        rfl
      · by_cases hchord : db.isChord head.name = true
        · refine ⟨ps ++ [head.phrase h rest], ?_, ?_⟩
          · rw [if_neg hempty, if_pos hchord]
            exact append_paragraph db hd _
          · simp only [hempty, hchord, ne_eq, not_false_eq_true, true_and, if_true, if_false]
            exact congrArg (fun bs => d.blocks ++ (renderBlocks db n bs).map Token.print)
              (hplain (head.phrase h rest) _)
        · have hremainder : (Line.ofChars (Text.trim (head.remainder rest).text)).isEmpty = false := by
            rw [Line.ofChars, List.isEmpty_map, List.isEmpty_eq_false_iff]
            exact hempty
          refine ⟨[(head.remainder rest).trim], by rw [if_neg hempty, if_neg hchord]; rfl, ?_⟩
          simp only [hempty, hchord, hremainder, and_false, if_false, Bool.false_eq_true]
          rw [renderBlocks_foldr db n hd (by simp) (by simp), renderBlocks_label db n _ _ head.isLyric_name,
            List.append_cons, ← (head.remainder rest).text_trim]
          rfl

/-- Reading all lines leaves the blocks of the document. -/
theorem Draft.finish_eq (n : Nat) (ls : List SheetLine) {d : Draft} {ps : List Phrase}
    (hd : d.paragraph = ps.map (Phrase.html db)) : d.finish db n ps ls = (ls.foldl (read db) d).flush.blocks := by
  induction ls generalizing d ps with
  | nil =>
      rw [finish, List.map_nil, readBlocks, renderBlocks_foldr db n hd (by simp) (by simp), renderBlocks, List.map_nil,
        List.append_nil, List.foldl_nil]
  | cons l ls ih =>
      obtain ⟨ps', hd', hstep⟩ := Draft.finish_cons db n hd l ls
      rw [hstep, ih hd', List.foldl_cons]

/-- A lyric sheet is rendered to its meaning: what going through its lines once makes of the empty document. -/
theorem render_sheet (ls : List SheetLine) :
    render db (String.ofList (joinLines (ls.map SheetLine.text))) =
      String.ofList (ls.foldl (Draft.read db) ⟨[], []⟩).html := by
  wlog hne : ls ≠ [] generalizing ls
  · obtain rfl : ls = [] := not_not.mp hne
    exact this [.blank [] (by simp [AllBlank])] (by simp)
  have hlines : setCode (joinLines (ls.map SheetLine.text)) = (ls.map SheetLine.source, 0) := by
    have hchars : ∀ l ∈ ls.map SheetLine.text, ∀ c ∈ ['\r', '\n', '`'], c ∉ l := by
      intro l hl c hc
      obtain ⟨line, -, rfl⟩ := List.mem_map.mp hl
      have hforeign : ∀ c ∈ ['\r', '\n', '`'], isLyricChar c = false ∧ c ≠ '[' ∧ c ≠ ']' := by simp [isLyricChar]
      exact line.not_mem_text (hforeign c hc).1 (hforeign c hc).2
    rw [setCode_joinLines (by simpa using hne) hchars, List.map_map]
    rfl
  have hstart : Draft.paragraph ⟨[], []⟩ = ([] : List Phrase).map (Phrase.html db) := rfl
  have hblocks := Draft.finish_eq db 0 ls hstart
  rw [Draft.finish, List.nil_append, List.map_nil, List.foldr_nil] at hblocks
  rw [render, String.toList_ofList, bodyTokens, hlines, Draft.html, ← hblocks]
  simp only
  cases renderBlocks db 0 (readBlocks db (ls.map SheetLine.source)) with
  | nil => exact congrArg String.ofList (by decide)
  | cons ts tss =>
      have hlf : Token.print [.char '\n'] = ['\n'] := by decide
      rw [print_intercalate, hlf]
      rfl

end Sheet

/-- A label with a lyric after it, a chord that leads a lyric, and a name that is no chord. -/
example :
    ([.bracketed [] (by decide) ⟨"Verse".toList, " (x2) ".toList, by decide, by decide, by decide, by decide⟩ [],
      .bracketed [' '] (by decide) ⟨['C'], "All".toList, by decide, by decide, by decide, by decide⟩ [],
      .blank ['\t'] (by decide),
      .lyric ⟨"day ".toList, [⟨['X'], [], by decide, by decide, by decide, by decide⟩], by decide⟩ (by decide)].foldl
        (Draft.read .cMajor) ⟨[], []⟩).html =
      ("<div class=\"section-label\">Verse</div>\n" ++
        "<p>(x2)<br> <span class=\"chord-inline\">C</span>All</p>\n<p>day [X]</p>").toList := by
  decide +kernel

end LeadSheet.Markup
