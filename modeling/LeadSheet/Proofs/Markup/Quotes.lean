import LeadSheet.Proofs.Markup.Tables

/-!
# Quotes

A quote begins with a line that is marked with `>`. Further lines belong to it if they are marked too, or if they
carry on the text of the line before them, which lines that begin with a letter do. It ends where another block
begins, or at a blank line. What follows is read as if it stood alone (`render_quotation`).

* `Quotation.textLines`, `Quotation.html` : the quote as it is written, and what it reads like in a document;
* `EndsQuote line after` : the line ends a quote, given the lines after it;
* `QuoteLine.continuesQuote_source`, `continuesQuote_of_endsQuote` : the lines of the quote belong to it, the line
  that ends it does not;
* `Quotation.readBlocks_sources` : so the quote is one block.
-/

namespace LeadSheet.Markup

open Text

/-! ## Quotes and their meaning -/

/-- A further line of a quote: a marked one, or one that carries on the text. -/
inductive QuoteLine
  | marked (text : List Char) (h : IsLyric text)
  | carried (text : List Char) (h : IsLyric text) (startsWithLetter : text.head?.any isAsciiLetter = true)

namespace QuoteLine

def source : QuoteLine → List Char
  | marked text _ => '>' :: ' ' :: text
  | carried text _ _ => text

/-- What the line adds to the quote. -/
def content : QuoteLine → List Char
  | marked text _ => text
  | carried text _ _ => Text.trim text

end QuoteLine

/-- A quote by its lines, the first of which is marked. -/
structure Quotation where
  first : List Char
  isLyric_first : IsLyric first
  rest : List QuoteLine

namespace Quotation

def lines (q : Quotation) : List QuoteLine := .marked q.first q.isLyric_first :: q.rest

def textLines (q : Quotation) : List (List Char) := q.lines.map QuoteLine.source

def html (q : Quotation) : List Char :=
  elementHtml "blockquote" (List.intercalate "<br>".toList (q.lines.map QuoteLine.content))

end Quotation

/-- A line that ends a quote, given the lines after it: a blank line, a heading, a rule, an item of a list, or the
opening of a code block that is closed later. -/
inductive EndsQuote : List Char → List (List Char) → Prop
  | blank {line : List Char} {after : List (List Char)} : (∀ c ∈ line, isSpace c = true) → EndsQuote line after
  | heading {level : Nat} {blank : Char} {text : List Char} {after : List (List Char)} :
      1 ≤ level → level ≤ 5 → isBlank blank = true → text ≠ [] →
        EndsQuote (List.replicate level '#' ++ blank :: text) after
  | rule {indent blanks : List Char} {mark : Char} {count : Nat} {after : List (List Char)} :
      AllBlank indent → mark ∈ ['-', '*', '_'] → 3 ≤ count → AllBlank blanks →
        EndsQuote (indent ++ (List.replicate count mark ++ blanks)) after
  | bullet {indent text : List Char} {mark blank : Char} {after : List (List Char)} :
      AllBlank indent → mark ∈ ['-', '*', '+'] → isBlank blank = true →
        EndsQuote (indent ++ mark :: blank :: text) after
  | number {indent digits text : List Char} {blank : Char} {after : List (List Char)} :
      AllBlank indent → digits ≠ [] → (∀ d ∈ digits, isDigit d = true) → isBlank blank = true →
        EndsQuote (indent ++ (digits ++ '.' :: blank :: text)) after
  | code {info line closing : List Char} {after : List (List Char)} :
      OpensWith info line → closing ∈ after → Closes closing → EndsQuote line after

/-! ## The lines of a quote -/

theorem quoted?_marked (s : List Char) : quoted? (Line.ofChars ('>' :: ' ' :: s)) = some (Line.ofChars s) := rfl

/-- A line that opens nothing but a table or a label carries on a quote. -/
theorem continuesQuote_of_head {line rest : Line} {c : Char} (hline : Line.dropBlanks line = .char c :: rest)
    (hc : opensBlock c = false) : continuesQuote (.line line) = true ∧ quoted? line = none := by
  obtain ⟨hempty, hheading, hrule, hquoted, hitem, -⟩ := opensNothing_of_head hline hc
  refine ⟨?_, hquoted⟩
  rw [continuesQuote, hempty, hheading, hrule, hquoted, hitem]
  rfl

namespace QuoteLine

theorem isLyric_content (l : QuoteLine) : IsLyric l.content := by
  cases l with
  | marked text h => exact h
  | carried text h _ =>
      exact h.mono (List.Subset.trans (prefix_dropEndWhile _).subset (List.dropWhile_suffix _).subset)

def phrase (l : QuoteLine) : Phrase := ⟨l.content, [], l.isLyric_content⟩

theorem text_phrase (l : QuoteLine) : l.phrase.text = l.content := List.append_nil l.content

theorem html_phrase (db : Chord.Database) (l : QuoteLine) : l.phrase.html db = l.content := List.append_nil l.content

/-- A line of a quote belongs to it with what it adds. -/
theorem continuesQuote_source (l : QuoteLine) :
    continuesQuote (.line (Line.ofChars l.source)) = true ∧
      quoteText (.line (Line.ofChars l.source)) = l.phrase.line := by
  rw [Phrase.line, l.text_phrase]
  cases l with
  | marked text h => exact ⟨rfl, rfl⟩
  | carried text h hletter =>
      obtain ⟨c, hhead, hc⟩ := (Option.any_eq_true _ _).mp hletter
      obtain ⟨rest, rfl⟩ := List.head?_eq_some_iff.mp hhead
      obtain ⟨hcontinues, hquoted⟩ :=
        continuesQuote_of_head (dropBlanks_letter hc rest) (opensBlock_of_isAsciiLetter hc)
      refine ⟨hcontinues, ?_⟩
      rw [source, quoteText, hquoted, Option.getD_none, trim_ofChars, content]

theorem not_mem_source (l : QuoteLine) {c : Char} (hc : isLyricChar c = false) (hne : c ≠ '>') (hspace : c ≠ ' ') :
    c ∉ l.source := by
  cases l with
  | marked text h =>
      have htext : c ∉ text := h.not_mem hc
      simp [source, htext, hne, hspace]
  | carried text h _ => exact h.not_mem hc

end QuoteLine

theorem kind_marked (db : Chord.Database) (s : List Char) (next : Option (Source Line)) :
    kind db (Line.ofChars ('>' :: ' ' :: s)) next = .quote := by
  have hline : Line.dropBlanks (Line.ofChars ('>' :: ' ' :: s)) = .char '>' :: Line.ofChars (' ' :: s) := rfl
  rw [kind, isEmptyLine_eq_false hline (by decide), heading?_eq_none (ne_of_dropBlanks hline (by decide) (by decide)),
    isRule_eq_false hline (by decide) (by decide), reference?_eq_none (ne_of_dropBlanks hline (by decide) (by decide)),
    quoted?_marked]
  rfl

/-! ## The line after a quote -/

section After

variable {line rest : Line}

/-- The marks of a rule are not blank and mark nothing else. -/
theorem ruleMark_plain {mark : Char} (hmark : mark ∈ ['-', '*', '_']) :
    isBlank mark = false ∧ mark ≠ '>' ∧ '`' ≠ mark := by
  have hmarks : ∀ c ∈ ['-', '*', '_'], isBlank c = false ∧ c ≠ '>' ∧ '`' ≠ c := by simp [isBlank]
  exact hmarks mark hmark

/-- The marks of an item are not blank and mark nothing else. -/
theorem bulletMark_plain {mark : Char} (hmark : mark ∈ ['-', '*', '+']) :
    isBlank mark = false ∧ mark ≠ '>' ∧ '`' ≠ mark := by
  have hmarks : ∀ c ∈ ['-', '*', '+'], isBlank c = false ∧ c ≠ '>' ∧ '`' ≠ c := by simp [isBlank]
  exact hmarks mark hmark

/-- Without a mark of its own, a line that opens a block ends a quote. -/
theorem continuesQuote_of_opens (hquoted : quoted? line = none)
    (hopens : (heading? line).isSome = true ∨ isRule line = true ∨ (item? line).isSome = true) :
    continuesQuote (.line line) = false := by
  rw [continuesQuote, hquoted]
  rcases hopens with h | h | h <;> simp [h]

theorem isSome_heading? {level : Nat} (hone : 1 ≤ level) (hfive : level ≤ 5) {blank : Char}
    (hblank : isBlank blank = true) (hne : rest ≠ []) :
    (heading? (Line.ofChars (List.replicate level '#') ++ .char blank :: rest)).isSome = true := by
  have hmarks : ∀ p ∈ Line.ofChars (List.replicate level '#'), p.is '#' = true := by
    refine List.forall_mem_map.mpr fun c hc => ?_
    rw [List.eq_of_mem_replicate hc]
    rfl
  have hstop : (Piece.char blank :: rest).head?.any (Piece.is '#') = false := by
    have hdiff : blank ≠ '#' := by
      rintro rfl
      exact absurd hblank (by decide)
    simpa [Piece.is, Piece.sat] using hdiff
  have hlength : (Line.ofChars (List.replicate level '#')).length = level := by
    rw [Line.ofChars, List.length_map, List.length_replicate]
  have hempty : (Line.ofChars (List.replicate level '#')).isEmpty = false := by
    rw [List.isEmpty_eq_false_iff_exists_mem]
    exact List.exists_mem_of_length_pos (hlength.symm ▸ hone)
  have hsat : Piece.sat isBlank (.char blank) = true := hblank
  simp only [heading?, List.takeWhile_append_of_pos hmarks, List.dropWhile_append_of_pos hmarks,
    takeWhile_of_head hstop, dropWhile_of_head hstop, List.append_nil, hlength, hempty, Nat.not_lt.mpr hfive,
    decide_false, List.takeWhile_cons, hsat, if_true, List.isEmpty_cons, Bool.or_self, Bool.false_eq_true, if_false]
  split
  · rename_i hnone
    have hall : ∀ p ∈ Piece.char blank :: rest, Piece.sat isBlank p = true :=
      dropEndWhile_dropWhile_eq_nil_iff.mp (List.isEmpty_iff.mp hnone)
    have hpos := List.length_pos_iff.mpr hne
    rw [List.takeWhile_eq_self_iff.mpr (List.forall_mem_cons.mp hall).2, List.length_cons, if_neg (by omega)]
    rfl
  · rfl

theorem isRule_marks {indent blanks : List Char} (hindent : AllBlank indent) (hblanks : AllBlank blanks) {mark : Char}
    (hmark : mark ∈ ['-', '*', '_']) {count : Nat} (hcount : 3 ≤ count) :
    isRule (Line.ofChars (indent ++ (List.replicate count mark ++ blanks))) = true := by
  obtain ⟨hblank, -, -⟩ := ruleMark_plain hmark
  have hinner : Line.dropEndBlanks (Line.dropBlanks (Line.ofChars (indent ++ (List.replicate count mark ++ blanks)))) =
      Line.ofChars (List.replicate count mark) := by
    rw [Line.ofChars_append, Line.ofChars_append]
    refine dropEndWhile_dropWhile_between (forall_sat_blank hindent) ?_ (forall_sat_blank hblanks)
    refine List.forall_mem_map.mpr fun c hc => ?_
    rw [List.eq_of_mem_replicate hc]
    exact hblank
  have hall : (Line.ofChars (List.replicate count mark)).all (Piece.is mark) = true := by
    refine List.all_eq_true.mpr (List.forall_mem_map.mpr fun c hc => ?_)
    rw [List.eq_of_mem_replicate hc]
    exact beq_self_eq_true mark
  have hlength : (Line.ofChars (List.replicate count mark)).length = count := by
    rw [Line.ofChars, List.length_map, List.length_replicate]
  simp only [isRule, hinner, hlength, hcount, decide_true, Bool.true_and, List.any_eq_true]
  exact ⟨mark, hmark, hall⟩

/-- A mark with a blank after it makes an item, unless the line is a rule. -/
theorem continuesQuote_of_bullet {inner : Line} {c : Char} (hline : Line.dropBlanks line = .char c :: inner)
    (hc : c ≠ '>') {ordered : Bool} {blank : Char} (hblank : isBlank blank = true)
    (hbullet : bullet? (.char c :: inner) = some (ordered, .char blank :: rest)) :
    continuesQuote (.line line) = false := by
  refine continuesQuote_of_opens (quoted?_eq_none hline hc) (Or.inr ?_)
  by_cases hrule : isRule line = true
  · exact Or.inl hrule
  · right
    have hsat : Piece.sat isBlank (.char blank) = true := hblank
    rw [item?, if_neg hrule, hline, hbullet]
    simp [hsat]

theorem bullet?_mark {mark : Char} (hmark : mark ∈ ['-', '*', '+']) :
    bullet? (.char mark :: rest) = some (false, rest) := by
  have hbullet : isBulletChar mark = true := by
    have hmarks : ∀ c ∈ ['-', '*', '+'], isBulletChar c = true := List.all_eq_true.mp (by decide)
    exact hmarks mark hmark
  rw [bullet?_eq, List.head?_cons, Option.any_some, Piece.sat, if_pos hbullet, List.tail_cons]

theorem spanChars_ofChars {q : Char → Bool} {s : List Char} (hs : ∀ c ∈ s, q c = true) {d : Char} (hd : q d = false) :
    Line.spanChars q (Line.ofChars s ++ .char d :: rest) = (s, .char d :: rest) := by
  induction s with
  | nil => simp [Line.spanChars, hd]
  | cons c s ih =>
      obtain ⟨hc, hs⟩ := List.forall_mem_cons.mp hs
      simp [Line.spanChars, hc, ih hs]

theorem bullet?_number {digits : List Char} (hne : digits ≠ []) (hdigits : ∀ d ∈ digits, isDigit d = true)
    (rest : Line) :
    bullet? (Line.ofChars digits ++ .char '.' :: rest) = some (true, rest) := by
  have hspan : Line.spanChars isDigit (Line.ofChars digits ++ .char '.' :: rest) = (digits, .char '.' :: rest) :=
    spanChars_ofChars hdigits (by decide)
  obtain ⟨d, more, rfl⟩ := List.exists_cons_of_ne_nil hne
  have hbullet : isBulletChar d = false := by
    have hdigit := hdigits d List.mem_cons_self
    rw [Bool.eq_false_iff]
    intro h
    simp only [isBulletChar, Bool.or_eq_true, beq_iff_eq] at h
    rcases h with (rfl | rfl) | rfl
    · exact absurd hdigit (by decide)
    · exact absurd hdigit (by decide)
    · exact absurd hdigit (by decide)
  rw [bullet?_eq, hspan, if_neg (by simp [Piece.sat, hbullet]), if_neg hne, Line.dropMark?_char, Line.dropMark?]
  rfl

theorem continuesQuote_heading {level : Nat} (hone : 1 ≤ level) (hfive : level ≤ 5) {blank : Char}
    (hblank : isBlank blank = true) (hne : rest ≠ []) :
    continuesQuote (.line (Line.ofChars (List.replicate level '#') ++ .char blank :: rest)) = false := by
  refine continuesQuote_of_opens ?_ (Or.inl (isSome_heading? hone hfive hblank hne))
  cases level with
  | zero => exact absurd hone (Nat.not_succ_le_zero 0)
  | succ level => exact quoted?_eq_none (dropBlanks_indent allBlank_nil (by decide) _) (by decide)

theorem continuesQuote_rule {indent blanks : List Char} (hindent : AllBlank indent) (hblanks : AllBlank blanks)
    {mark : Char} (hmark : mark ∈ ['-', '*', '_']) {count : Nat} (hcount : 3 ≤ count) :
    continuesQuote (.line (Line.ofChars (indent ++ (List.replicate count mark ++ blanks)))) = false := by
  refine continuesQuote_of_opens ?_ (Or.inr (Or.inl (isRule_marks hindent hblanks hmark hcount)))
  obtain ⟨hblank, hne, -⟩ := ruleMark_plain hmark
  cases count with
  | zero => exact absurd hcount (by decide)
  | succ count =>
      rw [List.replicate_succ, List.cons_append, Line.ofChars_append, Line.ofChars_cons]
      exact quoted?_eq_none (dropBlanks_indent hindent hblank _) hne

theorem continuesQuote_bullet {indent : List Char} (hindent : AllBlank indent) {mark blank : Char}
    (hmark : mark ∈ ['-', '*', '+']) (hblank : isBlank blank = true) :
    continuesQuote (.line (Line.ofChars indent ++ .char mark :: .char blank :: rest)) = false := by
  obtain ⟨hmarkblank, hne, -⟩ := bulletMark_plain hmark
  exact continuesQuote_of_bullet (dropBlanks_indent hindent hmarkblank _) hne hblank (bullet?_mark hmark)

theorem continuesQuote_number {indent digits : List Char} (hindent : AllBlank indent) (hne : digits ≠ [])
    (hdigits : ∀ d ∈ digits, isDigit d = true) {blank : Char} (hblank : isBlank blank = true) :
    continuesQuote (.line (Line.ofChars indent ++ (Line.ofChars digits ++ .char '.' :: .char blank :: rest))) =
      false := by
  have hbullet := bullet?_number hne hdigits (.char blank :: rest)
  obtain ⟨d, more, rfl⟩ := List.exists_cons_of_ne_nil hne
  have hd := hdigits d List.mem_cons_self
  have hdblank : isBlank d = false := by
    rw [Bool.eq_false_iff]
    intro h
    have hblanks : isDigit ' ' = false ∧ isDigit '\t' = false := by decide
    rcases (by simpa [isBlank] using h : d = ' ' ∨ d = '\t') with rfl | rfl
    · exact absurd hd (by simp [hblanks.1])
    · exact absurd hd (by simp [hblanks.2])
  have hquote : d ≠ '>' := by
    rintro rfl
    exact absurd hd (by decide)
  exact continuesQuote_of_bullet (dropBlanks_indent hindent hdblank _) hquote hblank hbullet

end After

/-- A line with a mark before all backticks opens no code block. -/
theorem not_opensWith {front : List Char} (hcode : '`' ∉ front) {c : Char} (hmem : c ∈ front) (hc : isBlank c = false)
    (back info : List Char) : ¬ OpensWith info (front ++ back) := by
  have hfront : ¬ AllBlank front := fun h => by simp [h c hmem] at hc
  rintro ⟨blanks, hblanks, heq⟩
  rw [List.append_assoc] at heq
  have hprefix : front <+: blanks ++ ("```".toList ++ info) := ⟨back, heq⟩
  rcases prefix_append_cases hprefix with h | ⟨marks, hmarks, rfl⟩
  · exact hfront fun c hc => hblanks c (h.subset hc)
  · cases marks with
    | nil => exact hfront (by rwa [List.append_nil])
    | cons d marks =>
        have hd : d = '`' := (List.cons_prefix_cons.mp hmarks).1
        exact hcode (List.mem_append_right blanks (hd ▸ List.mem_cons_self))

theorem ne_of_isBlank {c : Char} (h : isBlank c = true) : '`' ≠ c := by
  rintro rfl
  exact absurd h (by decide)

theorem not_mem_of_allBlank {s : List Char} (h : AllBlank s) : '`' ∉ s := (isLyric_of_allBlank h).not_mem (by decide)

theorem setSpans_ne_nil {s : List Char} (h : s ≠ []) (n : Nat) : (setSpans n s).1 ≠ [] := by
  obtain ⟨c, s, rfl⟩ := List.exists_cons_of_ne_nil h
  rw [setSpans]
  split
  · split <;> simp
  · simp

section Body

variable {body line : List Char} {after : List (List Char)}

/-- The first line of a body as it is written, up to its first code span. -/
theorem head_setCode (hlines : lines (unixLines body) = line :: after) {front back : List Char}
    (hline : line = front ++ back) (hcode : '`' ∉ front) {c : Char} (hmem : c ∈ front) (hc : isBlank c = false) :
    (setCode body).1.head? = some (.line (Line.ofChars front ++ (setSpans 0 back).1)) := by
  rw [setCode, hlines, hline, setFences_of_not_opens (not_opensWith hcode hmem hc back), setAllSpans,
    setSpans_append hcode]
  rfl

/-- A code block that begins a body is set apart. -/
theorem head_setCode_of_opens {info closing : List Char} (hlines : lines (unixLines body) = line :: after)
    (hopens : OpensWith info line) (hclosing : closing ∈ after) (hcloses : Closes closing) :
    ∃ language code, (setCode body).1.head? = some (.fence language code) := by
  have hfind : (after.find? closesFence).isSome = true :=
    List.find?_isSome.mpr ⟨closing, hclosing, closesFence_iff.mpr hcloses⟩
  obtain ⟨first, hfirst⟩ := Option.isSome_iff_exists.mp hfind
  obtain ⟨hcloses, inner, others, rfl, hinner⟩ := List.find?_eq_some_iff_append.mp hfirst
  have hopen : ∀ l ∈ inner, ¬ Closes l := by
    intro l hl hl'
    simpa [closesFence_iff.mpr hl'] using hinner l hl
  rw [setCode, hlines, setFences_region hopens hopen (closesFence_iff.mp hcloses), setAllSpans]
  exact ⟨_, _, rfl⟩

/-- The line that ends a quote does not belong to it. -/
theorem continuesQuote_of_endsQuote (hlines : lines (unixLines body) = line :: after) (h : EndsQuote line after) :
    (setCode body).1.head?.any continuesQuote = false := by
  cases h with
  | blank hspace =>
      have hblank : StartsBlank body := by
        rw [StartsBlank, hlines]
        simpa using trim_eq_nil_iff.mpr hspace
      obtain ⟨first, rest, hsources, hempty⟩ := exists_setCode_of_startsBlank hblank
      rw [hsources, List.head?_cons, Option.any_some, continuesQuote, hempty]
      rfl
  | @heading level blank text _ hone hfive hblank htext =>
      have hline : List.replicate level '#' ++ blank :: text = (List.replicate level '#' ++ [blank]) ++ text := by simp
      have hcode : '`' ∉ List.replicate level '#' ++ [blank] := by simp [ne_of_isBlank hblank]
      have hmem : '#' ∈ List.replicate level '#' ++ [blank] := by simp [Nat.ne_of_gt hone]
      rw [head_setCode hlines hline hcode hmem (by decide), Option.any_some, Line.ofChars_append, List.append_assoc]
      exact continuesQuote_heading hone hfive hblank (setSpans_ne_nil htext 0)
  | @rule indent blanks mark count _ hindent hmark hcount hblanks =>
      obtain ⟨hblank, -, hne⟩ := ruleMark_plain hmark
      have hcode : '`' ∉ indent ++ (List.replicate count mark ++ blanks) := by
        simp [not_mem_of_allBlank hindent, not_mem_of_allBlank hblanks, hne]
      have hmem : mark ∈ indent ++ (List.replicate count mark ++ blanks) := by simp [show count ≠ 0 by omega]
      rw [head_setCode hlines (List.append_nil _).symm hcode hmem hblank, Option.any_some, setSpans, List.append_nil]
      exact continuesQuote_rule hindent hblanks hmark hcount
  | @bullet indent text mark blank _ hindent hmark hblank =>
      have hline : indent ++ mark :: blank :: text = (indent ++ [mark, blank]) ++ text := by simp
      obtain ⟨hmarkblank, -, hne⟩ := bulletMark_plain hmark
      have hcode : '`' ∉ indent ++ [mark, blank] := by simp [not_mem_of_allBlank hindent, hne, ne_of_isBlank hblank]
      have hmem : mark ∈ indent ++ [mark, blank] := by simp
      rw [head_setCode hlines hline hcode hmem hmarkblank, Option.any_some, Line.ofChars_append, List.append_assoc]
      exact continuesQuote_bullet hindent hmark hblank
  | @number indent digits text blank _ hindent hne hdigits hblank =>
      have hline : indent ++ (digits ++ '.' :: blank :: text) = (indent ++ (digits ++ ['.', blank])) ++ text := by simp
      have hdigitless : '`' ∉ digits := fun hmem => absurd (hdigits _ hmem) (by decide)
      have hcode : '`' ∉ indent ++ (digits ++ ['.', blank]) := by
        simp [not_mem_of_allBlank hindent, hdigitless, ne_of_isBlank hblank]
      have hmem : '.' ∈ indent ++ (digits ++ ['.', blank]) := by simp
      rw [head_setCode hlines hline hcode hmem (by decide), Option.any_some, Line.ofChars_append, Line.ofChars_append,
        List.append_assoc, List.append_assoc]
      exact continuesQuote_number hindent hne hdigits hblank
  | code hopens hclosing hcloses =>
      obtain ⟨language, code, hhead⟩ := head_setCode_of_opens hlines hopens hclosing hcloses
      rw [hhead]
      rfl

end Body

/-! ## The block of a quote -/

namespace Quotation

variable (q : Quotation)

def sources : List (Source Line) := q.textLines.map fun l => .line (Line.ofChars l)

theorem not_mem_textLines {c : Char} (hc : isLyricChar c = false) (hne : c ≠ '>') (hspace : c ≠ ' ') :
    ∀ l ∈ q.textLines, c ∉ l := List.forall_mem_map.mpr fun l _ => l.not_mem_source hc hne hspace

/-- The lines of the quote are one block, which ends before a line that does not belong to it. -/
theorem readBlocks_sources (db : Chord.Database) {rest : List (Source Line)}
    (hrest : rest.head?.any continuesQuote = false) :
    readBlocks db (q.sources ++ rest) = .quote (q.lines.map fun l => l.phrase.line) :: readBlocks db rest := by
  let more : List (Source Line) := q.rest.map fun l => .line (Line.ofChars l.source)
  have hmore : ∀ s ∈ more, continuesQuote s = true := List.forall_mem_map.mpr fun l _ => l.continuesQuote_source.1
  have htexts : more.map quoteText = q.rest.map fun l => l.phrase.line := by
    rw [List.map_map]
    exact List.map_congr_left fun l _ => l.continuesQuote_source.2
  have hfirst := (QuoteLine.marked q.first q.isLyric_first).continuesQuote_source.2
  have hsources : q.sources ++ rest = .line (Line.ofChars ('>' :: ' ' :: q.first)) :: (more ++ rest) := by
    rw [sources, textLines, lines, List.map_map]
    rfl
  rw [hsources, readBlocks, kind_marked]
  simp only [List.takeWhile_append_of_pos hmore, List.dropWhile_append_of_pos hmore, takeWhile_of_head hrest,
    dropWhile_of_head hrest, List.append_nil, htexts]
  rw [lines, List.map_cons, ← hfirst, QuoteLine.source]

/-- The lines of the quote are one block of the document. -/
theorem exists_renderBlocks_sources (db : Chord.Database) (n : Nat) {rest : List (Source Line)}
    (hrest : rest.head?.any continuesQuote = false) :
    ∃ ts, Token.print ts = q.html ∧
      renderBlocks db n (readBlocks db (q.sources ++ rest)) = ts :: renderBlocks db n (readBlocks db rest) := by
  obtain ⟨tss, htss, hprints⟩ := renderLines_phrases db n (q.lines.map QuoteLine.phrase)
  rw [List.map_map] at htss
  have hblock : renderBlock db n (.quote (q.lines.map fun l => l.phrase.line)) =
      (Token.element .quote (joinBreaks tss), n) := by
    simp only [renderBlock]
    exact congrArg (fun p : List (List Token) × Nat => (Token.element .quote (joinBreaks p.1), p.2)) htss
  have htexts : tss.map Token.print = q.lines.map QuoteLine.content := by
    rw [hprints, List.map_map]
    exact List.map_congr_left fun l _ => l.html_phrase db
  have hbreak : Token.print [.tag .lineBreak] = "<br>".toList := by decide
  refine ⟨Token.element .quote (joinBreaks tss), ?_, ?_⟩
  · rw [@print_element_name .quote "blockquote" rfl rfl, joinBreaks, print_intercalate, hbreak, htexts, html]
  · rw [q.readBlocks_sources db hrest]
    simp only [renderBlocks, hblock]

end Quotation

/-- A quote takes the lines that are marked or carry on its text, whatever ends it. The line that does begins the rest,
which reads as it would by itself. -/
theorem render_quotation (db : Chord.Database) (q : Quotation) :
    (∀ body : List Char, lines (unixLines body) = q.textLines → render db (String.ofList body) = String.ofList q.html) ∧
      ∀ (body rest line : List Char) (after : List (List Char)), lines (unixLines body) = q.textLines ++ line :: after →
        lines (unixLines rest) = line :: after → EndsQuote line after →
          render db (String.ofList body) =
            String.ofList (q.html ++ if HasText rest then '\n' :: (render db (String.ofList rest)).toList else []) := by
  have hcode : ∀ l ∈ q.textLines, '`' ∉ l := q.not_mem_textLines (by decide) (by decide) (by decide)
  constructor
  · intro body hlines
    obtain ⟨ts, hprint, hblocks⟩ := @q.exists_renderBlocks_sources db 0 [] rfl
    rw [List.append_nil, readBlocks, renderBlocks] at hblocks
    have hbody : setCode body = (q.sources, 0) := by
      rw [setCode_of_codeless (hlines ▸ hcode), hlines, Quotation.sources]
    have htokens : bodyTokens db body = ts := by
      simp only [bodyTokens, hbody, hblocks, List.intercalate_singleton]
    rw [render, String.toList_ofList, htokens, hprint]
  · intro body rest line after hbody hrest hends
    obtain ⟨ts, hprint, hblocks⟩ :=
      q.exists_renderBlocks_sources db (setCode rest).2 (continuesQuote_of_endsQuote hrest hends)
    have hwhole : setCode body = (q.sources ++ (setCode rest).1, (setCode rest).2) :=
      setCode_of_lines_append hcode (hrest ▸ hbody)
    have hdocument : renderBlocks db (setCode body).2 (readBlocks db (setCode body).1) =
        ts :: renderBlocks db (setCode rest).2 (readBlocks db (setCode rest).1) := by
      rw [hwhole]
      exact hblocks
    rw [render, render, String.toList_ofList, String.toList_ofList, String.toList_ofList,
      print_bodyTokens_of_blocks hdocument, hprint]

/-- A quote with a line that carries on its text and an empty line that is marked. -/
def Quotation.carried : Quotation where
  first := "la".toList
  isLyric_first := by decide
  rest := [.carried "li ".toList (by decide) (by decide), .marked [] isLyric_nil]

theorem render_quotation_carried :
    lines (unixLines "> la\r\nli \n> ".toList) = Quotation.carried.textLines ∧
      lines (unixLines "> la\r\nli \n> \n- lo\n> lu".toList) =
        Quotation.carried.textLines ++ "- lo".toList :: ["> lu".toList] ∧
      lines (unixLines "- lo\n> lu".toList) = "- lo".toList :: ["> lu".toList] ∧
      EndsQuote "- lo".toList ["> lu".toList] ∧
      render .cMajor (String.ofList "> la\r\nli \n> ".toList) = String.ofList Quotation.carried.html ∧
      render .cMajor (String.ofList "> la\r\nli \n> \n- lo\n> lu".toList) =
        String.ofList (Quotation.carried.html ++
          '\n' :: (render .cMajor (String.ofList "- lo\n> lu".toList)).toList) := by
  have hall : lines (unixLines "> la\r\nli \n> ".toList) = Quotation.carried.textLines := by decide +kernel
  have hbody : lines (unixLines "> la\r\nli \n> \n- lo\n> lu".toList) =
      Quotation.carried.textLines ++ "- lo".toList :: ["> lu".toList] := by decide +kernel
  have hrest : lines (unixLines "- lo\n> lu".toList) = "- lo".toList :: ["> lu".toList] := by decide +kernel
  have hends : EndsQuote "- lo".toList ["> lu".toList] :=
    @EndsQuote.bullet [] "lo".toList '-' ' ' ["> lu".toList] allBlank_nil (by decide) (by decide)
  have htext : HasText "- lo\n> lu".toList := by decide +kernel
  have h := (render_quotation .cMajor Quotation.carried).2 _ _ _ _ hbody hrest hends
  rw [if_pos htext] at h
  exact ⟨hall, hbody, hrest, hends, (render_quotation .cMajor Quotation.carried).1 _ hall, h⟩

example : Quotation.carried.html = "<blockquote>la<br>li<br></blockquote>".toList := by decide

end LeadSheet.Markup
