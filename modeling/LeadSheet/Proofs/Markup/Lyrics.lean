import LeadSheet.Proofs.Markup.Fences

/-!
# Lyrics with chords

A phrase is a lyric with bracketed names in it. No other character of it has a meaning inside a line, so marking it up
shows the names that are chords as chords and leaves the rest as it is.

* `Phrase.text` : the phrase as it is written;
* `Phrase.html` : what it reads like in a document (`renderLine_phrase`);
* `Phrase.trim` : the phrase without white space at either end (`Phrase.text_trim`).
-/

namespace LeadSheet.Markup

open Text

/-! ## Phrases -/

/-- A character of a lyric: it has no meaning in the markup and ends no line. -/
def isLyricChar (c : Char) : Bool :=
  !(['[', ']', '*', '_', '~', '<', '>', '&', '|', '`', '\r', '\n'].contains c)

/-- A text without markup. -/
def IsLyric (s : List Char) : Prop := ∀ c ∈ s, isLyricChar c = true

instance (s : List Char) : Decidable (IsLyric s) := decidable_of_iff (s.all isLyricChar = true) List.all_eq_true

theorem isLyric_nil : IsLyric [] := List.forall_mem_nil _

/-- A bracketed name and the lyric after it, which does not make it a link. -/
structure Bracket where
  name : List Char
  text : List Char
  name_ne_nil : name ≠ []
  isLyric_name : IsLyric name
  isLyric_text : IsLyric text
  not_link : text.head? ≠ some '('

/-- A lyric with bracketed names in it. -/
structure Phrase where
  first : List Char
  brackets : List Bracket
  isLyric_first : IsLyric first

def Bracket.source (b : Bracket) : List Char := '[' :: b.name ++ ']' :: b.text

def Phrase.text (p : Phrase) : List Char := p.first ++ p.brackets.flatMap Bracket.source

def Phrase.line (p : Phrase) : Line := Line.ofChars p.text

/-- The name as a chord, if it is one, and the lyric after it. Any other name keeps its brackets. -/
def Bracket.html (db : Chord.Database) (b : Bracket) : List Char :=
  if db.isChord b.name then "<span class=\"chord-inline\">".toList ++ b.name ++ "</span>".toList ++ b.text
  else b.source

def Phrase.html (db : Chord.Database) (p : Phrase) : List Char := p.first ++ p.brackets.flatMap (Bracket.html db)

namespace IsLyric

variable {s : List Char}

theorem not_mem (h : IsLyric s) {c : Char} (hc : isLyricChar c = false) : c ∉ s :=
  fun hmem => by simp [h c hmem] at hc

theorem escape_eq (h : IsLyric s) : escape s = s := by
  have hplain : ∀ c, isLyricChar c = true → isPlain c = true := fun _ => isPlain_of_class (by decide)
  exact escape_of_plain (List.all_eq_true.mpr fun c hc => hplain c (h c hc))

theorem print_line (h : IsLyric s) : Token.print (Line.tokens (Line.ofChars s)) = s := by
  rw [Line.tokens_ofChars, print_ofChars, h.escape_eq]

theorem mono (h : IsLyric s) {t : List Char} (ht : t ⊆ s) : IsLyric t := fun c hc => h c (ht hc)

end IsLyric

theorem isLyric_of_allBlank {s : List Char} (h : AllBlank s) : IsLyric s := by
  intro c hc
  have hblank := h c hc
  simp only [isBlank, Bool.or_eq_true, beq_iff_eq] at hblank
  rcases hblank with rfl | rfl <;> decide

/-! ## White space around a phrase -/

/-- The bracket without white space at its end. -/
def Bracket.trimEnd (b : Bracket) : Bracket where
  name := b.name
  text := Text.trimEnd b.text
  name_ne_nil := b.name_ne_nil
  isLyric_name := b.isLyric_name
  isLyric_text := b.isLyric_text.mono (prefix_dropEndWhile b.text).subset
  not_link h := by
    obtain ⟨rest, hrest⟩ := List.head?_eq_some_iff.mp h
    obtain ⟨t, ht⟩ := prefix_dropEndWhile (p := isSpace) b.text
    have htext : b.text = '(' :: (rest ++ t) := by
      rw [← ht]
      exact congrArg (· ++ t) hrest
    exact b.not_link (by rw [htext, List.head?_cons])

/-- The brackets without white space at the end of the last one. -/
def trimBrackets : List Bracket → List Bracket
  | [] => []
  | [b] => [b.trimEnd]
  | b :: b' :: bs => b :: trimBrackets (b' :: bs)

def Phrase.trimEnd (p : Phrase) : Phrase :=
  if p.brackets = [] then ⟨Text.trimEnd p.first, [], p.isLyric_first.mono (prefix_dropEndWhile p.first).subset⟩
  else ⟨p.first, trimBrackets p.brackets, p.isLyric_first⟩

def Phrase.trimStart (p : Phrase) : Phrase :=
  ⟨Text.trimStart p.first, p.brackets, p.isLyric_first.mono (List.dropWhile_suffix isSpace).subset⟩

def Phrase.trim (p : Phrase) : Phrase := p.trimStart.trimEnd

theorem source_trimEnd (b : Bracket) (s : List Char) : Text.trimEnd (s ++ b.source) = s ++ b.trimEnd.source := by
  have hsource : s ++ b.source = (s ++ '[' :: b.name) ++ ']' :: b.text := by simp [Bracket.source]
  rw [hsource, Text.trimEnd, dropEndWhile_append_mark (by decide)]
  simp [Bracket.source, Bracket.trimEnd, Text.trimEnd]

theorem sources_trimBrackets {bs : List Bracket} (hne : bs ≠ []) (s : List Char) :
    Text.trimEnd (s ++ bs.flatMap Bracket.source) = s ++ (trimBrackets bs).flatMap Bracket.source := by
  induction bs generalizing s with
  | nil => exact absurd rfl hne
  | cons b bs ih =>
      cases bs with
      | nil => simpa [trimBrackets] using source_trimEnd b s
      | cons b' bs =>
          rw [List.flatMap_cons, ← List.append_assoc, ih (List.cons_ne_nil _ _), trimBrackets, List.flatMap_cons,
            List.append_assoc]

namespace Phrase

theorem text_trimEnd (p : Phrase) : p.trimEnd.text = Text.trimEnd p.text := by
  unfold trimEnd text
  split
  · rename_i hnone
    rw [hnone, List.flatMap_nil, List.append_nil, List.append_nil]
  · rename_i hne
    exact (sources_trimBrackets hne p.first).symm

theorem text_trimStart (p : Phrase) : p.trimStart.text = Text.trimStart p.text := by
  unfold trimStart text Text.trimStart
  cases p.brackets with
  | nil => rw [List.flatMap_nil, List.append_nil, List.append_nil]
  | cons b bs =>
      have hopen : isSpace '[' = false := by decide
      exact (dropWhile_append_mark hopen p.first _).symm

theorem text_trim (p : Phrase) : p.trim.text = Text.trim p.text := by
  rw [trim, text_trimEnd, text_trimStart, Text.trim]

end Phrase

/-! ## No other markup -/

theorem head_sources (bs : List Bracket) : (bs.flatMap Bracket.source).head? ≠ some '(' := by
  cases bs with
  | nil => simp
  | cons b bs => simp [Bracket.source]

/-- What follows a name opens no address. -/
theorem Bracket.head_text (b : Bracket) (bs : List Bracket) :
    (b.text ++ bs.flatMap Bracket.source).head? ≠ some '(' := by
  have hlink := b.not_link
  cases htext : b.text with
  | nil => exact head_sources bs
  | cons c text => rwa [htext] at hlink

namespace Phrase

theorem not_mem_text (p : Phrase) {c : Char} (hc : isLyricChar c = false) (hne : c ≠ '[' ∧ c ≠ ']') : c ∉ p.text := by
  rw [text, List.mem_append, not_or]
  refine ⟨p.isLyric_first.not_mem hc, fun hmem => ?_⟩
  obtain ⟨b, -, hb⟩ := List.mem_flatMap.mp hmem
  have hname := b.isLyric_name.not_mem hc
  have htext := b.isLyric_text.not_mem hc
  simp [Bracket.source, hne, hname, htext] at hb

theorem not_link_sources (bs : List Bracket) {s : List Char} (hs : IsLyric s) :
    ¬ [']', '('] <:+: s ++ bs.flatMap Bracket.source := by
  have hclose : isLyricChar ']' = false := by decide
  induction bs generalizing s with
  | nil =>
      intro h
      exact absurd (infix_of_infix_append (hs.not_mem hclose) h) (by simp)
  | cons b bs ih =>
      intro h
      have hsource : s ++ (b :: bs).flatMap Bracket.source =
          (s ++ '[' :: b.name) ++ ']' :: (b.text ++ bs.flatMap Bracket.source) := by
        simp [Bracket.source]
      have hfront : ']' ∉ s ++ '[' :: b.name := by
        simp [hs.not_mem hclose, b.isLyric_name.not_mem hclose]
      rw [hsource] at h
      rcases List.infix_cons_iff.mp (infix_of_infix_append hfront h) with h | h
      · obtain ⟨t, ht⟩ := (List.cons_prefix_cons.mp h).2
        exact b.head_text bs (by rw [← ht]; rfl)
      · exact ih b.isLyric_text h

theorem linkless (p : Phrase) : Linkless p.line := by
  intro h
  exact not_link_sources p.brackets p.isLyric_first (Line.infix_ofChars_iff.mp h)

end Phrase

theorem setImages_of_linkless {l : Line} (h : Linkless l) (n : Nat) : setImages n l = (l, n) := by
  induction l with
  | nil => rw [setImages]
  | cons p l ih =>
      have hnone : image? (p :: l) = none := by
        rw [Option.eq_none_iff_forall_ne_some]
        rintro ⟨description, address, after⟩ himage
        refine h ⟨Line.ofChars ('!' :: '[' :: description), Line.ofChars (address ++ [')']) ++ after, ?_⟩
        rw [image?_eq_some himage]
        simp
      rw [setImages_of_none hnone, ih (linkless_infixClosed _ _ (List.suffix_cons p l).isInfix h)]

theorem setLinks_of_linkless {l : Line} (h : Linkless l) (n : Nat) : setLinks n l = (l, n) := by
  induction l with
  | nil => rw [setLinks]
  | cons p l ih =>
      have hnone : link? (p :: l) = none := by
        rw [Option.eq_none_iff_forall_ne_some]
        rintro ⟨label, address, after⟩ hlink
        refine h ⟨.char '[' :: label, Line.ofChars (address ++ [')']) ++ after, ?_⟩
        rw [link?_eq_some hlink]
        simp
      rw [setLinks_of_none hnone, ih (linkless_infixClosed _ _ (List.suffix_cons p l).isInfix h)]

theorem Emphasis.set_of_not_mem {e : Emphasis} {c : Char} (hmark : e.mark.head? = some c) {l : Line} (h : .char c ∉ l)
    (afterWord : Bool) : e.set afterWord l = l := by
  induction l generalizing afterWord with
  | nil => rw [set]
  | cons p l ih =>
      obtain ⟨mark, hmark⟩ := List.head?_eq_some_iff.mp hmark
      have hnone : e.begin? afterWord (p :: l) = none := by
        rw [Option.eq_none_iff_forall_ne_some]
        rintro ⟨content, after⟩ hbegin
        rw [begin?] at hbegin
        split at hbegin
        · simp at hbegin
        · have hline := match?_eq_some hbegin
          rw [hmark] at hline
          exact h (by rw [hline]; exact List.mem_cons_self)
      rw [set_of_none hnone, ih fun hmem => h (List.mem_cons_of_mem p hmem)]

theorem setEmphases_of_not_mem {l : Line} (h : ∀ c ∈ ['~', '*', '_'], .char c ∉ l) : setEmphases l = l := by
  have hmarks : ∀ e ∈ emphases, e.mark.head?.any (['~', '*', '_'].contains ·) = true := by decide
  have hfold : ∀ es : List Emphasis, (∀ e ∈ es, e ∈ emphases) → es.foldl (fun line e => e.set false line) l = l := by
    intro es hes
    induction es with
    | nil => rfl
    | cons e es ih =>
        obtain ⟨he, hes⟩ := List.forall_mem_cons.mp hes
        obtain ⟨c, hmark, hc⟩ := (Option.any_eq_true _ _).mp (hmarks e he)
        rw [List.foldl_cons, Emphasis.set_of_not_mem hmark (h c (List.contains_iff_mem.mp hc)), ih hes]
  exact hfold emphases fun _ he => he

/-! ## Characters up to a mark -/

section Marks

variable {p : Piece → Bool} {s : List Char} {a : Piece}

theorem takeWhile_ofChars_mark (hs : ∀ c ∈ s, p (.char c) = true) (ha : p a = false) (l : Line) :
    (Line.ofChars s ++ a :: l).takeWhile p = Line.ofChars s := by
  have hall : ∀ piece ∈ Line.ofChars s, p piece = true := List.forall_mem_map.mpr hs
  rw [takeWhile_append_mark ha, List.takeWhile_eq_self_iff.mpr hall]

theorem dropWhile_ofChars_mark (hs : ∀ c ∈ s, p (.char c) = true) (ha : p a = false) (l : Line) :
    (Line.ofChars s ++ a :: l).dropWhile p = a :: l := by
  have hall : ∀ piece ∈ Line.ofChars s, p piece = true := List.forall_mem_map.mpr hs
  rw [dropWhile_append_mark ha, List.dropWhile_eq_nil_iff.mpr hall, List.nil_append]

/-- A reader that stops at a mark passes over characters other than it. -/
theorem not_is_of_not_mem {mark : Char} (h : mark ∉ s) : ∀ c ∈ s, (!Piece.is mark (.char c)) = true := by
  intro c hc
  have hne : c ≠ mark := fun heq => h (heq ▸ hc)
  simpa [Piece.is, Piece.sat] using hne

end Marks

/-! ## Chords of a phrase -/

section Chords

variable (db : Chord.Database)

theorem char_mem_ofChars {c : Char} {s : List Char} : .char c ∈ Line.ofChars s ↔ c ∈ s := by
  simp [Line.ofChars]

theorem source_ofChars (s : List Char) : Line.source (Line.ofChars s) = escape s := List.flatMap_map ..

theorem setChords_ofChars_append {s : List Char} (h : '[' ∉ s) (l : Line) :
    setChords db (Line.ofChars s ++ l) = Line.ofChars s ++ setChords db l := by
  induction s with
  | nil => rfl
  | cons c s ih =>
      rw [List.mem_cons, not_or] at h
      have hnone : name? (.char c :: (Line.ofChars s ++ l)) = none := by
        rw [name?_cons]
        exact if_neg (by simp [Piece.is, Piece.sat, Ne.symm h.1])
      rw [Line.ofChars_cons, List.cons_append, setChords_of_none hnone, ih h.2, List.cons_append]

theorem bracketed?_ofChars {name : List Char} (hne : name ≠ []) (h : ']' ∉ name) (l : Line) :
    bracketed? (Line.ofChars name ++ .char ']' :: l) = some (Line.ofChars name, l) := by
  have hstop : (!Piece.is ']' (.char ']')) = false := rfl
  have hname : Line.ofChars name ≠ [] := by simpa [Line.ofChars] using hne
  rw [bracketed?_eq, takeWhile_ofChars_mark (p := (!Piece.is ']' ·)) (not_is_of_not_mem h) hstop,
    dropWhile_ofChars_mark (p := (!Piece.is ']' ·)) (not_is_of_not_mem h) hstop, if_neg hname]
  rfl

/-- A bracketed name that is a chord becomes one, any other is left as it is. -/
theorem print_setChords_name {name : List Char} (hne : name ≠ []) (hclose : ']' ∉ name) (hescape : escape name = name)
    (l : Line) :
    Token.print (Line.tokens (setChords db (.char '[' :: (Line.ofChars name ++ .char ']' :: l)))) =
      (if db.isChord name then "<span class=\"chord-inline\">".toList ++ name ++ "</span>".toList
        else '[' :: name ++ [']']) ++ Token.print (Line.tokens (setChords db l)) := by
  have hname : name? (.char '[' :: (Line.ofChars name ++ .char ']' :: l)) = some (Line.ofChars name, l) := by
    rw [name?_cons]
    exact bracketed?_ofChars hne hclose l
  have hprint : Token.print (Line.tokens (Line.ofChars name)) = name := by
    rw [Line.tokens_ofChars, print_ofChars, hescape]
  rw [setChords_of_some hname, source_ofChars, hescape]
  split
  · have hstart : Token.print (Piece.tokens (.tag (.opening .chord))) = "<span class=\"chord-inline\">".toList := by
      decide
    have hend : Token.print (Piece.tokens (.tag (.closing .chord))) = "</span>".toList := by decide
    simp only [Line.tokens_cons, Line.tokens_append, List.cons_append, print_append, hprint, hstart, hend,
      List.append_assoc]
  · have hstart : Token.print (Piece.tokens (.char '[')) = ['['] := by decide
    have hend : Token.print (Piece.tokens (.char ']')) = [']'] := by decide
    simp only [Line.tokens_cons, Line.tokens_append, List.cons_append, print_append, hprint, hstart, hend,
      List.append_assoc, List.nil_append]

theorem print_setChords_bracket (b : Bracket) (l : Line) :
    Token.print (Line.tokens (setChords db (Line.ofChars b.source ++ l))) =
      b.html db ++ Token.print (Line.tokens (setChords db l)) := by
  have hopen : isLyricChar '[' = false := by decide
  have hclose : isLyricChar ']' = false := by decide
  have hsource : Line.ofChars b.source ++ l =
      .char '[' :: (Line.ofChars b.name ++ .char ']' :: (Line.ofChars b.text ++ l)) := by
    simp [Bracket.source]
  rw [hsource, print_setChords_name db b.name_ne_nil (b.isLyric_name.not_mem hclose) b.isLyric_name.escape_eq,
    setChords_ofChars_append db (b.isLyric_text.not_mem hopen), Line.tokens_append, print_append,
    b.isLyric_text.print_line, Bracket.html]
  split
  · simp only [List.append_assoc]
  · simp only [Bracket.source, List.cons_append, List.append_assoc, List.nil_append]

theorem print_setChords_phrase (p : Phrase) :
    Token.print (Line.tokens (setChords db p.line)) = p.html db := by
  have hsources : ∀ bs : List Bracket,
      Token.print (Line.tokens (setChords db (Line.ofChars (bs.flatMap Bracket.source)))) =
        bs.flatMap (Bracket.html db) := by
    intro bs
    induction bs with
    | nil =>
        rw [List.flatMap_nil, Line.ofChars_nil, setChords]
        rfl
    | cons b bs ih => rw [List.flatMap_cons, Line.ofChars_append, print_setChords_bracket, ih, List.flatMap_cons]
  rw [Phrase.line, Phrase.text, Line.ofChars_append, setChords_ofChars_append db (p.isLyric_first.not_mem (by decide)),
    Line.tokens_append, print_append, hsources, p.isLyric_first.print_line, Phrase.html]

/-- Marking up a phrase shows its chords and changes nothing else. No literal is set in it. -/
theorem renderLine_phrase (n : Nat) (p : Phrase) :
    ∃ ts, renderLine db n p.line = (ts, n) ∧ Token.print ts = p.html db := by
  have hmarks : ∀ c ∈ ['~', '*', '_'], .char c ∉ p.line := by
    intro c hc
    rw [Phrase.line, char_mem_ofChars]
    simp only [List.mem_cons, List.not_mem_nil, or_false] at hc
    rcases hc with rfl | rfl | rfl
    · exact p.not_mem_text (by decide) (by decide)
    · exact p.not_mem_text (by decide) (by decide)
    · exact p.not_mem_text (by decide) (by decide)
  refine ⟨Line.tokens (setChords db p.line), ?_, print_setChords_phrase db p⟩
  simp only [renderLine, setImages_of_linkless p.linkless, setLinks_of_linkless p.linkless,
    setEmphases_of_not_mem hmarks]

end Chords

end LeadSheet.Markup
