import LeadSheet.Proofs.Chord.Names
import LeadSheet.Proofs.Markup.Safety
import Mathlib.Data.List.Basic

/-!
# No letter is lost

`decode (dropTags s)` is what a reader sees of a document: the text between the tags, with its entities
decoded once. For a body that has neither code blocks, nor images or links, nor reference lines, its
letters are the letters of the body in their order (`letters_render`).

* `letters` : the letters of tokens; every rule inside a line keeps them (`letters_renderLine`), every block
  shows those of its lines (`letters_renderBlock`), and reading the blocks of a body loses none
  (`letters_readBlocks`);
* `decode_dropTags_print` : reading a printed document back gives the characters among its tokens.
-/

namespace LeadSheet.Markup

open Text

/-! ## Reading a document back -/

/-- The text without its tags; `inside` says whether it begins inside a tag. -/
def dropTagsFrom (inside : Bool) : List Char → List Char
  | [] => []
  | c :: s =>
    if inside then dropTagsFrom (c != '>') s
    else if c == '<' then dropTagsFrom true s
    else c :: dropTagsFrom false s

def dropTags (s : List Char) : List Char := dropTagsFrom false s

def Token.chars : Token → List Char
  | .char c => [c]
  | .tag _ => []

theorem dropTags_append {s : List Char} (hs : '<' ∉ s) (t : List Char) : dropTags (s ++ t) = s ++ dropTags t := by
  induction s with
  | nil => rfl
  | cons c s ih =>
      rw [List.mem_cons, not_or] at hs
      have hc : (c == '<') = false := beq_eq_false_iff_ne.mpr (Ne.symm hs.1)
      rw [List.cons_append, dropTags, dropTagsFrom, hc]
      exact congrArg (c :: ·) (ih hs.2)

theorem dropTagsFrom_append {s : List Char} (hs : '>' ∉ s) (t : List Char) :
    dropTagsFrom true (s ++ '>' :: t) = dropTags t := by
  induction s with
  | nil => rfl
  | cons c s ih =>
      rw [List.mem_cons, not_or] at hs
      have hc : (c != '>') = true := bne_iff_ne.mpr (Ne.symm hs.1)
      rw [List.cons_append, dropTagsFrom, if_pos rfl, hc]
      exact ih hs.2

theorem dropTags_tag {tag : List Char} (h : OwnTag tag) (t : List Char) : dropTags (tag ++ t) = dropTags t := by
  obtain ⟨s, rfl, hs⟩ := h.eq_markless
  rw [List.append_assoc]
  exact dropTagsFrom_append hs.no_close t

theorem dropTags_print {ts : List Token} (h : ∀ t ∈ ts, t.Own) :
    dropTags (Token.print ts) = escape (ts.flatMap Token.chars) := by
  induction ts with
  | nil => rfl
  | cons t ts ih =>
      obtain ⟨ht, hts⟩ := List.forall_mem_cons.mp h
      rw [Token.print, List.flatMap_cons, List.flatMap_cons, escape_append]
      cases t with
      | char c =>
          have hc : escape (Token.char c).chars = escapeChar c := List.append_nil _
          rw [Token.text, dropTags_append (markless_escapeChar c).no_open, hc]
          exact congrArg (escapeChar c ++ ·) (ih hts)
      | tag t =>
          rw [Token.text, dropTags_tag (Tag.own_text ht)]
          exact ih hts

/-- Reading a printed document back gives the characters among its tokens. -/
theorem decode_dropTags_print {ts : List Token} (h : ∀ t ∈ ts, t.Own) :
    decode (dropTags (Token.print ts)) = ts.flatMap Token.chars := by
  rw [dropTags_print h, decode_escape]

/-! ## Letters -/

/-- The ASCII letters of the characters among the tokens. -/
def letters (ts : List Token) : List Char := (ts.flatMap Token.chars).filter isAsciiLetter

@[simp] theorem letters_nil : letters [] = [] := rfl

@[simp] theorem letters_append (s t : List Token) : letters (s ++ t) = letters s ++ letters t := by
  simp [letters]

@[simp] theorem letters_tag_cons (t : Tag) (ts : List Token) : letters (.tag t :: ts) = letters ts := rfl

theorem letters_char_cons (c : Char) (ts : List Token) :
    letters (.char c :: ts) = [c].filter isAsciiLetter ++ letters ts :=
  letters_append [.char c] ts

@[simp] theorem letters_element (e : Element) (ts : List Token) : letters (Token.element e ts) = letters ts := by
  simp [Token.element]

@[simp] theorem letters_ofChars (s : List Char) : letters (Token.ofChars s) = s.filter isAsciiLetter := by
  induction s with
  | nil => rfl
  | cons c s ih =>
      rw [Token.ofChars, List.map_cons, letters_char_cons, ← List.singleton_append (l := s), List.filter_append]
      exact congrArg ([c].filter isAsciiLetter ++ ·) ih

theorem letters_flatMap {α : Type} (f : α → List Token) (l : List α) :
    letters (l.flatMap f) = l.flatMap fun a => letters (f a) := by
  induction l with
  | nil => rfl
  | cons a l ih => rw [List.flatMap_cons, letters_append, ih, List.flatMap_cons]

theorem letters_intercalate {sep : List Token} (hsep : letters sep = []) (parts : List (List Token)) :
    letters (List.intercalate sep parts) = parts.flatMap letters := by
  induction parts with
  | nil => rfl
  | cons ts parts ih =>
      cases parts with
      | nil => simp
      | cons ts' parts =>
          rw [List.intercalate_cons_cons, letters_append, letters_append, hsep, ih, List.append_nil,
            ← List.flatMap_cons]

theorem letters_of_isFiller {p : Piece} (h : p.isFiller = true) : letters p.tokens = [] := by
  cases p with
  | char c =>
      have hc : isAsciiLetter c = false := by simpa [Piece.isFiller, Piece.sat] using h
      simp [Piece.tokens, letters_char_cons, hc]
  | tag t => rfl
  | literal n content => simp [Piece.isFiller, Piece.sat] at h

namespace Line

def letters (l : Line) : List Char := Markup.letters l.tokens

@[simp] theorem letters_nil : letters [] = [] := rfl

@[simp] theorem letters_append (l l' : Line) : letters (l ++ l') = letters l ++ letters l' := by
  simp [letters]

theorem letters_cons (p : Piece) (l : Line) : letters (p :: l) = Markup.letters p.tokens ++ letters l := by
  simp [letters]

@[simp] theorem letters_ofChars (s : List Char) : letters (ofChars s) = s.filter isAsciiLetter := by
  rw [letters, tokens_ofChars, Markup.letters_ofChars]

theorem letters_of_allFiller {l : Line} (h : AllFiller l) : letters l = [] := by
  induction l with
  | nil => rfl
  | cons p l ih =>
      obtain ⟨hp, hl⟩ := allFiller_cons.mp h
      rw [letters_cons, letters_of_isFiller hp, ih hl, List.append_nil]

end Line

theorem Trims.letters_eq {line text : Line} (h : Trims line text) : text.letters = line.letters := by
  obtain ⟨a, b, rfl, ha, hb⟩ := h
  simp [Line.letters_of_allFiller ha, Line.letters_of_allFiller hb]

/-! ## The rules inside a line -/

/-- Letters are kept when each replacement has the letters of what it replaces. -/
theorem Rewrites.letters_eq {R : List Char → Piece → Prop} {s t : Line} (h : Rewrites R s t)
    (hR : ∀ u p, R u p → Line.ofChars u <:+: s → letters p.tokens = u.filter isAsciiLetter) :
    t.letters = s.letters := by
  induction h with
  | nil => rfl
  | keep p _ ih =>
      rw [Line.letters_cons, Line.letters_cons]
      exact congrArg (letters p.tokens ++ ·)
        (ih fun u q hq hu => hR u q hq (hu.trans (List.suffix_cons p _).isInfix))
  | @set u p s t hp _ ih =>
      rw [Line.letters_cons, Line.letters_append, Line.letters_ofChars,
        hR u p hp (List.prefix_append _ _).isInfix]
      exact congrArg (u.filter isAsciiLetter ++ ·)
        (ih fun u q hq hu => hR u q hq (hu.trans (List.suffix_append _ _).isInfix))

theorem CodeMark.letters_eq {u : List Char} {p : Piece} (h : CodeMark u p) :
    letters p.tokens = u.filter isAsciiLetter := by
  cases h with
  | span n code =>
      have hmark : isAsciiLetter '`' = false := by decide
      simp [Piece.tokens, codeSpan, hmark]

theorem InlineMark.letters_eq {u : List Char} {p : Piece} (h : InlineMark u p) (hu : ¬ [']', '('] <:+: u) :
    letters p.tokens = u.filter isAsciiLetter := by
  have hmark : ∀ e ∈ emphases, e.mark.filter isAsciiLetter = [] := by decide
  cases h with
  | image n description address =>
      exact absurd ⟨'!' :: '[' :: description, address ++ [')'], by simp⟩ hu
  | linkStart n address => rfl
  | linkEnd address => exact absurd ⟨[], address ++ [')'], by simp⟩ hu
  | emphasisStart he => exact (hmark _ he).symm
  | emphasisEnd he => exact (hmark _ he).symm

theorem ChordMark.letters_eq {u : List Char} {p : Piece} (h : ChordMark u p) :
    letters p.tokens = u.filter isAsciiLetter := by
  cases h with
  | start => rfl
  | stop => rfl

theorem letters_setSpans (n : Nat) (s : List Char) : (setSpans n s).1.letters = s.filter isAsciiLetter := by
  rw [(rewrites_setSpans n s).letters_eq fun _ _ h _ => h.letters_eq, Line.letters_ofChars]

/-- Marking up a line without links keeps its letters. -/
theorem letters_renderLine (db : Chord.Database) (n : Nat) {l : Line} (hl : Linkless l) :
    letters (renderLine db n l).1 = l.letters := by
  rw [renderLine_fst]
  have hchords := (rewrites_setChords db (setInline n l)).letters_eq fun _ _ h _ => h.letters_eq
  refine hchords.trans ((rewrites_setInline n l).letters_eq fun u p hp hu => ?_)
  exact hp.letters_eq fun hlink => hl ((Line.infix_ofChars_iff.mpr hlink).trans hu)

/-! ## Blocks -/

/-- The letters of a block, those of its lines in their order. -/
def Block.letters : Block → List Char
  | .gap => []
  | .fence _ code => code.filter isAsciiLetter
  | .heading _ text => text.letters
  | .rule => []
  | .reference r => r.name.letters ++ r.frets.letters ++ r.remark.letters
  | .quote lines => lines.flatMap Line.letters
  | .table header rows => header.flatMap Line.letters ++ rows.flatMap fun row => row.flatMap Line.letters
  | .list items => items.flatMap fun item => item.text.letters
  | .label name => name.letters
  | .paragraph lines => lines.flatMap Line.letters

theorem letters_closeAll (stack : List OpenList) : letters (OpenList.closeAll stack) = [] := by
  rw [OpenList.closeAll, letters_flatMap]
  exact List.flatMap_eq_nil_iff.mpr fun l _ => rfl

theorem letters_enterList (item : OpenList) (stack : List OpenList) :
    letters (enterList item stack).1 = [] := by
  unfold enterList
  split
  · rfl
  · split
    · split
      · rfl
      · rfl
    · rfl

theorem letters_nestItems (stack : List OpenList) (items : List (OpenList × List Token)) :
    letters (nestItems stack items) = items.flatMap fun i => letters i.2 := by
  induction items generalizing stack with
  | nil => exact letters_closeAll stack
  | cons i items ih =>
      obtain ⟨item, content⟩ := i
      simp only [nestItems, letters_append, letters_closeAll, letters_enterList,
        letters_tag_cons, List.nil_append, ih, List.flatMap_cons]

section Render

variable (db : Chord.Database)

theorem letters_renderLines {lines : List Line} (h : ∀ l ∈ lines, Linkless l) (n : Nat) :
    (renderLines db n lines).1.map letters = lines.map Line.letters := by
  induction lines generalizing n with
  | nil => rfl
  | cons l lines ih =>
      obtain ⟨hl, hlines⟩ := List.forall_mem_cons.mp h
      simp only [renderLines, List.map_cons, letters_renderLine db n hl, ih hlines]

theorem flatMap_letters_renderLines {lines : List Line} (h : ∀ l ∈ lines, Linkless l) (n : Nat) :
    (renderLines db n lines).1.flatMap letters = lines.flatMap Line.letters := by
  rw [List.flatMap_def, letters_renderLines db h n, List.flatMap_def]

theorem letters_joinBreaks (lines : List (List Token)) : letters (joinBreaks lines) = lines.flatMap letters :=
  letters_intercalate rfl lines

theorem letters_renderParagraph {lines : List Line} (h : ∀ l ∈ lines, Linkless l) (n : Nat) :
    letters (renderParagraph db n lines).1 = lines.flatMap Line.letters := by
  simp only [renderParagraph, letters_element, letters_joinBreaks, flatMap_letters_renderLines db h n]

theorem letters_renderList {items : List Item} (h : ∀ item ∈ items, Linkless item.text) (n : Nat) :
    letters (renderList db n items).1 = items.flatMap fun item => item.text.letters := by
  have htexts : ∀ l ∈ items.map Item.text, Linkless l := by
    intro l hl
    obtain ⟨item, hitem, rfl⟩ := List.mem_map.mp hl
    exact h item hitem
  have hlength : (renderLines db n (items.map Item.text)).1.length = items.length := by
    have h := congrArg List.length (letters_renderLines db htexts n)
    rwa [List.length_map, List.length_map, List.length_map] at h
  simp only [renderList, letters_nestItems]
  rw [← List.flatMap_map Prod.snd letters, List.map_snd_zip (by simp [hlength]),
    flatMap_letters_renderLines db htexts n, List.flatMap_map]

theorem letters_renderCells (kind : Element) {row : List Line} (h : ∀ l ∈ row, Linkless l) (n : Nat) :
    letters (renderCells db n kind row).1 = row.flatMap Line.letters := by
  simp only [renderCells, letters_element, letters_flatMap, flatMap_letters_renderLines db h n]

theorem letters_renderRows {rows : List (List Line)} (h : ∀ row ∈ rows, ∀ l ∈ row, Linkless l) (n : Nat) :
    letters (renderRows db n rows).1 = rows.flatMap fun row => row.flatMap Line.letters := by
  induction rows generalizing n with
  | nil => rfl
  | cons row rows ih =>
      obtain ⟨hrow, hrows⟩ := List.forall_mem_cons.mp h
      simp only [renderRows, letters_append, letters_renderCells db .cell hrow n, ih hrows, List.flatMap_cons]

theorem letters_of_isEmptyLine {l : Line} (h : Line.isEmptyLine l = true) : l.letters = [] :=
  Line.letters_of_allFiller fun p hp => Piece.isFiller_of_space (List.all_eq_true.mp h p hp)

theorem letters_renderRemark {r : Reference} (h : Linkless r.remark) (n : Nat) :
    letters (renderRemark db n r).1 = r.remark.letters := by
  unfold renderRemark
  split
  · rename_i hempty
    exact (letters_of_isEmptyLine hempty).symm
  · exact letters_renderLine db n h

theorem letters_referenceTokens (r : Reference) (remark : List Token) :
    letters (referenceTokens r remark) = r.name.letters ++ r.frets.letters ++ letters remark := by
  have hcolon : letters [.char ':', .char ' '] = [] := rfl
  simp only [referenceTokens, letters_element, letters_append, hcolon, List.append_nil, Line.letters]

/-- A block shows the letters of its lines. -/
theorem letters_renderBlock {block : Block} (h : block.Holds Linkless) (n : Nat) :
    letters (renderBlock db n block).1 = block.letters := by
  cases block with
  | gap => rfl
  | fence language code => simp only [renderBlock, letters_element, letters_ofChars, Block.letters]
  | heading level text => exact (letters_element _ _).trans (letters_renderLine db n h.2.2)
  | rule => rfl
  | reference r =>
      simp only [renderBlock, letters_referenceTokens, letters_renderRemark db h.2.2 n, Block.letters]
  | quote lines =>
      simp only [renderBlock, letters_element, letters_joinBreaks, flatMap_letters_renderLines db h n,
        Block.letters]
  | table header rows =>
      simp only [renderBlock, renderTable, letters_element, letters_append,
        letters_renderCells db .headCell h.1, letters_renderRows db h.2, Block.letters]
  | list items => exact letters_renderList db h n
  | label name => exact letters_element _ _
  | paragraph lines => exact letters_renderParagraph db h n

theorem letters_renderBlocks {blocks : List Block} (h : ∀ b ∈ blocks, b.Holds Linkless) (n : Nat) :
    (renderBlocks db n blocks).flatMap letters = blocks.flatMap Block.letters := by
  fun_induction renderBlocks db n blocks with
  | case1 => rfl
  | case2 n rest ih => exact ih (List.forall_mem_cons.mp h).2
  | case3 n lines r rest remark n₁ hremark paragraph n₂ hparagraph ih =>
      obtain ⟨hlines, h⟩ := List.forall_mem_cons.mp h
      obtain ⟨hr, hrest⟩ := List.forall_mem_cons.mp h
      have hp := letters_renderParagraph db hlines n₁
      have hm := letters_renderRemark db hr.2.2 n
      rw [hparagraph] at hp
      rw [hremark] at hm
      simp only [List.flatMap_cons, letters_referenceTokens, ih hrest, hp, hm, Block.letters]
  | case4 n items r rest _ n₁ _ list n₂ hlist remark n₃ hremark ih =>
      obtain ⟨hitems, h⟩ := List.forall_mem_cons.mp h
      obtain ⟨hr, hrest⟩ := List.forall_mem_cons.mp h
      have hl := letters_renderList db hitems n₁
      have hm := letters_renderRemark db hr.2.2 n₂
      rw [hlist] at hl
      rw [hremark] at hm
      simp only [List.flatMap_cons, letters_referenceTokens, ih hrest, hl, hm, Block.letters]
  | case5 n block rest _ _ _ tokens n₁ hblock ih =>
      obtain ⟨hb, hrest⟩ := List.forall_mem_cons.mp h
      have hts := letters_renderBlock db hb n
      rw [hblock] at hts
      simp only [List.flatMap_cons, ih hrest, hts]

end Render

/-! ## Reading blocks -/

def Source.letters : Source Line → List Char
  | .line l => l.letters
  | .fence _ code => code.filter isAsciiLetter

def Source.isReference (db : Chord.Database) : Source Line → Bool
  | .line l => (reference? db l).isSome
  | .fence _ _ => false

theorem letters_of_isRule {l : Line} (h : isRule l = true) : l.letters = [] := by
  simp only [isRule, Bool.and_eq_true, List.any_eq_true] at h
  obtain ⟨-, c, hc, hmarks⟩ := h
  have hletter : isAsciiLetter c = false := by
    simp only [List.mem_cons, List.not_mem_nil, or_false] at hc
    rcases hc with rfl | rfl | rfl
    · decide
    · decide
    · decide
  rw [← ((dropBlanks_trims l).trans (dropEndBlanks_trims _)).letters_eq]
  exact Line.letters_of_allFiller fun p hp => Piece.isFiller_of_is hletter (List.all_eq_true.mp hmarks p hp)

theorem letters_quoteText (l : Line) : (quoteText (.line l)).letters = l.letters := by
  simp only [quoteText]
  cases hq : quoted? l with
  | none => exact (trim_trims l).letters_eq
  | some text => exact (quoted?_trims hq).letters_eq

theorem letters_cutAt {c : Char} (hc : isAsciiLetter c = false) (l : Line) :
    (cutAt (Piece.is c) l).flatMap Line.letters = l.letters := by
  induction l with
  | nil => rfl
  | cons p l ih =>
      rw [Line.letters_cons, ← ih]
      simp only [cutAt]
      split
      · rename_i hp
        rw [letters_of_isFiller (Piece.isFiller_of_is hc hp)]
        rfl
      · split
        · rename_i hcut
          exact absurd hcut (cutAt_ne_nil _ l)
        · rename_i part parts hcut
          rw [hcut, List.flatMap_cons, List.flatMap_cons, Line.letters_cons, List.append_assoc]

theorem letters_cells (row : Line) : (cells row).flatMap Line.letters = row.letters := by
  have htrim : ∀ part : Line, (Line.trim part).letters = part.letters := fun part => (trim_trims part).letters_eq
  rw [cells, List.flatMap_map, funext htrim]
  exact (letters_cutAt (by decide) _).trans (row_trims row).letters_eq

theorem allFiller_of_marks {l : Line}
    (h : (l.dropWhile (Piece.is '-')).isEmpty = true ∨ (l.dropWhile (Piece.is '-')).all (Piece.is ':') = true) :
    AllFiller l := by
  have hmarks : AllFiller (l.takeWhile (Piece.is '-')) := allFiller_takeWhile (fun _ => Piece.isFiller_of_is rfl) l
  have hrest : AllFiller (l.dropWhile (Piece.is '-')) := by
    rcases h with hempty | hcolon
    · rw [List.isEmpty_iff.mp hempty]
      exact allFiller_nil
    · exact fun p hp => Piece.isFiller_of_is rfl (List.all_eq_true.mp hcolon p hp)
  rw [← List.takeWhile_append_dropWhile (p := Piece.is '-') (l := l)]
  exact allFiller_append.mpr ⟨hmarks, hrest⟩

theorem letters_of_isSeparatorCell {cell : Line} (h : isSeparatorCell cell = true) : cell.letters = [] := by
  have hinner := (dropBlanks_trims cell).trans (dropEndBlanks_trims _)
  simp only [isSeparatorCell] at h
  generalize Line.dropEndBlanks (Line.dropBlanks cell) = inner at h hinner
  rw [← hinner.letters_eq]
  simp only [Bool.and_eq_true, Bool.or_eq_true] at h
  have hmarks := allFiller_of_marks (h.2.imp_right And.right)
  refine Line.letters_of_allFiller ?_
  split at hmarks
  · rename_i hcolon
    cases inner with
    | nil => exact allFiller_nil
    | cons p inner => exact allFiller_cons.mpr ⟨Piece.isFiller_of_is rfl (by simpa using hcolon), hmarks⟩
  · exact hmarks

theorem letters_of_isSeparator {l : Line} (h : isSeparator l = true) : l.letters = [] := by
  simp only [isSeparator, Bool.and_eq_true] at h
  have hblanks := (dropBlanks_trims l).trans (dropEndBlanks_trims _)
  have hrow := hblanks.trans ((dropBar_trims _).trans (dropEndBar_trims _))
  rw [← hrow.letters_eq, ← letters_cutAt (c := '|') (by decide)]
  exact List.flatMap_eq_nil_iff.mpr fun cell hcell =>
    letters_of_isSeparatorCell (List.all_eq_true.mp h.2 cell hcell)

theorem letters_label? {db : Chord.Database} {l name remainder : Line}
    (h : label? db l = some (name, remainder)) : name.letters ++ remainder.letters = l.letters := by
  obtain ⟨a, after, rfl, ha, hafter⟩ := label?_eq_some h
  have hclose : letters (Piece.tokens (.char ']')) = [] := rfl
  simp [Line.letters_of_allFiller ha, Line.letters_cons, hclose, hafter.letters_eq]

theorem letters_addLine (l : Line) (blocks : List Block) :
    (addLine l blocks).flatMap Block.letters = l.letters ++ blocks.flatMap Block.letters := by
  unfold addLine
  split
  · simp [Block.letters]
  · simp [Block.letters]

theorem letters_quoteLines {sources : List (Source Line)} (h : ∀ s ∈ sources, continuesQuote s = true) :
    (sources.map quoteText).flatMap Line.letters = sources.flatMap Source.letters := by
  rw [List.flatMap_map]
  refine List.flatMap_congr fun s hs => ?_
  cases s with
  | line l => exact letters_quoteText l
  | fence language code => exact absurd (h _ hs) (by simp [continuesQuote])

theorem letters_rows {sources : List (Source Line)} (h : ∀ s ∈ sources, continuesTable s = true) :
    (sources.map rowCells).flatMap (fun row => row.flatMap Line.letters) = sources.flatMap Source.letters := by
  rw [List.flatMap_map]
  refine List.flatMap_congr fun s hs => ?_
  cases s with
  | line l => exact letters_cells l
  | fence language code => exact absurd (h _ hs) (by simp [continuesTable])

theorem letters_items {sources : List (Source Line)} (h : ∀ s ∈ sources, (lineItem? s).isSome = true) :
    (sources.filterMap lineItem?).flatMap (fun item => item.text.letters) = sources.flatMap Source.letters := by
  induction sources with
  | nil => rfl
  | cons s sources ih =>
      obtain ⟨hs, hsources⟩ := List.forall_mem_cons.mp h
      obtain ⟨item, hitem⟩ := Option.isSome_iff_exists.mp hs
      rw [List.filterMap_cons_some hitem, List.flatMap_cons, List.flatMap_cons, ih hsources]
      refine congrArg (· ++ sources.flatMap Source.letters) ?_
      cases s with
      | line l => exact (item?_trims hitem).letters_eq
      | fence language code => simp [lineItem?] at hitem

/-- The lines up to a point and those from it on. -/
theorem letters_split (p : Source Line → Bool) (lines : List (Source Line)) :
    lines.flatMap Source.letters =
      (lines.takeWhile p).flatMap Source.letters ++ (lines.dropWhile p).flatMap Source.letters := by
  rw [← List.flatMap_append, List.takeWhile_append_dropWhile]

/-- Where no line is a reference line, the blocks have the letters of the lines. -/
theorem letters_readBlocks (db : Chord.Database) {lines : List (Source Line)}
    (h : ∀ s ∈ lines, s.isReference db = false) :
    (readBlocks db lines).flatMap Block.letters = lines.flatMap Source.letters := by
  fun_induction readBlocks db lines with
  | case1 => rfl
  | case2 language code rest ih =>
      rw [List.flatMap_cons, List.flatMap_cons, ih (List.forall_mem_cons.mp h).2]
      rfl
  | case3 line rest hkind ih =>
      have hline : line.letters = [] := letters_of_isEmptyLine (fits_of_kind hkind)
      rw [List.flatMap_cons, List.flatMap_cons, ih (List.forall_mem_cons.mp h).2]
      exact congrArg (· ++ rest.flatMap Source.letters) hline.symm
  | case4 line rest level text hkind ih =>
      have htext : text.letters = line.letters := (heading?_eq_some (fits_of_kind hkind)).2.2.letters_eq
      rw [List.flatMap_cons, List.flatMap_cons, ih (List.forall_mem_cons.mp h).2]
      exact congrArg (· ++ rest.flatMap Source.letters) htext
  | case5 line rest hkind ih =>
      have hline : line.letters = [] := letters_of_isRule (fits_of_kind hkind)
      rw [List.flatMap_cons, List.flatMap_cons, ih (List.forall_mem_cons.mp h).2]
      exact congrArg (· ++ rest.flatMap Source.letters) hline.symm
  | case6 line rest r hkind ih =>
      have hreference : reference? db line = some r := fits_of_kind hkind
      have hline := (List.forall_mem_cons.mp h).1
      simp [Source.isReference, hreference] at hline
  | case7 line rest hkind _ ih =>
      have hafter := (List.forall_mem_cons.mp h).2
      have hrest := ih fun s hs => hafter s ((List.dropWhile_sublist _).mem hs)
      have hcontinues : ∀ s ∈ rest.takeWhile continuesQuote, continuesQuote s = true :=
        fun s hs => List.mem_takeWhile_imp hs
      rw [List.flatMap_cons, List.flatMap_cons, letters_split continuesQuote rest, hrest,
        ← letters_quoteLines hcontinues, Block.letters, List.flatMap_cons, letters_quoteText, List.append_assoc]
      rfl
  | case8 line rest hkind _ ih =>
      obtain ⟨l, hnext, hseparator⟩ : ∃ l, rest.head? = some (.line l) ∧ isSeparator l = true := fits_of_kind hkind
      obtain ⟨tail, rfl⟩ := List.head?_eq_some_iff.mp hnext
      have hafter := (List.forall_mem_cons.mp (List.forall_mem_cons.mp h).2).2
      have hrest := ih fun s hs => hafter s ((List.dropWhile_sublist _).mem hs)
      have hcontinues : ∀ s ∈ tail.takeWhile continuesTable, continuesTable s = true :=
        fun s hs => List.mem_takeWhile_imp hs
      have hl : Source.letters (.line l) = [] := letters_of_isSeparator hseparator
      rw [List.tail_cons] at hrest ⊢
      rw [List.flatMap_cons, List.flatMap_cons, List.flatMap_cons, hl, List.nil_append,
        letters_split continuesTable tail, hrest, ← letters_rows hcontinues, Block.letters, letters_cells,
        List.append_assoc]
      rfl
  | case9 line rest hkind _ ih =>
      have hafter := (List.forall_mem_cons.mp h).2
      have hrest := ih fun s hs => hafter s ((List.dropWhile_sublist _).mem hs)
      have hitems : ∀ s ∈ .line line :: rest.takeWhile (continuesList db), (lineItem? s).isSome = true := by
        refine List.forall_mem_cons.mpr ⟨fits_of_kind hkind, fun s hs => ?_⟩
        have hcontinues := List.mem_takeWhile_imp hs
        cases s with
        | line l => exact (Bool.and_eq_true _ _ ▸ hcontinues).1
        | fence language code => simp [continuesList] at hcontinues
      rw [List.flatMap_cons, List.flatMap_cons, letters_split (continuesList db) rest, hrest, Block.letters,
        letters_items hitems, List.flatMap_cons, List.append_assoc]
  | case10 line rest name remainder hkind ih =>
      have hrest := ih (List.forall_mem_cons.mp h).2
      have hlabel : name.letters ++ remainder.letters = line.letters := letters_label? (fits_of_kind hkind)
      rw [List.flatMap_cons, List.flatMap_cons, Source.letters, ← hlabel, List.append_assoc, ← hrest]
      refine congrArg (name.letters ++ ·) ?_
      split
      · rename_i hempty
        rw [List.isEmpty_iff.mp hempty]
        rfl
      · exact letters_addLine remainder _
  | case11 line rest hkind ih =>
      rw [letters_addLine, List.flatMap_cons, ih (List.forall_mem_cons.mp h).2]
      rfl

/-! ## The body -/

theorem letters_setAllSpans (n : Nat) (ls : List (List Char)) :
    (setAllSpans n (ls.map .line)).1.flatMap Source.letters = ls.flatMap fun l => l.filter isAsciiLetter := by
  induction ls generalizing n with
  | nil => rfl
  | cons l ls ih =>
      simp only [List.map_cons, setAllSpans, List.flatMap_cons, ih, Source.letters, letters_setSpans]

theorem letters_unixLines (s : List Char) : (unixLines s).filter isAsciiLetter = s.filter isAsciiLetter := by
  have hlf : isAsciiLetter '\n' = false := by decide
  have hcr : isAsciiLetter '\r' = false := by decide
  fun_induction unixLines s with
  | case1 => rfl
  | case2 rest ih => simp [hlf, hcr, ih]
  | case3 rest _ ih => simp [hlf, hcr, ih]
  | case4 c rest _ _ ih => simp [List.filter_cons, ih]

theorem letters_joinLines (ls : List (List Char)) :
    (joinLines ls).filter isAsciiLetter = ls.flatMap fun l => l.filter isAsciiLetter := by
  rw [filter_joinLines (by decide), List.filter_flatten, List.flatMap_def]

theorem letters_setCode {body : List Char} (h : ¬ ['`', '`', '`'] <:+: body) :
    (setCode body).1.flatMap Source.letters = body.filter isAsciiLetter := by
  have hfence : ∀ l ∈ lines (unixLines body), ¬ ['`', '`', '`'] <:+: l :=
    fun l hl hmarks => h (hmarks.trans (infix_of_mem_lines hl))
  rw [setCode, setFences_eq_map hfence, letters_setAllSpans, ← letters_joinLines, joinLines_lines,
    letters_unixLines]

theorem setCode_linkless {body : List Char} (h : ¬ [']', '('] <:+: body) :
    ∀ s ∈ (setCode body).1, s.Holds Linkless := by
  refine setCode_holds fun l hl n hlink => h ?_
  have hstretch := (rewrites_setSpans n l).stretch opaque_codeMark hlink
  exact (Line.infix_ofChars_iff.mp hstretch).trans (infix_of_mem_lines hl)

theorem letters_bodyTokens (db : Chord.Database) {body : List Char} (hfence : ¬ ['`', '`', '`'] <:+: body)
    (hlink : ¬ [']', '('] <:+: body) (hreference : ∀ s ∈ (setCode body).1, s.isReference db = false) :
    letters (bodyTokens db body) = body.filter isAsciiLetter := by
  have hblocks : ∀ b ∈ readBlocks db (setCode body).1, b.Holds Linkless :=
    readBlocks_holds linkless_infixClosed (setCode_linkless hlink)
  have hletters := letters_renderBlocks db hblocks (setCode body).2
  rw [letters_readBlocks db hreference, letters_setCode hfence] at hletters
  rw [← hletters]
  unfold bodyTokens
  simp only
  split
  · rename_i hempty
    rw [hempty]
    rfl
  · exact letters_intercalate rfl _

/-- The letters of a body are those that a reader sees in it once it is rendered, in the same order,
provided that nothing in it is a code block, an image, a link or a reference line. -/
theorem letters_render (db : Chord.Database) (body : String) (hfence : ¬ "```".toList <:+: body.toList)
    (hlink : ¬ "](".toList <:+: body.toList)
    (hreference : ∀ s ∈ (setCode body.toList).1, s.isReference db = false) :
    (decode (dropTags (render db body).toList)).filter isAsciiLetter = body.toList.filter isAsciiLetter := by
  rw [render, String.toList_ofList, decode_dropTags_print (bodyTokens_own db body.toList)]
  exact letters_bodyTokens db (by simpa using hfence) (by simpa using hlink) hreference

theorem letters_render_verse :
    (decode (dropTags (render .cMajor "# Title\n[C]Some & *all*\n\n- one\n- `two`").toList)).filter
        isAsciiLetter = "TitleCSomeallonetwo".toList :=
  (letters_render .cMajor "# Title\n[C]Some & *all*\n\n- one\n- `two`" (by decide +kernel)
    (by decide +kernel) (by decide +kernel)).trans (by decide +kernel)

/-- It does not suffice that no line reads like a reference line by itself: a code span can hide a bracket, so
that a line becomes a reference line once its code is set apart. -/
theorem letters_lost_beside_code :
    ¬ "```".toList <:+: "- C: [`x]y`|1]".toList ∧ ¬ "](".toList <:+: "- C: [`x]y`|1]".toList ∧
      (∀ line ∈ lines (unixLines "- C: [`x]y`|1]".toList),
        reference? .cMajor (Line.ofChars line) = none) ∧
      (decode (dropTags (render .cMajor "- C: [`x]y`|1]").toList)).filter isAsciiLetter ≠
        "- C: [`x]y`|1]".toList.filter isAsciiLetter := by
  decide +kernel

end LeadSheet.Markup
