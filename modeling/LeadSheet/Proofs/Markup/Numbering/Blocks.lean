import LeadSheet.Proofs.Markup.Numbering.Lines

/-!
# The numbers of literals in blocks

What holds of lines holds of blocks: for a database without a `<` in its names, the numbers of literals pass
through the readers of a line and of a block, and have no effect on what a block looks like.

* `Source.anonymous`, `Kind.anonymous`, `Block.anonymous` : the numbers left out;
* `readBlocks_anonymous` : the blocks of lines without numbers are the blocks of the lines, without numbers;
* `renderBlocks_anonymous` : blocks look alike with and without numbers, whatever the number of the first literal.
-/

namespace LeadSheet.Markup

open Text

/-! ## Parts of lines -/

/-- The item with the numbers left out. -/
def Item.anonymous (item : Item) : Item := { item with text := item.text.anonymous }

def Reference.anonymous (r : Reference) : Reference := ⟨r.name.anonymous, r.frets.anonymous, r.remark.anonymous⟩

def Source.anonymous : Source Line → Source Line
  | .line l => .line l.anonymous
  | .fence language code => .fence language code

theorem heading?_anonymous (l : Line) : heading? l.anonymous = (heading? l).map (Prod.map id Line.anonymous) := by
  have hmark : ∀ p : Piece, p.anonymous.is '#' = p.is '#' := by simp
  have hblank : ∀ p : Piece, p.anonymous.sat isBlank = p.sat isBlank := by simp
  simp only [heading?, Line.takeWhile_anonymous hmark, Line.dropWhile_anonymous hmark, Line.takeWhile_anonymous hblank,
    Line.dropBlanks_anonymous, Line.dropEndBlanks_anonymous, Line.isEmpty_anonymous, Line.length_anonymous]
  split
  · rfl
  · split
    · split
      · rfl
      · simp [Line.anonymous]
    · rfl

theorem isRule_anonymous (l : Line) : isRule l.anonymous = isRule l := by
  have hmark : ∀ c : Char, ∀ p : Piece, p.anonymous.is c = p.is c := by simp
  simp only [isRule, Line.dropBlanks_anonymous, Line.dropEndBlanks_anonymous, Line.length_anonymous,
    Line.all_anonymous (hmark _)]

theorem quoted?_anonymous (l : Line) : quoted? l.anonymous = (quoted? l).map Line.anonymous := by
  have hblank : ∀ l : Line, l.anonymous.head?.any (Piece.sat isBlank) = l.head?.any (Piece.sat isBlank) :=
    Line.head?_any_anonymous (fun p => by simp)
  rw [quoted?_eq, quoted?_eq, Line.dropBlanks_anonymous, Line.dropMark?_anonymous]
  cases Line.dropMark? ['>'] (Line.dropBlanks l) with
  | none => rfl
  | some rest =>
      simp only [Option.map_some, hblank]
      split
      · rw [Line.tail_anonymous]
      · rfl

theorem bullet?_anonymous (l : Line) : bullet? l.anonymous = (bullet? l).map (Prod.map id Line.anonymous) := by
  have hbullet : ∀ p : Piece, p.anonymous.sat isBulletChar = p.sat isBulletChar := by simp
  rw [bullet?_eq, bullet?_eq, Line.head?_any_anonymous hbullet, Line.spanChars_anonymous, Line.tail_anonymous]
  simp only [Prod.map_fst, id_eq, Prod.map_snd, Line.dropMark?_anonymous]
  split
  · rfl
  · split
    · rfl
    · rw [Option.map_map, Option.map_map]
      rfl

theorem item?_anonymous (l : Line) : item? l.anonymous = (item? l).map Item.anonymous := by
  have hblank : ∀ p : Piece, p.anonymous.sat isBlank = p.sat isBlank := by simp
  have hcolumn : ∀ (l : Line) (column : Nat), l.anonymous.foldl columnAfter column = l.foldl columnAfter column := by
    intro l column
    rw [Line.anonymous, List.foldl_map]
    exact congrArg (fun f => l.foldl f column) (by simp [funext_iff, columnAfter])
  rw [item?, item?, isRule_anonymous, Line.dropBlanks_anonymous, bullet?_anonymous, Line.takeWhile_anonymous hblank]
  split
  · rfl
  · cases bullet? (Line.dropBlanks l) with
    | none => rfl
    | some b =>
        obtain ⟨ordered, rest⟩ := b
        simp only [Option.map_some, Prod.map_apply, id_eq, Option.bind_eq_bind, Option.bind_some,
          Line.head?_any_anonymous hblank, hcolumn, Line.dropBlanks_anonymous]
        split
        · rfl
        · rfl

theorem cutAtBars_anonymous (l : Line) : cutAtBars l.anonymous = (cutAtBars l).map Line.anonymous :=
  cutAt_map fun p _ => by simp

theorem dropBar_anonymous (l : Line) : dropBar l.anonymous = (dropBar l).anonymous := by
  cases l with
  | nil => rfl
  | cons p l =>
      rw [Line.anonymous_cons, dropBar, dropBar, Piece.is_anonymous]
      split
      · rfl
      · rfl

theorem dropEndBar_anonymous (l : Line) : dropEndBar l.anonymous = (dropEndBar l).anonymous := by
  rw [dropEndBar, dropEndBar, Line.reverse_anonymous, dropBar_anonymous, Line.reverse_anonymous]

theorem cells_anonymous (row : Line) : cells row.anonymous = (cells row).map Line.anonymous := by
  rw [cells, cells, Line.trim_anonymous, dropBar_anonymous, dropEndBar_anonymous, cutAtBars_anonymous, List.map_map,
    List.map_map]
  exact List.map_congr_left fun cell _ => Line.trim_anonymous cell

theorem isSeparatorCell_anonymous (cell : Line) : isSeparatorCell cell.anonymous = isSeparatorCell cell := by
  have hmark : ∀ c : Char, ∀ p : Piece, p.anonymous.is c = p.is c := by simp
  have hinner : ∀ inner : Line,
      (if inner.anonymous.head?.any (Piece.is ':') then inner.anonymous.drop 1 else inner.anonymous) =
        Line.anonymous (if inner.head?.any (Piece.is ':') then inner.drop 1 else inner) := by
    intro inner
    rw [Line.head?_any_anonymous (hmark ':'), List.drop_one, List.drop_one, Line.tail_anonymous]
    split
    · rfl
    · rfl
  simp only [isSeparatorCell, Line.dropBlanks_anonymous, Line.dropEndBlanks_anonymous, hinner,
    Line.takeWhile_anonymous (hmark '-'), Line.dropWhile_anonymous (hmark '-'), Line.isEmpty_anonymous,
    Line.length_anonymous, Line.all_anonymous (hmark ':')]

theorem isSeparator_anonymous (l : Line) : isSeparator l.anonymous = isSeparator l := by
  simp only [isSeparator, Line.dropBlanks_anonymous, Line.dropEndBlanks_anonymous, dropBar_anonymous,
    dropEndBar_anonymous, cutAtBars_anonymous, List.length_map, List.all_map]
  congr 2
  exact funext fun cell => isSeparatorCell_anonymous cell

theorem hasBar_anonymous (l : Line) : hasBar l.anonymous = hasBar l := Line.any_anonymous (fun p => by simp) l

theorem referenceParts?_anonymous (l : Line) :
    referenceParts? l.anonymous = (referenceParts? l).map Reference.anonymous := by
  have hcolon : ∀ p : Piece, p.anonymous.sat (· != ':') = p.sat (· != ':') := by simp
  have hclose : ∀ l : Line, l.anonymous.takeWhile (!Piece.is ']' ·) = Line.anonymous (l.takeWhile (!Piece.is ']' ·)) :=
    Line.takeWhile_anonymous (fun p => by simp)
  have hafter : ∀ l : Line, l.anonymous.dropWhile (!Piece.is ']' ·) = Line.anonymous (l.dropWhile (!Piece.is ']' ·)) :=
    Line.dropWhile_anonymous (fun p => by simp)
  have hbar : ∀ l : Line, l.anonymous.takeWhile (!Piece.is '|' ·) = Line.anonymous (l.takeWhile (!Piece.is '|' ·)) :=
    Line.takeWhile_anonymous (fun p => by simp)
  have hsat : ∀ q : Char → Bool, ∀ p : Piece, p.anonymous.sat q = p.sat q := by simp
  rw [referenceParts?, referenceParts?, Line.dropMark?_anonymous]
  cases Line.dropMark? ['-', ' '] l with
  | none => rfl
  | some rest =>
      simp only [Option.map_some, Line.takeWhile_anonymous hcolon, Line.dropWhile_anonymous hcolon,
        Line.dropMark?_anonymous]
      cases Line.dropMark? [':', ' ', '['] (rest.dropWhile (Piece.sat (· != ':'))) with
      | none => rfl
      | some inner =>
          simp only [Option.map_some, hclose, hafter, Line.reverse_anonymous, hbar]
          cases inner.dropWhile (!Piece.is ']' ·) with
          | nil => rfl
          | cons p remark =>
              simp only [Line.anonymous_cons, Line.head?_any_anonymous (hsat _), hasBar_anonymous,
                Line.isEmpty_anonymous, Line.all_anonymous (hsat _), Line.trim_anonymous]
              split
              · rfl
              · rfl

/-! ## Kinds and blocks -/

def Kind.anonymous : Kind → Kind
  | .heading level text => .heading level text.anonymous
  | .reference r => .reference r.anonymous
  | .label name remainder => .label name.anonymous remainder.anonymous
  | .blank => .blank
  | .rule => .rule
  | .quote => .quote
  | .table => .table
  | .item => .item
  | .plain => .plain

def Block.anonymous : Block → Block
  | .gap => .gap
  | .fence language code => .fence language code
  | .rule => .rule
  | .heading level text => .heading level text.anonymous
  | .reference r => .reference r.anonymous
  | .quote lines => .quote (lines.map Line.anonymous)
  | .table header rows => .table (header.map Line.anonymous) (rows.map fun row => row.map Line.anonymous)
  | .list items => .list (items.map Item.anonymous)
  | .label name => .label name.anonymous
  | .paragraph lines => .paragraph (lines.map Line.anonymous)

namespace Block

theorem anonymous_eq_gap {b : Block} (h : b.anonymous = .gap) : b = .gap := by
  cases b with
  | gap => rfl
  | _ => simp [anonymous] at h

theorem anonymous_eq_paragraph {b : Block} {lines : List Line} (h : b.anonymous = .paragraph lines) :
    ∃ lines, b = .paragraph lines := by
  cases b with
  | paragraph lines => exact ⟨lines, rfl⟩
  | _ => simp [anonymous] at h

theorem anonymous_eq_list {b : Block} {items : List Item} (h : b.anonymous = .list items) :
    ∃ items, b = .list items := by
  cases b with
  | list items => exact ⟨items, rfl⟩
  | _ => simp [anonymous] at h

theorem anonymous_eq_reference {b : Block} {r : Reference} (h : b.anonymous = .reference r) :
    ∃ r, b = .reference r := by
  cases b with
  | reference r => exact ⟨r, rfl⟩
  | _ => simp [anonymous] at h

end Block

theorem quoteText_anonymous (s : Source Line) : quoteText s.anonymous = (quoteText s).anonymous := by
  cases s with
  | fence language code => rfl
  | line l =>
      simp only [Source.anonymous, quoteText, quoted?_anonymous, Line.trim_anonymous]
      cases quoted? l with
      | none => rfl
      | some text => rfl

theorem continuesQuote_anonymous (s : Source Line) : continuesQuote s.anonymous = continuesQuote s := by
  cases s with
  | fence language code => rfl
  | line l =>
      simp only [Source.anonymous, continuesQuote, Line.isEmptyLine_anonymous, quoted?_anonymous, heading?_anonymous,
        isRule_anonymous, item?_anonymous, Option.isSome_map]

theorem continuesTable_anonymous (s : Source Line) : continuesTable s.anonymous = continuesTable s := by
  cases s with
  | fence language code => rfl
  | line l => simp only [Source.anonymous, continuesTable, Line.isEmptyLine_anonymous, hasBar_anonymous]

theorem rowCells_anonymous (s : Source Line) : rowCells s.anonymous = (rowCells s).map Line.anonymous := by
  cases s with
  | fence language code => rfl
  | line l => exact cells_anonymous l

theorem lineItem?_anonymous (s : Source Line) : lineItem? s.anonymous = (lineItem? s).map Item.anonymous := by
  cases s with
  | fence language code => rfl
  | line l => exact item?_anonymous l

theorem addLine_anonymous (l : Line) (blocks : List Block) :
    addLine l.anonymous (blocks.map Block.anonymous) = (addLine l blocks).map Block.anonymous := by
  cases blocks with
  | nil => rfl
  | cons b blocks => cases b <;> rfl

section Lacks

variable {db : Chord.Database} (hdb : db.Lacks '<')

include hdb

theorem reference?_anonymous (l : Line) : reference? db l.anonymous = (reference? db l).map Reference.anonymous := by
  rw [reference?, reference?, referenceParts?_anonymous]
  cases referenceParts? l with
  | none => rfl
  | some r =>
      rw [Option.map_some, Option.filter_some, Option.filter_some, Reference.anonymous, isChord_source_anonymous hdb]
      split
      · rfl
      · rfl

theorem label?_anonymous (l : Line) :
    label? db l.anonymous = (label? db l).map (Prod.map Line.anonymous Line.anonymous) := by
  have hopen : ∀ p : Piece, p.anonymous.is '(' = p.is '(' := by simp
  rw [label?_eq, label?_eq, Line.dropBlanks_anonymous, Line.dropMark?_anonymous]
  cases Line.dropMark? ['['] (Line.dropBlanks l) with
  | none => rfl
  | some rest =>
      simp only [Option.map_some, Option.bind_some, bracketed?_anonymous]
      cases bracketed? rest with
      | none => rfl
      | some b =>
          simp only [Option.map_some, Option.bind_some, Prod.map_fst, Prod.map_snd, Line.head?_any_anonymous hopen,
            Line.trim_anonymous, Line.isEmpty_anonymous, isChord_source_anonymous hdb]
          split
          · rfl
          · rfl

theorem kind_anonymous (l : Line) (next : Option (Source Line)) :
    kind db l.anonymous (next.map Source.anonymous) = (kind db l next).anonymous := by
  rw [kind, kind, Line.isEmptyLine_anonymous, heading?_anonymous, isRule_anonymous, reference?_anonymous hdb,
    quoted?_anonymous, hasBar_anonymous, item?_anonymous, label?_anonymous hdb, Option.isSome_map, Option.isSome_map]
  generalize hseparates : Option.any _ (next.map Source.anonymous) = separates
  generalize hseparates' : Option.any _ next = separates'
  have hsame : separates = separates' := by
    rw [← hseparates, ← hseparates']
    match next with
    | none => rfl
    | some (.line l) => exact isSeparator_anonymous l
    | some (.fence language code) => rfl
  rw [hsame]
  split
  · rfl
  · cases heading? l with
    | some h => rfl
    | none =>
        simp only [Option.map_none]
        split
        · rfl
        · cases reference? db l with
          | some r => rfl
          | none =>
              simp only [Option.map_none]
              split
              · rfl
              · split
                · rfl
                · split
                  · rfl
                  · cases label? db l with
                    | some b => rfl
                    | none => rfl

theorem continuesList_anonymous (s : Source Line) : continuesList db s.anonymous = continuesList db s := by
  cases s with
  | fence language code => rfl
  | line l =>
      simp only [Source.anonymous, continuesList, item?_anonymous, reference?_anonymous hdb, Option.isSome_map,
        Option.isNone_map]

/-- The blocks of lines keep the numbers as they are. -/
theorem readBlocks_anonymous (ls : List (Source Line)) :
    readBlocks db (ls.map Source.anonymous) = (readBlocks db ls).map Block.anonymous := by
  have hkind : ∀ (l : Line) (rest : List (Source Line)),
      kind db l.anonymous (rest.map Source.anonymous).head? = (kind db l rest.head?).anonymous := by
    intro l rest
    rw [List.head?_map, kind_anonymous hdb]
  have htake : ∀ {p : Source Line → Bool}, (∀ s : Source Line, p s.anonymous = p s) → ∀ ls : List (Source Line),
      (ls.map Source.anonymous).takeWhile p = (ls.takeWhile p).map Source.anonymous := by
    intro p hp ls
    rw [List.takeWhile_map, show p ∘ Source.anonymous = p from funext hp]
  have hdrop : ∀ {p : Source Line → Bool}, (∀ s : Source Line, p s.anonymous = p s) → ∀ ls : List (Source Line),
      (ls.map Source.anonymous).dropWhile p = (ls.dropWhile p).map Source.anonymous := by
    intro p hp ls
    rw [List.dropWhile_map, show p ∘ Source.anonymous = p from funext hp]
  fun_induction readBlocks db ls with
  | case1 => rw [List.map_nil, readBlocks, List.map_nil]
  | case2 language code rest ih => rw [List.map_cons, Source.anonymous, readBlocks, ih, List.map_cons, Block.anonymous]
  | case3 l rest h ih =>
      rw [List.map_cons, Source.anonymous, readBlocks, hkind, h]
      simp only [Kind.anonymous, ih, List.map_cons, Block.anonymous]
  | case4 l rest level text h ih =>
      rw [List.map_cons, Source.anonymous, readBlocks, hkind, h]
      simp only [Kind.anonymous, ih, List.map_cons, Block.anonymous]
  | case5 l rest h ih =>
      rw [List.map_cons, Source.anonymous, readBlocks, hkind, h]
      simp only [Kind.anonymous, ih, List.map_cons, Block.anonymous]
  | case6 l rest r h ih =>
      rw [List.map_cons, Source.anonymous, readBlocks, hkind, h]
      simp only [Kind.anonymous, ih, List.map_cons, Block.anonymous]
  | case7 l rest h _ ih =>
      have htext : quoteText (.line l.anonymous) = (quoteText (.line l)).anonymous := quoteText_anonymous (.line l)
      rw [List.map_cons, Source.anonymous, readBlocks, hkind, h]
      simp only [Kind.anonymous, htake continuesQuote_anonymous, hdrop continuesQuote_anonymous, ih, List.map_cons,
        Block.anonymous, List.map_map, htext]
      congr 3
      exact List.map_congr_left fun s _ => quoteText_anonymous s
  | case8 l rest h _ ih =>
      rw [List.map_cons, Source.anonymous, readBlocks, hkind, h]
      simp only [Kind.anonymous, List.map_tail.symm, htake continuesTable_anonymous, hdrop continuesTable_anonymous, ih,
        List.map_cons, Block.anonymous, List.map_map, cells_anonymous]
      congr 3
      exact funext rowCells_anonymous
  | case9 l rest h _ ih =>
      rw [List.map_cons, Source.anonymous, readBlocks, hkind, h]
      have hitems : ∀ ls : List (Source Line),
          (ls.map Source.anonymous).filterMap lineItem? = (ls.filterMap lineItem?).map Item.anonymous := by
        intro ls
        rw [List.filterMap_map, List.map_filterMap]
        exact congrArg (fun f => List.filterMap f ls) (funext lineItem?_anonymous)
      simp only [Kind.anonymous, htake (continuesList_anonymous hdb), hdrop (continuesList_anonymous hdb), ih,
        List.map_cons, Block.anonymous]
      rw [← hitems]
      rfl
  | case10 l rest name remainder h ih =>
      rw [List.map_cons, Source.anonymous, readBlocks, hkind, h]
      simp only [Kind.anonymous, ih, List.map_cons, Block.anonymous, Line.isEmpty_anonymous]
      split
      · rfl
      · rw [addLine_anonymous]
  | case11 l rest h ih =>
      rw [List.map_cons, Source.anonymous, readBlocks, hkind, h]
      simp only [Kind.anonymous, ih, addLine_anonymous]

omit hdb in
theorem setAllSpans_anonymous (n m : Nat) (sources : List (Source (List Char))) :
    (setAllSpans n sources).1.map Source.anonymous = (setAllSpans m sources).1.map Source.anonymous := by
  induction sources generalizing n m with
  | nil => rfl
  | cons s sources ih =>
      cases s with
      | fence language code =>
          simp only [setAllSpans, List.map_cons]
          rw [ih n m]
      | line l =>
          simp only [setAllSpans, List.map_cons, Source.anonymous]
          rw [setSpans_anonymous n m, ih]

/-! ## Documents -/

theorem renderLines_anonymous (n m : Nat) (ls : List Line) :
    (renderLines db n ls).1 = (renderLines db m (ls.map Line.anonymous)).1 := by
  induction ls generalizing n m with
  | nil => rfl
  | cons l ls ih =>
      have hline := renderLine_congr hdb (Line.anonymous_anonymous l).symm n m
      simp only [List.map_cons, renderLines]
      rw [hline, ih]

theorem renderParagraph_anonymous (n m : Nat) (ls : List Line) :
    (renderParagraph db n ls).1 = (renderParagraph db m (ls.map Line.anonymous)).1 := by
  simp only [renderParagraph]
  rw [renderLines_anonymous hdb]

theorem renderRemark_anonymous (n m : Nat) (r : Reference) :
    (renderRemark db n r).1 = (renderRemark db m r.anonymous).1 := by
  simp only [renderRemark, Reference.anonymous, Line.isEmptyLine_anonymous]
  split
  · rfl
  · exact renderLine_congr hdb (Line.anonymous_anonymous r.remark).symm n m

omit hdb in
theorem referenceTokens_anonymous (r : Reference) (remark : List Token) :
    referenceTokens r.anonymous remark = referenceTokens r remark := by
  simp only [referenceTokens, Reference.anonymous, Line.tokens_anonymous]

theorem renderCells_anonymous (n m : Nat) (kind : Element) (row : List Line) :
    (renderCells db n kind row).1 = (renderCells db m kind (row.map Line.anonymous)).1 := by
  simp only [renderCells]
  rw [renderLines_anonymous hdb]

theorem renderRows_anonymous (n m : Nat) (rows : List (List Line)) :
    (renderRows db n rows).1 = (renderRows db m (rows.map fun row => row.map Line.anonymous)).1 := by
  induction rows generalizing n m with
  | nil => rfl
  | cons row rows ih =>
      simp only [List.map_cons, renderRows]
      rw [renderCells_anonymous hdb n m, ih]

theorem renderList_anonymous (n m : Nat) (items : List Item) :
    (renderList db n items).1 = (renderList db m (items.map Item.anonymous)).1 := by
  have htexts : (items.map Item.anonymous).map Item.text = (items.map Item.text).map Line.anonymous := by
    rw [List.map_map, List.map_map]
    rfl
  have hplaces : (items.map Item.anonymous).map (fun i => (⟨i.indent, i.ordered⟩ : OpenList)) =
      items.map fun i => ⟨i.indent, i.ordered⟩ := by
    rw [List.map_map]
    rfl
  simp only [renderList]
  rw [htexts, hplaces, ← renderLines_anonymous hdb n]

theorem renderBlock_anonymous (n m : Nat) (b : Block) :
    (renderBlock db n b).1 = (renderBlock db m b.anonymous).1 := by
  cases b with
  | gap => rfl
  | fence language code => rfl
  | heading level text =>
      have htext := renderLine_congr hdb (Line.anonymous_anonymous text).symm n m
      simp only [renderBlock, Block.anonymous]
      rw [htext]
  | rule => rfl
  | reference r =>
      simp only [renderBlock, Block.anonymous]
      rw [renderRemark_anonymous hdb n m, referenceTokens_anonymous]
  | quote lines =>
      simp only [renderBlock, Block.anonymous]
      rw [renderLines_anonymous hdb n m]
  | table header rows =>
      simp only [renderBlock, Block.anonymous, renderTable]
      rw [renderCells_anonymous hdb n m, renderRows_anonymous hdb]
  | list items => exact renderList_anonymous hdb n m items
  | label name =>
      simp only [renderBlock, Block.anonymous]
      rw [Line.tokens_anonymous]
  | paragraph lines => exact renderParagraph_anonymous hdb n m lines

theorem renderBlocks_anonymous (n m : Nat) (blocks : List Block) :
    renderBlocks db n blocks = renderBlocks db m (blocks.map Block.anonymous) := by
  fun_induction renderBlocks db n blocks generalizing m with
  | case1 => rfl
  | case2 n rest ih => exact ih m
  | case3 n lines r rest remark n₁ hremark paragraph n₂ hparagraph ih =>
      have hr : (remark, n₁).1 = _ := hremark ▸ renderRemark_anonymous hdb n m r
      have hp : (paragraph, n₂).1 = _ :=
        hparagraph ▸ renderParagraph_anonymous hdb n₁ (renderRemark db m r.anonymous).2 lines
      simp only [List.map_cons, Block.anonymous, renderBlocks, referenceTokens_anonymous]
      rw [← hr, ← hp, ← ih]
  | case4 n items r rest _ n₁ _ list n₂ hlist remark n₃ hremark ih =>
      have hl : (list, n₂).1 = _ := hlist ▸ renderList_anonymous hdb n₁ (renderRemark db m r.anonymous).2 items
      have hr : ∀ m, (remark, n₃).1 = (renderRemark db m r.anonymous).1 :=
        fun m => hremark ▸ renderRemark_anonymous hdb n₂ m r
      simp only [List.map_cons, Block.anonymous, renderBlocks, referenceTokens_anonymous]
      rw [← hl, ← hr, ← ih]
  | case5 n block rest hgap hparagraph hlist tokens n₁ hblock ih =>
      have hb : (tokens, n₁).1 = _ := hblock ▸ renderBlock_anonymous hdb n m block
      rw [List.map_cons, renderBlocks]
      · simp only
        rw [← hb, ← ih]
      · exact fun h => hgap (Block.anonymous_eq_gap h)
      · intro lines r rest' h hrest
        obtain ⟨lines', rfl⟩ := Block.anonymous_eq_paragraph h
        obtain ⟨b, rest'', rfl, hb, -⟩ := List.map_eq_cons_iff.mp hrest
        obtain ⟨r', rfl⟩ := Block.anonymous_eq_reference hb
        exact hparagraph lines' r' rest'' rfl rfl
      · intro items r rest' h hrest
        obtain ⟨items', rfl⟩ := Block.anonymous_eq_list h
        obtain ⟨b, rest'', rfl, hb, -⟩ := List.map_eq_cons_iff.mp hrest
        obtain ⟨r', rfl⟩ := Block.anonymous_eq_reference hb
        exact hlist items' r' rest'' rfl rfl

/-- The lines of a body look alike, whatever the numbers of the first code span and of the first literal. -/
theorem renderBlocks_setAllSpans (n m i j : Nat) (sources : List (Source (List Char))) :
    renderBlocks db n (readBlocks db (setAllSpans i sources).1) =
      renderBlocks db m (readBlocks db (setAllSpans j sources).1) := by
  rw [renderBlocks_anonymous hdb n 0, ← readBlocks_anonymous hdb, setAllSpans_anonymous i j, readBlocks_anonymous hdb,
    ← renderBlocks_anonymous hdb m 0]

end Lacks

end LeadSheet.Markup
