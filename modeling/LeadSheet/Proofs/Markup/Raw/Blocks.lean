import LeadSheet.Proofs.Markup.LyricSheet
import LeadSheet.Proofs.Markup.Raw.Parts

/-!
# Blocks on text

Blocks are marked up in one pass over the text, and read first and marked up later on pieces. The order in which
literals are put in the table is the same.

* `takeItems_agree` : the items of a list are read alike, with the remark of the reference line that ends it;
* `renderBlocks_flush`, `renderBlocks_reference`, `renderBlocks_list` : which block is marked up first;
* `renderBlocks_agree` : the blocks of lines are marked up alike, after the lines of a paragraph that is still open.
-/

namespace LeadSheet.Markup

open Text
open Raw (LiteralKind LiteralTable Marking Placeholder)

/-! ## Lines that belong together -/

theorem StandsFor.mono {t t' : LiteralTable} (ht : t ≤ t') {src : Source Line} {text : List Char}
    (h : StandsFor t src text) : StandsFor t' src text := by
  cases h with
  | line hl hbare => exact .line (hl.mono ht) hbare
  | fence hn => exact .fence (LiteralTable.getElem?_of_le ht .block hn)

theorem continuesQuote_source {t : LiteralTable} {src : Source Line} {text : List Char} (h : StandsFor t src text) :
    Raw.continuesQuote text = continuesQuote src := by
  cases h with
  | @line l hl hbare =>
      rw [Raw.continuesQuote, Raw.startsBlock, isEmptyLine_source, quoted?_source, heading?_source, isRule_source,
        trim_source, isBlockMark_source, item?_source hl]
      simp [continuesQuote]
  | fence hn =>
      rw [Raw.continuesQuote, Raw.startsBlock, quoted?_blockMark, trim_blockMark, isBlockMark_blockMark]
      simp [continuesQuote]

theorem continuesTable_source {t : LiteralTable} {src : Source Line} {text : List Char} (h : StandsFor t src text) :
    Raw.continuesTable text = continuesTable src := by
  cases h with
  | line hl hbare => rw [Raw.continuesTable, isEmptyLine_source, hasBar_source hl, continuesTable]
  | fence hn => rw [Raw.continuesTable, hasBar_blockMark, Bool.and_false, continuesTable]

theorem continuesList_source (db : Chord.Database) {t : LiteralTable} {src : Source Line} {text : List Char}
    (h : StandsFor t src text) : Raw.continuesList db text = continuesList db src := by
  cases h with
  | line hl hbare =>
      rw [Raw.continuesList, item?_source hl, reference?_source db hl hbare, Option.isSome_map, Option.isNone_map,
        continuesList]
  | fence hn => rw [Raw.continuesList, item?_blockMark, continuesList, Option.isSome_none, Bool.false_and]

section Forall₂

variable {α β : Type} {R : α → β → Prop} {p : α → Bool} {q : β → Bool} {as : List α} {bs : List β}

theorem forall₂_takeWhile (h : List.Forall₂ R as bs) (hpq : ∀ a b, R a b → q b = p a) :
    List.Forall₂ R (as.takeWhile p) (bs.takeWhile q) ∧ List.Forall₂ R (as.dropWhile p) (bs.dropWhile q) := by
  induction h with
  | nil => exact ⟨.nil, .nil⟩
  | @cons a b as bs hab h ih =>
      rw [List.takeWhile_cons, List.takeWhile_cons, List.dropWhile_cons, List.dropWhile_cons, hpq a b hab]
      split
      · exact ⟨.cons hab ih.1, ih.2⟩
      · exact ⟨.nil, .cons hab h⟩

theorem exists_of_forall₂ (h : List.Forall₂ R as bs) {a : α} (ha : a ∈ as) : ∃ b ∈ bs, R a b := by
  induction h with
  | nil => exact absurd ha List.not_mem_nil
  | cons hab _ ih =>
      rcases List.mem_cons.mp ha with rfl | ha
      · exact ⟨_, List.mem_cons_self, hab⟩
      · obtain ⟨b, hb, hab⟩ := ih ha
        exact ⟨b, List.mem_cons_of_mem _ hb, hab⟩

end Forall₂

/-- Lines without code blocks are the sources of lines of pieces. -/
theorem exists_lines {t : LiteralTable} {srcs : List (Source Line)} {texts : List (List Char)}
    (h : List.Forall₂ (StandsFor t) srcs texts) (hsrcs : ∀ s ∈ srcs, ∀ language code, s ≠ .fence language code) :
    ∃ ls : List Line, srcs = ls.map .line ∧ texts = ls.map Line.source ∧ ∀ l ∈ ls, l.Fits t := by
  induction h with
  | nil => exact ⟨[], rfl, rfl, by simp⟩
  | @cons src text srcs texts hs h ih =>
      obtain ⟨hsrc, hsrcs⟩ := List.forall_mem_cons.mp hsrcs
      obtain ⟨ls, rfl, rfl, hls⟩ := ih hsrcs
      cases hs with
      | @line l hl hbare => exact ⟨l :: ls, rfl, rfl, List.forall_mem_cons.mpr ⟨hl, hls⟩⟩
      | fence hn => exact absurd rfl (hsrc _ _)

/-- The next line is a separator in its text just if it is one in its pieces. -/
theorem any_isSeparator {t : LiteralTable} {srcs : List (Source Line)} {texts : List (List Char)}
    (h : List.Forall₂ (StandsFor t) srcs texts) : texts.head?.any Raw.isSeparator =
      srcs.head?.any (fun | .line l => isSeparator l | .fence _ _ => false) := by
  cases h with
  | nil => rfl
  | cons hs h =>
      cases hs with
      | line hl hbare => exact isSeparator_source hl
      | fence hn => exact isSeparator_blockMark _

/-! ## Reference lines -/

/-- A reference line begins with a hyphen, a blank and a capital letter. -/
theorem referenceParts?_head {l : Line} {r : Reference} (h : referenceParts? l = some r) :
    ∃ c rest, l = .char '-' :: .char ' ' :: .char c :: rest ∧ 'A' ≤ c ∧ c ≤ 'G' := by
  unfold referenceParts? at h
  split at h
  · simp at h
  · rename_i rest hrest
    simp only at h
    split at h
    · simp at h
    · rename_i inner hinner
      split at h
      · simp at h
      · split at h
        · rename_i hparts
          simp only [Bool.and_eq_true] at hparts
          obtain ⟨⟨⟨hcapital, -⟩, -⟩, -⟩ := hparts
          rw [Line.dropMark?_eq_some hrest]
          match rest, hcapital with
          | .char c :: rest, hcapital =>
              rw [List.takeWhile_cons] at hcapital
              split at hcapital
              · simp only [List.head?_cons, Option.any_some, Piece.sat, Bool.and_eq_true, decide_eq_true_eq] at hcapital
                exact ⟨c, rest, rfl, hcapital⟩
              · simp at hcapital
        · simp at h

/-- A reference line is an item, and of no kind that comes before reference lines. -/
theorem kind_of_reference {db : Chord.Database} {l : Line} {r : Reference} (h : reference? db l = some r)
    (next : Option (Source Line)) : kind db l next = .reference r ∧ (item? l).isSome = true := by
  obtain ⟨c, rest, rfl, hA, hG⟩ := referenceParts?_head (Option.filter_eq_some_iff.mp h).1
  have hchar : isBlank c = false ∧ c ≠ '-' := by
    constructor
    · rw [Bool.eq_false_iff]
      intro hblank
      rw [isBlank, Bool.or_eq_true, beq_iff_eq, beq_iff_eq] at hblank
      rcases hblank with rfl | rfl
      · exact absurd hA (by decide)
      · exact absurd hA (by decide)
    · rintro rfl
      exact absurd hA (by decide)
  have hempty : Line.isEmptyLine (.char '-' :: .char ' ' :: .char c :: rest) = false := rfl
  have hheading : heading? (.char '-' :: .char ' ' :: .char c :: rest) = none := heading?_eq_none (by simp)
  have hrule : isRule (.char '-' :: .char ' ' :: .char c :: rest) = false := by
    have hpiece : Piece.sat isBlank (.char c) = false := hchar.1
    have hstart : Line.dropBlanks (.char '-' :: .char ' ' :: .char c :: rest) =
        .char '-' :: .char ' ' :: .char c :: rest := rfl
    have hend : Line.dropEndBlanks (.char '-' :: .char ' ' :: .char c :: rest) =
        .char '-' :: .char ' ' :: .char c :: Line.dropEndBlanks rest :=
      dropEndWhile_append_mark hpiece [.char '-', .char ' '] rest
    have hmarks : (['-', '*', '_'].any fun d =>
        (Line.dropEndBlanks (.char '-' :: .char ' ' :: .char c :: rest)).all (Piece.is d)) = false := by
      rw [List.any_eq_false, hend]
      intro d _ hall
      simp only [List.all_cons, Bool.and_eq_true, Piece.is, Piece.sat, beq_iff_eq] at hall
      exact absurd (hall.1.trans hall.2.1.symm) (by decide)
    rw [isRule, hstart, hmarks, Bool.and_false]
  constructor
  · rw [kind, hempty, hheading, hrule, h]
    rfl
  · have hitem : item? (.char '-' :: .char ' ' :: .char c :: rest) =
        if isRule (.char '-' :: .char ' ' :: .char c :: rest) then none
        else some ⟨0, false, Line.dropBlanks (.char ' ' :: .char c :: rest)⟩ := rfl
    rw [hitem, hrule]
    rfl

/-- The number of the next literal after a list has come to its end at the lines. -/
def numberAfterList (db : Chord.Database) (n : Nat) : List (Source Line) → Nat
  | .line l :: _ =>
    match reference? db l with
    | some r => (renderRemark db n r).2
    | none => n
  | _ => n

/-- Items with their texts as they are in the source. -/
def ItemsOf (_ : LiteralTable) (items : List Raw.Item) (items' : List Item) : Prop := items = items'.map Item.source

theorem takeItems_agree (db : Chord.Database) {t : LiteralTable} {srcs : List (Source Line)}
    {texts : List (List Char)} (h : List.Forall₂ (StandsFor t) srcs texts) :
    Agree ItemsOf t (Raw.takeItems db texts)
      ((srcs.takeWhile (continuesList db)).filterMap lineItem?,
        numberAfterList db t.inlines.length (srcs.dropWhile (continuesList db))) := by
  induction h with
  | nil => exact .pure rfl
  | @cons src text srcs texts hs h ih =>
      cases hs with
      | @line l hl hbare =>
          rw [Raw.takeItems, item?_source hl, Raw.referenceLine, reference?_source db hl hbare, List.takeWhile_cons,
            List.dropWhile_cons, continuesList]
          cases hreference : reference? db l with
          | none =>
              cases hitem : item? l with
              | none =>
                  have hnumber : numberAfterList db t.inlines.length (.line l :: srcs) = t.inlines.length := by
                    rw [numberAfterList, hreference]
                  simp only [Option.isSome_none, Bool.false_and, Bool.false_eq_true, if_false, Option.map_none,
                    List.filterMap_nil, hnumber]
                  exact .pure rfl
              | some item =>
                  have hitem' : lineItem? (.line l) = some item := hitem
                  simp only [Option.isSome_some, Option.isNone_none, Bool.and_self, if_true,
                    List.filterMap_cons_some hitem']
                  refine ih.map ?_
                  rw [ItemsOf, ih.result]
                  rfl
          | some r =>
              obtain ⟨item, hitem⟩ := Option.isSome_iff_exists.mp (kind_of_reference hreference none).2
              obtain ⟨hname, hfrets, hremark⟩ := reference?_infix hreference
              have hagree := renderReference_agree db (hl.subset hname.subset) (hl.subset hfrets.subset)
                (hl.subset hremark.subset)
              have hnumber : numberAfterList db t.inlines.length (.line l :: srcs) =
                  (renderRemark db t.inlines.length r).2 := by rw [numberAfterList, hreference]
              simp only [hitem, Option.map_some, Option.isSome_some, Option.isNone_some, Bool.and_false,
                Bool.false_eq_true, if_false, hnumber]
              exact ⟨hagree.grows, hagree.count, rfl⟩
      | fence hn =>
          rw [Raw.takeItems, item?_blockMark, List.takeWhile_cons, List.dropWhile_cons, continuesList]
          exact .pure rfl

/-! ## The order of blocks -/

/-- The block neither carries on a paragraph nor is marked up before one. -/
def Block.endsParagraph : Block → Bool
  | .paragraph _ | .reference _ => false
  | _ => true

/-- The block is marked up by itself, whatever follows it. -/
def Block.standsAlone : Block → Bool
  | .gap | .paragraph _ | .reference _ | .list _ => false
  | _ => true

theorem renderBlocks_cons (db : Chord.Database) (n : Nat) {b : Block} (hb : b.standsAlone = true) (bs : List Block) :
    renderBlocks db n (b :: bs) = (renderBlock db n b).1 :: renderBlocks db (renderBlock db n b).2 bs := by
  rw [renderBlocks]
  · rintro rfl
    simp [Block.standsAlone] at hb
  · rintro ls r rest rfl
    simp [Block.standsAlone] at hb
  · rintro items r rest rfl
    simp [Block.standsAlone] at hb

theorem renderBlocks_flush (db : Chord.Database) (n : Nat) (ls : List Line) {bs : List Block}
    (hbs : bs.head?.all Block.endsParagraph = true) :
    renderBlocks db n (ls.foldr addLine bs) = (flushed db n ls).1 ++ renderBlocks db (flushed db n ls).2 bs := by
  rw [flushed]
  split
  · rename_i hls
    rw [hls]
    rfl
  · rename_i hls
    rw [foldr_addLine hls, renderBlocks]
    · rfl
    · simp
    · rintro lines r rest - rfl
      simp [Block.endsParagraph] at hbs
    · simp
    · rintro lines rest rfl
      simp [Block.endsParagraph] at hbs

/-- A reference line is marked up before the paragraph that it ends. -/
theorem renderBlocks_reference (db : Chord.Database) (n : Nat) (ls : List Line) (r : Reference) (bs : List Block) :
    renderBlocks db n (ls.foldr addLine (.reference r :: bs)) =
      (flushed db (renderRemark db n r).2 ls).1 ++ referenceTokens r (renderRemark db n r).1 ::
        renderBlocks db (flushed db (renderRemark db n r).2 ls).2 bs := by
  rw [flushed]
  split
  · rename_i hls
    rw [hls, List.foldr_nil, renderBlocks]
    · rfl
    · simp
    · simp
    · simp
  · rename_i hls
    rw [foldr_addLine hls (by simp), renderBlocks]
    rfl

theorem addLine_eq_cons (l : Line) (bs : List Block) : ∃ ls rest, addLine l bs = .paragraph ls :: rest := by
  unfold addLine
  split
  · exact ⟨_, _, rfl⟩
  · exact ⟨_, _, rfl⟩

/-- Blocks begin with a reference line when their lines do. -/
theorem readBlocks_eq_reference {db : Chord.Database} {srcs : List (Source Line)} {r : Reference} {bs : List Block}
    (h : readBlocks db srcs = .reference r :: bs) :
    ∃ l rest, srcs = .line l :: rest ∧ reference? db l = some r ∧ bs = readBlocks db rest := by
  have hparagraph : ∀ l bs', addLine l bs' ≠ .reference r :: bs := by
    intro l bs' heq
    obtain ⟨ls, rest, haddLine⟩ := addLine_eq_cons l bs'
    simp [haddLine] at heq
  fun_cases readBlocks db srcs with
  | case6 line rest r' hkind =>
      rw [readBlocks, hkind] at h
      simp only [List.cons.injEq, Block.reference.injEq] at h
      obtain ⟨rfl, rfl⟩ := h
      exact ⟨line, rest, rfl, fits_of_kind hkind, rfl⟩
  | case1 => simp [readBlocks] at h
  | case2 => simp [readBlocks] at h
  | case11 line rest hkind =>
      rw [readBlocks, hkind] at h
      exact absurd h (hparagraph _ _)
  | _ => simp_all [readBlocks]

/-- The blocks after a list begin with the reference line that it ends at, if there is one. -/
theorem renderBlocks_list (db : Chord.Database) (n : Nat) (items : List Item) (srcs : List (Source Line)) :
    renderBlocks db n (.list items :: readBlocks db srcs) =
      (renderList db (numberAfterList db n srcs) items).1 ::
        renderBlocks db (renderList db (numberAfterList db n srcs) items).2 (readBlocks db srcs) := by
  by_cases h : ∃ r bs, readBlocks db srcs = .reference r :: bs
  · obtain ⟨r, bs, h⟩ := h
    obtain ⟨l, rest, rfl, hreference, rfl⟩ := readBlocks_eq_reference h
    have hflush := renderBlocks_reference db (renderList db (renderRemark db n r).2 items).2 [] r (readBlocks db rest)
    rw [List.foldr_nil] at hflush
    rw [h, renderBlocks, numberAfterList, hreference]
    simp only [hflush]
    rfl
  · have hnumber : numberAfterList db n srcs = n := by
      unfold numberAfterList
      split
      · rename_i l rest
        split
        · rename_i r hreference
          refine absurd ⟨r, readBlocks db rest, ?_⟩ h
          rw [readBlocks, (kind_of_reference hreference _).1]
        · rfl
      · rfl
    rw [hnumber, renderBlocks]
    · rfl
    · simp
    · simp
    · rintro items' r rest - heq
      exact h ⟨r, rest, heq⟩

/-! ## Blocks -/

/-- What is done on text gives blocks that stand for the tokens. -/
def GivesBlocks (t : LiteralTable) (x : Marking (List (List Char))) (tss : List (List Token)) : Prop :=
  ∃ n, Agree StandsAll t x (tss, n)

namespace GivesBlocks

variable {db : Chord.Database} {t : LiteralTable} {x : Marking (List (List Char))} {tss : List (List Token)}

theorem cons {y : Marking (List Char)} {r : List Token × Nat} (hy : Agree StandsIn t y r)
    (hx : ∀ t', t ≤ t' → t'.inlines.length = r.2 → GivesBlocks t' x tss) :
    GivesBlocks t (do return (← y) :: (← x)) (r.1 :: tss) := by
  obtain ⟨n, hx⟩ := hx _ hy.grows hy.count
  exact ⟨n, hy.bind (hx.map (.cons (hy.result.mono hx.grows) hx.result))⟩

theorem append {y : Marking (List (List Char))} {r : List (List Token) × Nat} (hy : Agree StandsAll t y r)
    (hx : ∀ t', t ≤ t' → t'.inlines.length = r.2 → GivesBlocks t' x tss) :
    GivesBlocks t (do return (← y) ++ (← x)) (r.1 ++ tss) := by
  obtain ⟨n, hx⟩ := hx _ hy.grows hy.count
  exact ⟨n, hy.bind (hx.map (List.rel_append (hy.result.mono hx.grows) hx.result))⟩

theorem flush {ls : List Line} (hls : ∀ l ∈ ls, l.Fits t) {bs : List Block}
    (hbs : bs.head?.all Block.endsParagraph = true)
    (hx : ∀ t', t ≤ t' → GivesBlocks t' x (renderBlocks db t'.inlines.length bs)) :
    GivesBlocks t (do return (← Raw.flush db (ls.map Line.source)) ++ (← x))
      (renderBlocks db t.inlines.length (ls.foldr addLine bs)) := by
  rw [renderBlocks_flush db _ ls hbs]
  exact append (flush_agree db hls) fun t' ht' hn => hn ▸ hx t' ht'

/-- A block after the paragraph that it ends. -/
theorem block {ls : List Line} (hls : ∀ l ∈ ls, l.Fits t) {b : Block} (hb : b.endsParagraph = true)
    {bs : List Block} {y : Marking (List Char)} {r : Nat → List Token × Nat}
    (hr : ∀ n, renderBlocks db n (b :: bs) = (r n).1 :: renderBlocks db (r n).2 bs)
    (hy : ∀ t', t ≤ t' → Agree StandsIn t' y (r t'.inlines.length))
    (hx : ∀ t', t ≤ t' → GivesBlocks t' x (renderBlocks db t'.inlines.length bs)) :
    GivesBlocks t
      (do
        let before ← Raw.flush db (ls.map Line.source)
        let block ← y
        return before ++ block :: (← x))
      (renderBlocks db t.inlines.length (ls.foldr addLine (b :: bs))) := by
  have hblock : ∀ t', t ≤ t' →
      GivesBlocks t' (do return (← y) :: (← x)) (renderBlocks db t'.inlines.length (b :: bs)) := fun t' ht' => by
    rw [hr]
    exact cons (hy t' ht') fun t'' ht'' hn => hn ▸ hx t'' (LiteralTable.le_trans ht' ht'')
  have hflush := flush hls (by exact hb) hblock
  simpa only [bind_assoc, pure_bind] using hflush

/-- A block that stands alone. -/
theorem alone {ls : List Line} (hls : ∀ l ∈ ls, l.Fits t) {b : Block} (hb : b.standsAlone = true)
    {bs : List Block} {y : Marking (List Char)}
    (hy : ∀ t', t ≤ t' → Agree StandsIn t' y (renderBlock db t'.inlines.length b))
    (hx : ∀ t', t ≤ t' → GivesBlocks t' x (renderBlocks db t'.inlines.length bs)) :
    GivesBlocks t
      (do
        let before ← Raw.flush db (ls.map Line.source)
        let block ← y
        return before ++ block :: (← x))
      (renderBlocks db t.inlines.length (ls.foldr addLine (b :: bs))) := by
  have hends : b.endsParagraph = true := by
    cases b with
    | gap | paragraph | reference | list => simp [Block.standsAlone] at hb
    | _ => rfl
  exact block hls hends (fun n => renderBlocks_cons db n hb bs) hy hx

/-- A reference line, which is marked up before the paragraph that it ends. -/
theorem reference {ls : List Line} (hls : ∀ l ∈ ls, l.Fits t) {r : Reference} {bs : List Block} {y : Marking (List Char)}
    (hy : Agree StandsIn t y (referenceTokens r (renderRemark db t.inlines.length r).1, (renderRemark db t.inlines.length r).2))
    (hx : ∀ t', t ≤ t' → GivesBlocks t' x (renderBlocks db t'.inlines.length bs)) :
    GivesBlocks t
      (do
        let block ← y
        return (← Raw.flush db (ls.map Line.source)) ++ block :: (← x))
      (renderBlocks db t.inlines.length (ls.foldr addLine (.reference r :: bs))) := by
  have hflush := flush_agree db fun l hl => (hls l hl).mono hy.grows
  obtain ⟨n, hrest⟩ := hx _ (LiteralTable.le_trans hy.grows hflush.grows)
  rw [hflush.count] at hrest
  rw [hy.count] at hflush hrest
  rw [renderBlocks_reference]
  refine ⟨n, hy.bind (hflush.bind (hrest.map ?_))⟩
  exact List.rel_append (hflush.result.mono hrest.grows)
    (.cons (hy.result.mono (LiteralTable.le_trans hflush.grows hrest.grows)) hrest.result)

end GivesBlocks

theorem blockMark_agree {t : LiteralTable} {language code : List Char} {n : Nat}
    (hn : t.blocks[n]? = some (Token.print (fenceTokens language code))) :
    Agree StandsIn t (pure (blockMark n)) (fenceTokens language code, t.inlines.length) := by
  have hmark : StandsIn t (blockMark n) (fenceTokens language code) := by
    simpa [blockMark] using Stands.literal (K := fun _ => True) .block trivial hn .nil
  exact .pure hmark

theorem heading_agree (db : Chord.Database) {t : LiteralTable} {level : Nat} {text : Line} (htext : text.Fits t) :
    Agree StandsIn t (do return Raw.wrap (.heading level) (← Raw.renderLine db (Line.source text)))
      (renderBlock db t.inlines.length (.heading level text)) := by
  have hline := renderLine_agree db htext
  exact hline.map (hline.result.wrap (.heading level))

theorem quoteText_source (l : Line) : Raw.quoteText (Line.source l) = Line.source (quoteText (.line l)) := by
  rw [Raw.quoteText, quoted?_source, trim_source, quoteText]
  cases quoted? l with
  | none => rfl
  | some text => rfl

theorem infix_quoteText (l : Line) : quoteText (.line l) <:+: l := by
  rw [quoteText]
  cases hquoted : quoted? l with
  | none => exact (trim_trims l).isInfix
  | some text => exact (quoted?_trims hquoted).isInfix

theorem quote_agree (db : Chord.Database) {t : LiteralTable} {ls : List Line} (hls : ∀ l ∈ ls, l.Fits t) :
    Agree StandsIn t
      (do return Raw.wrap .quote (Raw.joinBreaks (← ((ls.map Line.source).map Raw.quoteText).mapM (Raw.renderLine db))))
      (renderBlock db t.inlines.length (.quote ((ls.map Source.line).map quoteText))) := by
  have htexts : (ls.map Line.source).map Raw.quoteText = ((ls.map Source.line).map quoteText).map Line.source := by
    rw [List.map_map, List.map_map, List.map_map]
    exact List.map_congr_left fun l _ => quoteText_source l
  have hfits : ∀ l ∈ (ls.map Source.line).map quoteText, l.Fits t := fun l hl => by
    rw [List.map_map] at hl
    obtain ⟨l', hl', rfl⟩ := List.mem_map.mp hl
    exact (hls l' hl').subset (infix_quoteText l').subset
  have hlines := renderLines_agree db hfits
  rw [htexts]
  exact hlines.map ((stands_intercalate (stands_lineBreak _) hlines.result).wrap .quote)

theorem list_agree (db : Chord.Database) {t : LiteralTable} {srcs : List (Source Line)} {texts : List (List Char)}
    (h : List.Forall₂ (StandsFor t) srcs texts) :
    Agree StandsIn t (Raw.takeItems db texts >>= Raw.renderList db)
      (renderList db (numberAfterList db t.inlines.length (srcs.dropWhile (continuesList db)))
        ((srcs.takeWhile (continuesList db)).filterMap lineItem?)) := by
  have hitems := takeItems_agree db h
  have hfits : ∀ item ∈ (srcs.takeWhile (continuesList db)).filterMap lineItem?,
      item.text.Fits (Raw.takeItems db texts t).2 := fun item hitem => by
      obtain ⟨src, hsrc, hitem⟩ := List.mem_filterMap.mp hitem
      obtain ⟨text, -, hs⟩ := exists_of_forall₂ h ((List.takeWhile_sublist _).mem hsrc)
      cases hs with
      | line hl hbare => exact (hl.subset (item?_trims hitem).isInfix.subset).mono hitems.grows
      | fence hn => simp [lineItem?] at hitem
  have hlist := renderList_agree db hfits
  rw [hitems.count, ← hitems.result] at hlist
  exact hitems.bind hlist

/-- A line that opens a list is no reference line. -/
theorem continuesList_of_kind {db : Chord.Database} {l : Line} {next : Option (Source Line)}
    (h : kind db l next = .item) : continuesList db (.line l) = true := by
  have hitem : (item? l).isSome = true := fits_of_kind h
  have hreference : reference? db l = none := by
    cases hreference : reference? db l with
    | none => rfl
    | some r =>
        rw [(kind_of_reference hreference next).1] at h
        exact absurd h (by simp)
  rw [continuesList, hitem, hreference]
  rfl

theorem StandsFor.forall_mono {t t' : LiteralTable} (ht : t ≤ t') {srcs : List (Source Line)}
    {texts : List (List Char)} (h : List.Forall₂ (StandsFor t) srcs texts) : List.Forall₂ (StandsFor t') srcs texts :=
  h.imp fun _ _ h => h.mono ht

theorem forall₂_tail {α β : Type} {R : α → β → Prop} {as : List α} {bs : List β} (h : List.Forall₂ R as bs) :
    List.Forall₂ R as.tail bs.tail := by
  cases h with
  | nil => exact .nil
  | cons _ h => exact h

/-- Lines that each go on a block hold no code blocks. -/
theorem exists_lines_takeWhile {t : LiteralTable} {srcs : List (Source Line)} {texts : List (List Char)}
    {p : Source Line → Bool} {q : List Char → Bool} (h : List.Forall₂ (StandsFor t) srcs texts)
    (hpq : ∀ src text, StandsFor t src text → q text = p src) (hfence : ∀ language code, p (.fence language code) = false) :
    (∃ ls : List Line, srcs.takeWhile p = ls.map .line ∧ texts.takeWhile q = ls.map Line.source ∧ ∀ l ∈ ls, l.Fits t) ∧
      List.Forall₂ (StandsFor t) (srcs.dropWhile p) (texts.dropWhile q) := by
  obtain ⟨htake, hdrop⟩ := forall₂_takeWhile h hpq
  refine ⟨exists_lines htake ?_, hdrop⟩
  rintro s hs language code rfl
  have hp := List.mem_takeWhile_imp hs
  rw [hfence] at hp
  exact absurd hp Bool.false_ne_true

/-- A line at the head of some lines, beside its text. -/
theorem exists_kind {db : Chord.Database} {t : LiteralTable} {l : Line} {rest : List (Source Line)}
    {texts : List (List Char)} {k : Kind} (h : List.Forall₂ (StandsFor t) (.line l :: rest) texts)
    (hkind : kind db l rest.head? = k) :
    ∃ texts', texts = Line.source l :: texts' ∧ l.Fits t ∧ Raw.kind db (Line.source l) texts'.head? = k.source ∧
      List.Forall₂ (StandsFor t) rest texts' := by
  cases h with
  | cons hs h =>
      cases hs with
      | line hl hbare => exact ⟨_, rfl, hl, hkind ▸ kind_source db hl hbare (any_isSeparator h), h⟩

/-- The paragraph that a label is followed by on its line. -/
theorem paragraph_source (l : Line) :
    (if Line.source l = [] then [] else [Line.source l]) = (if l = [] then [] else [l]).map Line.source := by
  simp only [Line.source_eq_nil]
  split <;> rfl

theorem foldr_paragraph (l : Line) (bs : List Block) :
    (if l.isEmpty = true then bs else addLine l bs) = (if l = [] then [] else [l]).foldr addLine bs := by
  simp only [List.isEmpty_iff]
  split <;> rfl

/-- The blocks of lines are marked up alike on text and on pieces, after the lines of an open paragraph. -/
theorem renderBlocks_agree (db : Chord.Database) {t : LiteralTable} {srcs : List (Source Line)}
    {texts : List (List Char)} (h : List.Forall₂ (StandsFor t) srcs texts) {ls : List Line} (hls : ∀ l ∈ ls, l.Fits t) :
    GivesBlocks t (Raw.renderBlocks db (ls.map Line.source) texts)
      (renderBlocks db t.inlines.length (ls.foldr addLine (readBlocks db srcs))) := by
  fun_induction readBlocks db srcs generalizing t texts ls with
  | case1 =>
      cases h
      have hnil : ∀ t', t ≤ t' → GivesBlocks t' (pure []) (renderBlocks db t'.inlines.length []) :=
        fun t' _ => ⟨_, .pure .nil⟩
      have hflush := GivesBlocks.flush hls (by rfl) hnil
      simpa [Raw.renderBlocks] using hflush
  | case2 language code rest ih =>
      cases h with
      | @cons _ _ _ texts hs h =>
      cases hs with
      | @fence _ _ n hn =>
          rw [Raw.renderBlocks, kind_mark, trim_blockMark]
          exact .alone hls (y := pure (blockMark n)) rfl
            (fun t' ht' => blockMark_agree (LiteralTable.getElem?_of_le ht' .block hn)) fun t' ht' =>
            ih (StandsFor.forall_mono ht' h) (List.forall_mem_nil _)
  | case3 line rest hkind ih =>
      obtain ⟨texts, rfl, hl, hkind, h⟩ := exists_kind h hkind
      rw [Raw.renderBlocks, hkind]
      exact .flush hls (by rfl) fun t' ht' => ih (StandsFor.forall_mono ht' h) (List.forall_mem_nil _)
  | case4 line rest level text hheading ih =>
      obtain ⟨texts, rfl, hl, hkind, h⟩ := exists_kind h hheading
      obtain ⟨-, -, htext⟩ := heading?_eq_some (fits_of_kind hheading)
      rw [Raw.renderBlocks, hkind]
      exact .alone hls (y := do return Raw.wrap (.heading level) (← Raw.renderLine db (Line.source text))) rfl
        (fun t' ht' => heading_agree db (Line.Fits.mono ht' (hl.subset htext.isInfix.subset))) fun t' ht' =>
        ih (StandsFor.forall_mono ht' h) (List.forall_mem_nil _)
  | case5 line rest hkind ih =>
      obtain ⟨texts, rfl, hl, hkind, h⟩ := exists_kind h hkind
      have hrule : ∀ t', StandsIn t' Tag.rule.text [.tag .rule] := fun t' => by
        simpa using Stands.tag (K := fun _ => True) (t := t') .rule .nil
      rw [Raw.renderBlocks, hkind]
      exact .alone hls (y := pure Tag.rule.text) rfl (fun t' _ => .pure (hrule t')) fun t' ht' =>
        ih (StandsFor.forall_mono ht' h) (List.forall_mem_nil _)
  | case6 line rest r hreference ih =>
      obtain ⟨texts, rfl, hl, hkind, h⟩ := exists_kind h hreference
      obtain ⟨hname, hfrets, hremark⟩ := reference?_infix (fits_of_kind hreference)
      rw [Raw.renderBlocks, hkind]
      exact .reference hls (renderReference_agree db (hl.subset hname.subset) (hl.subset hfrets.subset)
        (hl.subset hremark.subset)) fun t' ht' => ih (StandsFor.forall_mono ht' h) (List.forall_mem_nil _)
  | case7 line rest hkind _ ih =>
      obtain ⟨texts, rfl, hl, hkind, h⟩ := exists_kind h hkind
      obtain ⟨⟨ls', hsrcs, htexts, hls'⟩, hdrop⟩ :=
        exists_lines_takeWhile h (fun _ _ => continuesQuote_source) fun _ _ => rfl
      have hquote : ∀ t', t ≤ t' → ∀ l ∈ line :: ls', l.Fits t' := fun t' ht' l hmem =>
        (List.forall_mem_cons.mpr ⟨hl, hls'⟩ l hmem : l.Fits t).mono ht'
      rw [Raw.renderBlocks, hkind, hsrcs]
      simp only [Kind.source, htexts]
      exact .alone hls rfl (fun t' ht' => quote_agree db (hquote t' ht')) fun t' ht' =>
        ih (StandsFor.forall_mono ht' hdrop) (List.forall_mem_nil _)
  | case8 line rest hkind _ ih =>
      obtain ⟨texts, rfl, hl, hkind, h⟩ := exists_kind h hkind
      obtain ⟨⟨ls', hsrcs, htexts, hls'⟩, hdrop⟩ :=
        exists_lines_takeWhile (forall₂_tail h) (fun _ _ => continuesTable_source) fun _ _ => rfl
      have hrows : (rest.tail.takeWhile continuesTable).map rowCells = ls'.map cells := by
        rw [hsrcs, List.map_map]
        rfl
      rw [Raw.renderBlocks, hkind, hrows]
      simp only [Kind.source, htexts]
      exact .alone hls rfl
        (fun t' ht' => renderTable_agree db (hl.mono ht') fun l hl => (hls' l hl).mono ht') fun t' ht' =>
        ih (StandsFor.forall_mono ht' hdrop) (List.forall_mem_nil _)
  | case9 line rest hitem _ ih =>
      have hgoes : continuesList db (.line line) = true := continuesList_of_kind hitem
      have htake : (Source.line line :: rest).takeWhile (continuesList db) =
          .line line :: rest.takeWhile (continuesList db) := by rw [List.takeWhile_cons, hgoes, if_pos rfl]
      have hafter : (Source.line line :: rest).dropWhile (continuesList db) = rest.dropWhile (continuesList db) := by
        rw [List.dropWhile_cons, hgoes, if_pos rfl]
      have hlist := fun t' (ht' : t ≤ t') => list_agree db (StandsFor.forall_mono ht' h)
      rw [htake, hafter] at hlist
      obtain ⟨texts, rfl, hl, hkind, h⟩ := exists_kind h hitem
      obtain ⟨-, hdrop⟩ := forall₂_takeWhile h fun _ _ => continuesList_source db
      rw [Raw.renderBlocks, hkind]
      have hblock := GivesBlocks.block hls rfl (fun n => renderBlocks_list db n _ _) hlist fun t' ht' =>
        ih (StandsFor.forall_mono ht' hdrop) (List.forall_mem_nil _)
      simpa only [Kind.source, bind_assoc, List.map_nil] using hblock
  | case10 line rest name remainder hlabel ih =>
      obtain ⟨texts, rfl, hl, hkind, h⟩ := exists_kind h hlabel
      obtain ⟨hname, hremainder⟩ := label?_infix (fits_of_kind hlabel)
      have hparagraph : ∀ l ∈ if remainder = [] then [] else [remainder], l.Fits t := by
        split
        · simp
        · simpa using hl.subset hremainder.subset
      rw [Raw.renderBlocks, hkind, foldr_paragraph]
      simp only [Kind.source, paragraph_source]
      refine .alone hls (y := pure (Raw.wrap .label (Line.source name))) rfl (fun t' ht' => ?_) fun t' ht' =>
        ih (StandsFor.forall_mono ht' h) fun l hl => (hparagraph l hl).mono ht'
      exact .pure (((hl.subset hname.subset).mono ht').stands.wrap .label)
  | case11 line rest hkind ih =>
      obtain ⟨texts, rfl, hl, hkind, h⟩ := exists_kind h hkind
      have hwhole := ih h (List.forall_mem_append.mpr ⟨hls, List.forall_mem_singleton.mpr hl⟩)
      rw [Raw.renderBlocks, hkind]
      rw [List.map_append, List.foldr_append] at hwhole
      exact hwhole

end LeadSheet.Markup
