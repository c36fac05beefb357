import LeadSheet.Proofs.Markup.Raw.Emphasis
import LeadSheet.Proofs.Markup.Raw.Readers
import Mathlib.Data.List.Forall2

/-!
# Parts of blocks on text

* `StandsAll t ss tss` : each text stands for its tokens;
* `renderLines_agree`, `renderTable_agree`, `renderList_agree` : what the blocks are made of is marked up alike on
  text and on tokens;
* `flush_agree` : so is the paragraph that a block ends.
-/

namespace LeadSheet.Markup

open Text
open Raw (LiteralKind LiteralTable Marking Placeholder)

/-- A text stands for tokens with literals of both kinds. -/
abbrev StandsIn (t : LiteralTable) (s : List Char) (ts : List Token) : Prop := Stands t (fun _ => True) s ts

abbrev StandsAll (t : LiteralTable) (ss : List (List Char)) (tss : List (List Token)) : Prop :=
  List.Forall₂ (StandsIn t) ss tss

theorem StandsAll.mono {t t' : LiteralTable} (ht : t ≤ t') {ss : List (List Char)} {tss : List (List Token)}
    (h : StandsAll t ss tss) : StandsAll t' ss tss := h.imp fun _ _ h => h.mono ht

/-! ## Lines -/

theorem renderLines_agree (db : Chord.Database) {t : LiteralTable} {ls : List Line} (hls : ∀ l ∈ ls, l.Fits t) :
    Agree StandsAll t ((ls.map Line.source).mapM (Raw.renderLine db)) (renderLines db t.inlines.length ls) := by
  induction ls generalizing t with
  | nil => exact .pure .nil
  | cons l ls ih =>
      obtain ⟨hl, hls⟩ := List.forall_mem_cons.mp hls
      have hline := renderLine_agree db hl
      have hrest := ih fun l' hl' => (hls l' hl').mono hline.grows
      rw [hline.count] at hrest
      rw [List.map_cons, List.mapM_cons]
      exact hline.bind (hrest.map (.cons (hline.result.mono hrest.grows) hrest.result))

theorem stands_intercalate {t : LiteralTable} {sep : List Char} {septs : List Token} (hsep : StandsIn t sep septs)
    {ss : List (List Char)} {tss : List (List Token)} (h : StandsAll t ss tss) :
    StandsIn t (List.intercalate sep ss) (List.intercalate septs tss) := by
  induction h with
  | nil => exact .nil
  | @cons s ts ss tss hs h ih =>
      cases h with
      | nil =>
          rw [List.intercalate_singleton, List.intercalate_singleton]
          exact hs
      | cons hs' h =>
          rw [List.intercalate_cons_cons, List.intercalate_cons_cons]
          exact (hs.append hsep).append ih

theorem stands_lineBreak (t : LiteralTable) : StandsIn t Tag.lineBreak.text [.tag .lineBreak] := by
  simpa using Stands.tag (t := t) (K := fun _ => True) .lineBreak .nil

/-- The paragraph that a block ends, unless it has no lines. -/
def flushed (db : Chord.Database) (n : Nat) (ls : List Line) : List (List Token) × Nat :=
  if ls = [] then ([], n) else ([(renderParagraph db n ls).1], (renderParagraph db n ls).2)

theorem flush_agree (db : Chord.Database) {t : LiteralTable} {ls : List Line} (hls : ∀ l ∈ ls, l.Fits t) :
    Agree StandsAll t (Raw.flush db (ls.map Line.source)) (flushed db t.inlines.length ls) := by
  rw [Raw.flush, flushed]
  simp only [List.map_eq_nil_iff]
  split
  · exact .pure .nil
  · have hlines := renderLines_agree db hls
    refine hlines.map (.cons ?_ .nil)
    exact (stands_intercalate (stands_lineBreak _) hlines.result).wrap .paragraph

/-! ## Reference lines, tables and lists -/

theorem renderReference_agree (db : Chord.Database) {t : LiteralTable} {r : Reference} (hname : r.name.Fits t)
    (hfrets : r.frets.Fits t) (hremark : r.remark.Fits t) :
    Agree StandsIn t (Raw.renderReference db r.source)
      (referenceTokens r (renderRemark db t.inlines.length r).1, (renderRemark db t.inlines.length r).2) := by
  have hremark : Agree StandsIn t (Raw.renderRemark db r.source) (renderRemark db t.inlines.length r) := by
    rw [Raw.renderRemark, renderRemark, Reference.source, isEmptyLine_source]
    split
    · exact .pure .nil
    · exact renderLine_agree db hremark
  have hcolon : ∀ t, StandsIn t ": ".toList [.char ':', .char ' '] := fun t => by
    simpa [Token.print, Token.text, show escapeChar ':' = [':'] from rfl, show escapeChar ' ' = [' '] from rfl] using
      Stands.print t (fun _ => True) [.char ':', .char ' ']
  refine hremark.map ?_
  have hstart := ((hname.mono hremark.grows).stands.wrap .referenceName).append (hcolon _)
  have hend := ((hfrets.mono hremark.grows).stands.wrap .referenceFrets).append hremark.result
  have hwhole := (hstart.append hend).wrap .reference
  simpa [referenceTokens, Reference.source] using hwhole

theorem stands_flatMap_wrap {t : LiteralTable} (e : Element) {ss : List (List Char)} {tss : List (List Token)}
    (h : StandsAll t ss tss) : StandsIn t (ss.flatMap (Raw.wrap e)) (tss.flatMap (Token.element e)) := by
  induction h with
  | nil => exact .nil
  | cons hs _ ih => exact (hs.wrap e).append ih

theorem renderCells_agree (db : Chord.Database) (e : Element) {t : LiteralTable} {row : Line} (hrow : row.Fits t) :
    Agree StandsIn t (Raw.renderCells db e (Line.source row)) (renderCells db t.inlines.length e (cells row)) := by
  have hcells := renderLines_agree db fun l hl => hrow.subset (infix_of_mem_cells hl).subset
  rw [Raw.renderCells, cells_source hrow]
  exact hcells.map ((stands_flatMap_wrap e hcells.result).wrap .tableRow)

theorem renderRows_agree (db : Chord.Database) {t : LiteralTable} {rows : List Line} (hrows : ∀ l ∈ rows, l.Fits t) :
    Agree (fun t ss ts => StandsIn t ss.flatten ts) t ((rows.map Line.source).mapM (Raw.renderCells db .cell))
      (renderRows db t.inlines.length (rows.map cells)) := by
  induction rows generalizing t with
  | nil => exact .pure .nil
  | cons row rows ih =>
      obtain ⟨hrow, hrows⟩ := List.forall_mem_cons.mp hrows
      have hcells := renderCells_agree db .cell hrow
      have hrest := ih fun l hl => (hrows l hl).mono hcells.grows
      rw [hcells.count] at hrest
      rw [List.map_cons, List.mapM_cons]
      exact hcells.bind (hrest.map ((hcells.result.mono hrest.grows).append hrest.result))

theorem renderTable_agree (db : Chord.Database) {t : LiteralTable} {header : Line} {rows : List Line}
    (hheader : header.Fits t) (hrows : ∀ l ∈ rows, l.Fits t) :
    Agree StandsIn t (Raw.renderTable db (Line.source header) (rows.map Line.source))
      (renderTable db t.inlines.length (cells header) (rows.map cells)) := by
  have hhead := renderCells_agree db .headCell hheader
  have hbody := renderRows_agree db fun l hl => (hrows l hl).mono hhead.grows
  rw [hhead.count] at hbody
  refine hhead.bind (hbody.map ?_)
  exact (((hhead.result.mono hbody.grows).wrap .tableHead).append (hbody.result.wrap .tableBody)).wrap .table

theorem stands_nestItems {t : LiteralTable} {items : List (OpenList × List Char)}
    {items' : List (OpenList × List Token)}
    (h : List.Forall₂ (fun i i' => i.1 = i'.1 ∧ StandsIn t i.2 i'.2) items items') (stack : List OpenList) :
    StandsIn t (Raw.nestItems stack items) (nestItems stack items') := by
  induction h generalizing stack with
  | nil => exact .print t _ _
  | @cons i i' items items' hi _ ih =>
      obtain ⟨item, content⟩ := i
      obtain ⟨item', tokens⟩ := i'
      obtain ⟨rfl, hcontent⟩ := hi
      let isDeeper := fun l : OpenList => decide (item.indent < l.indent)
      have hopening : StandsIn t (Tag.opening .item).text [.tag (.opening .item)] := by
        simpa using Stands.tag (t := t) (K := fun _ => True) (.opening .item) .nil
      have hitem := hopening.append (hcontent.append (ih (enterList item (stack.dropWhile isDeeper)).2))
      have hwhole := (Stands.print t (fun _ => True) (OpenList.closeAll (stack.takeWhile isDeeper) ++
        (enterList item (stack.dropWhile isDeeper)).1)).append hitem
      simpa [Raw.nestItems, nestItems] using hwhole

theorem renderList_agree (db : Chord.Database) {t : LiteralTable} {items : List Item}
    (hitems : ∀ i ∈ items, i.text.Fits t) :
    Agree StandsIn t (Raw.renderList db (items.map Item.source)) (renderList db t.inlines.length items) := by
  have hfits : ∀ l ∈ items.map Item.text, l.Fits t := fun l hl => by
    obtain ⟨i, hi, rfl⟩ := List.mem_map.mp hl
    exact hitems i hi
  have htexts := renderLines_agree db hfits
  have hlines : (items.map Item.source).mapM (fun i => Raw.renderLine db i.text) =
      ((items.map Item.text).map Line.source).mapM (Raw.renderLine db) := by
    rw [List.mapM_map, List.map_map, List.mapM_map]
    rfl
  rw [Raw.renderList, hlines]
  refine htexts.map (stands_nestItems ?_ [])
  have hkeys : (items.map Item.source).map (fun i => OpenList.mk i.indent i.ordered) =
      items.map fun i => OpenList.mk i.indent i.ordered := by
    rw [List.map_map]
    rfl
  rw [hkeys]
  have hzip : ∀ {keys : List OpenList} {t : LiteralTable} {ss : List (List Char)} {tss : List (List Token)},
      StandsAll t ss tss →
      List.Forall₂ (fun i i' => i.1 = i'.1 ∧ StandsIn t i.2 i'.2) (keys.zip ss) (keys.zip tss) := by
    intro keys t ss tss h
    induction h generalizing keys with
    | nil => simp
    | cons hs _ ih =>
        cases keys with
        | nil => simp
        | cons key keys => exact .cons ⟨rfl, hs⟩ ih
  exact hzip htexts.result

end LeadSheet.Markup
