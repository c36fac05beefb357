import LeadSheet.Markup.Body
import LeadSheet.Proofs.Markup.Blocks
import Mathlib.Data.List.Forall2

/-!
# Properties that a document has from its lines

A property of token lists is compositional when the frame of a document keeps it: line breaks, rules, the
elements that make up blocks, the parts of a reference line, and the nesting of lists. A compositional
property that code blocks have holds of a body as soon as it holds of the lines that are marked up
(`Compositional.bodyTokens`).

A property of single tokens, and more generally one that is kept by joining token lists, is compositional
once the single tags of the frame have it (`Additive.compositional`); code blocks have it too if the tags around
them have it (`Additive.fences`).
-/

namespace LeadSheet.Markup

/-- The elements that make up blocks, those of a code block aside. A heading has one of five levels. -/
def Element.IsBlock : Element → Prop
  | .heading level => 1 ≤ level ∧ level ≤ 5
  | .paragraph | .quote | .orderedList | .bulletList | .item | .table | .tableHead | .tableBody | .tableRow
  | .headCell | .cell | .label | .reference => True
  | _ => False

/-- The elements inside a reference line. -/
def Element.IsReferencePart : Element → Prop
  | .referenceName | .referenceFrets => True
  | _ => False

/-- The elements that a document has around its lines and in its code, but for the one around a code block. A
language is spelled in the characters of a language's name. -/
def Element.IsFrame : Element → Prop
  | .heading level => 1 ≤ level ∧ level ≤ 5
  | .code language => ∀ c ∈ language, isLanguageChar c = true
  | .deleted | .strong | .emphasis | .anchor _ | .chord | .preformatted => False
  | _ => True

/-- A character, or a tag of the frame. -/
def Token.IsFrame : Token → Prop
  | .char _ => True
  | .tag (.opening e) => e.IsFrame
  | .tag (.closing e) => e.IsFrame
  | .tag .lineBreak => True
  | .tag .rule => True
  | .tag (.image _ _) => False

/-- The frame of a document keeps the property. -/
structure Compositional (Q : List Token → Prop) : Prop where
  bare : ∀ {l : Line}, l.IsBare → Q l.tokens
  append : ∀ {s t : List Token}, Q s → Q t → Q (s ++ t)
  lineBreak : Q [.tag .lineBreak]
  rule : Q [.tag .rule]
  block : ∀ {e : Element} {s : List Token}, e.IsBlock → Q s → Q (Token.element e s)
  part : ∀ {e : Element} {l : Line}, e.IsReferencePart → l.IsBare → Q (Token.element e l.tokens)
  nest : ∀ {items : List (OpenList × List Token)}, (∀ i ∈ items, Q i.2) → Q (nestItems [] items)

def fenceTokens (language code : List Char) : List Token :=
  Token.element .preformatted (Token.element (.code language) (Token.ofChars code))

def HoldsOfFences (Q : List Token → Prop) : Prop :=
  ∀ language code : List Char, (∀ c ∈ language, isLanguageChar c = true) → Q (fenceTokens language code)

theorem Element.isFrame_of_isBlock {e : Element} (h : e.IsBlock) : e.IsFrame := by
  cases e with
  | heading level => exact h
  | code language => exact absurd h id
  | _ => trivial

theorem Element.isFrame_of_isReferencePart {e : Element} (h : e.IsReferencePart) : e.IsFrame := by
  cases e with
  | referenceName => trivial
  | referenceFrets => trivial
  | _ => exact absurd h id

theorem OpenList.element_isFrame (l : OpenList) : l.element.IsFrame := by
  unfold OpenList.element
  split
  · trivial
  · trivial

theorem isFrame_ofChars (s : List Char) : ∀ t ∈ Token.ofChars s, t.IsFrame := by
  intro t ht
  obtain ⟨c, -, rfl⟩ := List.mem_map.mp ht
  trivial

theorem isFrame_element {e : Element} (he : e.IsFrame) {s : List Token} (hs : ∀ t ∈ s, t.IsFrame) :
    ∀ t ∈ Token.element e s, t.IsFrame := by
  refine List.forall_mem_cons.mpr ⟨he, List.forall_mem_append.mpr ⟨hs, fun t ht => ?_⟩⟩
  rw [List.mem_singleton.mp ht]
  exact he

theorem Piece.isFrame_of_isBare {p : Piece} (h : p.IsBare) : ∀ t ∈ p.tokens, t.IsFrame := by
  cases p with
  | char c => exact isFrame_ofChars [c]
  | tag t => exact absurd h id
  | literal n content =>
      obtain ⟨code, rfl⟩ := h
      exact isFrame_element (by simp [Element.IsFrame]) (isFrame_ofChars code)

theorem Line.isFrame_of_isBare {l : Line} (h : l.IsBare) : ∀ t ∈ l.tokens, t.IsFrame := by
  intro t ht
  obtain ⟨p, hp, ht⟩ := List.mem_flatMap.mp ht
  exact Piece.isFrame_of_isBare (h p hp) t ht

/-! ## Properties that joining keeps -/

theorem flatMap_of_append {Q : List Token → Prop} (hnil : Q []) (happend : ∀ {s t : List Token}, Q s → Q t → Q (s ++ t))
    {α : Type} {f : α → List Token} {l : List α} (h : ∀ a ∈ l, Q (f a)) : Q (l.flatMap f) := by
  induction l with
  | nil => exact hnil
  | cons a l ih =>
      obtain ⟨ha, hl⟩ := List.forall_mem_cons.mp h
      exact happend ha (ih hl)

/-- Joining keeps the property, and each token of the frame has it. -/
structure Additive (Q : List Token → Prop) : Prop where
  nil : Q []
  append : ∀ {s t : List Token}, Q s → Q t → Q (s ++ t)
  single : ∀ t : Token, t.IsFrame → Q [t]

namespace Additive

variable {Q : List Token → Prop} (hQ : Additive Q)

include hQ

theorem frame {s : List Token} (h : ∀ t ∈ s, t.IsFrame) : Q s := by
  have hflat : Q (s.flatMap fun t => [t]) := flatMap_of_append hQ.nil hQ.append fun t ht => hQ.single t (h t ht)
  rwa [List.flatMap_singleton'] at hflat

theorem closeAll (stack : List OpenList) : Q (OpenList.closeAll stack) := by
  refine flatMap_of_append hQ.nil hQ.append fun l _ => ?_
  have hitem : Q [.tag (.closing .item)] := hQ.single _ trivial
  exact hQ.append hitem (hQ.single _ l.element_isFrame)

theorem enterList (item : OpenList) (stack : List OpenList) : Q (Markup.enterList item stack).1 := by
  have hopen : Q [.tag (.opening item.element)] := hQ.single _ item.element_isFrame
  have hitem : Q [.tag (.closing .item)] := hQ.single _ trivial
  unfold Markup.enterList
  split
  · exact hopen
  · rename_i top below
    split
    · split
      · exact hitem
      · exact hQ.append (hQ.append hitem (hQ.single _ top.element_isFrame)) hopen
    · exact hopen

theorem nestItems {items : List (OpenList × List Token)} (h : ∀ i ∈ items, Q i.2)
    (stack : List OpenList) : Q (Markup.nestItems stack items) := by
  induction items generalizing stack with
  | nil => exact hQ.closeAll stack
  | cons i items ih =>
      obtain ⟨item, content⟩ := i
      obtain ⟨hcontent, hitems⟩ := List.forall_mem_cons.mp h
      have hitem : Q [.tag (.opening .item)] := hQ.single _ trivial
      simp only [Markup.nestItems]
      exact hQ.append (hQ.append (hQ.append (hQ.closeAll _) (hQ.enterList _ _)) (hQ.append hitem hcontent))
        (ih hitems _)

/-- What joining keeps, and what the single tokens of the frame have, is compositional. -/
theorem compositional : Compositional Q where
  bare hl := hQ.frame (Line.isFrame_of_isBare hl)
  append := hQ.append
  lineBreak := hQ.single _ trivial
  rule := hQ.single _ trivial
  block {e s} he hs := by
    have hopen : Q [.tag (.opening e)] := hQ.single _ (Element.isFrame_of_isBlock he)
    exact hQ.append (hQ.append hopen hs) (hQ.single _ (Element.isFrame_of_isBlock he))
  part he hl := hQ.frame (isFrame_element (Element.isFrame_of_isReferencePart he) (Line.isFrame_of_isBare hl))
  nest h := hQ.nestItems h []

theorem fences (hopening : Q [.tag (.opening .preformatted)]) (hclosing : Q [.tag (.closing .preformatted)]) :
    HoldsOfFences Q := by
  intro language code hlanguage
  have hcode := hQ.frame (isFrame_element (e := .code language) hlanguage (isFrame_ofChars code))
  exact hQ.append (hQ.append hopening hcode) hclosing

end Additive

/-! ## The blocks of a body, each by itself -/

def Block.isShown : Block → Bool
  | .gap => false
  | _ => true

/-- A document shows the blocks of a body in order, each as it is rendered by itself with some number. -/
theorem renderBlocks_forall₂ (db : Chord.Database) (n : Nat) (blocks : List Block) :
    List.Forall₂ (fun b ts => ∃ m, (renderBlock db m b).1 = ts) (blocks.filter Block.isShown)
      (renderBlocks db n blocks) := by
  fun_induction renderBlocks db n blocks with
  | case1 => exact .nil
  | case2 n rest ih => exact ih
  | case3 n lines r rest remark n₁ hremark paragraph n₂ hparagraph ih =>
      refine .cons ⟨n₁, ?_⟩ (.cons ⟨n, ?_⟩ ih)
      · rw [renderBlock, hparagraph]
      · rw [renderBlock, hremark]
  | case4 n items r rest _ n₁ _ list n₂ hlist remark n₃ hremark ih =>
      refine .cons ⟨n₁, ?_⟩ (.cons ⟨n₂, ?_⟩ ih)
      · rw [renderBlock, hlist]
      · rw [renderBlock, hremark]
  | case5 n block rest hgap _ _ tokens n₁ hblock ih =>
      have hshown : block.isShown = true := by
        cases block with
        | gap => exact absurd rfl hgap
        | _ => rfl
      rw [List.filter_cons_of_pos hshown]
      exact .cons ⟨n, by rw [hblock]⟩ ih

theorem mem_renderBlocks {db : Chord.Database} {n : Nat} {blocks : List Block} {ts : List Token}
    (h : ts ∈ renderBlocks db n blocks) : ∃ b ∈ blocks, ∃ m, (renderBlock db m b).1 = ts := by
  obtain ⟨i, hi, rfl⟩ := List.mem_iff_getElem.mp h
  obtain ⟨hlength, hget⟩ := List.forall₂_iff_get.mp (renderBlocks_forall₂ db n blocks)
  have hi' : i < (blocks.filter Block.isShown).length := by omega
  exact ⟨_, List.mem_of_mem_filter (List.getElem_mem hi'), hget i hi' hi⟩

/-! ## From the lines to the body -/

namespace Compositional

variable {Q : List Token → Prop} {P : Line → Prop} {db : Chord.Database}

theorem nil (hQ : Compositional Q) : Q [] := hQ.bare (isBare_ofChars [])

theorem ofChars (hQ : Compositional Q) (s : List Char) : Q (Token.ofChars s) := by
  have hbare := hQ.bare (isBare_ofChars s)
  rwa [Line.tokens_ofChars] at hbare

theorem flatMap (hQ : Compositional Q) {α : Type} {f : α → List Token} {l : List α}
    (h : ∀ a ∈ l, Q (f a)) : Q (l.flatMap f) :=
  flatMap_of_append hQ.nil hQ.append h

theorem intercalate (hQ : Compositional Q) {sep : List Token} (hsep : Q sep) {parts : List (List Token)}
    (h : ∀ ts ∈ parts, Q ts) : Q (List.intercalate sep parts) := by
  induction parts with
  | nil => exact hQ.nil
  | cons ts parts ih =>
      obtain ⟨hts, hparts⟩ := List.forall_mem_cons.mp h
      cases parts with
      | nil => simpa using hts
      | cons ts' parts =>
          rw [List.intercalate_cons_cons]
          exact hQ.append (hQ.append hts hsep) (ih hparts)

variable (hQ : Compositional Q) (hmarked : ∀ n l, P l → Q (renderLine db n l).1)

include hmarked in
theorem renderLines {lines : List Line} (h : ∀ l ∈ lines, P l) (n : Nat) :
    ∀ ts ∈ (Markup.renderLines db n lines).1, Q ts := by
  induction lines generalizing n with
  | nil => simp [Markup.renderLines]
  | cons l lines ih =>
      obtain ⟨hl, hlines⟩ := List.forall_mem_cons.mp h
      simp only [Markup.renderLines]
      exact List.forall_mem_cons.mpr ⟨hmarked n l hl, ih hlines _⟩

include hQ hmarked in
theorem renderParagraph {lines : List Line} (h : ∀ l ∈ lines, P l) (n : Nat) :
    Q (Markup.renderParagraph db n lines).1 :=
  hQ.block trivial (hQ.intercalate hQ.lineBreak (renderLines hmarked h n))

include hQ hmarked in
theorem renderList {items : List Item} (h : ∀ l ∈ items.map Item.text, P l) (n : Nat) :
    Q (Markup.renderList db n items).1 :=
  hQ.nest fun i hi => renderLines hmarked h n i.2 (List.of_mem_zip hi).2

include hQ hmarked in
theorem renderCells (kind : Element) (hkind : kind.IsBlock) {row : List Line} (h : ∀ l ∈ row, P l)
    (n : Nat) : Q (Markup.renderCells db n kind row).1 :=
  hQ.block trivial (hQ.flatMap fun cell hcell => hQ.block hkind (renderLines hmarked h n cell hcell))

include hQ hmarked in
theorem renderRows {rows : List (List Line)} (h : ∀ row ∈ rows, ∀ l ∈ row, P l) (n : Nat) :
    Q (Markup.renderRows db n rows).1 := by
  induction rows generalizing n with
  | nil => exact hQ.nil
  | cons row rows ih =>
      obtain ⟨hrow, hrows⟩ := List.forall_mem_cons.mp h
      simp only [Markup.renderRows]
      exact hQ.append (renderCells hQ hmarked .cell trivial hrow n) (ih hrows _)

include hQ hmarked in
theorem renderRemark {r : Reference} (h : P r.remark) (n : Nat) : Q (Markup.renderRemark db n r).1 := by
  unfold Markup.renderRemark
  split
  · exact hQ.nil
  · exact hmarked n r.remark h

include hQ in
theorem referenceTokens {r : Reference} (hname : r.name.IsBare) (hfrets : r.frets.IsBare) {remark : List Token}
    (hremark : Q remark) : Q (Markup.referenceTokens r remark) := by
  have hchars : Q [.char ':', .char ' '] := hQ.ofChars [':', ' ']
  refine hQ.block trivial (hQ.append (hQ.append (hQ.append ?_ hchars) ?_) hremark)
  · exact hQ.part trivial hname
  · exact hQ.part trivial hfrets

include hQ hmarked in
/-- A block other than a code block has what the lines have that are marked up in it. -/
theorem renderBlock {block : Block} (hbare : block.Holds Line.IsBare) (h : ∀ l ∈ block.markedLines, P l)
    (hfence : ∀ language code, block = .fence language code → Q (fenceTokens language code)) (n : Nat) :
    Q (Markup.renderBlock db n block).1 := by
  cases block with
  | gap => exact hQ.nil
  | fence language code => exact hfence language code rfl
  | heading level text => exact hQ.block ⟨hbare.1, hbare.2.1⟩ (hmarked n text (h text List.mem_cons_self))
  | rule => exact hQ.rule
  | reference r =>
      have hremark := renderRemark hQ hmarked (h r.remark List.mem_cons_self) n
      exact referenceTokens hQ hbare.1 hbare.2.1 hremark
  | quote lines => exact hQ.block trivial (hQ.intercalate hQ.lineBreak (renderLines hmarked h n))
  | table header rows =>
      obtain ⟨hheader, hcells⟩ := List.forall_mem_append.mp h
      have hrows : ∀ row ∈ rows, ∀ l ∈ row, P l :=
        fun row hrow l hl => hcells l (List.mem_flatten.mpr ⟨row, hrow, hl⟩)
      have hhead : Q (Token.element .tableHead _) :=
        hQ.block trivial (renderCells hQ hmarked .headCell trivial hheader n)
      exact hQ.block trivial (hQ.append hhead (hQ.block trivial (renderRows hQ hmarked hrows _)))
  | list items => exact renderList hQ hmarked h n
  | label name => exact hQ.block trivial (hQ.bare hbare)
  | paragraph lines => exact renderParagraph hQ hmarked h n

include hQ hmarked in
theorem renderBlocks (hfence : HoldsOfFences Q) {blocks : List Block} (hbare : ∀ b ∈ blocks, b.Holds Line.IsBare)
    (h : ∀ b ∈ blocks, ∀ l ∈ b.markedLines, P l) (n : Nat) :
    ∀ ts ∈ Markup.renderBlocks db n blocks, Q ts := by
  intro ts hts
  obtain ⟨b, hb, m, rfl⟩ := mem_renderBlocks hts
  refine renderBlock hQ hmarked (hbare b hb) (h b hb) (fun language code heq => ?_) m
  have hlanguage : Block.Holds Line.IsBare (.fence language code) := heq ▸ hbare b hb
  exact hfence language code hlanguage

end Compositional

def bodyBlocks (db : Chord.Database) (body : List Char) : List Block := readBlocks db (setCode body).1

theorem bodyBlocks_bare (db : Chord.Database) (body : List Char) :
    ∀ b ∈ bodyBlocks db body, b.Holds Line.IsBare :=
  readBlocks_holds isBare_infixClosed (setCode_bare body)

def markedLines (db : Chord.Database) (body : List Char) : List Line :=
  (bodyBlocks db body).flatMap Block.markedLines

theorem markedLines_bare {db : Chord.Database} {body : List Char} {l : Line} (h : l ∈ markedLines db body) :
    l.IsBare := by
  obtain ⟨b, hb, hl⟩ := List.mem_flatMap.mp h
  exact (bodyBlocks_bare db body b hb).markedLines l hl

/-- What holds of the lines of a body and of their stretches holds of the lines that are marked up. -/
theorem markedLines_holds {P : Line → Prop} (hP : InfixClosed P) (db : Chord.Database) {body : List Char}
    (h : ∀ s ∈ (setCode body).1, s.Holds P) : ∀ l ∈ markedLines db body, P l := by
  intro l hl
  obtain ⟨b, hb, hl⟩ := List.mem_flatMap.mp hl
  exact (readBlocks_holds hP h b hb).markedLines l hl

/-- A compositional property that code blocks have holds of a body when it holds of the lines that are marked
up. -/
theorem Compositional.bodyTokens {Q : List Token → Prop} (hQ : Compositional Q) (hfence : HoldsOfFences Q)
    {db : Chord.Database} {body : List Char} (h : ∀ l ∈ markedLines db body, ∀ n, Q (renderLine db n l).1) :
    Q (Markup.bodyTokens db body) := by
  have hmarked : ∀ b ∈ bodyBlocks db body, ∀ l ∈ b.markedLines, l ∈ Markup.markedLines db body :=
    fun b hb l hl => List.mem_flatMap.mpr ⟨b, hb, hl⟩
  have hblocks := renderBlocks hQ (fun n l hl => h l hl n) hfence (bodyBlocks_bare db body) hmarked
    (setCode body).2
  unfold Markup.bodyTokens
  simp only
  split
  · exact hQ.block trivial hQ.nil
  · exact hQ.intercalate (hQ.ofChars ['\n']) hblocks

end LeadSheet.Markup
