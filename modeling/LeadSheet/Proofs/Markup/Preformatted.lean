import LeadSheet.Proofs.Chord.Names
import LeadSheet.Proofs.Markup.Fences
import LeadSheet.Proofs.Markup.Nesting

/-!
# Code blocks in a document

The elements `pre` of a rendered body are its literal regions, in number, order and content (`preElements_render`).

* `splitAtMark? mark s` : what comes before the first occurrence of a mark in a text, and what comes after it;
* `preElements s` : the elements `pre` of a text, from its first tag on;
* `Shows es ts` : the elements `pre` of some tokens are `es`, whatever comes after them.
-/

namespace LeadSheet.Markup

open Text

/-! ## Elements of a text -/

/-- What comes before the first occurrence of the mark, and what comes after it. -/
def splitAtMark? (mark : List Char) : List Char → Option (List Char × List Char)
  | [] => none
  | c :: s =>
    if mark.isPrefixOf (c :: s) then some ([], (c :: s).drop mark.length)
    else (splitAtMark? mark s).map fun (before, after) => (c :: before, after)

theorem splitAtMark?_eq_some {mark s before after : List Char} (h : splitAtMark? mark s = some (before, after)) :
    s = before ++ (mark ++ after) := by
  induction s generalizing before with
  | nil => simp [splitAtMark?] at h
  | cons c s ih =>
      rw [splitAtMark?] at h
      split at h
      · rename_i hmark
        obtain ⟨rest, hrest⟩ := List.isPrefixOf_iff_prefix.mp hmark
        simp only [Option.some.injEq, Prod.mk.injEq] at h
        obtain ⟨rfl, rfl⟩ := h
        rw [← hrest, List.drop_left, List.nil_append]
      · obtain ⟨⟨before', after'⟩, hsplit, hpair⟩ := Option.map_eq_some_iff.mp h
        simp only [Prod.mk.injEq] at hpair
        obtain ⟨rfl, rfl⟩ := hpair
        rw [ih hsplit, List.cons_append]

/-- The elements `pre` of a text, each from its opening tag to the nearest closing one. -/
def preElements (s : List Char) : List (List Char) :=
  match h : splitAtMark? "<pre>".toList s with
  | none => []
  | some (_, inner) =>
    match h' : splitAtMark? "</pre>".toList inner with
    | none => []
    | some (content, after) =>
      have : after.length < s.length := by
        have hs := congrArg List.length (splitAtMark?_eq_some h)
        have hinner := congrArg List.length (splitAtMark?_eq_some h')
        have hmark : "<pre>".toList.length = 5 := rfl
        simp only [List.length_append] at hs hinner
        omega
      ("<pre>".toList ++ content ++ "</pre>".toList) :: preElements after
termination_by s.length

/-! ## Marks among tokens -/

section Mark

variable {inside : List Char}

theorem splitAtMark?_append {s : List Char} (hs : '<' ∉ s) (t : List Char) :
    splitAtMark? ('<' :: inside) (s ++ t) = (splitAtMark? ('<' :: inside) t).map (Prod.map (s ++ ·) id) := by
  induction s with
  | nil =>
      rw [List.nil_append]
      cases splitAtMark? ('<' :: inside) t <;> rfl
  | cons c s ih =>
      rw [List.mem_cons, not_or] at hs
      have hmark : ('<' :: inside).isPrefixOf (c :: (s ++ t)) = false := by simp [List.isPrefixOf, hs.1]
      rw [List.cons_append, splitAtMark?, hmark, if_neg Bool.false_ne_true, ih hs.2, Option.map_map]
      rfl

theorem splitAtMark?_self (t : List Char) : splitAtMark? ('<' :: inside) ('<' :: inside ++ t) = some ([], t) := by
  have hmark : ('<' :: inside).isPrefixOf ('<' :: (inside ++ t)) = true :=
    List.isPrefixOf_iff_prefix.mpr ⟨t, rfl⟩
  have hdrop : ('<' :: (inside ++ t)).drop ('<' :: inside).length = t := List.drop_left
  rw [List.cons_append, splitAtMark?, hmark, if_pos rfl, hdrop]

/-- A tag is a mark only if it says the same. -/
theorem splitAtMark?_tag {tag : Tag} (htag : tag.Own) (hinside : '>' ∉ inside) (hne : tag.inside ≠ inside)
    (t : List Char) : splitAtMark? ('<' :: (inside ++ ['>'])) (tag.text ++ t) =
      (splitAtMark? ('<' :: (inside ++ ['>'])) t).map (Prod.map (tag.text ++ ·) id) := by
  have hmarkless := Tag.markless_inside htag
  have htext : tag.text ++ t = '<' :: (tag.inside ++ ['>'] ++ t) := by simp [Tag.text_eq_inside]
  have hmark : ('<' :: (inside ++ ['>'])).isPrefixOf ('<' :: (tag.inside ++ ['>'] ++ t)) = false := by
    rw [← Bool.not_eq_true, List.isPrefixOf_iff_prefix]
    rintro ⟨rest, hrest⟩
    have hrest : inside ++ '>' :: rest = tag.inside ++ '>' :: t := by simpa using hrest
    exact hne (append_mark_inj hinside hmarkless.no_close hrest).1.symm
  have hopen : '<' ∉ tag.inside ++ ['>'] := by simp [hmarkless.no_open]
  rw [htext, splitAtMark?, hmark, if_neg Bool.false_ne_true, splitAtMark?_append hopen, Option.map_map]
  refine congrArg (fun f => Option.map f _) (funext fun p => ?_)
  simp [Tag.text_eq_inside, Prod.map]

theorem splitAtMark?_print (hinside : '>' ∉ inside) {ts : List Token}
    (hts : ∀ t ∈ ts, t.Own ∧ ∀ tag, t = .tag tag → tag.inside ≠ inside) (t : List Char) :
    splitAtMark? ('<' :: (inside ++ ['>'])) (Token.print ts ++ t) =
      (splitAtMark? ('<' :: (inside ++ ['>'])) t).map (Prod.map (Token.print ts ++ ·) id) := by
  induction ts with
  | nil =>
      have hprint : Token.print [] = [] := rfl
      rw [hprint, List.nil_append]
      cases splitAtMark? ('<' :: (inside ++ ['>'])) t <;> rfl
  | cons token ts ih =>
      obtain ⟨⟨hown, hne⟩, hts⟩ := List.forall_mem_cons.mp hts
      have hprint : Token.print (token :: ts) = token.text ++ Token.print ts := rfl
      have hstep : ∀ s, splitAtMark? ('<' :: (inside ++ ['>'])) (token.text ++ s) =
          (splitAtMark? ('<' :: (inside ++ ['>'])) s).map (Prod.map (token.text ++ ·) id) := by
        intro s
        cases token with
        | char c => exact splitAtMark?_append (markless_escapeChar c).no_open s
        | tag tag => exact splitAtMark?_tag hown hinside (hne tag rfl) s
      rw [hprint, List.append_assoc, hstep, ih hts, Option.map_map]
      refine congrArg (fun f => Option.map f _) (funext fun p => ?_)
      simp [Prod.map]

end Mark

/-! ## Elements among tokens -/

/-- The token is neither of the tags of a code block. -/
def Token.IsPlain (t : Token) : Prop := t ≠ .tag (.opening .preformatted) ∧ t ≠ .tag (.closing .preformatted)

theorem Token.isPlain_of_isFrame {t : Token} (h : t.IsFrame) : t.IsPlain := by
  constructor
  · rintro rfl
    exact h
  · rintro rfl
    exact h

theorem Element.eq_preformatted {e : Element} (he : e.Own) (h : e.name = "pre".toList) : e = .preformatted := by
  cases e with
  | preformatted => rfl
  | heading level => rcases level_cases he with rfl | rfl | rfl | rfl | rfl <;> exact absurd h (by decide)
  | code language => exact absurd h (by decide : "code".toList ≠ "pre".toList)
  | anchor address => exact absurd h (by decide : "a".toList ≠ "pre".toList)
  | _ => exact absurd h (by decide)

theorem Tag.eq_opening_pre {t : Tag} (ht : t.Own) (h : t.inside = "pre".toList) : t = .opening .preformatted := by
  cases t with
  | opening e =>
      have hname := Element.isElementName_name ht
      simp only [isElementName, Bool.and_eq_true] at hname
      have htag : tagName (Tag.opening e).inside = e.name := tagName_append hname.1.1 _
      have hpre : tagName "pre".toList = "pre".toList := rfl
      rw [h, hpre] at htag
      rw [Element.eq_preformatted ht htag.symm]
  | closing e => exact absurd (congrArg List.head? h) (by simp [inside, name])
  | image address description => exact absurd (congrArg List.head? h) (by simp [inside, name])
  | lineBreak | rule => exact absurd h (by decide)

theorem Tag.eq_closing_pre {t : Tag} (ht : t.Own) (h : t.inside = "/pre".toList) : t = .closing .preformatted := by
  cases t with
  | opening e =>
      have hname := Element.isElementName_name ht
      simp only [isElementName, Bool.and_eq_true] at hname
      cases heq : e.name with
      | nil => simp [heq] at hname
      | cons c s =>
          have hc : c = '/' := Option.some.inj (by simpa [inside, name, heq] using congrArg List.head? h)
          simp [heq, hc] at hname
  | closing e =>
      have hinside : (Tag.closing e).inside = '/' :: e.name := by simp [inside, name, attributes]
      rw [Element.eq_preformatted ht (List.cons.inj (hinside.symm.trans h)).2]
  | image address description => exact absurd (congrArg List.head? h) (by simp [inside, name])
  | lineBreak | rule => exact absurd h (by decide)

/-- The elements `pre` of the tokens are `es`, whatever comes after them. -/
def Shows (es : List (List Char)) (ts : List Token) : Prop :=
  ∀ t, preElements (Token.print ts ++ t) = es ++ preElements t

theorem Shows.append {es es' : List (List Char)} {ts ts' : List Token} (h : Shows es ts) (h' : Shows es' ts') :
    Shows (es ++ es') (ts ++ ts') := by
  intro t
  rw [print_append, List.append_assoc, h, h', List.append_assoc]

theorem not_pre_of_isPlain {inside : List Char} (hinside : inside = "pre".toList ∨ inside = "/pre".toList)
    {ts : List Token} (hts : ∀ t ∈ ts, t.Own ∧ t.IsPlain) :
    ∀ t ∈ ts, t.Own ∧ ∀ tag, t = .tag tag → tag.inside ≠ inside := by
  intro t ht
  obtain ⟨hown, hplain⟩ := hts t ht
  refine ⟨hown, fun tag htag heq => ?_⟩
  subst htag
  rcases hinside with rfl | rfl
  · exact hplain.1 (by rw [Tag.eq_opening_pre hown heq])
  · exact hplain.2 (by rw [Tag.eq_closing_pre hown heq])

theorem preElements_eq (s : List Char) :
    preElements s = match splitAtMark? "<pre>".toList s with
      | none => []
      | some (_, inner) =>
        match splitAtMark? "</pre>".toList inner with
        | none => []
        | some (content, after) => ("<pre>".toList ++ content ++ "</pre>".toList) :: preElements after := by
  rw [preElements]
  split
  · rename_i hopen
    rw [hopen]
  · rename_i hopen
    split
    · rename_i hclose
      simp only [hopen, hclose]
    · rename_i hclose
      simp only [hopen, hclose]

theorem shows_of_isPlain {ts : List Token} (hts : ∀ t ∈ ts, t.Own ∧ t.IsPlain) : Shows [] ts := by
  intro t
  have hsplit : splitAtMark? "<pre>".toList (Token.print ts ++ t) =
      (splitAtMark? "<pre>".toList t).map (Prod.map (Token.print ts ++ ·) id) :=
    splitAtMark?_print (by decide) (not_pre_of_isPlain (Or.inl rfl) hts) t
  rw [preElements_eq, hsplit, List.nil_append, preElements_eq t]
  cases splitAtMark? "<pre>".toList t with
  | none => rfl
  | some p => rfl

theorem shows_fence {language code : List Char} (hlanguage : ∀ c ∈ language, isLanguageChar c = true) :
    Shows [Token.print (fenceTokens language code)] (fenceTokens language code) := by
  intro t
  have hinside : ∀ t ∈ Token.element (.code language) (Token.ofChars code), t.Own ∧ t.IsPlain := by
    have hframe := isFrame_element (e := .code language) hlanguage (isFrame_ofChars code)
    exact fun t ht => ⟨Token.own_of_isFrame (hframe t ht), Token.isPlain_of_isFrame (hframe t ht)⟩
  generalize hinner : Token.element (.code language) (Token.ofChars code) = inner at hinside
  have hprint : Token.print (fenceTokens language code) = "<pre>".toList ++ (Token.print inner ++ "</pre>".toList) := by
    rw [fenceTokens, hinner]
    exact print_element .preformatted inner
  have hopen : splitAtMark? "<pre>".toList (Token.print (fenceTokens language code) ++ t) =
      some ([], Token.print inner ++ ("</pre>".toList ++ t)) := by
    rw [hprint, List.append_assoc, List.append_assoc]
    exact splitAtMark?_self _
  have hclose : splitAtMark? "</pre>".toList (Token.print inner ++ ("</pre>".toList ++ t)) =
      (splitAtMark? "</pre>".toList ("</pre>".toList ++ t)).map (Prod.map (Token.print inner ++ ·) id) :=
    splitAtMark?_print (by decide) (not_pre_of_isPlain (Or.inr rfl) hinside) _
  have hself : splitAtMark? "</pre>".toList ("</pre>".toList ++ t) = some ([], t) := splitAtMark?_self t
  rw [preElements_eq, hopen]
  simp only [hclose, hself, Option.map_some, Prod.map_apply, id_eq, List.append_nil, hprint, List.append_assoc,
    List.singleton_append]

/-! ## The blocks of a body -/

theorem isPlain_additive : Additive fun ts => ∀ t ∈ ts, t.Own ∧ t.IsPlain where
  nil := by simp
  append hs ht := List.forall_mem_append.mpr ⟨hs, ht⟩
  single t ht := List.forall_mem_singleton.mpr ⟨Token.own_of_isFrame ht, Token.isPlain_of_isFrame ht⟩

theorem isPlain_renderLine (db : Chord.Database) (n : Nat) {l : Line} (hl : l.IsBare) :
    ∀ t ∈ (renderLine db n l).1, t.Own ∧ t.IsPlain := by
  have hphrase := isPhrase_renderLine db n hl
  refine fun t ht => ⟨own_renderLine db n hl t ht, ?_, ?_⟩
  · rintro rfl
    exact absurd (hphrase _ (mem_tagList.mpr ht)) (by decide)
  · rintro rfl
    exact absurd (hphrase _ (mem_tagList.mpr ht)) (by decide)

def Block.elements (b : Block) : List (List Char) :=
  (b.codeBlock?.map fun (language, code) => Token.print (fenceTokens language code)).toList

theorem shows_renderBlock (db : Chord.Database) (n : Nat) {b : Block} (hb : b.Holds Line.IsBare) :
    Shows b.elements (renderBlock db n b).1 := by
  have hplain : (∀ language code, b ≠ .fence language code) → ∀ t ∈ (renderBlock db n b).1, t.Own ∧ t.IsPlain := by
    intro hfence
    refine isPlain_additive.compositional.renderBlock (fun n l hl => isPlain_renderLine db n hl) hb hb.markedLines ?_ n
    exact fun language code heq => absurd heq (hfence language code)
  cases b with
  | fence language code => exact shows_fence hb
  | _ => exact shows_of_isPlain (hplain (by simp))

theorem shows_intercalate {blocks : List Block} {tss : List (List Token)}
    (h : List.Forall₂ (fun b ts => Shows b.elements ts) blocks tss) :
    Shows (blocks.flatMap Block.elements) (List.intercalate [.char '\n'] tss) := by
  have hnone : Shows [] [] := shows_of_isPlain (by simp)
  have hlf : Shows [] [.char '\n'] := shows_of_isPlain (by simp [Token.Own, Token.IsPlain])
  induction h with
  | nil => exact hnone
  | @cons b ts blocks tss hb hblocks ih =>
      rw [List.flatMap_cons]
      cases hblocks with
      | nil => simpa using hb
      | cons hb' hblocks =>
          rw [List.intercalate_cons_cons]
          have hall := (hb.append hlf).append ih
          rwa [List.append_nil] at hall

/-- A document shows the code blocks among its blocks, in order. -/
theorem bodyTokens_shows (db : Chord.Database) (body : List Char) :
    Shows ((bodyBlocks db body).flatMap Block.elements) (bodyTokens db body) := by
  have hgaps : ∀ blocks : List Block,
      (blocks.filter Block.isShown).flatMap Block.elements = blocks.flatMap Block.elements := by
    intro blocks
    induction blocks with
    | nil => rfl
    | cons b blocks ih =>
        rw [List.filter_cons]
        split
        · rw [List.flatMap_cons, List.flatMap_cons, ih]
        · rename_i hhidden
          cases b with
          | gap => exact ih
          | _ => exact absurd rfl hhidden
  have hbare : ∀ b ∈ (bodyBlocks db body).filter Block.isShown, b.Holds Line.IsBare :=
    fun b hb => bodyBlocks_bare db body b (List.mem_of_mem_filter hb)
  have hblocks := (List.forall₂_and_left _ _).mpr ⟨hbare, renderBlocks_forall₂ db (setCode body).2 (bodyBlocks db body)⟩
  have hshows := shows_intercalate (hblocks.imp fun b ts ⟨hb, m, hm⟩ => hm ▸ shows_renderBlock db m hb)
  rw [hgaps] at hshows
  unfold bodyTokens
  simp only
  split
  · rename_i hnil
    have hnil : renderBlocks db (setCode body).2 (bodyBlocks db body) = [] := hnil
    rw [hnil] at hshows hblocks
    have hempty : ∀ t ∈ Token.element .paragraph [], t.Own ∧ t.IsPlain := by
      simp [Token.element, Token.Own, Tag.Own, Element.Own, Token.IsPlain]
    have hnone : (bodyBlocks db body).flatMap Block.elements = [] := by
      rw [← hgaps, List.forall₂_nil_right_iff.mp hblocks, List.flatMap_nil]
    rw [hnone]
    exact shows_of_isPlain hempty
  · exact hshows

/-! ## The regions of a body -/

theorem Region.language_chars (r : Region) : ∀ c ∈ r.language, isLanguageChar c = true :=
  fun _ hc => List.mem_takeWhile_imp hc

/-- The opening tag of the code of a region. -/
theorem text_opening_code {language : List Char} (h : ∀ c ∈ language, isLanguageChar c = true) :
    (Tag.opening (.code language)).text = "<code".toList ++
      (if language = [] then [] else " class=\"language-".toList ++ language ++ ['"']) ++ ['>'] := by
  cases language with
  | nil => decide
  | cons c language =>
      have hname : (Element.code (c :: language)).name = "code".toList := rfl
      rw [Tag.text_of_role rfl, escapeAttribute_language h, if_neg (List.cons_ne_nil c language), hname]
      simp

theorem print_fenceTokens {language : List Char} (h : ∀ c ∈ language, isLanguageChar c = true) (code : List Char) :
    Token.print (fenceTokens language code) = "<pre><code".toList ++
      (if language = [] then [] else " class=\"language-".toList ++ language ++ ['"']) ++ ['>'] ++ escape code ++
        "</code></pre>".toList := by
  have hclosing : (Tag.closing (.code language)).text = "</code>".toList := rfl
  have hpre : (Tag.opening .preformatted).text = "<pre>".toList ∧
      (Tag.closing .preformatted).text = "</pre>".toList := by decide
  have hstart : "<pre><code".toList = "<pre>".toList ++ "<code".toList := by decide
  have hend : "</code></pre>".toList = "</code>".toList ++ "</pre>".toList := by decide
  rw [fenceTokens, print_element, print_element, hclosing, hpre.1, hpre.2, text_opening_code h, print_ofChars, hstart,
    hend]
  simp only [List.append_assoc]

/-- The elements `pre` of a rendered body are the literal regions of the body. -/
theorem preElements_render (db : Chord.Database) {body : String} {rs : List Region}
    (hrs : Regions (lines (unixLines body.toList)) rs) :
    preElements (render db body).toList = rs.map Region.markup := by
  have hshows := bodyTokens_shows db body.toList []
  have hnone : preElements [] = [] := by
    rw [preElements_eq]
    rfl
  have helements : (bodyBlocks db body.toList).flatMap Block.elements = rs.map Region.markup := by
    have hcode := congrArg (List.map fun p => Token.print (fenceTokens p.1 p.2)) (codeBlocks_bodyBlocks db hrs)
    rw [List.map_filterMap, List.map_map, List.filterMap_eq_flatMap_toList] at hcode
    exact hcode.trans (List.map_congr_left fun r _ => print_fenceTokens r.language_chars r.code)
  rw [List.append_nil, hnone, List.append_nil, helements] at hshows
  rw [render, String.toList_ofList, hshows]

end LeadSheet.Markup
