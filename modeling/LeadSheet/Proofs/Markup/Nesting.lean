import LeadSheet.Proofs.Markup.Tags

/-!
# How a document nests

Blocks hold lines, and lines hold phrases: text that is struck out, strong or emphasised, links, chords, and
code. The blocks of a body are always well nested, lists included. Whether the whole document is well nested is
therefore settled line by line.

* `isBlockTag` : a tag that belongs to a block; the tags of phrases stand in runs between them;
* `Moves P S S' ts` : following the tags of `ts` leads from the open elements `S` to `S'`, provided that each run
  of phrase tags is well nested, and fails otherwise; `P` makes sure that they are;
* `NestsByLines P` : tokens that leave what is open as it is, in that sense, which is compositional
  (`nestsByLines_compositional`);
* `wellNested_iff_runs` : such a document is well nested exactly when each run of phrase tags is.
-/

namespace LeadSheet.Markup

open Text

/-! ## Blocks and phrases -/

/-- The elements that stand inside a line. -/
def phraseNames : List (List Char) :=
  ["del".toList, "strong".toList, "em".toList, "a".toList, "span".toList, "code".toList, "br".toList, "img".toList]

/-- The tag belongs to a block and not to a phrase. -/
def isBlockTag (tag : List Char) : Bool :=
  !phraseNames.contains (tagName (if tag.head? = some '/' then tag.tail else tag))

/-- The tag belongs to a block and not to a phrase. -/
def Tag.isBlock : Tag → Bool
  | .opening e | .closing e => !phraseNames.contains e.name
  | .rule => true
  | .lineBreak | .image _ _ => false

theorem Tag.isBlockTag_inside {t : Tag} (h : t.Own) : isBlockTag t.inside = t.isBlock := by
  have helement : ∀ {e : Element}, e.Own → e.name.all (· != ' ') = true ∧ e.name.head? ≠ some '/' := by
    intro e he
    have hname := Element.isElementName_name he
    simp only [isElementName, Bool.and_eq_true] at hname
    refine ⟨hname.1.1, fun hslash => ?_⟩
    simp [hslash] at hname
  cases t with
  | opening e =>
      obtain ⟨hspace, hslash⟩ := helement h
      have hname : e.name ≠ [] := by
        intro hnil
        have hname := Element.isElementName_name h
        simp [isElementName, hnil] at hname
      have hhead : (Tag.opening e).inside.head? ≠ some '/' := by
        obtain ⟨c, cs, hc⟩ := List.exists_cons_of_ne_nil hname
        rw [hc] at hslash
        rw [inside, name, hc]
        exact hslash
      rw [isBlockTag, if_neg hhead, inside, name, tagName_append hspace]
      rfl
  | closing e =>
      have hinside : (Tag.closing e).inside = '/' :: e.name := by simp [inside, name, attributes]
      have hname : tagName e.name = e.name := by simpa using tagName_append (helement h).1 []
      rw [isBlockTag, hinside, List.head?_cons, if_pos rfl, List.tail_cons, hname]
      rfl
  | lineBreak => rfl
  | rule => rfl
  | image address description =>
      have hname : "img".toList.all (· != ' ') = true := by decide
      have htag : tagName (Tag.image address description).inside = "img".toList := tagName_append hname _
      have hhead : (Tag.image address description).inside.head? ≠ some '/' := by simp [inside, name]
      rw [isBlockTag, if_neg hhead, htag]
      rfl

theorem Element.not_phrase_of_isBlock {e : Element} (h : e.IsBlock) : e.name ∉ phraseNames := by
  cases e with
  | heading level => rcases level_cases h with rfl | rfl | rfl | rfl | rfl <;> decide
  | code language => exact absurd h id
  | anchor address => exact absurd h id
  | deleted | strong | emphasis | chord | preformatted | referenceName | referenceFrets => exact absurd h id
  | _ => decide

/-! ## Following the tags line by line -/

/-- The phrases that are open after a tag. A block begins and ends where no phrase is open. -/
def Tag.phrasesAfter (stack : List (List Char)) (t : Tag) : Option (List (List Char)) :=
  if t.isBlock then if stack = [] then some [] else none else t.after stack

/-- The phrases that are open after some tags. -/
def phraseWalk (stack : List (List Char)) (ts : List Tag) : Option (List (List Char)) :=
  ts.foldlM Tag.phrasesAfter stack

@[simp] theorem phraseWalk_nil (stack : List (List Char)) : phraseWalk stack [] = some stack := rfl

@[simp] theorem phraseWalk_cons (stack : List (List Char)) (t : Tag) (ts : List Tag) :
    phraseWalk stack (t :: ts) = (t.phrasesAfter stack).bind fun stack => phraseWalk stack ts :=
  List.foldlM_cons

theorem phraseWalk_append (stack : List (List Char)) (s t : List Tag) :
    phraseWalk stack (s ++ t) = (phraseWalk stack s).bind fun stack => phraseWalk stack t :=
  List.foldlM_append

theorem phraseWalk_eq_walk {ts : List Tag} (h : ∀ t ∈ ts, t.isBlock = false) (stack : List (List Char)) :
    phraseWalk stack ts = walk stack ts := by
  induction ts generalizing stack with
  | nil => rfl
  | cons t ts ih =>
      obtain ⟨ht, hts⟩ := List.forall_mem_cons.mp h
      have hstep : t.phrasesAfter stack = t.after stack := by simp [Tag.phrasesAfter, ht]
      rw [phraseWalk_cons, walk_cons, hstep]
      exact congrArg _ (funext fun stack => ih hts stack)

/-- No phrase is open at the end exactly when each run of phrase tags is well nested, the first one together
with what was open before. -/
theorem phraseWalk_eq_some_nil_iff {ts first : List Tag} {rest : List (List Tag)}
    (hcut : cutAt Tag.isBlock ts = first :: rest) (stack : List (List Char)) :
    phraseWalk stack ts = some [] ↔ walk stack first = some [] ∧ ∀ run ∈ rest, walk [] run = some [] := by
  induction ts generalizing stack first rest with
  | nil =>
      obtain ⟨rfl, rfl⟩ := List.cons.inj hcut
      simp
  | cons t ts ih =>
      obtain ⟨run, runs, hruns⟩ := List.exists_cons_of_ne_nil (cutAt_ne_nil Tag.isBlock ts)
      rw [phraseWalk_cons, Tag.phrasesAfter]
      rw [cutAt, hruns] at hcut
      cases ht : t.isBlock with
      | true =>
          rw [ht, if_pos rfl] at hcut
          obtain ⟨rfl, rfl⟩ := List.cons.inj hcut
          rw [if_pos rfl, List.forall_mem_cons, walk_nil, Option.some_inj]
          by_cases hstack : stack = []
          · rw [if_pos hstack, Option.bind_some, ih hruns]
            exact (and_iff_right hstack).symm
          · rw [if_neg hstack]
            simp [hstack]
      | false =>
          rw [ht, if_neg Bool.false_ne_true] at hcut
          obtain ⟨rfl, rfl⟩ := List.cons.inj hcut
          rw [if_neg Bool.false_ne_true, walk_cons]
          cases t.after stack with
          | none => simp
          | some stack' => exact ih hruns stack'

theorem phraseWalk_iff_runs (ts : List Tag) :
    phraseWalk [] ts = some [] ↔ ∀ run ∈ cutAt Tag.isBlock ts, walk [] run = some [] := by
  obtain ⟨run, runs, hcut⟩ := List.exists_cons_of_ne_nil (cutAt_ne_nil Tag.isBlock ts)
  rw [phraseWalk_eq_some_nil_iff hcut, hcut, List.forall_mem_cons]

/-! ## From what is open before to what is open after -/

/-- Following the tags leads from the open elements `S` to `S'` if each run of phrase tags is well nested, and
fails otherwise. The runs are well nested if `P` holds. -/
structure Moves (P : Prop) (S S' : List (List Char)) (ts : List Token) : Prop where
  settled : ∀ stack, phraseWalk [] (tagList ts) = some stack → stack = []
  walk_eq : walk S (tagList ts) = (phraseWalk [] (tagList ts)).map fun _ => S'
  nested : P → phraseWalk [] (tagList ts) = some []

namespace Moves

variable {P : Prop} {S S' S'' : List (List Char)} {s t : List Token}

theorem append (hs : Moves P S S' s) (ht : Moves P S' S'' t) : Moves P S S'' (s ++ t) := by
  refine ⟨?_, ?_, ?_⟩
  · intro stack h
    rw [tagList_append, phraseWalk_append] at h
    obtain ⟨stack', hstack', h⟩ := Option.bind_eq_some_iff.mp h
    rw [hs.settled stack' hstack'] at h
    exact ht.settled stack h
  · rw [tagList_append, phraseWalk_append, walk_append, hs.walk_eq]
    cases hphrase : phraseWalk [] (tagList s) with
    | none => rfl
    | some stack =>
        rw [hs.settled stack hphrase]
        exact ht.walk_eq
  · intro h
    rw [tagList_append, phraseWalk_append, hs.nested h]
    exact ht.nested h

/-- Nothing is open at the end exactly when no phrase is. -/
theorem walk_iff (h : Moves P S [] s) : walk S (tagList s) = some [] ↔ phraseWalk [] (tagList s) = some [] := by
  rw [h.walk_eq]
  constructor
  · intro hsome
    obtain ⟨stack, hstack, -⟩ := Option.map_eq_some_iff.mp hsome
    rw [hstack, h.settled stack hstack]
  · intro hsome
    rw [hsome]
    rfl

theorem opening {e : Element} (he : e.name ∉ phraseNames) (S : List (List Char)) :
    Moves P S (e.name :: S) [.tag (.opening e)] := by
  have hblock : (Tag.opening e).isBlock = true := by simpa [Tag.isBlock] using he
  have hphrase : phraseWalk [] [Tag.opening e] = some [] := by simp [Tag.phrasesAfter, hblock]
  exact ⟨fun stack h => (Option.some.inj (hphrase.symm.trans h)).symm, by simp [hphrase, Tag.after], fun _ => hphrase⟩

theorem closing {e : Element} (he : e.name ∉ phraseNames) (S : List (List Char)) :
    Moves P (e.name :: S) S [.tag (.closing e)] := by
  have hblock : (Tag.closing e).isBlock = true := by simpa [Tag.isBlock] using he
  have hphrase : phraseWalk [] [Tag.closing e] = some [] := by simp [Tag.phrasesAfter, hblock]
  exact ⟨fun stack h => (Option.some.inj (hphrase.symm.trans h)).symm, by simp [hphrase, Tag.after], fun _ => hphrase⟩

/-- What is nested by itself moves nothing. -/
theorem of_walk (hphrase : phraseWalk [] (tagList s) = some []) (hwalk : walk S (tagList s) = some S) : Moves P S S s :=
  ⟨fun stack h => (Option.some.inj (hphrase.symm.trans h)).symm, by rw [hphrase, hwalk]; rfl, fun _ => hphrase⟩

end Moves

/-- No phrase is open. -/
def AtBlock (S : List (List Char)) : Prop := ∀ top ∈ S.head?, top ∉ phraseNames

/-- Following the tags leaves what is open as it is if each run of phrase tags is well nested, as it is if `P`
holds, and fails otherwise. -/
def NestsByLines (P : Prop) (ts : List Token) : Prop := ∀ S, AtBlock S → Moves P S S ts

theorem atBlock_nil : AtBlock [] := by simp [AtBlock]

theorem atBlock_cons {e : Element} (he : e.name ∉ phraseNames) (S : List (List Char)) : AtBlock (e.name :: S) := by
  intro top htop
  obtain rfl := Option.some.inj htop
  exact he

theorem NestsByLines.element {P : Prop} {e : Element} (he : e.name ∉ phraseNames) {ts : List Token}
    (h : NestsByLines P ts) : NestsByLines P (Token.element e ts) :=
  fun S _ => ((Moves.opening he S).append (h _ (atBlock_cons he S))).append (Moves.closing he S)

/-! ## Lines -/

/-- Phrase tags meet the elements of a block as if nothing were open. -/
theorem walk_above {S : List (List Char)} (hS : AtBlock S) {ts : List Tag} (h : ∀ t ∈ ts, t.isBlock = false)
    (stack : List (List Char)) : walk (stack ++ S) ts = (walk stack ts).map (· ++ S) := by
  induction ts generalizing stack with
  | nil => rfl
  | cons t ts ih =>
      obtain ⟨ht, hts⟩ := List.forall_mem_cons.mp h
      have hstep : t.after (stack ++ S) = (t.after stack).map (· ++ S) := by
        cases t with
        | opening e => rfl
        | closing e =>
            cases stack with
            | cons top below =>
                simp only [List.cons_append, Tag.after]
                split
                · rfl
                · rfl
            | nil =>
                have hphrase : e.name ∈ phraseNames := by simpa [Tag.isBlock] using ht
                match S with
                | [] => rfl
                | top :: below =>
                    have hne : top ≠ e.name := fun heq => hS top rfl (heq ▸ hphrase)
                    simp [Tag.after, hne]
        | lineBreak => rfl
        | rule => rfl
        | image address description => rfl
      rw [walk_cons, walk_cons, hstep]
      cases t.after stack with
      | none => rfl
      | some stack' => exact ih hts stack'

/-- Phrases that close as often as they open are nested or fail, whatever block they stand in. -/
theorem nestsByLines_of_phrases {P : Prop} {ts : List Token} (hphrase : ∀ t ∈ tagList ts, t.isBlock = false)
    (hsettled : ∀ stack, walk [] (tagList ts) = some stack → stack = [])
    (hnested : P → walk [] (tagList ts) = some []) : NestsByLines P ts := by
  intro S hS
  have hwalk := walk_above hS hphrase []
  rw [← phraseWalk_eq_walk hphrase] at hsettled hnested
  refine ⟨hsettled, ?_, hnested⟩
  rw [phraseWalk_eq_walk hphrase] at hsettled ⊢
  cases hstack : walk [] (tagList ts) with
  | none => simpa [hstack] using hwalk
  | some stack =>
      rw [hsettled stack hstack] at hstack
      simpa [hstack] using hwalk

/-! ## Lists -/

variable {P : Prop}

def openNames (stack : List OpenList) : List (List Char) :=
  stack.flatMap fun l => [Element.item.name, l.element.name]

theorem openNames_append (s t : List OpenList) : openNames (s ++ t) = openNames s ++ openNames t :=
  List.flatMap_append

theorem OpenList.not_phrase (l : OpenList) : l.element.name ∉ phraseNames := by
  unfold element
  split
  · decide
  · decide

theorem item_not_phrase : Element.item.name ∉ phraseNames := by decide

theorem moves_close (l : OpenList) (S : List (List Char)) :
    Moves P (Element.item.name :: l.element.name :: S) S l.close :=
  (Moves.closing item_not_phrase _).append (Moves.closing l.not_phrase S)

theorem moves_closeAll (stack : List OpenList) (S : List (List Char)) :
    Moves P (openNames stack ++ S) S (OpenList.closeAll stack) := by
  induction stack with
  | nil => exact Moves.of_walk rfl rfl
  | cons l stack ih => exact (moves_close l (openNames stack ++ S)).append ih

/-- On the way to an item, the lists that it stands in and the item itself come to be open. -/
theorem moves_enterList (item : OpenList) (stack : List OpenList) (S : List (List Char)) :
    Moves P (openNames stack ++ S) (openNames (enterList item stack).2 ++ S)
      ((enterList item stack).1 ++ [.tag (.opening .item)]) := by
  have hitem : ∀ S, Moves P S (Element.item.name :: S) [.tag (.opening .item)] := Moves.opening item_not_phrase
  have hlist : ∀ S, Moves P S (item.element.name :: S) [.tag (.opening item.element)] :=
    Moves.opening item.not_phrase
  unfold enterList
  split
  · exact (hlist S).append (hitem _)
  · rename_i top below
    split
    · split
      · exact (Moves.closing item_not_phrase _).append (hitem _)
      · exact ((moves_close top _).append (hlist _)).append (hitem _)
    · exact (hlist _).append (hitem _)

theorem enterList_ne_nil (item : OpenList) (stack : List OpenList) : (enterList item stack).2 ≠ [] := by
  unfold enterList
  split
  · simp
  · split
    · split
      · simp
      · simp
    · simp

theorem atBlock_openNames {stack : List OpenList} (h : stack ≠ []) (S : List (List Char)) :
    AtBlock (openNames stack ++ S) := by
  obtain ⟨l, stack, rfl⟩ := List.exists_cons_of_ne_nil h
  exact atBlock_cons item_not_phrase _

theorem moves_nestItems {items : List (OpenList × List Token)} (h : ∀ i ∈ items, NestsByLines P i.2)
    (stack : List OpenList) (S : List (List Char)) : Moves P (openNames stack ++ S) S (nestItems stack items) := by
  induction items generalizing stack with
  | nil => exact moves_closeAll stack S
  | cons i items ih =>
      obtain ⟨item, content⟩ := i
      obtain ⟨hcontent, hitems⟩ := List.forall_mem_cons.mp h
      simp only [nestItems]
      generalize (fun l : OpenList => decide (item.indent < l.indent)) = isDeeper
      have hclose := moves_closeAll (P := P) (stack.takeWhile isDeeper) (openNames (stack.dropWhile isDeeper) ++ S)
      rw [← List.append_assoc, ← openNames_append, List.takeWhile_append_dropWhile] at hclose
      have henter := moves_enterList (P := P) item (stack.dropWhile isDeeper) S
      have hinside := hcontent _ (atBlock_openNames (enterList_ne_nil item (stack.dropWhile isDeeper)) S)
      have hall := ((hclose.append henter).append hinside).append (ih hitems _)
      simpa using hall

/-! ## Lines that are marked up -/

def Line.tags (l : Line) : List Tag := tagList l.tokens

namespace Line

@[simp] theorem tags_nil : tags [] = [] := rfl

@[simp] theorem tags_append (l l' : Line) : tags (l ++ l') = l.tags ++ l'.tags := by
  rw [tags, tokens_append, tagList_append]
  rfl

@[simp] theorem tags_cons (p : Piece) (l : Line) : tags (p :: l) = tagList p.tokens ++ l.tags := by
  rw [tags, tokens_cons, tagList_append]
  rfl

@[simp] theorem tags_ofChars (s : List Char) : tags (ofChars s) = [] := by
  rw [tags, tokens_ofChars, tagList_ofChars]

end Line

theorem mem_tags {l : Line} {t : Tag} : t ∈ l.tags ↔ ∃ p ∈ l, t ∈ tagList p.tokens := by
  induction l with
  | nil => simp
  | cons p l ih => simp [ih]

theorem tagList_bare {l : Line} (h : l.IsBare) :
    (∀ t ∈ tagList l.tokens, t.isBlock = false) ∧ ∀ S, walk S (tagList l.tokens) = some S := by
  induction l with
  | nil => simp
  | cons p l ih =>
      obtain ⟨hp, hl⟩ := List.forall_mem_cons.mp h
      obtain ⟨hblock, hwalk⟩ := ih hl
      rw [Line.tokens_cons, tagList_append]
      cases p with
      | char c => exact ⟨hblock, hwalk⟩
      | tag t => exact absurd hp id
      | literal n content =>
          obtain ⟨code, rfl⟩ := hp
          have htags : tagList (Piece.tokens (.literal n (codeSpan code))) =
              [.opening (.code []), .closing (.code [])] := by
            simp [Piece.tokens, codeSpan, Token.element]
          rw [htags]
          refine ⟨List.forall_mem_append.mpr ⟨by decide, hblock⟩, fun S => ?_⟩
          rw [walk_append]
          simp [Tag.after, hwalk]

/-- The tags of the piece belong to a phrase. -/
def Piece.IsPhrase (p : Piece) : Prop := ∀ t ∈ tagList p.tokens, t.isBlock = false

theorem InlineMark.isPhrase {u : List Char} {p : Piece} (h : InlineMark u p) : p.IsPhrase := by
  have hopening : ∀ e ∈ emphases, (Tag.opening e.element).isBlock = false := by decide
  have hclosing : ∀ e ∈ emphases, (Tag.closing e.element).isBlock = false := by decide
  intro t ht
  cases h with
  | image n description address => exact List.mem_singleton.mp ht ▸ rfl
  | linkStart n address => exact List.mem_singleton.mp ht ▸ rfl
  | linkEnd address => exact List.mem_singleton.mp ht ▸ rfl
  | emphasisStart he => exact List.mem_singleton.mp ht ▸ hopening _ he
  | emphasisEnd he => exact List.mem_singleton.mp ht ▸ hclosing _ he

theorem ChordMark.isPhrase {u : List Char} {p : Piece} (h : ChordMark u p) : p.IsPhrase := by
  intro t ht
  cases h with
  | start => exact List.mem_singleton.mp ht ▸ rfl
  | stop => exact List.mem_singleton.mp ht ▸ rfl

theorem Rewrites.isPhrase {R : List Char → Piece → Prop} (hR : ∀ u p, R u p → p.IsPhrase) {s t : Line}
    (h : Rewrites R s t) (hs : ∀ p ∈ s, p.IsPhrase) : ∀ p ∈ t, p.IsPhrase := by
  intro p hp
  rcases h.mem hp with hp | ⟨u, hu⟩
  · exact hs p hp
  · exact hR u p hu

theorem isPhrase_renderLine (db : Chord.Database) (n : Nat) {l : Line} (hl : l.IsBare) :
    ∀ t ∈ tagList (renderLine db n l).1, t.isBlock = false := by
  have hphrases : ∀ p ∈ l, p.IsPhrase := fun p hp t ht => (tagList_bare hl).1 t (mem_tags.mpr ⟨p, hp, ht⟩)
  have hinline := (rewrites_setInline n l).isPhrase (fun _ _ => InlineMark.isPhrase) hphrases
  have hchords := (rewrites_setChords db (setInline n l)).isPhrase (fun _ _ => ChordMark.isPhrase) hinline
  intro t ht
  obtain ⟨p, hp, ht⟩ := mem_tags.mp ht
  exact hchords p hp t ht

/-! ## The whole document -/

theorem nestsByLines_bare {l : Line} (h : l.IsBare) : NestsByLines P l.tokens := by
  obtain ⟨hblock, hwalk⟩ := tagList_bare h
  exact fun S _ => Moves.of_walk ((phraseWalk_eq_walk hblock []).trans (hwalk [])) (hwalk S)

/-- The frame of a document leaves what is open as it is. -/
theorem nestsByLines_compositional : Compositional (NestsByLines P) where
  bare := nestsByLines_bare
  append hs ht S hS := (hs S hS).append (ht S hS)
  lineBreak _ _ := Moves.of_walk rfl rfl
  rule _ _ := Moves.of_walk rfl rfl
  block he hs := hs.element (Element.not_phrase_of_isBlock he)
  part {e l} he hl := by
    obtain ⟨hblock, hwalk⟩ := tagList_bare hl
    have hphrase : e.name ∈ phraseNames := by
      cases e with
      | referenceName => decide
      | referenceFrets => decide
      | _ => exact absurd he id
    have hwalk' : ∀ S, walk S (tagList (Token.element e l.tokens)) = some S := by
      intro S
      simp [Token.element, Tag.after, walk_append, hwalk]
    have hblock' : ∀ t ∈ tagList (Token.element e l.tokens), t.isBlock = false := by
      simpa [Token.element, Tag.isBlock, hphrase, or_imp, forall_and] using hblock
    exact fun S _ => Moves.of_walk ((phraseWalk_eq_walk hblock' []).trans (hwalk' [])) (hwalk' S)
  nest h S _ := moves_nestItems h [] S

theorem nestsByLines_fences : HoldsOfFences (NestsByLines P) := by
  intro language code _
  have hname : (Element.code language).name = "code".toList := rfl
  have htags : tagList (Token.element (.code language) (Token.ofChars code)) =
      [.opening (.code language), .closing (.code language)] := by
    simp [Token.element]
  have hcode : NestsByLines P (Token.element (.code language) (Token.ofChars code)) := by
    intro S _
    refine Moves.of_walk ?_ ?_
    · rw [htags]
      simp [Tag.phrasesAfter, Tag.isBlock, Tag.after, hname, phraseNames]
    · rw [htags]
      simp [Tag.after]
  exact hcode.element (by decide)

/-- A document that is nested by lines is well nested exactly when each run of phrase tags is. -/
theorem wellNested_iff_runs {ts : List Token} (hown : ∀ t ∈ ts, t.Own) (h : NestsByLines P ts) :
    WellNested (Token.print ts) ↔
      ∀ run ∈ cutAt isBlockTag (tags (Token.print ts)), afterTags [] run = some [] := by
  have htags := tagList_own hown
  have hcut : cutAt isBlockTag (tags (Token.print ts)) =
      (cutAt Tag.isBlock (tagList ts)).map (List.map Tag.inside) := by
    rw [tags_print hown]
    exact cutAt_map fun t ht => Tag.isBlockTag_inside (htags t ht)
  rw [wellNested_print hown, (h [] atBlock_nil).walk_iff, phraseWalk_iff_runs, hcut, List.forall_mem_map]
  refine forall₂_congr fun run hrun => ?_
  rw [afterTags_map_inside fun t ht => htags t ((infix_of_mem_cutAt hrun).subset ht)]

/-- A document that is nested by lines is well nested as soon as its lines are. -/
theorem wellNested_of_nested {ts : List Token} (hown : ∀ t ∈ ts, t.Own) (h : NestsByLines P ts) (hP : P) :
    WellNested (Token.print ts) := by
  have hmoves := h [] atBlock_nil
  rw [wellNested_print hown, hmoves.walk_iff]
  exact hmoves.nested hP

end LeadSheet.Markup
