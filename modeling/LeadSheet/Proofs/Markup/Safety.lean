import LeadSheet.Proofs.Escape
import LeadSheet.Proofs.Markup.Compose
import LeadSheet.Proofs.Markup.Rewriting

/-!
# The markup of a rendered body

* `OwnTag` : the tags that a rendered body may contain, spelled out;
* `Begins c good s` and `Ends c good s` : every `c` in `s` begins, or ends, a text that is `good`;
* `Token.Own` : a character, or a tag that prints as one of these (`Tag.own_text`);
* `bodyTokens_own` : a body has no other tokens, since each of its pieces is a character, a code span, or
  what a rule of the markup has put there;
* `safe_render` : so each `<` in a rendered body begins one of the tags, each `>` ends one, and each `&`
  begins an entity.
-/

namespace LeadSheet.Markup

open Text

/-! ## Occurrences -/

/-- Every `c` in `s` begins a stretch that is `good`. -/
def Begins {α : Type} (c : α) (good : List α → Prop) (s : List α) : Prop :=
  ∀ before after, s = before ++ c :: after → ∃ u, good u ∧ u <+: c :: after

/-- Every `c` in `s` ends a stretch that is `good`. -/
def Ends {α : Type} (c : α) (good : List α → Prop) (s : List α) : Prop :=
  ∀ before after, s = before ++ c :: after → ∃ u, good u ∧ u <:+ before ++ [c]

section Occurrences

variable {α : Type} {c : α} {good : List α → Prop} {s t : List α}

theorem Begins.of_not_mem (h : c ∉ s) : Begins c good s := by
  intro before after hs
  exact absurd (hs ▸ List.mem_append_right before List.mem_cons_self) h

theorem Ends.of_not_mem (h : c ∉ s) : Ends c good s := by
  intro before after hs
  exact absurd (hs ▸ List.mem_append_right before List.mem_cons_self) h

/-- The only `c` is the first element of a stretch that is `good`. -/
theorem Begins.of_cons (hgood : good (c :: s)) (h : c ∉ s) : Begins c good (c :: s) := by
  intro before after heq
  cases before with
  | nil => exact ⟨_, hgood, heq ▸ List.prefix_rfl⟩
  | cons d before => exact absurd ((List.cons.inj heq).2 ▸ List.mem_append_right before List.mem_cons_self) h

theorem Begins.append (hs : Begins c good s) (ht : Begins c good t) : Begins c good (s ++ t) := by
  intro before after h
  rcases List.append_eq_append_iff.mp h with ⟨middle, -, hmiddle⟩ | ⟨middle, hmiddle, hafter⟩
  · exact ht middle after hmiddle
  · cases middle with
    | nil =>
        obtain ⟨u, hu, hprefix⟩ := ht [] after hafter.symm
        exact ⟨u, hu, hprefix⟩
    | cons d middle =>
        rw [List.cons_append, List.cons.injEq] at hafter
        obtain ⟨rfl, rfl⟩ := hafter
        obtain ⟨u, hu, hprefix⟩ := hs before middle hmiddle
        exact ⟨u, hu, hprefix.trans ⟨t, rfl⟩⟩

theorem Begins.intercalate {sep : List α} {parts : List (List α)} (hsep : Begins c good sep)
    (h : ∀ part ∈ parts, Begins c good part) : Begins c good (List.intercalate sep parts) := by
  induction parts with
  | nil => exact .of_not_mem List.not_mem_nil
  | cons part parts ih =>
      obtain ⟨hpart, hparts⟩ := List.forall_mem_cons.mp h
      cases parts with
      | nil => rwa [List.intercalate_singleton]
      | cons part' parts =>
          rw [List.intercalate_cons_cons]
          exact (hpart.append hsep).append (ih hparts)

theorem Ends.append (hs : Ends c good s) (ht : Ends c good t) : Ends c good (s ++ t) := by
  intro before after h
  rcases List.append_eq_append_iff.mp h with ⟨middle, hbefore, hmiddle⟩ | ⟨middle, hmiddle, hafter⟩
  · obtain ⟨u, hu, hsuffix⟩ := ht middle after hmiddle
    refine ⟨u, hu, hsuffix.trans ⟨s, ?_⟩⟩
    rw [hbefore, List.append_assoc]
  · cases middle with
    | nil =>
        obtain ⟨u, hu, hsuffix⟩ := ht [] after hafter.symm
        exact ⟨u, hu, hsuffix.trans ⟨before, rfl⟩⟩
    | cons d middle =>
        rw [List.cons_append, List.cons.injEq] at hafter
        obtain ⟨rfl, rfl⟩ := hafter
        exact hs before middle hmiddle

end Occurrences

/-! ## The vocabulary -/

/-- What a character with a meaning in the markup is written as. -/
def entities : List (List Char) := ["&amp;".toList, "&lt;".toList, "&gt;".toList, "&quot;".toList]

def bareNames : List String :=
  ["p", "br", "hr", "h1", "h2", "h3", "h4", "h5", "blockquote", "ul", "ol", "li", "thead", "tbody", "tr", "th",
    "td", "pre", "code", "del", "strong", "em"]

def closingNames : List String :=
  ["p", "h1", "h2", "h3", "h4", "h5", "blockquote", "ul", "ol", "li", "table", "thead", "tbody", "tr", "th",
    "td", "pre", "code", "del", "strong", "em", "a", "span", "div"]

/-- The elements that have a role, with the role. -/
def elementRoles : List (String × String) :=
  [("table", "tab-table"), ("div", "chord-ref-line"), ("div", "section-label"), ("span", "chord-inline"),
    ("span", "chord-name"), ("span", "chord-frets")]

/-- A text in which no tag begins or ends, and in which `&` begins an entity. -/
structure Markless (s : List Char) : Prop where
  no_open : '<' ∉ s
  no_close : '>' ∉ s
  entity : Begins '&' (· ∈ entities) s

/-- A text that may stand between the quotes of an attribute. -/
structure AttributeValue (s : List Char) : Prop extends Markless s where
  no_quote : '"' ∉ s

/-- The tags of a rendered body. -/
inductive OwnTag : List Char → Prop
  | bare {name : String} : name ∈ bareNames → OwnTag ('<' :: name.toList ++ ['>'])
  | closing {name : String} : name ∈ closingNames → OwnTag ('<' :: '/' :: name.toList ++ ['>'])
  | role {name role : String} : (name, role) ∈ elementRoles →
      OwnTag ('<' :: name.toList ++ " class=\"".toList ++ role.toList ++ "\">".toList)
  | code {language : List Char} : language ≠ [] → (∀ c ∈ language, isLanguageChar c = true) →
      OwnTag ("<code class=\"language-".toList ++ language ++ "\">".toList)
  | image {address description : List Char} : AttributeValue address → AttributeValue description →
      OwnTag ("<img src=\"".toList ++ address ++ "\" alt=\"".toList ++ description ++ "\">".toList)
  | anchor {address : List Char} : AttributeValue address →
      OwnTag ("<a href=\"".toList ++ address ++ "\">".toList)

/-! ### Texts without tags -/

namespace Markless

theorem append {s t : List Char} (hs : Markless s) (ht : Markless t) : Markless (s ++ t) where
  no_open := by simpa using ⟨hs.no_open, ht.no_open⟩
  no_close := by simpa using ⟨hs.no_close, ht.no_close⟩
  entity := hs.entity.append ht.entity

theorem of_plain {s : List Char} (h : s.all isPlain = true) : Markless s := by
  have hplain : ∀ c ∈ s, isPlain c = true := List.all_eq_true.mp h
  exact ⟨fun hs => absurd (hplain _ hs) (by decide), fun hs => absurd (hplain _ hs) (by decide),
    .of_not_mem fun hs => absurd (hplain _ hs) (by decide)⟩

theorem of_mem_entities {s : List Char} (h : s ∈ entities) : Markless s where
  no_open := (by decide : ∀ e ∈ entities, '<' ∉ e) s h
  no_close := (by decide : ∀ e ∈ entities, '>' ∉ e) s h
  entity := by
    intro before after hs
    have hcount : s.count '&' = 1 ∧ s.head? = some '&' :=
      (by decide : ∀ e ∈ entities, e.count '&' = 1 ∧ e.head? = some '&') s h
    cases before with
    | nil => exact ⟨s, h, by rw [hs]; exact List.prefix_rfl⟩
    | cons c before =>
        subst hs
        obtain ⟨hcount, hhead⟩ := hcount
        rw [List.cons_append, List.head?_cons, Option.some.injEq] at hhead
        subst hhead
        simp [List.count_append] at hcount

end Markless

theorem isPlain_of_isLanguageChar {c : Char} : isLanguageChar c = true → isPlain c = true :=
  isPlain_of_class (by decide)

/-- Each of the tags is a single tag. -/
theorem OwnTag.eq_markless {tag : List Char} (h : OwnTag tag) :
    ∃ s, tag = '<' :: s ++ ['>'] ∧ Markless s := by
  cases h with
  | bare hname =>
      have hplain := (by decide : ∀ name ∈ bareNames, name.toList.all isPlain = true) _ hname
      exact ⟨_, rfl, .of_plain hplain⟩
  | closing hname =>
      have hplain := (by decide : ∀ name ∈ closingNames, ('/' :: name.toList).all isPlain = true) _ hname
      exact ⟨_, rfl, .of_plain hplain⟩
  | @role name role hrole =>
      have hplain := (by decide : ∀ r ∈ elementRoles,
        (r.1.toList ++ " class=\"".toList ++ r.2.toList ++ ['"']).all isPlain = true) _ hrole
      exact ⟨name.toList ++ " class=\"".toList ++ role.toList ++ ['"'], by simp, .of_plain hplain⟩
  | @code language hne hlanguage =>
      have hvalue : Markless language :=
        .of_plain (List.all_eq_true.mpr fun c hc => isPlain_of_isLanguageChar (hlanguage c hc))
      have hopen : Markless "code class=\"language-".toList := .of_plain (by decide)
      have hquote : Markless ['"'] := .of_plain (by decide)
      exact ⟨_ ++ _ ++ _, by simp, (hopen.append hvalue).append hquote⟩
  | image haddress hdescription =>
      have hopen : Markless "img src=\"".toList := .of_plain (by decide)
      have hmiddle : Markless "\" alt=\"".toList := .of_plain (by decide)
      have hquote : Markless ['"'] := .of_plain (by decide)
      have hsrc := (hopen.append haddress.toMarkless).append hmiddle
      exact ⟨_ ++ _ ++ _, by simp, (hsrc.append hdescription.toMarkless).append hquote⟩
  | anchor haddress =>
      have hopen : Markless "a href=\"".toList := .of_plain (by decide)
      have hquote : Markless ['"'] := .of_plain (by decide)
      exact ⟨_ ++ _ ++ _, by simp, (hopen.append haddress.toMarkless).append hquote⟩

/-- No tag begins like a comment. -/
theorem OwnTag.second_ne {tag : List Char} (h : OwnTag tag) : tag[1]? ≠ some '!' := by
  cases h with
  | bare hname =>
      exact (by decide : ∀ name ∈ bareNames, ('<' :: name.toList ++ ['>'])[1]? ≠ some '!') _ hname
  | closing hname => simp
  | @role name role hrole =>
      obtain ⟨c, s, hname, hc⟩ : ∃ c s, name.toList = c :: s ∧ c ≠ '!' := by
        have hhead := (by decide : ∀ r ∈ elementRoles, r.1.toList ≠ [] ∧ r.1.toList.head? ≠ some '!') _ hrole
        match hname : name.toList with
        | [] => exact absurd hname hhead.1
        | c :: s => exact ⟨c, s, rfl, by simpa [hname] using hhead.2⟩
      simpa [hname] using hc
  | code hne hlanguage => simp
  | image haddress hdescription => simp
  | anchor haddress => simp

/-! ## Tags as they are printed -/

/-- A heading has one of five levels, and a language is spelled in the characters of a language's name. -/
def Element.Own : Element → Prop
  | .heading level => 1 ≤ level ∧ level ≤ 5
  | .code language => ∀ c ∈ language, isLanguageChar c = true
  | _ => True

def Tag.Own : Tag → Prop
  | .opening e => e.Own
  | .closing e => e.Own
  | _ => True

/-- A character, or a tag of the vocabulary. -/
def Token.Own : Token → Prop
  | .char _ => True
  | .tag t => t.Own

theorem AttributeValue.append {s t : List Char} (hs : AttributeValue s) (ht : AttributeValue t) :
    AttributeValue (s ++ t) :=
  ⟨hs.toMarkless.append ht.toMarkless, by simpa using ⟨hs.no_quote, ht.no_quote⟩⟩

theorem markless_escapeChar (c : Char) : Markless (escapeChar c) := by
  unfold escapeChar
  split
  · exact .of_mem_entities (by decide)
  · split
    · exact .of_mem_entities (by decide)
    · split
      · exact .of_mem_entities (by decide)
      · rename_i hand hopen hclose
        exact .of_plain (by simp [isPlain, hand, hopen, hclose])

theorem not_mem_escape (s : List Char) : '<' ∉ escape s := by
  intro hmem
  obtain ⟨c, -, hc⟩ := List.mem_flatMap.mp hmem
  exact (markless_escapeChar c).no_open hc

theorem attributeValue_escapeAttributeChar (c : Char) : AttributeValue (escapeAttributeChar c) := by
  unfold escapeAttributeChar
  split
  · exact ⟨.of_mem_entities (by decide), by decide⟩
  · rename_i hquote
    refine ⟨markless_escapeChar c, ?_⟩
    unfold escapeChar
    split
    · decide
    · split
      · decide
      · split
        · decide
        · simpa using Ne.symm hquote

theorem attributeValue_escapeAttribute (s : List Char) : AttributeValue (escapeAttribute s) := by
  induction s with
  | nil => exact ⟨.of_plain rfl, by simp [escapeAttribute]⟩
  | cons c s ih => exact (attributeValue_escapeAttributeChar c).append ih

theorem Tag.text_of_role {e : Element} {role : List Char}
    (h : (Tag.opening e).attributes = [("class", role)]) :
    (Tag.opening e).text = '<' :: e.name ++ " class=\"".toList ++ escapeAttribute role ++ "\">".toList := by
  simp [text, name, h, attributeText]

theorem OwnTag.of_role {e : Element} {name role : String} (h : (name, role) ∈ elementRoles)
    (hname : e.name = name.toList) (hrole : (Tag.opening e).attributes = [("class", role.toList)]) :
    OwnTag (Tag.opening e).text := by
  have hplain := (by decide : ∀ r ∈ elementRoles, r.2.toList.all isPlain = true ∧ '"' ∉ r.2.toList) _ h
  rw [Tag.text_of_role hrole, hname, escapeAttribute_of_plain hplain.1 hplain.2]
  exact .role h

theorem escapeAttribute_language {language : List Char} (h : ∀ c ∈ language, isLanguageChar c = true) :
    escapeAttribute ("language-".toList ++ language) = "language-".toList ++ language := by
  have hquote : '"' ∉ "language-".toList ++ language := by
    rw [List.mem_append, not_or]
    exact ⟨by decide, fun hq => absurd (h _ hq) (by decide)⟩
  have hplain : ("language-".toList ++ language).all isPlain = true := by
    rw [List.all_append, Bool.and_eq_true]
    exact ⟨by decide, List.all_eq_true.mpr fun d hd => isPlain_of_isLanguageChar (h d hd)⟩
  exact escapeAttribute_of_plain hplain hquote

theorem OwnTag.of_code {language : List Char} (h : ∀ c ∈ language, isLanguageChar c = true) :
    OwnTag (Tag.opening (.code language)).text := by
  cases language with
  | nil => exact .bare (by decide : "code" ∈ bareNames)
  | cons c language =>
      rw [Tag.text_of_role rfl, escapeAttribute_language h]
      have htag := OwnTag.code (List.cons_ne_nil c language) h
      have hname : (Element.code (c :: language)).name = "code".toList := rfl
      simpa [hname] using htag

theorem level_cases {level : Nat} (h : 1 ≤ level ∧ level ≤ 5) :
    level = 1 ∨ level = 2 ∨ level = 3 ∨ level = 4 ∨ level = 5 := by
  obtain ⟨hpos, hle⟩ := h
  omega

theorem Element.own_closing {e : Element} (h : e.Own) : OwnTag (Tag.closing e).text := by
  cases e with
  | heading level =>
      rcases level_cases h with rfl | rfl | rfl | rfl | rfl
      · exact .closing (by decide : "h1" ∈ closingNames)
      · exact .closing (by decide : "h2" ∈ closingNames)
      · exact .closing (by decide : "h3" ∈ closingNames)
      · exact .closing (by decide : "h4" ∈ closingNames)
      · exact .closing (by decide : "h5" ∈ closingNames)
  | paragraph => exact .closing (by decide : "p" ∈ closingNames)
  | quote => exact .closing (by decide : "blockquote" ∈ closingNames)
  | orderedList => exact .closing (by decide : "ol" ∈ closingNames)
  | bulletList => exact .closing (by decide : "ul" ∈ closingNames)
  | item => exact .closing (by decide : "li" ∈ closingNames)
  | table => exact .closing (by decide : "table" ∈ closingNames)
  | tableHead => exact .closing (by decide : "thead" ∈ closingNames)
  | tableBody => exact .closing (by decide : "tbody" ∈ closingNames)
  | tableRow => exact .closing (by decide : "tr" ∈ closingNames)
  | headCell => exact .closing (by decide : "th" ∈ closingNames)
  | cell => exact .closing (by decide : "td" ∈ closingNames)
  | preformatted => exact .closing (by decide : "pre" ∈ closingNames)
  | code language => exact .closing (by decide : "code" ∈ closingNames)
  | deleted => exact .closing (by decide : "del" ∈ closingNames)
  | strong => exact .closing (by decide : "strong" ∈ closingNames)
  | emphasis => exact .closing (by decide : "em" ∈ closingNames)
  | anchor address => exact .closing (by decide : "a" ∈ closingNames)
  | chord | referenceName | referenceFrets => exact .closing (by decide : "span" ∈ closingNames)
  | label | reference => exact .closing (by decide : "div" ∈ closingNames)

theorem Element.own_opening {e : Element} (h : e.Own) : OwnTag (Tag.opening e).text := by
  cases e with
  | heading level =>
      rcases level_cases h with rfl | rfl | rfl | rfl | rfl
      · exact .bare (by decide : "h1" ∈ bareNames)
      · exact .bare (by decide : "h2" ∈ bareNames)
      · exact .bare (by decide : "h3" ∈ bareNames)
      · exact .bare (by decide : "h4" ∈ bareNames)
      · exact .bare (by decide : "h5" ∈ bareNames)
  | paragraph => exact .bare (by decide : "p" ∈ bareNames)
  | quote => exact .bare (by decide : "blockquote" ∈ bareNames)
  | orderedList => exact .bare (by decide : "ol" ∈ bareNames)
  | bulletList => exact .bare (by decide : "ul" ∈ bareNames)
  | item => exact .bare (by decide : "li" ∈ bareNames)
  | tableHead => exact .bare (by decide : "thead" ∈ bareNames)
  | tableBody => exact .bare (by decide : "tbody" ∈ bareNames)
  | tableRow => exact .bare (by decide : "tr" ∈ bareNames)
  | headCell => exact .bare (by decide : "th" ∈ bareNames)
  | cell => exact .bare (by decide : "td" ∈ bareNames)
  | preformatted => exact .bare (by decide : "pre" ∈ bareNames)
  | deleted => exact .bare (by decide : "del" ∈ bareNames)
  | strong => exact .bare (by decide : "strong" ∈ bareNames)
  | emphasis => exact .bare (by decide : "em" ∈ bareNames)
  | code language => exact .of_code h
  | anchor address =>
      have htag := OwnTag.anchor (attributeValue_escapeAttribute address)
      have hname : (Tag.opening (.anchor address)).name = "a".toList := rfl
      simpa [Tag.text, Tag.attributes, attributeText, hname] using htag
  | table => exact .of_role (by decide : ("table", "tab-table") ∈ elementRoles) rfl rfl
  | chord => exact .of_role (by decide : ("span", "chord-inline") ∈ elementRoles) rfl rfl
  | referenceName => exact .of_role (by decide : ("span", "chord-name") ∈ elementRoles) rfl rfl
  | referenceFrets => exact .of_role (by decide : ("span", "chord-frets") ∈ elementRoles) rfl rfl
  | label => exact .of_role (by decide : ("div", "section-label") ∈ elementRoles) rfl rfl
  | reference => exact .of_role (by decide : ("div", "chord-ref-line") ∈ elementRoles) rfl rfl

theorem Tag.own_text {t : Tag} (h : t.Own) : OwnTag t.text := by
  cases t with
  | opening e => exact Element.own_opening h
  | closing e => exact Element.own_closing h
  | lineBreak => exact .bare (by decide : "br" ∈ bareNames)
  | rule => exact .bare (by decide : "hr" ∈ bareNames)
  | image address description =>
      have htag := OwnTag.image (attributeValue_escapeAttribute address)
        (attributeValue_escapeAttribute description)
      simpa [text, name, attributes, attributeText] using htag

/-! ## The tokens of a body -/

theorem Element.own_of_isFrame {e : Element} (h : e.IsFrame) : e.Own := by
  cases e with
  | heading level => exact h
  | code language => exact h
  | _ => trivial

theorem Token.own_of_isFrame {t : Token} (h : t.IsFrame) : t.Own := by
  match t with
  | .char c => trivial
  | .tag (.opening e) => exact Element.own_of_isFrame h
  | .tag (.closing e) => exact Element.own_of_isFrame h
  | .tag .lineBreak => trivial
  | .tag .rule => trivial
  | .tag (.image _ _) => trivial

theorem own_additive : Additive fun ts => ∀ t ∈ ts, t.Own where
  nil := by simp
  append hs ht := List.forall_mem_append.mpr ⟨hs, ht⟩
  single t ht := by simpa using Token.own_of_isFrame ht

def Piece.Own (p : Piece) : Prop := ∀ t ∈ p.tokens, t.Own

theorem InlineMark.own {u : List Char} {p : Piece} (h : InlineMark u p) : p.Own := by
  have hemphasis : ∀ e ∈ emphases, e.element.Own := by simp [emphases, Element.Own]
  have hsingle : ∀ t : Token, t.Own → ∀ t' ∈ [t], t'.Own := by simp
  cases h with
  | image n description address => exact hsingle _ trivial
  | linkStart n address => exact hsingle _ trivial
  | linkEnd address => exact hsingle _ trivial
  | emphasisStart he => exact hsingle _ (hemphasis _ he)
  | emphasisEnd he => exact hsingle _ (hemphasis _ he)

theorem ChordMark.own {u : List Char} {p : Piece} (h : ChordMark u p) : p.Own := by
  have hsingle : ∀ t : Token, t.Own → ∀ t' ∈ [t], t'.Own := by simp
  cases h with
  | start => exact hsingle _ trivial
  | stop => exact hsingle _ trivial

theorem Rewrites.own {R : List Char → Piece → Prop} (hR : ∀ u p, R u p → p.Own) {s t : Line}
    (h : Rewrites R s t) (hs : ∀ p ∈ s, p.Own) : ∀ p ∈ t, p.Own := by
  intro p hp
  rcases h.mem hp with hp | ⟨u, hu⟩
  · exact hs p hp
  · exact hR u p hu

theorem own_renderLine (db : Chord.Database) (n : Nat) {l : Line} (hl : l.IsBare) :
    ∀ t ∈ (renderLine db n l).1, t.Own := by
  have hbare : ∀ p ∈ l, p.Own := fun p hp t ht => Token.own_of_isFrame (Piece.isFrame_of_isBare (hl p hp) t ht)
  have hinline := (rewrites_setInline n l).own (fun _ _ => InlineMark.own) hbare
  have hchords := (rewrites_setChords db _).own (fun _ _ => ChordMark.own) hinline
  rw [renderLine_fst]
  exact own_additive.compositional.flatMap hchords

/-- A body has no tags but the library's. -/
theorem bodyTokens_own (db : Chord.Database) (body : List Char) : ∀ t ∈ bodyTokens db body, t.Own := by
  have hfence : HoldsOfFences fun ts => ∀ t ∈ ts, t.Own :=
    own_additive.fences (List.forall_mem_singleton.mpr trivial) (List.forall_mem_singleton.mpr trivial)
  exact own_additive.compositional.bodyTokens hfence fun l hl n => own_renderLine db n (markedLines_bare hl)

/-! ## The body as it is printed -/

/-- Its tags are from the vocabulary, and the text between them is escaped. -/
structure Safe (s : List Char) : Prop where
  opens : Begins '<' OwnTag s
  closes : Ends '>' OwnTag s
  entity : Begins '&' (· ∈ entities) s

namespace Safe

theorem append {s t : List Char} (hs : Safe s) (ht : Safe t) : Safe (s ++ t) :=
  ⟨hs.opens.append ht.opens, hs.closes.append ht.closes, hs.entity.append ht.entity⟩

theorem of_markless {s : List Char} (h : Markless s) : Safe s :=
  ⟨.of_not_mem h.no_open, .of_not_mem h.no_close, h.entity⟩

theorem of_tag {tag : List Char} (h : OwnTag tag) : Safe tag := by
  obtain ⟨s, rfl, hs⟩ := h.eq_markless
  refine ⟨?_, ?_, ?_⟩
  · exact .of_cons h (by simp [hs.no_open])
  · -- the only `>` is the last character
    intro before after heq
    rcases List.eq_nil_or_concat after with rfl | ⟨after, c, rfl⟩
    · exact ⟨_, h, heq ▸ List.suffix_rfl⟩
    · rw [List.concat_eq_append, ← List.cons_append, ← List.append_assoc] at heq
      have hinside : '<' :: s = before ++ '>' :: after := List.append_inj_left' heq rfl
      have hmem : '>' ∈ '<' :: s := hinside ▸ List.mem_append_right before List.mem_cons_self
      simp [hs.no_close] at hmem
  · have hopen : Begins '&' (· ∈ entities) ['<'] := .of_not_mem (by decide)
    exact (hopen.append hs.entity).append (.of_not_mem (by decide))

end Safe

theorem print_append (ts ts' : List Token) : Token.print (ts ++ ts') = Token.print ts ++ Token.print ts' :=
  List.flatMap_append

theorem print_ofChars (s : List Char) : Token.print (Token.ofChars s) = escape s := by
  rw [Token.print, Token.ofChars, List.flatMap_map]
  rfl

theorem print_element (e : Element) (ts : List Token) :
    Token.print (Token.element e ts) = (Tag.opening e).text ++ (Token.print ts ++ (Tag.closing e).text) := by
  have hclose : Token.print [.tag (.closing e)] = (Tag.closing e).text := List.append_nil _
  rw [Token.element, ← hclose, ← print_append]
  rfl

theorem print_intercalate (sep : List Token) (parts : List (List Token)) :
    Token.print (List.intercalate sep parts) = List.intercalate (Token.print sep) (parts.map Token.print) := by
  induction parts with
  | nil => rfl
  | cons ts parts ih =>
      cases parts with
      | nil => simp
      | cons ts' parts =>
          rw [List.intercalate_cons_cons, print_append, print_append, ih, List.map_cons, List.map_cons, List.map_cons,
            List.intercalate_cons_cons]

/-- No declaration or comment stands in the text. -/
theorem Safe.no_declaration {s : List Char} (h : Safe s) : ¬ "<!".toList <:+: s := by
  rintro ⟨before, after, heq⟩
  obtain ⟨tag, htag, rest, hrest⟩ := h.opens before ('!' :: after) (by simpa using heq.symm)
  have hsecond : (tag ++ rest)[1]? = some '!' := by
    rw [hrest]
    rfl
  obtain ⟨s, hs, -⟩ := htag.eq_markless
  have hlength : 1 < tag.length := by simp [hs]
  exact htag.second_ne (List.getElem?_append_left hlength ▸ hsecond)

theorem safe_print {ts : List Token} (h : ∀ t ∈ ts, t.Own) : Safe (Token.print ts) := by
  induction ts with
  | nil => exact .of_markless (.of_plain rfl)
  | cons t ts ih =>
      obtain ⟨ht, hts⟩ := List.forall_mem_cons.mp h
      refine Safe.append ?_ (ih hts)
      cases t with
      | char c => exact .of_markless (markless_escapeChar c)
      | tag t => exact .of_tag (Tag.own_text ht)

theorem safe_render (db : Chord.Database) (body : String) : Safe (render db body).toList := by
  rw [render, String.toList_ofList]
  exact safe_print (bodyTokens_own db body.toList)

end LeadSheet.Markup
