import LeadSheet.Proofs.Markup.Safety

/-!
# Reading the tags of a document

* `tags s` : the tags of a text, each without its angle brackets;
* `afterTag stack tag` : the elements that are open after a tag, the innermost first;
* `WellNested s` : every closing tag of the text closes the innermost element that is open, and none is left
  open at the end;
* `tags_print` : the tags of a printed document are those of its tokens, so that they can be followed on the
  tokens (`wellNested_print`).
-/

namespace LeadSheet.Markup

open Text

/-! ## Tags of a text -/

/-- The tags of a text; `inside` is what the tag holds so far, in reverse, if the text begins in a tag. -/
def tagsFrom (inside : Option (List Char)) : List Char → List (List Char)
  | [] => []
  | c :: s =>
    match inside with
    | none => if c = '<' then tagsFrom (some []) s else tagsFrom none s
    | some tag => if c = '>' then tag.reverse :: tagsFrom none s else tagsFrom (some (c :: tag)) s

/-- The tags of a text without their angle brackets. -/
def tags (s : List Char) : List (List Char) := tagsFrom none s

theorem tagsFrom_append {s : List Char} (hs : '>' ∉ s) (tag t : List Char) :
    tagsFrom (some tag) (s ++ '>' :: t) = (tag.reverse ++ s) :: tags t := by
  induction s generalizing tag with
  | nil => simp [tagsFrom, tags]
  | cons c s ih =>
      rw [List.mem_cons, not_or] at hs
      rw [List.cons_append, tagsFrom, if_neg (Ne.symm hs.1), ih hs.2]
      simp

theorem tags_append {s : List Char} (hs : '<' ∉ s) (t : List Char) : tags (s ++ t) = tags t := by
  induction s with
  | nil => rfl
  | cons c s ih =>
      rw [List.mem_cons, not_or] at hs
      rw [List.cons_append, tags, tagsFrom, if_neg (Ne.symm hs.1)]
      exact ih hs.2

theorem tags_tag {s : List Char} (hs : '>' ∉ s) (t : List Char) : tags ('<' :: s ++ '>' :: t) = s :: tags t := by
  rw [List.cons_append, tags, tagsFrom, if_pos rfl]
  exact tagsFrom_append hs [] t

/-! ## Elements that are open -/

/-- The elements without content, which are never closed. -/
def emptyNames : List (List Char) := ["br".toList, "hr".toList, "img".toList]

/-- The name in a tag: what comes before the first space. -/
def tagName (tag : List Char) : List Char := tag.takeWhile (· != ' ')

/-- The elements that are open after a tag, the innermost first; none when the tag closes anything else than
the innermost. -/
def afterTag (stack : List (List Char)) : List Char → Option (List (List Char))
  | '/' :: name =>
    match stack with
    | top :: below => if top = name then some below else none
    | [] => none
  | tag => if tagName tag ∈ emptyNames then some stack else some (tagName tag :: stack)

/-- The elements that are open after several tags. -/
def afterTags (stack : List (List Char)) (tags : List (List Char)) : Option (List (List Char)) :=
  tags.foldlM afterTag stack

/-- Every closing tag closes the innermost element that is open, and no element is open at the end. -/
def WellNested (s : List Char) : Prop := afterTags [] (tags s) = some []

instance (s : List Char) : Decidable (WellNested s) :=
  inferInstanceAs (Decidable (afterTags [] (tags s) = some []))

/-! ## Tags of a document -/

namespace Tag

/-- A tag without its angle brackets. -/
def inside (t : Tag) : List Char := t.name ++ t.attributes.flatMap fun a => attributeText a.1 a.2

theorem text_eq_inside (t : Tag) : t.text = '<' :: t.inside ++ ['>'] := by
  simp [text, inside]

theorem markless_inside {t : Tag} (h : t.Own) : Markless t.inside := by
  obtain ⟨s, hs, hmarkless⟩ := (own_text h).eq_markless
  rw [text_eq_inside] at hs
  have heq : t.inside = s := by simpa using hs
  exact heq ▸ hmarkless

def after (stack : List (List Char)) : Tag → Option (List (List Char))
  | opening e => some (e.name :: stack)
  | closing e =>
    match stack with
    | top :: below => if top = e.name then some below else none
    | [] => none
  | lineBreak | rule | image _ _ => some stack

end Tag

/-- A name that stands for an element with content. -/
def isElementName (name : List Char) : Bool :=
  name.all (· != ' ') && name.head?.any (· != '/') && !emptyNames.contains name

theorem Element.isElementName_name {e : Element} (h : e.Own) : isElementName e.name = true := by
  cases e with
  | heading level => rcases level_cases h with rfl | rfl | rfl | rfl | rfl <;> decide
  | code language => exact (by decide : isElementName "code".toList = true)
  | anchor address => exact (by decide : isElementName "a".toList = true)
  | _ => decide

theorem tagName_append {name : List Char} (hname : name.all (· != ' ') = true)
    (attributes : List (String × List Char)) :
    tagName (name ++ attributes.flatMap fun a => attributeText a.1 a.2) = name := by
  rw [tagName, List.takeWhile_append_of_pos (by simpa using hname)]
  cases attributes with
  | nil => simp
  | cons a attributes => simp [attributeText]

theorem afterTag_of_ne {stack : List (List Char)} {tag : List Char} (h : tag.head?.any (· != '/') = true) :
    afterTag stack tag = if tagName tag ∈ emptyNames then some stack else some (tagName tag :: stack) := by
  unfold afterTag
  split
  · simp at h
  · rfl

theorem Tag.afterTag_inside {t : Tag} (h : t.Own) (stack : List (List Char)) :
    afterTag stack t.inside = t.after stack := by
  cases t with
  | opening e =>
      have hname := Element.isElementName_name h
      simp only [isElementName, Bool.and_eq_true, Bool.not_eq_true', List.contains_eq_mem,
        decide_eq_false_iff_not] at hname
      obtain ⟨⟨hspace, hslash⟩, hempty⟩ := hname
      have htag : tagName (Tag.opening e).inside = e.name := tagName_append hspace _
      have hhead : (Tag.opening e).inside.head?.any (· != '/') = true := by
        match heq : e.name with
        | [] => simp [heq] at hslash
        | c :: s => simpa [inside, name, heq] using hslash
      rw [afterTag_of_ne hhead, htag, if_neg hempty]
      rfl
  | closing e =>
      have hinside : (Tag.closing e).inside = '/' :: e.name := by simp [inside, name, attributes]
      rw [hinside]
      rfl
  | lineBreak => rfl
  | rule => rfl
  | image address description =>
      have hinside : (Tag.image address description).inside =
          "img".toList ++ (Tag.image address description).attributes.flatMap fun a => attributeText a.1 a.2 := rfl
      have hname : "img".toList.all (· != ' ') = true := by decide
      have htag : tagName (Tag.image address description).inside = "img".toList := tagName_append hname _
      rw [afterTag_of_ne (by rw [hinside]; rfl), htag, if_pos (by decide)]
      rfl

def tagList (ts : List Token) : List Tag :=
  ts.filterMap fun
    | .char _ => none
    | .tag t => some t

@[simp] theorem tagList_nil : tagList [] = [] := rfl

@[simp] theorem tagList_char (c : Char) (ts : List Token) : tagList (.char c :: ts) = tagList ts := rfl

@[simp] theorem tagList_tag (t : Tag) (ts : List Token) : tagList (.tag t :: ts) = t :: tagList ts := rfl

@[simp] theorem tagList_append (s t : List Token) : tagList (s ++ t) = tagList s ++ tagList t :=
  List.filterMap_append

@[simp] theorem tagList_ofChars (s : List Char) : tagList (Token.ofChars s) = [] := by
  induction s with
  | nil => rfl
  | cons c s ih => exact ih

theorem mem_tagList {ts : List Token} {t : Tag} : t ∈ tagList ts ↔ .tag t ∈ ts := by
  induction ts with
  | nil => simp
  | cons token ts ih =>
      cases token with
      | char c => simp [ih]
      | tag t' => simp [ih]

/-- The tags of a printed document are those of its tokens. -/
theorem tags_print {ts : List Token} (h : ∀ t ∈ ts, t.Own) :
    tags (Token.print ts) = (tagList ts).map Tag.inside := by
  induction ts with
  | nil => rfl
  | cons t ts ih =>
      obtain ⟨ht, hts⟩ := List.forall_mem_cons.mp h
      rw [Token.print, List.flatMap_cons]
      cases t with
      | char c =>
          rw [Token.text, tags_append (markless_escapeChar c).no_open]
          exact ih hts
      | tag t =>
          rw [Token.text, Tag.text_eq_inside, List.append_assoc, List.singleton_append,
            tags_tag (Tag.markless_inside ht).no_close]
          exact congrArg (t.inside :: ·) (ih hts)

/-! ## Following the tags on the tokens -/

/-- The elements that are open after some tags of a document. -/
def walk (stack : List (List Char)) (ts : List Tag) : Option (List (List Char)) := ts.foldlM Tag.after stack

@[simp] theorem walk_nil (stack : List (List Char)) : walk stack [] = some stack := rfl

@[simp] theorem walk_cons (stack : List (List Char)) (t : Tag) (ts : List Tag) :
    walk stack (t :: ts) = (t.after stack).bind fun stack => walk stack ts :=
  List.foldlM_cons

theorem walk_append (stack : List (List Char)) (s t : List Tag) :
    walk stack (s ++ t) = (walk stack s).bind fun stack => walk stack t :=
  List.foldlM_append

theorem afterTags_map_inside {ts : List Tag} (h : ∀ t ∈ ts, t.Own) (stack : List (List Char)) :
    afterTags stack (ts.map Tag.inside) = walk stack ts := by
  induction ts generalizing stack with
  | nil => rfl
  | cons t ts ih =>
      obtain ⟨ht, hts⟩ := List.forall_mem_cons.mp h
      rw [List.map_cons, walk_cons, afterTags, List.foldlM_cons, Tag.afterTag_inside ht]
      cases t.after stack with
      | none => rfl
      | some stack => exact ih hts stack

theorem tagList_own {ts : List Token} (h : ∀ t ∈ ts, t.Own) : ∀ t ∈ tagList ts, t.Own :=
  fun t ht => h (.tag t) (mem_tagList.mp ht)

/-- Whether a printed document is well nested can be seen from its tokens. -/
theorem wellNested_print {ts : List Token} (h : ∀ t ∈ ts, t.Own) :
    WellNested (Token.print ts) ↔ walk [] (tagList ts) = some [] := by
  rw [WellNested, tags_print h, afterTags_map_inside (tagList_own h)]

end LeadSheet.Markup
