import LeadSheet.Proofs.Markup.Tags

/-!
# Reading the elements of a document

Other documents than rendered bodies are put together from texts too. Such a document is read part by part, when each
part is complete: its tags end in it, and so do the elements that are read.

* `elements names s` : the elements of some names in a text that hold nothing but text, each with this text;
* `Reads names s ts es` : the part `s` has the tags `ts` and the elements `es`, whatever comes after it;
* `Reads.text`, `Reads.tag`, `Reads.element` : the smallest parts, from which others are made by `Reads.append`;
* `Reads.lines` : a document that is written line by line is read line by line;
* `Nested` : properly nested tags, where a tag with a slash at its end is an element of its own.
-/

namespace LeadSheet.Markup

open Text

/-! ## Elements of a text -/

/-- The element that is open, with its text so far in reverse, after a tag; none if its name is not one of those
given. -/
def openedBy (names : List (List Char)) (tag : List Char) : Option (List Char × List Char) :=
  if names.contains (tagName tag) then some (tagName tag, []) else none

/-- The element that is open, if a tag closes it. -/
def closedBy (open? : Option (List Char × List Char)) (tag : List Char) : List (List Char × List Char) :=
  match open? with
  | some (name, text) => if tag = '/' :: name then [(name, text.reverse)] else []
  | none => []

/-- The elements of a text, given the one that is open where it begins; `inside` is what the tag holds so far, in
reverse, if the text begins in a tag. -/
def elementsFrom (names : List (List Char)) (open? : Option (List Char × List Char)) (inside : Option (List Char)) :
    List Char → List (List Char × List Char)
  | [] => []
  | c :: s =>
    match inside with
    | none =>
      if c = '<' then elementsFrom names open? (some []) s
      else elementsFrom names (open?.map fun (name, text) => (name, c :: text)) none s
    | some tag =>
      if c = '>' then closedBy open? tag.reverse ++ elementsFrom names (openedBy names tag.reverse) none s
      else elementsFrom names open? (some (c :: tag)) s

/-- The elements of a text that have one of some names and hold nothing but text, in order, each with its text. -/
def elements (names : List (List Char)) (s : List Char) : List (List Char × List Char) :=
  elementsFrom names none none s

section Elements

variable {names : List (List Char)} {s : List Char}

theorem elementsFrom_text (hs : '<' ∉ s) (name text t : List Char) :
    elementsFrom names (some (name, text)) none (s ++ t) =
      elementsFrom names (some (name, s.reverse ++ text)) none t := by
  induction s generalizing text with
  | nil => rfl
  | cons c s ih =>
      rw [List.mem_cons, not_or] at hs
      rw [List.cons_append, elementsFrom, if_neg (Ne.symm hs.1), Option.map_some, ih hs.2]
      simp

theorem elementsFrom_inside (hs : '>' ∉ s) (open? : Option (List Char × List Char)) (tag t : List Char) :
    elementsFrom names open? (some tag) (s ++ '>' :: t) =
      closedBy open? (tag.reverse ++ s) ++ elementsFrom names (openedBy names (tag.reverse ++ s)) none t := by
  induction s generalizing tag with
  | nil => simp [elementsFrom]
  | cons c s ih =>
      rw [List.mem_cons, not_or] at hs
      rw [List.cons_append, elementsFrom, if_neg (Ne.symm hs.1), ih hs.2]
      simp

theorem elementsFrom_tag (hs : '>' ∉ s) (open? : Option (List Char × List Char)) (t : List Char) :
    elementsFrom names open? none ('<' :: (s ++ '>' :: t)) =
      closedBy open? s ++ elementsFrom names (openedBy names s) none t := by
  rw [elementsFrom, if_pos rfl, elementsFrom_inside hs, List.reverse_nil, List.nil_append]

theorem elements_append (hs : '<' ∉ s) (t : List Char) : elements names (s ++ t) = elements names t := by
  induction s with
  | nil => rfl
  | cons c s ih =>
      rw [List.mem_cons, not_or] at hs
      rw [List.cons_append, elements, elementsFrom, if_neg (Ne.symm hs.1)]
      exact ih hs.2

end Elements

/-! ## Complete parts of a document -/

/-- The text has these tags, and these elements of the given names, whatever comes after it. -/
structure Reads (names : List (List Char)) (s : List Char) (ts : List (List Char)) (es : List (List Char × List Char)) :
    Prop where
  tags_append : ∀ t, tags (s ++ t) = ts ++ tags t
  elements_append : ∀ t, elements names (s ++ t) = es ++ elements names t

namespace Reads

variable {names : List (List Char)} {s s' : List Char} {ts ts' : List (List Char)}
  {es es' : List (List Char × List Char)}

theorem tags_eq (h : Reads names s ts es) : tags s = ts := by
  have htags := h.tags_append []
  have hnil : tags [] = [] := rfl
  rwa [hnil, List.append_nil, List.append_nil] at htags

theorem elements_eq (h : Reads names s ts es) : elements names s = es := by
  have helements := h.elements_append []
  have hnil : elements names [] = [] := rfl
  rwa [hnil, List.append_nil, List.append_nil] at helements

theorem text (h : '<' ∉ s) : Reads names s [] [] := ⟨Markup.tags_append h, Markup.elements_append h⟩

theorem append (h : Reads names s ts es) (h' : Reads names s' ts' es') :
    Reads names (s ++ s') (ts ++ ts') (es ++ es') where
  tags_append t := by rw [List.append_assoc, h.tags_append, h'.tags_append, List.append_assoc]
  elements_append t := by rw [List.append_assoc, h.elements_append, h'.elements_append, List.append_assoc]

theorem flatMap {α : Type} {l : List α} {f : α → List Char} {g : α → List (List Char)}
    {k : α → List (List Char × List Char)} (h : ∀ a ∈ l, Reads names (f a) (g a) (k a)) :
    Reads names (l.flatMap f) (l.flatMap g) (l.flatMap k) := by
  induction l with
  | nil => exact text List.not_mem_nil
  | cons a l ih =>
      obtain ⟨ha, hl⟩ := List.forall_mem_cons.mp h
      rw [List.flatMap_cons, List.flatMap_cons, List.flatMap_cons]
      exact ha.append (ih hl)

/-- A tag that opens no element of the given names. -/
theorem tag {inside : List Char} (hinside : '>' ∉ inside) (hname : tagName inside ∉ names) :
    Reads names ('<' :: inside ++ ['>']) [inside] [] where
  tags_append t := by
    rw [List.append_assoc, List.singleton_append]
    exact tags_tag hinside t
  elements_append t := by
    have hopened : openedBy names inside = none := if_neg (mt List.contains_iff_mem.mp hname)
    rw [List.append_assoc, List.singleton_append, List.cons_append, elements, elementsFrom_tag hinside, hopened]
    rfl

/-- An element of a given name that holds a text. -/
theorem element {inside content : List Char} (hinside : '>' ∉ inside) (hname : tagName inside ∈ names)
    (hclosing : '/' :: tagName inside ∉ names) (hcontent : '<' ∉ content) :
    Reads names ('<' :: inside ++ '>' :: content ++ '<' :: '/' :: tagName inside ++ ['>'])
      [inside, '/' :: tagName inside] [(tagName inside, content)] := by
  have hsplit : ∀ t, '<' :: inside ++ '>' :: content ++ '<' :: '/' :: tagName inside ++ ['>'] ++ t =
      '<' :: (inside ++ '>' :: (content ++ '<' :: ('/' :: tagName inside ++ '>' :: t))) := by simp
  have hplain : '>' ∉ '/' :: tagName inside := by
    have hsub : '>' ∉ tagName inside := fun hmem => hinside ((List.takeWhile_prefix _).subset hmem)
    simp [hsub]
  constructor
  · intro t
    have htag : ∀ {u : List Char}, '>' ∉ u → ∀ v, tags ('<' :: (u ++ '>' :: v)) = u :: tags v := tags_tag
    rw [hsplit, htag hinside, Markup.tags_append hcontent, htag hplain]
    rfl
  · intro t
    have hopened : openedBy names inside = some (tagName inside, []) :=
      if_pos (List.contains_iff_mem.mpr hname)
    have hclosed : openedBy names ('/' :: tagName inside) = none := by
      have hself : tagName ('/' :: tagName inside) = '/' :: tagName inside :=
        List.takeWhile_eq_self_iff.mpr (List.forall_mem_cons.mpr ⟨by decide, fun _ => List.mem_takeWhile_imp⟩)
      exact if_neg (mt List.contains_iff_mem.mp (hself.symm ▸ hclosing))
    rw [hsplit, elements, elementsFrom_tag hinside, hopened, elementsFrom_text hcontent, elementsFrom_tag hplain,
      hclosed]
    simp [closedBy, elements]

end Reads

/-! ## Documents by lines -/

/-- Lines with a line end after each. -/
def linesText (lines : List String) : List Char := lines.flatMap fun line => line.toList ++ ['\n']

theorem linesText_append (xs ys : List String) : linesText (xs ++ ys) = linesText xs ++ linesText ys :=
  List.flatMap_append

/-- All lines of a document but the last have a line end. -/
theorem toList_intercalate_lines (lines : List String) (last : String) :
    (String.intercalate "\n" (lines ++ [last])).toList = linesText lines ++ last.toList := by
  have hlf : "\n".toList = ['\n'] := by decide
  rw [String.toList_intercalate, List.map_append, Text.intercalate_append_flatMap _ (by simp), List.map_singleton,
    List.intercalate_singleton, List.flatMap_map, hlf, linesText]

namespace Reads

variable {names : List (List Char)}

theorem lines {α : Type} {l : List α} {line : α → String} {ts : α → List (List Char)}
    {es : α → List (List Char × List Char)} (h : ∀ a ∈ l, Reads names (line a).toList (ts a) (es a)) :
    Reads names (linesText (l.map line)) (l.flatMap ts) (l.flatMap es) := by
  have hend : Reads names ['\n'] [] [] := .text (by decide)
  have hreads := Reads.flatMap fun a ha => (h a ha).append hend
  simp only [List.append_nil] at hreads
  rwa [linesText, List.flatMap_map]

theorem line {line : String} {ts : List (List Char)} {es : List (List Char × List Char)}
    (h : Reads names line.toList ts es) : Reads names (linesText [line]) ts es := by
  have hreads := @lines names Unit [()] (fun _ => line) (fun _ => ts) (fun _ => es) fun _ _ => h
  rwa [List.flatMap_singleton, List.flatMap_singleton] at hreads

end Reads

/-! ## Nested tags -/

/-- Properly nested tags. A tag with a slash at its end is an element without content; any other has a closing tag, with
properly nested tags between the two. -/
inductive Nested : List (List Char) → Prop
  | nil : Nested []
  | empty {tag : List Char} {rest : List (List Char)} :
      tag.head? ≠ some '/' → tag.getLast? = some '/' → Nested rest → Nested (tag :: rest)
  | element {tag : List Char} {inner rest : List (List Char)} :
      tag.head? ≠ some '/' → tag.getLast? ≠ some '/' → Nested inner → Nested rest →
        Nested (tag :: (inner ++ ('/' :: tagName tag) :: rest))

theorem Nested.append {s t : List (List Char)} (hs : Nested s) (ht : Nested t) : Nested (s ++ t) := by
  induction hs with
  | nil => exact ht
  | empty hhead hlast _ ih => exact .empty hhead hlast ih
  | element hhead hlast hinner _ _ ih =>
      rw [List.cons_append, List.append_assoc, List.cons_append]
      exact .element hhead hlast hinner ih

theorem Nested.flatMap {α : Type} {l : List α} {f : α → List (List Char)} (h : ∀ a ∈ l, Nested (f a)) :
    Nested (l.flatMap f) := by
  induction l with
  | nil => exact .nil
  | cons a l ih =>
      obtain ⟨ha, hl⟩ := List.forall_mem_cons.mp h
      rw [List.flatMap_cons]
      exact ha.append (ih hl)

end LeadSheet.Markup
