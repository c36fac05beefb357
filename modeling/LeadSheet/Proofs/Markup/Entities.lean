import LeadSheet.Proofs.Markup.Safety

/-!
# Escaping and what undoes it

* `escapeInTurn` : the three characters replaced one after the other, each in all that is there by then;
* `escapeInTurn_eq_flatMap` : no replacement finds anything in what an earlier one has written, so the text is escaped
  character by character;
* `IsContent` : the texts without `<` and `>` in which each `&` begins one of the three entities;
* `unescape` : the entities read back from left to right (`unescape_escape`, `escape_unescape`);
* `escapeString_decodable` : escaping is one-to-one between all texts and the texts of this kind.
-/

namespace LeadSheet.Text

open Markup

/-! ## One replacement after the other -/

/-- The text with `new` for every `old`. -/
def replaceAll (old : Char) (new : List Char) : List Char → List Char
  | [] => []
  | c :: s => if c = old then new ++ replaceAll old new s else c :: replaceAll old new s

/-- The text with its `&` replaced, then its `<`, then its `>`. The `&` is the first, since each entity has one. -/
def escapeInTurn (s : List Char) : List Char :=
  replaceAll '>' "&gt;".toList (replaceAll '<' "&lt;".toList (replaceAll '&' "&amp;".toList s))

theorem replaceAll_append (old : Char) (new s t : List Char) :
    replaceAll old new (s ++ t) = replaceAll old new s ++ replaceAll old new t := by
  induction s with
  | nil => rfl
  | cons c s ih =>
      rw [List.cons_append, replaceAll, replaceAll, ih]
      split
      · rw [List.append_assoc]
      · rfl

theorem replaceAll_singleton_of_ne {old c : Char} (h : c ≠ old) (new : List Char) : replaceAll old new [c] = [c] :=
  if_neg h

theorem escapeInTurn_append (s t : List Char) : escapeInTurn (s ++ t) = escapeInTurn s ++ escapeInTurn t := by
  simp only [escapeInTurn, replaceAll_append]

/-- The entities go through the later replacements unchanged. -/
theorem escapeInTurn_singleton (c : Char) : escapeInTurn [c] = escapeChar c := by
  by_cases hand : c = '&'
  · subst hand
    decide
  by_cases hopen : c = '<'
  · subst hopen
    decide
  by_cases hclose : c = '>'
  · subst hclose
    decide
  rw [escapeInTurn, replaceAll_singleton_of_ne hand, replaceAll_singleton_of_ne hopen, replaceAll_singleton_of_ne hclose,
    escapeChar, if_neg hand, if_neg hopen, if_neg hclose]

theorem escapeInTurn_eq_flatMap (s : List Char) : escapeInTurn s = s.flatMap escapeChar := by
  induction s with
  | nil => rfl
  | cons c s ih =>
      have hsplit : escapeInTurn (c :: s) = escapeInTurn [c] ++ escapeInTurn s := escapeInTurn_append [c] s
      rw [hsplit, escapeInTurn_singleton, ih, List.flatMap_cons]

/-- With the `&` last, the entities for the others would be escaped once more. -/
example : replaceAll '&' "&amp;".toList (replaceAll '<' "&lt;".toList ['<']) = "&amp;lt;".toList := by decide

/-! ## Escaped texts -/

/-- What the three characters are written as in a text. -/
def contentEntities : List (List Char) := ["&amp;".toList, "&lt;".toList, "&gt;".toList]

/-- A text without `<` and `>`, in which each `&` begins one of the three entities. -/
structure IsContent (s : List Char) : Prop where
  no_open : '<' ∉ s
  no_close : '>' ∉ s
  entity : Begins '&' (· ∈ contentEntities) s

namespace IsContent

variable {s t : List Char}

theorem append (hs : IsContent s) (ht : IsContent t) : IsContent (s ++ t) where
  no_open := List.not_mem_append hs.no_open ht.no_open
  no_close := List.not_mem_append hs.no_close ht.no_close
  entity := hs.entity.append ht.entity

theorem of_append (h : IsContent (s ++ t)) : IsContent t where
  no_open := fun hmem => h.no_open (List.mem_append_right s hmem)
  no_close := fun hmem => h.no_close (List.mem_append_right s hmem)
  entity := fun before after hsplit => h.entity (s ++ before) after (by rw [hsplit, List.append_assoc])

/-- A character that stands in escaped text, and begins no entity there, is plain. -/
theorem isPlain_head {c : Char} (h : IsContent (c :: s)) (hentity : ∀ e ∈ contentEntities, ¬ e <+: c :: s) :
    isPlain c = true := by
  cases hplain : isPlain c with
  | true => rfl
  | false =>
      rcases eq_of_not_isPlain hplain with rfl | rfl | rfl
      · exact absurd List.mem_cons_self h.no_open
      · exact absurd List.mem_cons_self h.no_close
      · obtain ⟨e, he, hhead⟩ := h.entity [] s rfl
        exact absurd hhead (hentity e he)

end IsContent

theorem isContent_escapeChar (c : Char) : IsContent (escapeChar c) := by
  unfold escapeChar
  split
  · exact ⟨by decide, by decide, .of_cons (by decide) (by decide)⟩
  split
  · exact ⟨by decide, by decide, .of_cons (by decide) (by decide)⟩
  split
  · exact ⟨by decide, by decide, .of_cons (by decide) (by decide)⟩
  rename_i hand hopen hclose
  have hne : ∀ d, c ≠ d → d ∉ [c] := fun d hcd hmem => hcd (List.mem_singleton.mp hmem).symm
  exact ⟨hne '<' hopen, hne '>' hclose, .of_not_mem (hne '&' hand)⟩

theorem isContent_escape (s : List Char) : IsContent (escape s) := by
  induction s with
  | nil => exact ⟨List.not_mem_nil, List.not_mem_nil, .of_not_mem List.not_mem_nil⟩
  | cons c s ih => exact (isContent_escapeChar c).append ih

/-! ## Reading the entities back -/

/-- The text with the three entities read back, in one pass from the left. The `&quot;` of attribute values, which `decode`
reads as well, is not among them. -/
def unescape : List Char → List Char
  | '&' :: 'a' :: 'm' :: 'p' :: ';' :: s => '&' :: unescape s
  | '&' :: 'l' :: 't' :: ';' :: s => '<' :: unescape s
  | '&' :: 'g' :: 't' :: ';' :: s => '>' :: unescape s
  | c :: s => c :: unescape s
  | [] => []

/-- What one character is escaped to is read back as that character, whatever follows. -/
theorem unescape_escapeChar_append (c : Char) (s : List Char) :
    unescape (escapeChar c ++ s) = c :: unescape s := by
  cases hplain : isPlain c with
  | false => rcases eq_of_not_isPlain hplain with rfl | rfl | rfl <;> rfl
  | true =>
      have hand : c ≠ '&' := by
        rintro rfl
        exact absurd hplain (by decide)
      have hno : ∀ {u v : List Char}, c = '&' → u = v → False := fun h _ => hand h
      rw [escapeChar_of_isPlain hplain, List.singleton_append, unescape.eq_4 c s (fun _ => hno) (fun _ => hno) (fun _ => hno)]

theorem unescape_escape (s : List Char) : unescape (escape s) = s := by
  induction s with
  | nil => rfl
  | cons c s ih => rw [escape_cons, unescape_escapeChar_append, ih]

/-- Each text of this kind is the escaped form of what is read from it. -/
theorem escape_unescape {s : List Char} (h : IsContent s) : escape (unescape s) = s := by
  fun_induction unescape s with
  | case1 s ih =>
      have hrest : IsContent s := h.of_append (s := "&amp;".toList)
      rw [escape_cons, ih hrest]
      rfl
  | case2 s ih =>
      have hrest : IsContent s := h.of_append (s := "&lt;".toList)
      rw [escape_cons, ih hrest]
      rfl
  | case3 s ih =>
      have hrest : IsContent s := h.of_append (s := "&gt;".toList)
      rw [escape_cons, ih hrest]
      rfl
  | case4 c s hamp hlt hgt ih =>
      have hentity : ∀ e ∈ contentEntities, ¬ e <+: c :: s := by
        intro e he ⟨rest, hrest⟩
        obtain rfl | rfl | rfl : e = "&amp;".toList ∨ e = "&lt;".toList ∨ e = "&gt;".toList := by
          simpa only [contentEntities, List.mem_cons, List.not_mem_nil, or_false] using he
        · exact hamp rest (List.cons.inj hrest).1.symm (List.cons.inj hrest).2.symm
        · exact hlt rest (List.cons.inj hrest).1.symm (List.cons.inj hrest).2.symm
        · exact hgt rest (List.cons.inj hrest).1.symm (List.cons.inj hrest).2.symm
      have hrest : IsContent s := h.of_append (s := [c])
      rw [escape_cons, escapeChar_of_isPlain (h.isPlain_head hentity), ih hrest, List.singleton_append]
  | case5 => rfl

/-- Escaping replaces three characters in turn, which is the same as writing each character of the text by itself. What
it gives are the texts without `<` and `>` in which each `&` begins an entity, and all of them; each is read back from
left to right as the text it was made from. Texts are escaped part by part. -/
theorem escapeString_decodable (text other : String) :
    (escapeString text).toList = escapeInTurn text.toList ∧
      escapeInTurn text.toList = text.toList.flatMap escapeChar ∧
      IsContent (escapeString text).toList ∧
      unescape (escapeString text).toList = text.toList ∧
      (IsContent text.toList ↔ ∃ source, escapeString source = text) ∧
      (escapeString text = escapeString other ↔ text = other) ∧
      escapeString (text ++ other) = escapeString text ++ escapeString other := by
  have hchars : ∀ source, (escapeString source).toList = escape source.toList := fun source => String.toList_ofList
  have hread : ∀ source, unescape (escapeString source).toList = source.toList := fun source => by
    rw [hchars, unescape_escape]
  refine ⟨?_, escapeInTurn_eq_flatMap _, ?_, hread text, ⟨fun h => ?_, ?_⟩, ⟨fun h => ?_, congrArg escapeString⟩, ?_⟩
  · rw [hchars, escapeInTurn_eq_flatMap, escape]
  · rw [hchars]
    exact isContent_escape _
  · refine ⟨String.ofList (unescape text.toList), ?_⟩
    rw [escapeString, String.toList_ofList, escape_unescape h, String.ofList_toList]
  · rintro ⟨source, rfl⟩
    rw [hchars]
    exact isContent_escape _
  · rw [String.ext_iff, ← hread text, h, hread]
  · rw [String.ext_iff, String.toList_append, hchars, hchars, hchars, String.toList_append, escape_append]

end LeadSheet.Text
