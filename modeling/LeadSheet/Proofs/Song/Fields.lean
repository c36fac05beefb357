import LeadSheet.Proofs.FrontMatter
import LeadSheet.Proofs.Json.Keys

/-!
# Fields that are read as they were written

A song can be written from its fields and its body: each field on a line of its own with its value in quotes, the fields
between two lines of three hyphens, and the body after them.

* `QuotedField.text` : a field as it is written;
* `written fields body` : the song as it is written;
* `Text.boundaryLines_joinLines` : lines are the same by Unicode's boundaries, if they hold none;
* `parse_written` : the song is read back, whatever its body looks like.

The quotes keep the white space around a value, and values that have quotes of their own. A field line has a colon, so it
is never taken for a delimiter, and the first field keeps the block from being closed by its second line. Hyphens in the
body come too late to close it.
-/

namespace LeadSheet

namespace Text

/-! ## Lines by Unicode's boundaries -/

/-- Characters that end no line are put to the current one. -/
theorem boundaryLinesFrom_append {s : List Char} (h : ∀ c ∈ s, isLineBoundary c = false) (line t : List Char) :
    boundaryLinesFrom (some line) (s ++ t) = boundaryLinesFrom (some (s.reverse ++ line)) t := by
  induction s generalizing line with
  | nil => rfl
  | cons c s ih =>
      obtain ⟨hc, hs⟩ := List.forall_mem_cons.mp h
      have hcr : c ≠ '\r' := by
        rintro rfl
        exact absurd hc (by decide)
      rw [List.cons_append, boundaryLinesFrom.eq_4 _ _ _ (fun _ heq => absurd heq hcr), hc, if_neg Bool.false_ne_true,
        Option.getD_some, ih hs, List.reverse_cons, List.append_assoc, List.singleton_append]

/-- A text that holds a character is read as if its first line had begun. -/
theorem boundaryLinesFrom_none {s : List Char} (hne : s ≠ []) :
    boundaryLinesFrom none s = boundaryLinesFrom (some []) s := by
  obtain ⟨c, s, rfl⟩ := List.exists_cons_of_ne_nil hne
  by_cases hcrlf : ∃ rest, c = '\r' ∧ s = '\n' :: rest
  · obtain ⟨rest, rfl, rfl⟩ := hcrlf
    rw [boundaryLinesFrom, boundaryLinesFrom]
    rfl
  · have hno : ∀ rest, c = '\r' → s = '\n' :: rest → False := fun rest hc hs => hcrlf ⟨rest, hc, hs⟩
    rw [boundaryLinesFrom.eq_4 _ _ _ hno, boundaryLinesFrom.eq_4 _ _ _ hno]
    rfl

/-- Lines that are not empty and hold no boundary are read as they are. -/
theorem boundaryLines_joinLines {ls : List (List Char)} (hne : ∀ l ∈ ls, l ≠ [])
    (h : ∀ l ∈ ls, ∀ c ∈ l, isLineBoundary c = false) : boundaryLines (joinLines ls) = ls := by
  unfold boundaryLines
  induction ls with
  | nil => rfl
  | cons l ls ih =>
      obtain ⟨hl, hls⟩ := List.forall_mem_cons.mp h
      obtain ⟨hlne, hlsne⟩ := List.forall_mem_cons.mp hne
      have hlf : ∀ line t, boundaryLinesFrom (some line) ('\n' :: t) = line.reverse :: boundaryLinesFrom none t :=
        fun _ _ => rfl
      by_cases hlast : ls = []
      · subst hlast
        rw [joinLines, List.intercalate_singleton, boundaryLinesFrom_none hlne]
        have hend := boundaryLinesFrom_append hl [] []
        rw [List.append_nil, List.append_nil] at hend
        rw [hend, boundaryLinesFrom, List.reverse_reverse]
      · rw [joinLines_cons l hlast, boundaryLinesFrom_none (by simp), boundaryLinesFrom_append hl, List.append_nil, hlf,
          List.reverse_reverse, ih hlsne hls]

end Text

open Text

/-! ## Written fields -/

/-- A quotation mark that may stand around a value. -/
inductive QuoteMark
  | double
  | single

def QuoteMark.char : QuoteMark → Char
  | double => '"'
  | single => '\''

/-- A field that can be written on a line of its own, with the marks that its value is put in. Neither its key nor its
value ends a line, and its key has no colon and no white space at either end. -/
structure QuotedField where
  key : String
  value : String
  mark : QuoteMark
  key_ne_empty : key.toList ≠ []
  trim_key : Text.trim key.toList = key.toList
  colon_not_mem_key : ':' ∉ key.toList
  unbroken_key : ∀ c ∈ key.toList, isLineBoundary c = false
  value_ne_empty : value.toList ≠ []
  unbroken_value : ∀ c ∈ value.toList, isLineBoundary c = false

namespace QuotedField

variable (f : QuotedField)

def text : String := f.key ++ ": " ++ f.mark.char.toString ++ f.value ++ f.mark.char.toString

def pair : String × String := (f.key, f.value)

def quoted : List Char := f.mark.char :: (f.value.toList ++ [f.mark.char])

def line : List Char := f.key.toList ++ ':' :: ' ' :: f.quoted

theorem toList_text : f.text.toList = f.line := by
  simp [text, line, quoted]

theorem unbroken_line : ∀ c ∈ f.line, isLineBoundary c = false := by
  have hmark : isLineBoundary f.mark.char = false := by cases f.mark <;> decide
  have hcolon : isLineBoundary ':' = false ∧ isLineBoundary ' ' = false := by decide
  simp only [line, quoted, List.forall_mem_append, List.forall_mem_cons]
  exact ⟨f.unbroken_key, hcolon.1, hcolon.2, hmark, f.unbroken_value, hmark, by simp⟩

theorem lf_not_mem_line : '\n' ∉ f.line := fun hmem => absurd (f.unbroken_line _ hmem) (by decide)

/-- A line with a colon is no delimiter. -/
theorem not_isMark {s : List Char} (h : f.line = s ∨ f.line = s ++ ['\r']) : ¬ Document.IsMark s := by
  rintro ⟨blanks, hblanks, rfl⟩
  have hcolon : ':' ∈ f.line := List.mem_append_right _ List.mem_cons_self
  have hno : ':' ∉ '-' :: '-' :: '-' :: blanks := by
    have hblank : ':' ∉ blanks := fun hmem => absurd (hblanks _ hmem) (by decide)
    simp [hblank]
  rcases h with h | h
  · exact hno (h ▸ hcolon)
  · rw [h] at hcolon
    exact hno ((List.mem_append.mp hcolon).resolve_right (by decide))

theorem splitColon?_line : Metadata.splitColon? f.line = some (f.key.toList, ' ' :: f.quoted) := by
  have hcolon : (':' != ':') = false := by decide
  have hkey : ∀ c ∈ f.key.toList, (c != ':') = true := fun c hc =>
    bne_iff_ne.mpr fun heq => f.colon_not_mem_key (heq ▸ hc)
  rw [Metadata.splitColon?, line, dropWhile_append_mark (p := (· != ':')) hcolon,
    takeWhile_append_mark (p := (· != ':')) hcolon, List.dropWhile_eq_nil_iff.mpr hkey,
    List.takeWhile_eq_self_iff.mpr hkey]
  rfl

/-- The quotes keep the white space around a value. -/
theorem trim_quoted : Text.trim (' ' :: f.quoted) = f.quoted := by
  have hmark : isSpace f.mark.char = false := by cases f.mark <;> decide
  have hstart : trimStart (' ' :: f.quoted) = f.quoted := by
    have hspace : isSpace ' ' = true := by decide
    rw [trimStart, List.dropWhile_cons, if_pos hspace, quoted, List.dropWhile_cons, hmark, if_neg Bool.false_ne_true]
  have hend : f.quoted = (f.mark.char :: f.value.toList) ++ f.mark.char :: [] := rfl
  rw [Text.trim, hstart, hend, trimEnd, dropEndWhile_append_mark hmark]
  rfl

theorem unquote_quoted : Metadata.unquote f.quoted = f.value.toList := by
  have hmark : (f.mark.char == '"' || f.mark.char == '\'') = true := by cases f.mark <;> decide
  have hlast : (f.value.toList ++ [f.mark.char]).getLast? = some f.mark.char := List.getLast?_concat
  simp only [Metadata.unquote, quoted, hmark, hlast, List.dropLast_concat, beq_self_eq_true, Bool.and_self, if_true]

/-- The line states the field. -/
theorem field?_line : Metadata.field? f.line = some f.pair := by
  have hkey : f.key.toList.isEmpty = false := List.isEmpty_eq_false_iff.mpr f.key_ne_empty
  have hvalue : f.value.toList.isEmpty = false := List.isEmpty_eq_false_iff.mpr f.value_ne_empty
  simp only [Metadata.field?, f.splitColon?_line, f.trim_key, f.trim_quoted, f.unquote_quoted, hkey, hvalue, pair,
    Option.bind_eq_bind, Option.bind_some, Bool.or_self, Bool.false_eq_true, if_false, String.ofList_toList]

end QuotedField

/-- A block of fields with distinct keys has these fields, in this order. -/
theorem Metadata.parseChars_lines {fields : List QuotedField} (h : (fields.map QuotedField.key).Nodup) :
    parseChars (joinLines (fields.map QuotedField.line)) = fields.map QuotedField.pair := by
  have hlines : boundaryLines (joinLines (fields.map QuotedField.line)) = fields.map QuotedField.line :=
    boundaryLines_joinLines (List.forall_mem_map.mpr fun f _ => List.append_ne_nil_of_right_ne_nil _ (by simp))
      (List.forall_mem_map.mpr fun f _ => f.unbroken_line)
  have hfields : (fields.map QuotedField.line).filterMap field? = fields.map QuotedField.pair := by
    rw [List.filterMap_map]
    exact (List.filterMap_congr fun f _ => f.field?_line).trans (congrFun List.filterMap_eq_map fields)
  have hkeys : Dictionary.keys (fields.map QuotedField.pair) = fields.map QuotedField.key := List.map_map
  rw [parseChars, hlines, hfields, Dictionary.ofPairs_of_nodup (hkeys ▸ h)]

/-! ## Written songs -/

namespace Document

def written (fields : List QuotedField) (body : String) : String :=
  "---\n" ++ String.join (fields.map fun f => f.text ++ "\n") ++ "---\n" ++ body

/-- The lines of a written song: a delimiter, the fields, a delimiter, and the body. -/
theorem lines_written (fields : List QuotedField) (body : String) :
    lines (written fields body).toList =
      "---".toList :: (fields.map QuotedField.line ++ "---".toList :: lines body.toList) := by
  have hdelimiter : ∀ s, lines ("---\n".toList ++ s) = "---".toList :: lines s :=
    lines_append_lf (l := "---".toList) (by decide)
  have hfields : ∀ s, lines (fields.flatMap (fun f => f.line ++ ['\n']) ++ s) =
      fields.map QuotedField.line ++ lines s := by
    intro s
    induction fields with
    | nil => rfl
    | cons f fields ih =>
        rw [List.flatMap_cons, List.append_assoc, List.append_assoc, List.singleton_append,
          lines_append_lf f.lf_not_mem_line, ih, List.map_cons, List.cons_append]
  have htext : (written fields body).toList =
      "---\n".toList ++ (fields.flatMap (fun f => f.line ++ ['\n']) ++ ("---\n".toList ++ body.toList)) := by
    have hlines : (fields.map fun f => f.text ++ "\n").flatMap String.toList =
        fields.flatMap fun f => f.line ++ ['\n'] := by
      rw [List.flatMap_map]
      exact List.flatMap_congr fun f _ => by rw [String.toList_append, f.toList_text]; rfl
    simp [written, hlines]
  rw [htext, hdelimiter, hfields, hdelimiter]

/-- The block is closed by the delimiter after the last field. -/
theorem closes_written {fields : List QuotedField} (hne : fields ≠ []) (body : String) :
    DelimiterAt (lines (written fields body).toList) 0 ∧
      FirstAfter (lines (written fields body).toList) 1 (fields.length + 1) := by
  have hmark : IsMark "---".toList := ⟨[], by simp, rfl⟩
  have hlength : 0 < fields.length := List.length_pos_iff.mpr hne
  rw [lines_written]
  refine ⟨⟨_, hmark, Or.inl rfl⟩, by omega, ⟨_, hmark, Or.inl ?_⟩, fun j hj hlt => ?_⟩
  · rw [List.getElem?_cons_succ, List.getElem?_append_right (by simp), List.length_map, Nat.sub_self]
    rfl
  · -- a line in between is that of a field
    obtain ⟨i, rfl⟩ : ∃ i, j = i + 1 := ⟨j - 1, by omega⟩
    obtain ⟨f, hf⟩ : ∃ f, fields[i]? = some f := ⟨_, List.getElem?_eq_getElem (by omega)⟩
    have hline : ("---".toList :: (fields.map QuotedField.line ++ "---".toList :: lines body.toList))[i + 1]? =
        some f.line := by
      rw [List.getElem?_cons_succ, List.getElem?_append_left (by simp; omega), List.getElem?_map, hf, Option.map_some]
    rintro ⟨s, hs, h | ⟨-, h⟩⟩
    · exact f.not_isMark (Or.inl (Option.some.inj (hline.symm.trans h))) hs
    · exact f.not_isMark (Or.inr (Option.some.inj (hline.symm.trans h))) hs

/-- A song that was written from fields with distinct keys and a trimmed body is read back. -/
theorem parse_written (fields : List QuotedField) (body : String) (hne : fields ≠ [])
    (hkeys : (fields.map QuotedField.key).Nodup) (hbody : Body.trim body = body) :
    parse (written fields body) = ⟨fields.map QuotedField.pair, body⟩ := by
  obtain ⟨hopens, hcloses⟩ := closes_written hne body
  have hblock : ((lines (written fields body).toList).take (fields.length + 1)).drop 1 =
      fields.map QuotedField.line := by
    rw [lines_written, List.take_succ_cons, List.drop_succ_cons, List.drop_zero, List.take_left' (List.length_map _)]
  have hrest : (lines (written fields body).toList).drop (fields.length + 1 + 1) = lines body.toList := by
    rw [lines_written, List.drop_succ_cons, ← List.drop_drop, List.drop_left' (List.length_map _)]
    rfl
  rw [parse_eq_cutAtLine hopens (Or.inl hcloses), cutAtLine, hblock, hrest, Metadata.parseChars_lines hkeys,
    joinLines_lines]
  exact congrArg (Document.mk _) hbody

/-- A key and a body that look like delimiters, and values that begin or end with a quote. -/
theorem parse_written_hyphens :
    parse "---\n---: \"say \"no\"\"\na\\b: ' it's: '\n---\n  ---\nx: \"y\"\n---" =
      ⟨[("---", "say \"no\""), ("a\\b", " it's: ")], "  ---\nx: \"y\"\n---"⟩ := by
  have h := parse_written
    [⟨"---", "say \"no\"", .double, by decide, by decide, by decide, by simp [isLineBoundary], by decide,
        by simp [isLineBoundary]⟩,
      ⟨"a\\b", " it's: ", .single, by decide, by decide, by decide, by simp [isLineBoundary], by decide,
        by simp [isLineBoundary]⟩]
    "  ---\nx: \"y\"\n---" (by simp) (by decide) (by decide +kernel)
  exact h

end Document

end LeadSheet
