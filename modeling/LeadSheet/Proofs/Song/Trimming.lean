import LeadSheet.Proofs.LineEnds
import Mathlib.Data.List.DropRight

/-!
# What trimming takes off a body

A body loses the blank lines at its head and the white space at its end. The two are different: a blank line holds spaces
and tabs and ends in LF or CRLF, and white space is Unicode's.

* `LeadingBlankLines lines s` and `TrailingSpace white s` : all the blank lines at the head of `s`, and all the white
  space at its end;
* `exists_leadingBlankLines` : the blank lines that are dropped are all there are. A text begins with one blank line at
  most (`IsBlankLine.eq_of_prefix`), so there is only one way to read them off;
* `not_prefix_trimChars` : no blank line is left at the head, not even one that the end of the text has been cut to;
* `trim_parts` : both together, with what they leave. A trimmed body stays as it is.
-/

namespace LeadSheet.Body

open Text

/-! ## Blank lines -/

/-- LF or CRLF, which end a line in front of a body. -/
def IsLineEnd (ending : List Char) : Prop := ending = ['\n'] ∨ ending = ['\r', '\n']

/-- A line of spaces and tabs, with its end. -/
def IsBlankLine (line : List Char) : Prop :=
  ∃ blanks ending, (∀ c ∈ blanks, isBlank c = true) ∧ IsLineEnd ending ∧ line = blanks ++ ending

/-- The blank lines that a text begins with, all of them. -/
structure LeadingBlankLines (lines : List (List Char)) (s : List Char) : Prop where
  blank : ∀ line ∈ lines, IsBlankLine line
  head : lines.flatten <+: s
  longest : ∀ ls, (∀ line ∈ ls, IsBlankLine line) → ls.flatten <+: s → ls <+: lines

/-- A blank line at the head of a text is the blanks there with the line end after them. -/
theorem IsBlankLine.eq_takeWhile {line s : List Char} (h : IsBlankLine line) (hs : line <+: s) :
    ∃ ending, IsLineEnd ending ∧ ending <+: s.dropWhile isBlank ∧ line = s.takeWhile isBlank ++ ending := by
  obtain ⟨blanks, ending, hblanks, hending, rfl⟩ := h
  obtain ⟨rest, rfl⟩ := hs
  have hhead : (ending ++ rest).head?.any isBlank = false := by
    rcases hending with rfl | rfl <;> rfl
  refine ⟨ending, hending, ?_, ?_⟩
  · rw [List.append_assoc, List.dropWhile_append_of_pos hblanks, dropWhile_of_head hhead]
    exact List.prefix_append ending rest
  · rw [List.append_assoc, List.takeWhile_append_of_pos hblanks, takeWhile_of_head hhead, List.append_nil]

/-- No blank line goes on in another. -/
theorem IsBlankLine.eq_of_prefix {line line' s : List Char} (h : IsBlankLine line) (h' : IsBlankLine line')
    (hs : line <+: s) (hs' : line' <+: s) : line = line' := by
  obtain ⟨ending, hending, ⟨rest, hrest⟩, rfl⟩ := h.eq_takeWhile hs
  obtain ⟨ending', hending', ⟨rest', hrest'⟩, rfl⟩ := h'.eq_takeWhile hs'
  have hsame : ending ++ rest = ending' ++ rest' := hrest.trans hrest'.symm
  rcases hending with rfl | rfl <;> rcases hending' with rfl | rfl
  · rfl
  · exact absurd (List.cons.inj hsame).1 (by decide)
  · exact absurd (List.cons.inj hsame).1 (by decide)
  · rfl

/-- Where a line end follows the blanks at the head of a text, they are a blank line together. -/
theorem IsLineEnd.isBlankLine {s ending rest : List Char} (h : IsLineEnd ending)
    (hs : s.dropWhile isBlank = ending ++ rest) :
    IsBlankLine (s.takeWhile isBlank ++ ending) ∧ s.takeWhile isBlank ++ ending ++ rest = s := by
  refine ⟨⟨_, ending, fun c hc => List.mem_takeWhile_imp hc, h, rfl⟩, ?_⟩
  rw [List.append_assoc, ← hs, List.takeWhile_append_dropWhile]

/-- One blank line more in front. -/
theorem IsLineEnd.exists_blankLines_cons {s ending rest kept : List Char} (h : IsLineEnd ending)
    (hs : s.dropWhile isBlank = ending ++ rest)
    (hrest : ∃ lines : List (List Char), (∀ line ∈ lines, IsBlankLine line) ∧ lines.flatten ++ kept = rest) :
    ∃ lines : List (List Char), (∀ line ∈ lines, IsBlankLine line) ∧ lines.flatten ++ kept = s := by
  obtain ⟨hline, hsplit⟩ := h.isBlankLine hs
  obtain ⟨lines, hlines, hrest⟩ := hrest
  refine ⟨_ :: lines, List.forall_mem_cons.mpr ⟨hline, hlines⟩, ?_⟩
  rw [List.flatten_cons, List.append_assoc, hrest, hsplit]

/-- What is dropped are blank lines. -/
theorem exists_blankLines (s : List Char) : ∃ lines : List (List Char),
    (∀ line ∈ lines, IsBlankLine line) ∧ lines.flatten ++ dropBlankLines s = s := by
  fun_induction dropBlankLines s with
  | case1 s rest hs _ ih =>
      have hend : IsLineEnd ['\n'] := Or.inl rfl
      exact hend.exists_blankLines_cons hs ih
  | case2 s rest hs _ ih =>
      have hend : IsLineEnd ['\r', '\n'] := Or.inr rfl
      exact hend.exists_blankLines_cons hs ih
  | case3 s hlf hcrlf => exact ⟨[], fun line hline => absurd hline List.not_mem_nil, rfl⟩

/-- No blank line is left at the head. -/
theorem not_prefix_dropBlankLines {line : List Char} (h : IsBlankLine line) (s : List Char) :
    ¬ line <+: dropBlankLines s := by
  fun_induction dropBlankLines s with
  | case1 s rest hs _ ih => exact ih
  | case2 s rest hs _ ih => exact ih
  | case3 s hlf hcrlf =>
      intro hstart
      obtain ⟨ending, hending, ⟨rest, hrest⟩, -⟩ := h.eq_takeWhile hstart
      rcases hending with rfl | rfl
      · exact hlf rest hrest.symm
      · exact hcrlf rest hrest.symm

/-- A text without a blank line at its head keeps all of it. -/
theorem dropBlankLines_of_not_prefix {s : List Char} (h : ∀ line, IsBlankLine line → ¬ line <+: s) :
    dropBlankLines s = s := by
  have hline : ∀ {ending rest : List Char}, IsLineEnd ending → s.dropWhile isBlank ≠ ending ++ rest := by
    intro ending rest hending hs
    obtain ⟨hline, hsplit⟩ := hending.isBlankLine hs
    exact h _ hline ⟨rest, hsplit⟩
  exact dropBlankLines_of_ne (fun rest => hline (Or.inl rfl)) (fun rest => hline (Or.inr rfl))

/-- Blank lines in front of a text that begins with none are read off in one way only. -/
theorem prefix_of_flatten_prefix {lines ls : List (List Char)} {kept : List Char}
    (hlines : ∀ line ∈ lines, IsBlankLine line) (hls : ∀ line ∈ ls, IsBlankLine line)
    (hkept : ∀ line, IsBlankLine line → ¬ line <+: kept) (h : ls.flatten <+: lines.flatten ++ kept) : ls <+: lines := by
  induction lines generalizing ls with
  | nil =>
      cases ls with
      | nil => exact List.prefix_rfl
      | cons line ls =>
          have hline : line <+: (line :: ls).flatten := List.prefix_append line ls.flatten
          exact absurd (hline.trans h) (hkept line (hls line List.mem_cons_self))
  | cons first lines ih =>
      cases ls with
      | nil => exact List.nil_prefix
      | cons line ls =>
          obtain ⟨hfirst, hlines'⟩ := List.forall_mem_cons.mp hlines
          obtain ⟨hline, hls'⟩ := List.forall_mem_cons.mp hls
          rw [List.flatten_cons, List.flatten_cons, List.append_assoc] at h
          have heq : line = first :=
            hline.eq_of_prefix hfirst ((List.prefix_append line ls.flatten).trans h) (List.prefix_append first _)
          subst heq
          exact List.cons_prefix_cons.mpr ⟨rfl, ih hlines' hls' ((List.prefix_append_right_inj line).mp h)⟩

theorem exists_leadingBlankLines (s : List Char) :
    ∃ lines, LeadingBlankLines lines s ∧ s = lines.flatten ++ dropBlankLines s := by
  obtain ⟨lines, hlines, hsplit⟩ := exists_blankLines s
  refine ⟨lines, ⟨hlines, ⟨_, hsplit⟩, fun ls hls hstart => ?_⟩, hsplit.symm⟩
  rw [← hsplit] at hstart
  exact prefix_of_flatten_prefix hlines hls (fun line hline => not_prefix_dropBlankLines hline s) hstart

/-! ## White space at the end -/

/-- The white space that a text ends in, all of it. -/
structure TrailingSpace (white s : List Char) : Prop where
  space : ∀ c ∈ white, isSpace c = true
  tail : white <:+ s
  longest : ∀ w, (∀ c ∈ w, isSpace c = true) → w <:+ s → w <:+ white

theorem trailingSpace_rtakeWhile (s : List Char) : TrailingSpace (s.rtakeWhile isSpace) s where
  space := fun _ => List.mem_rtakeWhile_imp
  tail := List.rtakeWhile_suffix isSpace s
  longest := by
    rintro w hw ⟨front, rfl⟩
    have hreverse : ∀ c ∈ w.reverse, isSpace c = true := fun c hc => hw c (List.mem_reverse.mp hc)
    rw [List.rtakeWhile, List.reverse_append, List.takeWhile_append_of_pos hreverse, List.reverse_append,
      List.reverse_reverse]
    exact List.suffix_append _ w

theorem trimEnd_append_rtakeWhile (s : List Char) : trimEnd s ++ s.rtakeWhile isSpace = s :=
  List.rdropWhile_append_rtakeWhile

/-- What is left of a text ends in no white space. -/
theorem exists_concat_of_trimEnd {s : List Char} (h : trimEnd s ≠ []) :
    ∃ front c, trimEnd s = front ++ [c] ∧ isSpace c = false := by
  refine ⟨(trimEnd s).dropLast, (trimEnd s).getLast h, (List.dropLast_append_getLast h).symm, ?_⟩
  exact eq_false_of_ne_true (List.rdropWhile_last_not isSpace s h)

/-- The blanks at the head are kept, unless there is nothing else. -/
theorem takeWhile_trimEnd {s : List Char} (h : trimEnd s ≠ []) :
    (trimEnd s).takeWhile isBlank = s.takeWhile isBlank := by
  obtain ⟨front, c, hfront, hc⟩ := exists_concat_of_trimEnd h
  have hblank : isBlank c = false := by
    rw [← Bool.not_eq_true]
    intro hblank
    rw [isSpace_of_isBlank hblank] at hc
    exact Bool.false_ne_true hc.symm
  have hs : s = front ++ c :: s.rtakeWhile isSpace := by
    conv_lhs => rw [← trimEnd_append_rtakeWhile s, hfront, List.append_assoc, List.singleton_append]
  rw [hfront, takeWhile_append_mark hblank, hs, takeWhile_append_mark hblank]

/-! ## A trimmed body -/

/-- What the end of a text is cut to is no blank line at its head. -/
theorem not_prefix_trimChars {line : List Char} (h : IsBlankLine line) (s : List Char) : ¬ line <+: trimChars s :=
  fun hstart => not_prefix_dropBlankLines h s (hstart.trans (prefix_dropEndWhile _))

theorem isSpace_getLast_trimChars {s : List Char} {c : Char} (h : (trimChars s).getLast? = some c) :
    isSpace c = false := by
  have hne : trimEnd (dropBlankLines s) ≠ [] := by
    intro hnil
    rw [trimChars, hnil] at h
    exact absurd h (Option.some_ne_none c).symm
  obtain ⟨front, d, hfront, hd⟩ := exists_concat_of_trimEnd hne
  rw [trimChars, hfront, List.getLast?_concat, Option.some.injEq] at h
  exact h ▸ hd

theorem trimChars_trimChars (s : List Char) : trimChars (trimChars s) = trimChars s := by
  have hlines : dropBlankLines (trimChars s) = trimChars s :=
    dropBlankLines_of_not_prefix fun line hline => not_prefix_trimChars hline s
  have hend : trimEnd (trimChars s) = trimChars s := List.rdropWhile_idempotent isSpace (dropBlankLines s)
  rw [trimChars, hlines, hend]

/-- A text is its blank lines at the head, the body, and the white space after it. Neither is a part of the body, which
begins as the first line does that is not blank, and which trimming leaves as it is. -/
theorem trim_parts (text : String) :
    ∃ lines kept white, LeadingBlankLines lines text.toList ∧ text.toList = lines.flatten ++ kept ∧
      TrailingSpace white kept ∧ kept = (trim text).toList ++ white ∧
      (∀ line, IsBlankLine line → ¬ line <+: (trim text).toList) ∧
      (∀ c, (trim text).toList.getLast? = some c → isSpace c = false) ∧
      ((trim text).toList ≠ [] → (trim text).toList.takeWhile isBlank = kept.takeWhile isBlank) ∧
      trim (trim text) = trim text := by
  have hchars : ∀ text, (trim text).toList = trimChars text.toList := fun text => String.toList_ofList
  obtain ⟨lines, hlines, hsplit⟩ := exists_leadingBlankLines text.toList
  refine ⟨lines, dropBlankLines text.toList, _, hlines, hsplit, trailingSpace_rtakeWhile _, ?_, ?_, ?_, ?_, ?_⟩
  · rw [hchars, trimChars, trimEnd_append_rtakeWhile]
  · rw [hchars]
    exact fun line hline => not_prefix_trimChars hline _
  · rw [hchars]
    exact fun c hc => isSpace_getLast_trimChars hc
  · rw [hchars]
    exact takeWhile_trimEnd
  · rw [String.ext_iff, hchars, hchars, trimChars_trimChars]

end LeadSheet.Body
