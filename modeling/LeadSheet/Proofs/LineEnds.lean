import LeadSheet.Proofs.Chord.Mentions
import LeadSheet.Proofs.Chord.Names
import LeadSheet.Proofs.FrontMatter
import LeadSheet.Song.Song
import Mathlib.Data.List.DropRight

/-!
# Songs with other line ends

A song whose lines end in LF reads the same when they end in CRLF. `crlf` writes it so; the text itself has no CR.

* `lines_crlf` : the lines are the same, each but the last with a CR at its end;
* `Document.parse_crlf` : the fields are the same, and the body is the body with CRLF;
* `Chord.mentions_crlf` : the mentions are the same, with CRLF for the line ends that they run over. No chord is
  among the latter, where no key and no quality has a line end;
* `Song.render_crlf` : everything else that is derived from the song is the same, and so is each sheet.
-/

namespace LeadSheet

namespace Text

/-- Every LF written as CRLF. -/
def crlf (s : List Char) : List Char := s.flatMap fun c => if c = '\n' then ['\r', '\n'] else [c]

def crlfString (s : String) : String := String.ofList (crlf s.toList)

theorem crlf_nil : crlf [] = [] := rfl

theorem crlf_lf (s : List Char) : crlf ('\n' :: s) = '\r' :: '\n' :: crlf s := rfl

theorem crlf_cons {c : Char} (hc : c ≠ '\n') (s : List Char) : crlf (c :: s) = c :: crlf s := by
  rw [crlf, List.flatMap_cons, if_neg hc, List.singleton_append, crlf]

theorem crlf_append (s t : List Char) : crlf (s ++ t) = crlf s ++ crlf t := List.flatMap_append

theorem crlf_of_not_mem {s : List Char} (h : '\n' ∉ s) : crlf s = s := by
  induction s with
  | nil => rfl
  | cons c s ih =>
      rw [List.mem_cons, not_or] at h
      rw [crlf_cons (Ne.symm h.1), ih h.2]

theorem lf_mem_crlf {s : List Char} : '\n' ∈ crlf s ↔ '\n' ∈ s := by
  constructor
  · intro h
    by_contra hs
    exact hs (crlf_of_not_mem hs ▸ h)
  · intro h
    exact List.mem_flatMap.mpr ⟨'\n', h, by decide⟩

theorem unixLines_crlf {s : List Char} (h : '\r' ∉ s) : unixLines (crlf s) = s := by
  induction s with
  | nil => rfl
  | cons c s ih =>
      rw [List.mem_cons, not_or] at h
      by_cases hc : c = '\n'
      · subst hc
        rw [crlf_lf, unixLines, ih h.2]
      · have hcr : c ≠ '\r' := Ne.symm h.1
        rw [crlf_cons hc, unixLines.eq_4 _ _ (fun _ heq => absurd heq hcr) hcr, ih h.2]

/-! ## Readers that treat CR and LF alike -/

section Readers

variable {p : Char → Bool}

theorem dropWhile_crlf (hp : p '\r' = p '\n') (s : List Char) : (crlf s).dropWhile p = crlf (s.dropWhile p) := by
  induction s with
  | nil => rfl
  | cons c s ih =>
      by_cases hc : c = '\n'
      · subst hc
        rw [crlf_lf, List.dropWhile_cons, List.dropWhile_cons, List.dropWhile_cons, hp, ih]
        split
        · rfl
        · rfl
      · rw [crlf_cons hc, List.dropWhile_cons, List.dropWhile_cons, ih]
        split
        · rfl
        · rw [crlf_cons hc]

theorem takeWhile_crlf (hp : p '\r' = p '\n') (s : List Char) : (crlf s).takeWhile p = crlf (s.takeWhile p) := by
  induction s with
  | nil => rfl
  | cons c s ih =>
      by_cases hc : c = '\n'
      · subst hc
        rw [crlf_lf, List.takeWhile_cons, List.takeWhile_cons, List.takeWhile_cons, hp, ih]
        split
        · rfl
        · rfl
      · rw [crlf_cons hc, List.takeWhile_cons, List.takeWhile_cons, ih]
        split
        · rw [crlf_cons hc]
        · rfl

theorem dropEndWhile_crlf (hp : p '\r' = p '\n') (s : List Char) :
    dropEndWhile p (crlf s) = crlf (dropEndWhile p s) := by
  have hconcat : ∀ (s : List Char) (c : Char),
      dropEndWhile p (s ++ [c]) = if p c then dropEndWhile p s else s ++ [c] :=
    fun s c => List.rdropWhile_concat p s c
  induction s using List.reverseRecOn with
  | nil => rfl
  | append_singleton s c ih =>
      rw [crlf_append, hconcat]
      by_cases hc : c = '\n'
      · subst hc
        have hsplit : crlf s ++ crlf ['\n'] = crlf s ++ ['\r'] ++ ['\n'] :=
          (List.append_assoc (crlf s) ['\r'] ['\n']).symm
        rw [hsplit, hconcat, hconcat, hp]
        split
        · exact ih
        · rw [crlf_append, ← hsplit]
      · have hsingle : crlf [c] = [c] := crlf_cons hc []
        rw [hsingle, hconcat]
        split
        · exact ih
        · rw [crlf_append, hsingle]

end Readers

/-! ## Lines -/

/-- Lines with a CR at the end of each but the last. -/
def returnLines : List (List Char) → List (List Char)
  | [] => []
  | [line] => [line]
  | line :: next :: rest => (line ++ ['\r']) :: returnLines (next :: rest)

theorem length_returnLines (ls : List (List Char)) : (returnLines ls).length = ls.length := by
  fun_induction returnLines ls with
  | case1 => rfl
  | case2 => rfl
  | case3 line next rest ih => simp only [List.length_cons, ih]

theorem drop_returnLines (ls : List (List Char)) (k : Nat) : (returnLines ls).drop k = returnLines (ls.drop k) := by
  fun_induction returnLines ls generalizing k with
  | case1 => rw [List.drop_nil]; rfl
  | case2 line =>
      cases k with
      | zero => rfl
      | succ k => rw [List.drop_succ_cons, List.drop_nil]; rfl
  | case3 line next rest ih =>
      cases k with
      | zero => rfl
      | succ k => rw [List.drop_succ_cons, List.drop_succ_cons, ih]

/-- The lines before another one have their CR. -/
theorem take_returnLines {ls : List (List Char)} {k : Nat} (hk : k < ls.length) :
    (returnLines ls).take k = (ls.take k).map (· ++ ['\r']) := by
  fun_induction returnLines ls generalizing k with
  | case1 => exact absurd hk (Nat.not_lt_zero k)
  | case2 line =>
      obtain rfl : k = 0 := Nat.lt_one_iff.mp hk
      rfl
  | case3 line next rest ih =>
      cases k with
      | zero => rfl
      | succ k => rw [List.take_succ_cons, List.take_succ_cons, ih (Nat.lt_of_succ_lt_succ hk), List.map_cons]

theorem returnLines_cons (line : List Char) {rest : List (List Char)} (h : rest ≠ []) :
    returnLines (line :: rest) = (line ++ ['\r']) :: returnLines rest := by
  obtain ⟨next, rest, rfl⟩ := List.exists_cons_of_ne_nil h
  rfl

theorem lines_crlf (s : List Char) : lines (crlf s) = returnLines (lines s) := by
  unfold lines
  induction s with
  | nil => rfl
  | cons c s ih =>
      have hne := cutAt_ne_nil (· == '\n') s
      by_cases hc : c = '\n'
      · subst hc
        have hmark : cutAt (· == '\n') ('\n' :: s) = [] :: cutAt (· == '\n') s := cutAt_mark rfl s
        rw [hmark, returnLines_cons [] hne, ← ih]
        exact cutAt_append_mark rfl ['\r'] (crlf s)
      · have hcut : (c == '\n') = false := beq_eq_false_iff_ne.mpr hc
        obtain ⟨part, parts, heq⟩ := List.exists_cons_of_ne_nil hne
        rw [crlf_cons hc, cutAt, hcut, ih, cutAt, hcut, heq]
        cases parts with
        | nil => rfl
        | cons part' parts => rfl

/-- Lines that have no LF, each with a CR, are the text with CRLF and one CR more. -/
theorem joinLines_map_return {ls : List (List Char)} (hne : ls ≠ []) (h : ∀ l ∈ ls, '\n' ∉ l) :
    joinLines (ls.map (· ++ ['\r'])) = crlf (joinLines ls) ++ ['\r'] := by
  induction ls with
  | nil => exact absurd rfl hne
  | cons l ls ih =>
      obtain ⟨hl, hls⟩ := List.forall_mem_cons.mp h
      cases ls with
      | nil =>
          rw [List.map_cons, List.map_nil, joinLines, List.intercalate_singleton, joinLines,
            List.intercalate_singleton, crlf_of_not_mem hl]
      | cons l' ls =>
          rw [List.map_cons, joinLines_cons _ (by simp), ih (List.cons_ne_nil _ _) hls, joinLines_cons l (by simp),
            crlf_append, crlf_of_not_mem hl, crlf_lf]
          simp only [List.append_assoc, List.cons_append, List.nil_append]

theorem joinLines_returnLines {ls : List (List Char)} (h : ∀ l ∈ ls, '\n' ∉ l) :
    joinLines (returnLines ls) = crlf (joinLines ls) := by
  fun_induction returnLines ls with
  | case1 => rfl
  | case2 line =>
      rw [joinLines, List.intercalate_singleton, crlf_of_not_mem (h line List.mem_cons_self)]
  | case3 line next rest ih =>
      obtain ⟨hline, hrest⟩ := List.forall_mem_cons.mp h
      have hne : returnLines (next :: rest) ≠ [] := by
        intro heq
        have := congrArg List.length heq
        rw [length_returnLines] at this
        exact absurd this (Nat.succ_ne_zero _)
      rw [joinLines_cons _ hne, ih hrest, joinLines_cons line (List.cons_ne_nil _ _), crlf_append,
        crlf_of_not_mem hline, crlf_lf, List.append_assoc, List.singleton_append]

theorem not_mem_of_mem_lines {s line : List Char} (h : line ∈ lines s) : '\n' ∉ line :=
  fun hmem => absurd (not_mem_of_mem_cutAt h _ hmem) (by decide)

/-- A line boundary is one, be it LF or CRLF. -/
theorem boundaryLinesFrom_crlf {s : List Char} (h : '\r' ∉ s) (line : Option (List Char)) (t : List Char) :
    boundaryLinesFrom line (crlf s ++ t) = boundaryLinesFrom line (s ++ t) := by
  induction s generalizing line with
  | nil => rfl
  | cons c s ih =>
      rw [List.mem_cons, not_or] at h
      have hcr : c ≠ '\r' := Ne.symm h.1
      have hstep : ∀ rest, boundaryLinesFrom line (c :: rest) =
          if isLineBoundary c then (line.getD []).reverse :: boundaryLinesFrom none rest
          else boundaryLinesFrom (some (c :: line.getD [])) rest :=
        fun rest => boundaryLinesFrom.eq_4 line c rest (fun _ heq => absurd heq hcr)
      by_cases hc : c = '\n'
      · subst hc
        rw [crlf_lf, List.cons_append, List.cons_append, boundaryLinesFrom, List.cons_append, hstep, ih h.2]
        rfl
      · rw [crlf_cons hc, List.cons_append, List.cons_append, hstep, hstep, ih h.2, ih h.2]

end Text

/-! ## The two parts of a song -/

namespace Metadata

open Text

/-- A CR at the end of a block states no field. -/
theorem filterMap_field?_append_cr {s : List Char} (h : '\r' ∉ s) (line : Option (List Char)) :
    (boundaryLinesFrom line (s ++ ['\r'])).filterMap field? = (boundaryLinesFrom line s).filterMap field? := by
  induction s generalizing line with
  | nil =>
      cases line with
      | none => rfl
      | some l => rfl
  | cons c s ih =>
      rw [List.mem_cons, not_or] at h
      have hcr : c ≠ '\r' := Ne.symm h.1
      rw [List.cons_append, boundaryLinesFrom.eq_4 _ _ _ (fun _ heq => absurd heq hcr),
        boundaryLinesFrom.eq_4 _ _ _ (fun _ heq => absurd heq hcr)]
      split
      · rw [List.filterMap_cons, List.filterMap_cons, ih h.2]
      · exact ih h.2 _

/-- The fields of a block do not depend on its line ends. -/
theorem parseChars_return {ls : List (List Char)} (hlf : ∀ l ∈ ls, '\n' ∉ l) (hcr : ∀ l ∈ ls, '\r' ∉ l) :
    parseChars (joinLines (ls.map (· ++ ['\r']))) = parseChars (joinLines ls) := by
  by_cases hne : ls = []
  · subst hne
    rfl
  · have hblock : '\r' ∉ joinLines ls := not_mem_joinLines (by decide) hcr
    unfold parseChars boundaryLines
    rw [joinLines_map_return hne hlf, boundaryLinesFrom_crlf hblock, filterMap_field?_append_cr hblock]

end Metadata

namespace Body

open Text

theorem dropBlankLines_of_crlf {s rest : List Char} (h : s.dropWhile isBlank = '\r' :: '\n' :: rest) :
    dropBlankLines s = dropBlankLines rest := by
  rw [dropBlankLines.eq_def]
  split
  · rename_i heq
    rw [h] at heq
    exact absurd (List.cons.inj heq).1 (by decide)
  · rename_i heq
    rw [h] at heq
    rw [(List.cons.inj (List.cons.inj heq).2).2]
  · rename_i hcrlf
    exact absurd h (hcrlf rest)

theorem dropBlankLines_of_ne {s : List Char} (hlf : ∀ rest, s.dropWhile isBlank ≠ '\n' :: rest)
    (hcrlf : ∀ rest, s.dropWhile isBlank ≠ '\r' :: '\n' :: rest) : dropBlankLines s = s := by
  rw [dropBlankLines.eq_def]
  split
  · rename_i rest heq
    exact absurd heq (hlf rest)
  · rename_i rest heq
    exact absurd heq (hcrlf rest)
  · rfl

theorem dropBlankLines_crlf {s : List Char} (h : '\r' ∉ s) : dropBlankLines (crlf s) = crlf (dropBlankLines s) := by
  have hdrop : ∀ s, (crlf s).dropWhile isBlank = crlf (s.dropWhile isBlank) := dropWhile_crlf (by decide)
  fun_induction dropBlankLines s with
  | case1 s rest hs _ ih =>
      have hrest : '\r' ∉ rest := by
        intro hmem
        exact h ((List.dropWhile_sublist isBlank).subset (hs ▸ List.mem_cons_of_mem _ hmem))
      have hblank : (crlf s).dropWhile isBlank = '\r' :: '\n' :: crlf rest := by rw [hdrop, hs, crlf_lf]
      rw [dropBlankLines_of_crlf hblank, ih hrest]
  | case2 s rest hs _ ih =>
      exact absurd ((List.dropWhile_sublist isBlank).subset (hs ▸ List.mem_cons_self)) h
  | case3 s hlf hcrlf =>
      have hcr : '\r' ∉ s.dropWhile isBlank := fun hmem => h ((List.dropWhile_sublist isBlank).subset hmem)
      apply dropBlankLines_of_ne
      · intro rest heq
        rw [hdrop] at heq
        cases hs : s.dropWhile isBlank with
        | nil => simp [hs, crlf_nil] at heq
        | cons c t =>
            by_cases hc : c = '\n'
            · exact hlf t (hc ▸ hs)
            · rw [hs, crlf_cons hc] at heq
              exact hc (List.cons.inj heq).1
      · intro rest heq
        rw [hdrop] at heq
        cases hs : s.dropWhile isBlank with
        | nil => simp [hs, crlf_nil] at heq
        | cons c t =>
            by_cases hc : c = '\n'
            · exact hlf t (hc ▸ hs)
            · rw [hs, crlf_cons hc] at heq
              exact hcr (hs ▸ (List.cons.inj heq).1 ▸ List.mem_cons_self)

theorem trimChars_crlf {s : List Char} (h : '\r' ∉ s) : trimChars (crlf s) = crlf (trimChars s) := by
  rw [trimChars, dropBlankLines_crlf h, trimEnd, dropEndWhile_crlf (by decide)]
  rfl

theorem dropBlankLines_suffix (s : List Char) : dropBlankLines s <:+ s := by
  fun_induction dropBlankLines s with
  | case1 s rest hs _ ih =>
      have hrest : rest <:+ s.dropWhile isBlank := hs ▸ List.suffix_cons _ _
      exact (ih.trans hrest).trans (List.dropWhile_suffix isBlank)
  | case2 s rest hs _ ih =>
      have hrest : rest <:+ s.dropWhile isBlank := hs ▸ ⟨['\r', '\n'], rfl⟩
      exact (ih.trans hrest).trans (List.dropWhile_suffix isBlank)
  | case3 s hlf hcrlf => exact List.suffix_refl s

/-- A trimmed body is a stretch of the text. -/
theorem trimChars_infix (s : List Char) : trimChars s <:+: s :=
  (prefix_dropEndWhile _).isInfix.trans (dropBlankLines_suffix s).isInfix

end Body

namespace Document

open Text

/-- The song with its body in CRLF. -/
def withCrlf (d : Document) : Document := { d with body := crlfString d.body }

theorem isDelimiter_return {line : List Char} (h : '\r' ∉ line) :
    isDelimiter true (line ++ ['\r']) = isDelimiter true line := by
  rw [Bool.eq_iff_iff, isDelimiter_iff, isDelimiter_iff]
  constructor
  · rintro ⟨s, hs, heq | ⟨-, heq⟩⟩
    · -- a delimiter has no CR of its own
      obtain ⟨blanks, hblanks, rfl⟩ := hs
      have hmem : '\r' ∈ '-' :: '-' :: '-' :: blanks := heq ▸ List.mem_append_right line List.mem_cons_self
      have hblank : '\r' ∈ blanks := by simpa using hmem
      exact absurd (hblanks _ hblank) (by decide)
    · exact ⟨s, hs, Or.inl (List.append_cancel_right heq)⟩
  · rintro ⟨s, hs, rfl | ⟨-, rfl⟩⟩
    · exact ⟨line, hs, Or.inr ⟨rfl, rfl⟩⟩
    · exact absurd (List.mem_append_right s List.mem_cons_self) h

theorem isEmpty_returnLines (ls : List (List Char)) : (returnLines ls).isEmpty = ls.isEmpty := by
  rw [Bool.eq_iff_iff, List.isEmpty_iff_length_eq_zero, List.isEmpty_iff_length_eq_zero, length_returnLines]

theorem delimiterIndex?_returnLines {ls : List (List Char)} (h : ∀ l ∈ ls, '\r' ∉ l) :
    delimiterIndex? (returnLines ls) = delimiterIndex? ls := by
  fun_induction returnLines ls with
  | case1 => rfl
  | case2 line => rfl
  | case3 line next rest ih =>
      obtain ⟨hline, hrest⟩ := List.forall_mem_cons.mp h
      have hended : isDelimiter (!(next :: rest).isEmpty) (line ++ ['\r']) =
          isDelimiter (!(next :: rest).isEmpty) line := isDelimiter_return hline
      rw [delimiterIndex?, delimiterIndex?, isEmpty_returnLines, hended, ih hrest]

theorem closingIndex?_returnLines {ls : List (List Char)} (h : ∀ l ∈ ls, '\r' ∉ l) :
    closingIndex? (returnLines ls) = closingIndex? ls := by
  fun_cases returnLines ls with
  | case1 => rfl
  | case2 line => rfl
  | case3 line next rest =>
      obtain ⟨hline, hrest⟩ := List.forall_mem_cons.mp h
      have hended : isDelimiter (!(next :: rest).isEmpty) (line ++ ['\r']) =
          isDelimiter (!(next :: rest).isEmpty) line := isDelimiter_return hline
      rw [closingIndex?, closingIndex?, isEmpty_returnLines, hended, delimiterIndex?_returnLines hrest]

theorem DelimiterAt.lt_length {ls : List (List Char)} {i : Nat} (h : DelimiterAt ls i) : i < ls.length := by
  obtain ⟨s, -, hs | ⟨hlt, -⟩⟩ := h
  · exact (List.getElem?_eq_some_iff.mp hs).1
  · omega

/-- The closing line is one of the lines. -/
theorem closingIndex?_lt {ls : List (List Char)} {k : Nat} (h : closingIndex? ls = some k) : k < ls.length := by
  have hat : DelimiterAt ([] :: ls) (k + 1) := by
    rcases closingIndex?_eq_some [] h with hk | ⟨rfl, hk, -⟩
    · exact hk.2.1
    · exact hk
  have := hat.lt_length
  rw [List.length_cons] at this
  omega

/-- The song is cut at the same lines. -/
theorem split?_crlf {s : List Char} (h : '\r' ∉ s) :
    split? (crlf s) = (split? s).map fun parts => (parts.1.map (· ++ ['\r']), returnLines parts.2) := by
  have hcr : ∀ l ∈ lines s, '\r' ∉ l := fun l hl hmem => h ((infix_of_mem_cutAt hl).subset hmem)
  unfold split?
  rw [lines_crlf]
  generalize lines s = ls at hcr ⊢
  fun_cases returnLines ls with
  | case1 => rfl
  | case2 line =>
      simp only [closingIndex?, Option.map_none]
      split
      · rfl
      · rfl
  | case3 line next rest =>
      obtain ⟨hline, hrest⟩ := List.forall_mem_cons.mp hcr
      have hended : isDelimiter (!(next :: rest).isEmpty) (line ++ ['\r']) =
          isDelimiter (!(next :: rest).isEmpty) line := isDelimiter_return hline
      simp only [isEmpty_returnLines, hended, closingIndex?_returnLines hrest]
      split
      · cases hclose : closingIndex? (next :: rest) with
        | none => rfl
        | some k =>
            simp only [Option.map_some, take_returnLines (closingIndex?_lt hclose), drop_returnLines]
      · rfl

/-- The parts of a song hold lines of it. -/
theorem mem_lines_of_split? {s : List Char} {block body : List (List Char)} (h : split? s = some (block, body)) :
    (∀ l ∈ block, l ∈ lines s) ∧ ∀ l ∈ body, l ∈ lines s := by
  unfold split? at h
  split at h
  · simp at h
  · rename_i opening rest hlines
    split at h
    · obtain ⟨k, -, hk⟩ := Option.map_eq_some_iff.mp h
      obtain ⟨rfl, rfl⟩ := Prod.mk.inj hk
      rw [hlines]
      exact ⟨fun l hl => List.mem_cons_of_mem _ (List.mem_of_mem_take hl),
        fun l hl => List.mem_cons_of_mem _ (List.mem_of_mem_drop hl)⟩
    · simp at h

/-- A song with CRLF has the same fields, and its body has CRLF. -/
theorem parse_crlf {text : String} (h : '\r' ∉ text.toList) : parse (crlfString text) = (parse text).withCrlf := by
  unfold parse
  rw [crlfString, String.toList_ofList, split?_crlf h]
  cases hsplit : split? text.toList with
  | none =>
      simp only [Option.map_none, withCrlf, crlfString, Body.trim, String.toList_ofList, Body.trimChars_crlf h]
  | some parts =>
      obtain ⟨block, body⟩ := parts
      obtain ⟨hblock, hbody⟩ := mem_lines_of_split? hsplit
      have hcr : ∀ l ∈ lines text.toList, '\r' ∉ l := fun l hl hmem => h ((infix_of_mem_cutAt hl).subset hmem)
      have hlf : ∀ l ∈ lines text.toList, '\n' ∉ l := fun l hl => not_mem_of_mem_lines hl
      have hrest : '\r' ∉ joinLines body := not_mem_joinLines (by decide) fun l hl => hcr l (hbody l hl)
      simp only [Option.map_some, withCrlf, crlfString, String.toList_ofList,
        Metadata.parseChars_return (fun l hl => hlf l (hblock l hl)) (fun l hl => hcr l (hblock l hl)),
        joinLines_returnLines fun l hl => hlf l (hbody l hl), Body.trimChars_crlf hrest]

/-- The body of a song has no characters but those of the song. -/
theorem mem_of_mem_body {text : String} {c : Char} (hc : c ≠ '\n') (h : c ∈ (parse text).body.toList) :
    c ∈ text.toList := by
  unfold parse at h
  cases hsplit : split? text.toList with
  | none =>
      simp only [hsplit, Body.trim, String.toList_ofList] at h
      exact (Body.trimChars_infix _).subset h
  | some parts =>
      obtain ⟨block, body⟩ := parts
      simp only [hsplit, String.toList_ofList] at h
      by_contra htext
      have hlines : ∀ l ∈ body, c ∉ l :=
        fun l hl hmem => htext ((infix_of_mem_cutAt ((mem_lines_of_split? hsplit).2 l hl)).subset hmem)
      exact not_mem_joinLines hc hlines ((Body.trimChars_infix _).subset h)

end Document

/-! ## What is derived from a song -/

namespace Chord

open Text

theorem mentions_crlf (s : List Char) : mentions (crlf s) = (mentions s).map crlf := by
  have hdrop : ∀ s, (crlf s).dropWhile (· != ']') = crlf (s.dropWhile (· != ']')) := dropWhile_crlf (by decide)
  have htake : ∀ s, (crlf s).takeWhile (· != ']') = crlf (s.takeWhile (· != ']')) := takeWhile_crlf (by decide)
  have hempty : ∀ s, (crlf s).isEmpty = s.isEmpty := by
    intro s
    cases s with
    | nil => rfl
    | cons c s => by_cases hc : c = '\n' <;> simp [crlf, hc]
  have hclose : ∀ {close : Char} {rest after : List Char}, rest.dropWhile (· != ']') = close :: after →
      (crlf rest).dropWhile (· != ']') = close :: crlf after := by
    intro close rest after h
    have hne : close ≠ '\n' := by
      rintro rfl
      exact absurd (eq_takeWhile_append h).1 (by decide)
    rw [hdrop, h, crlf_cons hne]
  fun_induction mentions s with
  | case1 => rw [crlf_nil, mentions, List.map_nil]
  | case2 c rest hc h =>
      obtain rfl : c = '[' := beq_iff_eq.mp hc
      have hrest : (crlf rest).dropWhile (· != ']') = [] := by rw [hdrop, h, crlf_nil]
      rw [crlf_cons (by decide), mentions_of_unclosed hrest, List.map_nil]
  | case3 c rest hc name close after h _ hname ih =>
      obtain rfl : c = '[' := beq_iff_eq.mp hc
      rw [crlf_cons (by decide), mentions_of_bracket (hclose h), htake, hempty, if_pos hname, ih]
  | case4 c rest hc name close after h _ hname ih =>
      obtain rfl : c = '[' := beq_iff_eq.mp hc
      rw [crlf_cons (by decide), mentions_of_bracket (hclose h), htake, hempty, if_neg hname, ih, List.map_cons]
  | case5 c rest hc ih =>
      by_cases hlf : c = '\n'
      · subst hlf
        rw [crlf_lf, mentions_of_ne (by decide), mentions_of_ne (by decide), ih]
      · have hne : c ≠ '[' := by simpa using hc
        rw [crlf_cons hlf, mentions_of_ne hne, ih]

/-- A name with a line end is no chord. -/
theorem isChord_crlf {db : Database} (hdb : db.Lacks '\n') (name : List Char) :
    db.isChord (crlf name) = db.isChord name := by
  by_cases hlf : '\n' ∈ name
  · have hno : ∀ name : List Char, '\n' ∈ name → db.isChord name = false := by
      intro name hmem
      rw [Bool.eq_false_iff]
      exact fun h => not_mem_of_isChord foreign_ne_lf hdb h hmem
    rw [hno name hlf, hno (crlf name) (lf_mem_crlf.mpr hlf)]
  · rw [crlf_of_not_mem hlf]

/-- The chords of a text do not depend on its line ends. -/
theorem chordsIn_crlf {db : Database} (hdb : db.Lacks '\n') (s : List Char) :
    db.chordsIn (crlf s) = db.chordsIn s := by
  have hfilter : (mentions (crlf s)).filter db.isChord = (mentions s).filter db.isChord := by
    have hcomp : db.isChord ∘ crlf = db.isChord := funext (isChord_crlf hdb)
    rw [mentions_crlf, List.filter_map, hcomp]
    have hchords : ∀ name ∈ (mentions s).filter db.isChord, crlf name = name := fun name hname =>
      crlf_of_not_mem (not_mem_of_isChord foreign_ne_lf hdb (List.mem_filter.mp hname).2)
    rw [List.map_congr_left hchords, List.map_id']
  rw [Database.chordsIn, hfilter, Database.chordsIn]

end Chord

/-- A body reads the same with CRLF. -/
theorem Markup.render_crlfString (db : Chord.Database) {body : String} (h : '\r' ∉ body.toList) :
    Markup.render db (Text.crlfString body) = Markup.render db body := by
  have hcode : Markup.setCode (Text.crlf body.toList) = Markup.setCode body.toList := by
    rw [Markup.setCode, Text.unixLines_crlf h, Markup.setCode, Text.unixLines_of_not_mem h]
  rw [Markup.render, Text.crlfString, String.toList_ofList, Markup.bodyTokens, hcode]
  rfl

namespace Song

open Text

def withCrlf (song : Song) : Song := { song with document := song.document.withCrlf }

theorem chordsOf_crlfString {db : Chord.Database} (hdb : db.Lacks '\n') (body : String) :
    chordsOf db (crlfString body) = chordsOf db body := by
  rw [chordsOf, crlfString, String.toList_ofList, Chord.chordsIn_crlf hdb, chordsOf]

theorem page_withCrlf (song : Song) (asked : Option String) (format : SheetFormat) :
    song.withCrlf.page asked format = song.page asked format := rfl

/-- A song whose lines end in LF and the same song with CRLF: the fields, the markup, the chords and the diagrams are
the same, the body is the body with CRLF, and each sheet is the same. Where one cannot be drawn, neither can the
other, for the same reason. -/
theorem render_crlf (options : Options) {db : Chord.Database} (hdb : db.Lacks '\n') {text : String}
    (htext : '\r' ∉ text.toList) :
    render options db (crlfString text) = (render options db text).map withCrlf ∧
      ∀ (asked : Option String) (format : SheetFormat),
        (render options db (crlfString text)).bind (fun song => song.page asked format) =
          (render options db text).bind fun song => song.page asked format := by
  have hbody : '\r' ∉ (Document.parse text).body.toList :=
    fun hmem => htext (Document.mem_of_mem_body (by decide) hmem)
  have hsong : render options db (crlfString text) = (render options db text).map withCrlf := by
    unfold render
    rw [Document.parse_crlf htext]
    simp only [Document.withCrlf, chordsOf_crlfString hdb, Markup.render_crlfString db hbody]
    cases draw options db (chordsOf db (Document.parse text).body) with
    | error cause => rfl
    | ok diagrams => rfl
  refine ⟨hsong, fun asked format => ?_⟩
  rw [hsong]
  cases render options db text with
  | error cause => rfl
  | ok song => exact page_withCrlf song asked format

/-- A song with a title, a chord, and a bracket that runs over a line end. -/
theorem render_crlf_waltz :
    Chord.Database.cMajor.Lacks '\n' ∧ '\r' ∉ "---\ntitle: Waltz\n---\n[C]one\n[C\ntwo]\n".toList ∧
      (render {} Chord.Database.cMajor (crlfString "---\ntitle: Waltz\n---\n[C]one\n[C\ntwo]\n")).bind
          (fun song => song.page none .page) =
        (render {} Chord.Database.cMajor "---\ntitle: Waltz\n---\n[C]one\n[C\ntwo]\n").bind
          fun song => song.page none .page :=
  ⟨by decide, by decide, (render_crlf {} (by decide) (by decide)).2 none .page⟩

end Song

end LeadSheet
