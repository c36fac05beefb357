import LeadSheet.Proofs.Markup.Locality

/-!
# Lines without code

Lines that hold no backtick are the same to the rules for lines and blocks as they are written. In front of a body
they leave it as it is by itself: no code block begins in them, and they take no number from the code spans that come
after them.

* `setCode_joinLines` : the lines by themselves;
* `setCode_joinLines_append` : the lines in front of a body;
* `renderBlocks_eq_nil_iff` : a body without blocks is one without text;
* `print_bodyTokens_append` : lines that are one block stand before the document of the body after them.
-/

namespace LeadSheet.Markup

open Text

/-! ## Code set apart -/

/-- Code spans begin after a part without a backtick. -/
theorem setSpans_append {s : List Char} (h : '`' ∉ s) (n : Nat) (t : List Char) :
    setSpans n (s ++ t) = (Line.ofChars s ++ (setSpans n t).1, (setSpans n t).2) := by
  induction s with
  | nil => rfl
  | cons c s ih =>
      rw [List.mem_cons, not_or] at h
      have hc : (c == '`') = false := beq_eq_false_iff_ne.mpr (Ne.symm h.1)
      rw [List.cons_append, setSpans, hc, Bool.false_and, if_neg Bool.false_ne_true, ih h.2]
      rfl

theorem setSpans_of_not_mem {s : List Char} (h : '`' ∉ s) (n : Nat) : setSpans n s = (Line.ofChars s, n) := by
  have hspans := setSpans_append h n []
  rwa [setSpans, List.append_nil, List.append_nil] at hspans

theorem setAllSpans_lines {ls : List (List Char)} (h : ∀ l ∈ ls, '`' ∉ l) (n : Nat)
    (rest : List (Source (List Char))) :
    setAllSpans n (ls.map .line ++ rest) =
      ((ls.map fun l => .line (Line.ofChars l)) ++ (setAllSpans n rest).1, (setAllSpans n rest).2) := by
  induction ls with
  | nil => rfl
  | cons l ls ih =>
      obtain ⟨hl, hls⟩ := List.forall_mem_cons.mp h
      simp only [List.map_cons, List.cons_append, setAllSpans, setSpans_of_not_mem hl, ih hls]

theorem not_infix_fence {l : List Char} (h : '`' ∉ l) : ¬ ['`', '`', '`'] <:+: l :=
  fun hmarks => h (hmarks.subset List.mem_cons_self)

/-- A body without code is set apart as it is. -/
theorem setCode_of_codeless {body : List Char} (h : ∀ l ∈ lines (unixLines body), '`' ∉ l) :
    setCode body = ((lines (unixLines body)).map fun l => .line (Line.ofChars l), 0) := by
  have hspans := setAllSpans_lines h 0 []
  rw [setAllSpans, List.append_nil, List.append_nil] at hspans
  rw [setCode, setFences_eq_map fun l hl => not_infix_fence (h l hl), hspans]

/-- Lines without code before those of a body, however the lines are ended. -/
theorem setCode_of_lines_append {ls : List (List Char)} (h : ∀ l ∈ ls, '`' ∉ l) {whole body : List Char}
    (hlines : lines (unixLines whole) = ls ++ lines (unixLines body)) :
    setCode whole = ((ls.map fun l => .line (Line.ofChars l)) ++ (setCode body).1, (setCode body).2) := by
  rw [setCode, hlines, setFences_append fun l hl => not_infix_fence (h l hl), setAllSpans_lines h]
  rfl

section Lines

variable {ls : List (List Char)} (hne : ls ≠ []) (h : ∀ l ∈ ls, ∀ c ∈ ['\r', '\n', '`'], c ∉ l)

include hne h

/-- Lines without code in front of a body. -/
theorem setCode_joinLines_append (body : List Char) :
    setCode (joinLines ls ++ '\n' :: body) =
      ((ls.map fun l => .line (Line.ofChars l)) ++ (setCode body).1, (setCode body).2) := by
  have hends : ∀ l ∈ ls, '\r' ∉ l ∧ '\n' ∉ l := fun l hl => ⟨h l hl _ (by decide), h l hl _ (by decide)⟩
  exact setCode_of_lines_append (fun l hl => h l hl _ (by decide)) (lines_joinLines_append hne hends body)

/-- Lines without code by themselves. -/
theorem setCode_joinLines : setCode (joinLines ls) = (ls.map fun l => .line (Line.ofChars l), 0) := by
  have hcr : '\r' ∉ joinLines ls := not_mem_joinLines (by decide) fun l hl => h l hl _ (by decide)
  have hlines : lines (unixLines (joinLines ls)) = ls := by
    rw [unixLines_of_not_mem hcr, lines_joinLines hne fun l hl => h l hl _ (by decide)]
  rw [setCode_of_codeless (hlines.symm ▸ fun l hl => h l hl _ (by decide)), hlines]

end Lines

/-! ## Bodies without text -/

section Text

variable {db : Chord.Database}

theorem spaces_of_setFences {ls : List (List Char)}
    (h : ∀ s ∈ setFences ls, ∃ l, s = .line l ∧ ∀ c ∈ l, isSpace c = true) :
    ∀ l ∈ ls, ∀ c ∈ l, isSpace c = true := by
  have hline : ∀ {line : List Char} {rest : List (Source (List Char))},
      (∀ s ∈ .line line :: rest, ∃ l, s = .line l ∧ ∀ c ∈ l, isSpace c = true) →
      (∀ c ∈ line, isSpace c = true) ∧ ∀ s ∈ rest, ∃ l, s = .line l ∧ ∀ c ∈ l, isSpace c = true := by
    intro line rest h
    obtain ⟨⟨l, hl, hspace⟩, hrest⟩ := List.forall_mem_cons.mp h
    rw [← Source.line.inj hl] at hspace
    exact ⟨hspace, hrest⟩
  fun_induction setFences ls with
  | case1 => simp
  | case2 line rest hopens ih => exact List.forall_mem_cons.mpr ⟨(hline h).1, ih (hline h).2⟩
  | case3 line rest language hopens hdrop ih => exact List.forall_mem_cons.mpr ⟨(hline h).1, ih (hline h).2⟩
  | case4 line rest language hopens close after hdrop _ ih => simp at h

theorem renderBlocks_blank {ls : List (Source Line)}
    (h : ∀ s ∈ ls, ∃ l, s = .line l ∧ Line.isEmptyLine l = true) (n : Nat) :
    renderBlocks db n (readBlocks db ls) = [] := by
  induction ls with
  | nil => rw [readBlocks, renderBlocks]
  | cons s ls ih =>
      obtain ⟨⟨l, rfl, hempty⟩, hls⟩ := List.forall_mem_cons.mp h
      rw [readBlocks, kind, if_pos hempty]
      exact ih hls

/-- A body without blocks is one without text. -/
theorem renderBlocks_eq_nil_iff {body : List Char} :
    renderBlocks db (setCode body).2 (readBlocks db (setCode body).1) = [] ↔ ¬ HasText body := by
  have hspaces : ¬ HasText body ↔ ∀ l ∈ lines (unixLines body), ∀ c ∈ l, isSpace c = true := by
    simp only [HasText, not_exists, not_and, not_not, trim_eq_nil_iff]
  rw [hspaces]
  constructor
  · intro h
    exact spaces_of_setFences (spaces_of_setAllSpans (isEmptyLine_of_gaps (gaps_of_renderBlocks h)))
  · intro h
    have hcode : ∀ l ∈ lines (unixLines body), '`' ∉ l :=
      fun l hl hmem => absurd (h l hl _ hmem) (by decide)
    refine renderBlocks_blank ?_ _
    rw [setCode_of_codeless hcode]
    refine List.forall_mem_map.mpr fun l hl => ⟨_, rfl, ?_⟩
    exact List.all_eq_true.mpr (List.forall_mem_map.mpr (h l hl))

/-- The first line of the body is nothing but white space. -/
def StartsBlank (body : List Char) : Prop := ∀ line ∈ (lines (unixLines body)).head?, trim line = []

instance (body : List Char) : Decidable (StartsBlank body) :=
  inferInstanceAs (Decidable (∀ line ∈ (lines (unixLines body)).head?, trim line = []))

theorem exists_setCode_of_startsBlank {body : List Char} (h : StartsBlank body) :
    ∃ line rest, (setCode body).1 = .line line :: rest ∧ Line.isEmptyLine line = true := by
  obtain ⟨first, others, hlines⟩ := List.exists_cons_of_ne_nil (cutAt_ne_nil (· == '\n') (unixLines body))
  have hfirst : ∀ c ∈ first, isSpace c = true := trim_eq_nil_iff.mp (h first (by rw [lines, hlines]; rfl))
  have hcode : ∀ l ∈ [first], '`' ∉ l :=
    List.forall_mem_singleton.mpr fun hmem => absurd (hfirst _ hmem) (by decide)
  have hfences := setFences_append (fun l hl => not_infix_fence (hcode l hl)) others
  have hspans := setAllSpans_lines hcode 0 (setFences others)
  refine ⟨Line.ofChars first, (setAllSpans 0 (setFences others)).1, ?_, ?_⟩
  · rw [setCode, lines, hlines, ← List.singleton_append, hfences, hspans]
    rfl
  · exact List.all_eq_true.mpr (List.forall_mem_map.mpr hfirst)

/-- A body whose blocks are one block and then those of a second body reads like this block before the second body. -/
theorem print_bodyTokens_of_blocks {whole body : List Char} {ts : List Token}
    (hblocks : renderBlocks db (setCode whole).2 (readBlocks db (setCode whole).1) =
      ts :: renderBlocks db (setCode body).2 (readBlocks db (setCode body).1)) :
    Token.print (bodyTokens db whole) =
      Token.print ts ++ if HasText body then '\n' :: Token.print (bodyTokens db body) else [] := by
  have hdocument : bodyTokens db whole =
      List.intercalate [.char '\n'] (ts :: renderBlocks db (setCode body).2 (readBlocks db (setCode body).1)) := by
    simp only [bodyTokens, hblocks]
  rw [hdocument]
  -- a body without blocks has a document of its own, an empty paragraph, which does not show here
  cases hbody : renderBlocks db (setCode body).2 (readBlocks db (setCode body).1) with
  | nil => rw [if_neg (renderBlocks_eq_nil_iff.mp hbody), List.intercalate_singleton, List.append_nil]
  | cons block blocks =>
      have htext : HasText body := by
        by_contra hnone
        rw [renderBlocks_eq_nil_iff.mpr hnone] at hbody
        exact List.cons_ne_nil _ _ hbody.symm
      have htokens : bodyTokens db body = List.intercalate [.char '\n'] (block :: blocks) := by
        simp only [bodyTokens, hbody]
      have hbreak : Token.print [.char '\n'] = ['\n'] := by decide
      rw [if_pos htext, List.intercalate_cons_cons, htokens, print_append, print_append, hbreak, List.append_assoc,
        List.singleton_append]

/-- Lines that are one block stand before the document of the body after them. -/
theorem print_bodyTokens_append {ls : List (List Char)} (hne : ls ≠ [])
    (h : ∀ l ∈ ls, ∀ c ∈ ['\r', '\n', '`'], c ∉ l) {body : List Char} {ts : List Token}
    (hblocks : renderBlocks db (setCode body).2
        (readBlocks db ((ls.map fun l => .line (Line.ofChars l)) ++ (setCode body).1)) =
      ts :: renderBlocks db (setCode body).2 (readBlocks db (setCode body).1)) :
    Token.print (bodyTokens db (joinLines ls ++ '\n' :: body)) =
      Token.print ts ++ if HasText body then '\n' :: Token.print (bodyTokens db body) else [] := by
  refine print_bodyTokens_of_blocks ?_
  rw [setCode_joinLines_append hne h]
  exact hblocks

end Text

end LeadSheet.Markup
