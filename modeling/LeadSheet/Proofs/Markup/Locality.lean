import LeadSheet.Proofs.Markup.Numbering.Blocks

/-!
# Blank lines

A blank line ends every block, so that what stands before it and what stands after it are marked up apart. Only
code blocks reach across blank lines, and only the numbers of literals are counted through the whole body.

* `readBlocks_append_blank` : the blocks before a blank line do not depend on what follows it;
* `linesTokens_append_blank` : nor does what they look like;
* `render_append_blank` : a document of two parts with a blank line between them is one part after the other.
-/

namespace LeadSheet.Markup

open Text

/-! ## Blocks on either side of a blank line -/

section Blank

variable {db : Chord.Database}

theorem kind_append_blank (line : Line) (xs ys : List (Source Line)) :
    kind db line (xs ++ .line [] :: ys).head? = kind db line xs.head? := by
  cases xs with
  | nil =>
      have hseparator : isSeparator [] = false := rfl
      simp only [kind, List.nil_append, List.head?_cons, List.head?_nil, Option.any_some, Option.any_none, hseparator]
      rfl
  | cons x xs => rfl

theorem addLine_append_gap (line : Line) (bs cs : List Block) :
    addLine line (bs ++ .gap :: cs) = addLine line bs ++ .gap :: cs := by
  cases bs with
  | nil => rfl
  | cons b bs => cases b <;> rfl

/-- A blank line parts the blocks of a body. -/
theorem readBlocks_append_blank (xs ys : List (Source Line)) :
    readBlocks db (xs ++ .line [] :: ys) = readBlocks db xs ++ .gap :: readBlocks db ys := by
  have hquote : continuesQuote (.line []) = false := rfl
  have htable : continuesTable (.line []) = false := rfl
  have hlist : continuesList db (.line []) = false := rfl
  fun_induction readBlocks db xs with
  | case1 =>
      have hblank : kind db [] ys.head? = .blank := rfl
      rw [List.nil_append, readBlocks, hblank, List.nil_append]
  | case2 language code rest ih => rw [List.cons_append, readBlocks, ih, List.cons_append]
  | case3 line rest h ih =>
      rw [List.cons_append, readBlocks, kind_append_blank, h]
      simp only [ih, List.cons_append]
  | case4 line rest level text h ih =>
      rw [List.cons_append, readBlocks, kind_append_blank, h]
      simp only [ih, List.cons_append]
  | case5 line rest h ih =>
      rw [List.cons_append, readBlocks, kind_append_blank, h]
      simp only [ih, List.cons_append]
  | case6 line rest r h ih =>
      rw [List.cons_append, readBlocks, kind_append_blank, h]
      simp only [ih, List.cons_append]
  | case7 line rest h _ ih =>
      rw [List.cons_append, readBlocks, kind_append_blank, h]
      simp only [takeWhile_append_mark hquote, dropWhile_append_mark hquote, ih, List.cons_append]
  | case8 line rest h _ ih =>
      obtain ⟨l, hnext, -⟩ : ∃ l, rest.head? = some (.line l) ∧ isSeparator l = true := fits_of_kind h
      have htail : (rest ++ .line [] :: ys).tail = rest.tail ++ .line [] :: ys := by
        cases rest with
        | nil => simp at hnext
        | cons s rest => rfl
      rw [List.cons_append, readBlocks, kind_append_blank, h]
      simp only [htail, takeWhile_append_mark htable, dropWhile_append_mark htable, ih, List.cons_append]
  | case9 line rest h _ ih =>
      rw [List.cons_append, readBlocks, kind_append_blank, h]
      simp only [takeWhile_append_mark hlist, dropWhile_append_mark hlist, ih, List.cons_append]
  | case10 line rest name remainder h ih =>
      rw [List.cons_append, readBlocks, kind_append_blank, h]
      simp only [ih, addLine_append_gap, List.cons_append]
      split
      · rfl
      · rfl
  | case11 line rest h ih =>
      rw [List.cons_append, readBlocks, kind_append_blank, h]
      simp only [ih, addLine_append_gap]

/-- Blocks with a gap between them are rendered one after another; those after the gap begin with some number. -/
theorem renderBlocks_append_gap (n : Nat) (bs cs : List Block) :
    ∃ m, renderBlocks db n (bs ++ .gap :: cs) = renderBlocks db n bs ++ renderBlocks db m cs := by
  fun_induction renderBlocks db n bs with
  | case1 n => exact ⟨n, rfl⟩
  | case2 n rest ih => exact ih
  | case3 n lines r rest remark n₁ hremark paragraph n₂ hparagraph ih =>
      obtain ⟨m, ih⟩ := ih
      refine ⟨m, ?_⟩
      simp only [List.cons_append, renderBlocks, hremark, hparagraph, ih]
  | case4 n items r rest _ n₁ hfirst list n₂ hlist remark n₃ hremark ih =>
      obtain ⟨m, ih⟩ := ih
      refine ⟨m, ?_⟩
      simp only [List.cons_append, renderBlocks, hfirst, hlist, hremark, ih]
  | case5 n block rest hgap hparagraph hlist tokens n₁ hblock ih =>
      obtain ⟨m, ih⟩ := ih
      refine ⟨m, ?_⟩
      rw [List.cons_append, renderBlocks]
      · simp only [hblock, ih, List.cons_append]
      · exact hgap
      · intro lines r rest' hb hrest
        cases rest with
        | nil => simp at hrest
        | cons b rest => exact hparagraph lines r rest hb (by rw [(List.cons.inj hrest).1])
      · intro items r rest' hb hrest
        cases rest with
        | nil => simp at hrest
        | cons b rest => exact hlist items r rest hb (by rw [(List.cons.inj hrest).1])

end Blank

/-! ## Lines with text -/

theorem setSpans_isEmptyLine {n : Nat} {s : List Char} (h : Line.isEmptyLine (setSpans n s).1 = true) :
    ∀ c ∈ s, isSpace c = true := by
  fun_induction setSpans n s with
  | case1 => simp
  | case2 n c rest =>
      intro d hd
      exact List.all_eq_true.mp h (.char d) (List.mem_map_of_mem hd)
  | case3 n c rest hc mark after hdrop _ pieces m heq ih => simp [Line.isEmptyLine, Piece.sat] at h
  | case4 n c rest hc pieces m heq ih =>
      rw [heq] at ih
      obtain ⟨hc, hpieces⟩ := (Bool.and_eq_true _ _).mp h
      exact List.forall_mem_cons.mpr ⟨hc, ih hpieces⟩

/-- Nothing but gaps comes from nothing but blank lines. -/
theorem isEmptyLine_of_gaps {db : Chord.Database} {ls : List (Source Line)} (h : ∀ b ∈ readBlocks db ls, b = .gap) :
    ∀ s ∈ ls, ∃ l, s = .line l ∧ Line.isEmptyLine l = true := by
  have hadd : ∀ {line : Line} {bs : List Block}, ¬ ∀ b ∈ addLine line bs, b = .gap := by
    intro line bs hgaps
    unfold addLine at hgaps
    split at hgaps
    · exact absurd (hgaps _ List.mem_cons_self) (by simp)
    · exact absurd (hgaps _ List.mem_cons_self) (by simp)
  fun_induction readBlocks db ls with
  | case1 => simp
  | case3 line rest hkind ih =>
      obtain ⟨-, hrest⟩ := List.forall_mem_cons.mp h
      exact List.forall_mem_cons.mpr ⟨⟨line, rfl, fits_of_kind hkind⟩, ih hrest⟩
  | case10 line rest name remainder hkind ih => exact absurd (h _ List.mem_cons_self) (by simp)
  | case11 line rest hkind ih => exact absurd h hadd
  | _ => exact absurd (h _ List.mem_cons_self) (by simp)

theorem gaps_of_renderBlocks {db : Chord.Database} {n : Nat} {bs : List Block} (h : renderBlocks db n bs = []) :
    ∀ b ∈ bs, b = .gap := by
  fun_induction renderBlocks db n bs with
  | case1 => simp
  | case2 n rest ih => exact List.forall_mem_cons.mpr ⟨rfl, ih h⟩
  | _ => simp at h

/-- Some line of the body is more than white space. -/
def HasText (body : List Char) : Prop := ∃ line ∈ lines (unixLines body), trim line ≠ []

instance (body : List Char) : Decidable (HasText body) :=
  inferInstanceAs (Decidable (∃ line ∈ lines (unixLines body), trim line ≠ []))

theorem trim_eq_nil_iff {s : List Char} : trim s = [] ↔ ∀ c ∈ s, isSpace c = true :=
  dropEndWhile_dropWhile_eq_nil_iff

/-! ## Documents -/

/-- The blocks of some lines without code blocks, each as its tokens. -/
def linesTokens (db : Chord.Database) (ls : List (List Char)) : List (List Token) :=
  renderBlocks db 0 (readBlocks db (setAllSpans 0 (ls.map .line)).1)

theorem setAllSpans_append (n : Nat) (xs ys : List (Source (List Char))) :
    (setAllSpans n (xs ++ ys)).1 = (setAllSpans n xs).1 ++ (setAllSpans (setAllSpans n xs).2 ys).1 := by
  induction xs generalizing n with
  | nil => rfl
  | cons s xs ih =>
      cases s with
      | fence language code =>
          simp only [List.cons_append, setAllSpans]
          rw [ih]
      | line l =>
          simp only [List.cons_append, setAllSpans]
          rw [ih]

theorem linesTokens_nil (db : Chord.Database) : linesTokens db [] = [] := by
  rw [linesTokens, List.map_nil, setAllSpans, readBlocks, renderBlocks]

theorem spaces_of_setAllSpans {n : Nat} {sources : List (Source (List Char))}
    (h : ∀ s ∈ (setAllSpans n sources).1, ∃ l, s = .line l ∧ Line.isEmptyLine l = true) :
    ∀ s ∈ sources, ∃ l, s = .line l ∧ ∀ c ∈ l, isSpace c = true := by
  induction sources generalizing n with
  | nil => simp
  | cons s sources ih =>
      cases s with
      | fence language code => simp [setAllSpans] at h
      | line l =>
          obtain ⟨⟨l', hl', hempty⟩, hrest⟩ := List.forall_mem_cons.mp h
          rw [← Source.line.inj hl'] at hempty
          exact List.forall_mem_cons.mpr ⟨⟨l, rfl, setSpans_isEmptyLine hempty⟩, ih hrest⟩

theorem linesTokens_ne_nil (db : Chord.Database) {ls : List (List Char)} (h : ∃ line ∈ ls, trim line ≠ []) :
    linesTokens db ls ≠ [] := by
  intro hnil
  obtain ⟨line, hline, htrim⟩ := h
  have hspaces := spaces_of_setAllSpans (isEmptyLine_of_gaps (gaps_of_renderBlocks hnil))
  obtain ⟨l, hl, hspace⟩ := hspaces (.line line) (List.mem_map_of_mem hline)
  rw [Source.line.inj hl] at htrim
  exact htrim (trim_eq_nil_iff.mpr hspace)

section Lacks

variable {db : Chord.Database} (hdb : db.Lacks '<')

include hdb

/-- What stands before a blank line and what stands after it look as they do by themselves. -/
theorem linesTokens_append_blank (xs ys : List (List Char)) :
    linesTokens db (xs ++ [] :: ys) = linesTokens db xs ++ linesTokens db ys := by
  have hblank : ∀ n, setSpans n [] = ([], n) := fun n => by rw [setSpans]
  rw [linesTokens, List.map_append, List.map_cons, setAllSpans_append, setAllSpans, hblank, readBlocks_append_blank]
  obtain ⟨m, happend⟩ := @renderBlocks_append_gap db 0 (readBlocks db (setAllSpans 0 (xs.map .line)).1)
    (readBlocks db (setAllSpans _ (ys.map .line)).1)
  rw [happend, renderBlocks_setAllSpans hdb m 0 _ 0]
  rfl

/-- The lines of a body without code blocks, whatever the numbers of its literals. -/
theorem bodyTokens_eq {body : List Char} (hfence : ∀ l ∈ lines (unixLines body), ¬ ['`', '`', '`'] <:+: l)
    (hne : linesTokens db (lines (unixLines body)) ≠ []) :
    bodyTokens db body = List.intercalate [.char '\n'] (linesTokens db (lines (unixLines body))) := by
  have htokens : renderBlocks db (setCode body).2 (readBlocks db (setCode body).1) =
      linesTokens db (lines (unixLines body)) := by
    rw [setCode, setFences_eq_map hfence]
    exact renderBlocks_setAllSpans hdb _ 0 0 0 _
  simp only [bodyTokens, htokens]

theorem bodyTokens_append_blank {a b : List Char} (hfence : ¬ ['`', '`', '`'] <:+: a ∧ ¬ ['`', '`', '`'] <:+: b)
    (htext : HasText a ∧ HasText b) :
    bodyTokens db (a ++ '\n' :: '\n' :: b) = bodyTokens db a ++ [.char '\n'] ++ bodyTokens db b := by
  have hmarks : ∀ {s : List Char}, ¬ ['`', '`', '`'] <:+: s → ∀ l ∈ lines (unixLines s), ¬ ['`', '`', '`'] <:+: l :=
    fun hs l hl hmarks => hs (hmarks.trans (infix_of_mem_lines hl))
  have ha : linesTokens db (lines (unixLines a)) ≠ [] := linesTokens_ne_nil db htext.1
  have hb : linesTokens db (lines (unixLines b)) ≠ [] := linesTokens_ne_nil db htext.2
  rw [bodyTokens_eq hdb (hmarks hfence.1) ha, bodyTokens_eq hdb (hmarks hfence.2) hb, ← intercalate_append ha hb]
  -- the part before the blank line may end in a CR, which by itself adds a blank line to it
  obtain ⟨ls, hlines, hls⟩ := lines_append_blank a b
  have hfirst : (∀ l ∈ ls, l ∈ lines (unixLines a)) ∧
      linesTokens db (lines (unixLines a)) = linesTokens db ls := by
    rcases hls with h | h
    · rw [h]
      exact ⟨fun l hl => hl, rfl⟩
    · rw [h, linesTokens_append_blank hdb, linesTokens_nil, List.append_nil]
      exact ⟨fun l hl => List.mem_append_left _ hl, rfl⟩
  have htokens : linesTokens db (lines (unixLines (a ++ '\n' :: '\n' :: b))) =
      linesTokens db (lines (unixLines a)) ++ linesTokens db (lines (unixLines b)) := by
    rw [hlines, linesTokens_append_blank hdb, hfirst.2]
  have hfences : ∀ l ∈ lines (unixLines (a ++ '\n' :: '\n' :: b)), ¬ ['`', '`', '`'] <:+: l := by
    rw [hlines]
    refine List.forall_mem_append.mpr ⟨fun l hl => hmarks hfence.1 l (hfirst.1 l hl), ?_⟩
    exact List.forall_mem_cons.mpr ⟨by decide, hmarks hfence.2⟩
  rw [bodyTokens_eq hdb hfences (by simp [htokens, ha]), htokens]

end Lacks

/-- A document of two parts with a blank line between them is one part after the other, provided that neither
holds a mark of code blocks or is blank, and that no chord name holds a `<`. -/
theorem render_append_blank {db : Chord.Database} (hdb : db.Lacks '<') {a b : String}
    (hfence : ¬ "```".toList <:+: a.toList ∧ ¬ "```".toList <:+: b.toList)
    (htext : HasText a.toList ∧ HasText b.toList) :
    render db (a ++ "\n\n" ++ b) = render db a ++ "\n" ++ render db b := by
  have hbody : (a ++ "\n\n" ++ b).toList = a.toList ++ '\n' :: '\n' :: b.toList := by simp
  have hprint : String.ofList (Token.print [.char '\n']) = "\n" := by decide
  rw [render, render, render, hbody, bodyTokens_append_blank hdb hfence htext, print_append, print_append,
    String.ofList_append, String.ofList_append, hprint]

theorem render_append_blank_verses :
    render .cMajor ("*la* [C]la `la`\r" ++ "\n\n" ++ "> [`x`] la") =
      render .cMajor "*la* [C]la `la`\r" ++ "\n" ++ render .cMajor "> [`x`] la" :=
  render_append_blank (by decide) (by decide +kernel) (by decide +kernel)

end LeadSheet.Markup
