import LeadSheet.Proofs.Markup.Parts

/-!
# The lines of a block

* `Kind.Fits` : what a line has to be like to be of a kind (`kind_fits`);
* `setCode_holds` : what a body's lines have once their code spans are set apart;
* `Line.IsBare` : nothing but characters and code spans, which is what a body consists of before its lines are
  marked up (`setCode_bare`);
* `Block.Holds P` : every line of the block satisfies `P`, its heading has one of five levels, and its
  language is spelled in the characters of a language's name;
* `Block.markedLines` : those lines of the block to which the rules inside a line are applied;
* `readBlocks_holds` : a property that passes from a line to its stretches passes from the lines of a
  body to the lines of its blocks.

The last rests on one fact for each reader of a line: whatever it returns is a stretch of the line.
-/

namespace LeadSheet.Markup

open Text

/-! ## Kinds -/

/-- What a line has to be like to be of a kind. -/
def Kind.Fits (db : Chord.Database) (line : Line) (next : Option (Source Line)) : Kind → Prop
  | .blank => Line.isEmptyLine line = true
  | .heading level text => heading? line = some (level, text)
  | .rule => isRule line = true
  | .reference r => reference? db line = some r
  | .quote => (quoted? line).isSome = true
  | .table => ∃ l, next = some (.line l) ∧ isSeparator l = true
  | .item => (item? line).isSome = true
  | .label name remainder => label? db line = some (name, remainder)
  | .plain => True

theorem kind_fits (db : Chord.Database) (line : Line) (next : Option (Source Line)) :
    (kind db line next).Fits db line next := by
  unfold kind
  split
  · rename_i h
    exact h
  · split
    · rename_i h
      exact h
    · split
      · rename_i h
        exact h
      · split
        · rename_i h
          exact h
        · split
          · rename_i h
            exact h
          · split
            · rename_i h
              simp only [Bool.and_eq_true, Option.any_eq_true] at h
              obtain ⟨-, source, hnext, hsep⟩ := h
              cases source with
              | line l => exact ⟨l, hnext, hsep⟩
              | fence language code => simp at hsep
            · split
              · rename_i h
                exact h
              · split
                · rename_i h
                  exact h
                · trivial

theorem fits_of_kind {db : Chord.Database} {line : Line} {next : Option (Source Line)} {k : Kind}
    (h : kind db line next = k) : k.Fits db line next :=
  h ▸ kind_fits db line next

/-! ## Code -/

/-- The line satisfies `P`, or the language of the fence is spelled in the characters of a language's
name. -/
def Source.Holds {α : Type} (P : α → Prop) : Source α → Prop
  | .line l => P l
  | .fence language _ => ∀ c ∈ language, isLanguageChar c = true

theorem fenceLanguage?_eq_some {line language : List Char} (h : fenceLanguage? line = some language) :
    ∀ c ∈ language, isLanguageChar c = true := by
  obtain ⟨rest, -, rfl⟩ := Option.map_eq_some_iff.mp h
  exact fun c hc => List.mem_takeWhile_imp hc

theorem setFences_holds {P : List Char → Prop} {ls : List (List Char)} (h : ∀ l ∈ ls, P l) :
    ∀ s ∈ setFences ls, s.Holds P := by
  fun_induction setFences ls with
  | case1 => simp
  | case2 line rest hnone ih =>
      obtain ⟨hline, hrest⟩ := List.forall_mem_cons.mp h
      exact List.forall_mem_cons.mpr ⟨hline, ih hrest⟩
  | case3 line rest language hsome hdrop ih =>
      obtain ⟨hline, hrest⟩ := List.forall_mem_cons.mp h
      exact List.forall_mem_cons.mpr ⟨hline, ih hrest⟩
  | case4 line rest language hsome close after hdrop _ ih =>
      obtain ⟨-, hrest⟩ := List.forall_mem_cons.mp h
      have hafter : ∀ l ∈ after, P l := fun l hl =>
        hrest l ((List.dropWhile_sublist _).mem (hdrop ▸ List.mem_cons_of_mem close hl))
      exact List.forall_mem_cons.mpr ⟨fenceLanguage?_eq_some hsome, ih hafter⟩

theorem fenceLanguage?_eq_none {line : List Char} (h : ¬ ['`', '`', '`'] <:+: line) : fenceLanguage? line = none := by
  have hafter : afterFence? line = none := by
    unfold afterFence?
    split
    · rename_i rest heq
      have hmarks : ['`', '`', '`'] <+: line.dropWhile isBlank := ⟨rest, by rw [heq]; rfl⟩
      exact absurd (hmarks.isInfix.trans (List.dropWhile_suffix _).isInfix) h
    · rfl
  rw [fenceLanguage?, hafter]
  rfl

/-- No code block begins in front of the lines that follow lines without such marks. -/
theorem setFences_append {ls : List (List Char)} (h : ∀ l ∈ ls, ¬ ['`', '`', '`'] <:+: l) (rest : List (List Char)) :
    setFences (ls ++ rest) = ls.map .line ++ setFences rest := by
  induction ls with
  | nil => rfl
  | cons l ls ih =>
      obtain ⟨hl, hls⟩ := List.forall_mem_cons.mp h
      rw [List.cons_append, setFences, fenceLanguage?_eq_none hl, ih hls]
      rfl

theorem setFences_eq_map {ls : List (List Char)} (h : ∀ l ∈ ls, ¬ ['`', '`', '`'] <:+: l) :
    setFences ls = ls.map .line := by
  have happend := setFences_append h []
  rwa [setFences, List.append_nil, List.append_nil] at happend

theorem setAllSpans_holds {P : Line → Prop} {sources : List (Source (List Char))}
    (h : ∀ s ∈ sources, s.Holds fun l => ∀ n, P (setSpans n l).1) (n : Nat) :
    ∀ s ∈ (setAllSpans n sources).1, s.Holds P := by
  induction sources generalizing n with
  | nil => simp [setAllSpans]
  | cons s sources ih =>
      obtain ⟨hs, hsources⟩ := List.forall_mem_cons.mp h
      cases s with
      | line l => exact List.forall_mem_cons.mpr ⟨hs n, ih hsources _⟩
      | fence language code => exact List.forall_mem_cons.mpr ⟨hs, ih hsources n⟩

/-- What holds of every line of a body with its spans set apart holds of the lines of its blocks. -/
theorem setCode_holds {P : Line → Prop} {body : List Char}
    (h : ∀ l ∈ lines (unixLines body), ∀ n, P (setSpans n l).1) : ∀ s ∈ (setCode body).1, s.Holds P :=
  setAllSpans_holds (setFences_holds h) 0

/-- A character or a code span. -/
def Piece.IsBare : Piece → Prop
  | .char _ => True
  | .tag _ => False
  | .literal _ content => ∃ code, content = codeSpan code

/-- Nothing but characters and code spans. -/
def Line.IsBare (l : Line) : Prop := ∀ p ∈ l, p.IsBare

theorem isBare_ofChars (s : List Char) : (Line.ofChars s).IsBare := by
  intro p hp
  obtain ⟨c, -, rfl⟩ := List.mem_map.mp hp
  trivial

theorem setSpans_bare (n : Nat) (s : List Char) : (setSpans n s).1.IsBare := by
  fun_induction setSpans n s with
  | case1 => exact isBare_ofChars []
  | case2 n c rest => exact isBare_ofChars (c :: rest)
  | case3 n c rest hc mark after hdrop _ pieces m heq ih =>
      rw [heq] at ih
      exact List.forall_mem_cons.mpr ⟨⟨_, rfl⟩, ih⟩
  | case4 n c rest hc pieces m heq ih =>
      rw [heq] at ih
      exact List.forall_mem_cons.mpr ⟨trivial, ih⟩

theorem setCode_bare (body : List Char) : ∀ s ∈ (setCode body).1, s.Holds Line.IsBare :=
  setCode_holds fun l _ n => setSpans_bare n l

/-! ## Blocks -/

def Block.Holds (P : Line → Prop) : Block → Prop
  | .gap => True
  | .fence language _ => ∀ c ∈ language, isLanguageChar c = true
  | .heading level text => 1 ≤ level ∧ level ≤ 5 ∧ P text
  | .rule => True
  | .reference r => P r.name ∧ P r.frets ∧ P r.remark
  | .quote lines => ∀ l ∈ lines, P l
  | .table header rows => (∀ l ∈ header, P l) ∧ ∀ row ∈ rows, ∀ l ∈ row, P l
  | .list items => ∀ item ∈ items, P item.text
  | .label name => P name
  | .paragraph lines => ∀ l ∈ lines, P l

/-- The lines of the block that are marked up. A label and the name and the frets of a reference line are
shown as they are. -/
def Block.markedLines : Block → List Line
  | .heading _ text => [text]
  | .reference r => [r.remark]
  | .quote lines => lines
  | .table header rows => header ++ rows.flatten
  | .list items => items.map Item.text
  | .paragraph lines => lines
  | .gap | .fence _ _ | .rule | .label _ => []

theorem Block.Holds.markedLines {P : Line → Prop} {b : Block} (h : b.Holds P) : ∀ l ∈ b.markedLines, P l := by
  intro l hl
  cases b with
  | heading level text => exact List.mem_singleton.mp hl ▸ h.2.2
  | reference r => exact List.mem_singleton.mp hl ▸ h.2.2
  | quote lines => exact h l hl
  | table header rows =>
      rcases List.mem_append.mp hl with hl | hl
      · exact h.1 l hl
      · obtain ⟨row, hrow, hl⟩ := List.mem_flatten.mp hl
        exact h.2 row hrow l hl
  | list items =>
      obtain ⟨item, hitem, rfl⟩ := List.mem_map.mp hl
      exact h item hitem
  | paragraph lines => exact h l hl
  | gap | fence language code | rule | label name => exact absurd hl List.not_mem_nil

/-- The property passes from a line to its stretches. -/
def InfixClosed (P : Line → Prop) : Prop := ∀ l l', l' <:+: l → P l → P l'

theorem isBare_infixClosed : InfixClosed Line.IsBare := fun _ _ hl' hl p hp => hl p (hl'.subset hp)

/-- No link and no image ends in the line. -/
def Linkless (l : Line) : Prop := ¬ Line.ofChars [']', '('] <:+: l

theorem linkless_infixClosed : InfixClosed Linkless := fun _ _ hl' hl h => hl (h.trans hl')

section Holds

variable {P : Line → Prop} {db : Chord.Database}

theorem addLine_holds {line : Line} {blocks : List Block} (hline : P line)
    (hblocks : ∀ b ∈ blocks, b.Holds P) : ∀ b ∈ addLine line blocks, b.Holds P := by
  unfold addLine
  split
  · rename_i lines rest
    obtain ⟨hlines, hrest⟩ := List.forall_mem_cons.mp hblocks
    have hparagraph : Block.Holds P (.paragraph (line :: lines)) := List.forall_mem_cons.mpr ⟨hline, hlines⟩
    exact List.forall_mem_cons.mpr ⟨hparagraph, hrest⟩
  · have hparagraph : Block.Holds P (.paragraph [line]) := by simpa [Block.Holds] using hline
    exact List.forall_mem_cons.mpr ⟨hparagraph, hblocks⟩

theorem quoteText_holds (hP : InfixClosed P) (hnil : P []) {s : Source Line} (hs : s.Holds P) :
    P (quoteText s) := by
  cases s with
  | fence language code => exact hnil
  | line l =>
      simp only [quoteText]
      cases hq : quoted? l with
      | none => exact hP l _ (trim_trims l).isInfix hs
      | some text => exact hP l text (quoted?_trims hq).isInfix hs

theorem rowCells_holds (hP : InfixClosed P) {s : Source Line} (hs : s.Holds P) : ∀ l ∈ rowCells s, P l := by
  intro l hl
  cases s with
  | fence language code => simp [rowCells] at hl
  | line row => exact hP row l (infix_of_mem_cells hl) hs

theorem lineItem?_holds (hP : InfixClosed P) {s : Source Line} (hs : s.Holds P) {item : Item}
    (h : lineItem? s = some item) : P item.text := by
  cases s with
  | fence language code => simp [lineItem?] at h
  | line l => exact hP l _ (item?_trims h).isInfix hs

/-- What holds of the lines of a body and of their stretches holds of the lines of its blocks. -/
theorem readBlocks_holds (hP : InfixClosed P) {lines : List (Source Line)}
    (h : ∀ s ∈ lines, s.Holds P) : ∀ b ∈ readBlocks db lines, b.Holds P := by
  fun_induction readBlocks db lines with
  | case1 => simp
  | case2 language code rest ih =>
      obtain ⟨hfence, hrest⟩ := List.forall_mem_cons.mp h
      exact List.forall_mem_cons.mpr ⟨hfence, ih hrest⟩
  | case3 line rest hkind ih =>
      exact List.forall_mem_cons.mpr ⟨trivial, ih (List.forall_mem_cons.mp h).2⟩
  | case4 line rest level text hkind ih =>
      obtain ⟨hline, hrest⟩ := List.forall_mem_cons.mp h
      obtain ⟨hpos, hle, htext⟩ := heading?_eq_some (fits_of_kind hkind)
      exact List.forall_mem_cons.mpr ⟨⟨hpos, hle, hP line text htext.isInfix hline⟩, ih hrest⟩
  | case5 line rest hkind ih =>
      exact List.forall_mem_cons.mpr ⟨trivial, ih (List.forall_mem_cons.mp h).2⟩
  | case6 line rest r hkind ih =>
      obtain ⟨hline, hrest⟩ := List.forall_mem_cons.mp h
      obtain ⟨hname, hfrets, hremark⟩ := reference?_infix (fits_of_kind hkind)
      exact List.forall_mem_cons.mpr
        ⟨⟨hP line _ hname hline, hP line _ hfrets hline, hP line _ hremark hline⟩, ih hrest⟩
  | case7 line rest hkind _ ih =>
      obtain ⟨hline, hrest⟩ := List.forall_mem_cons.mp h
      have hnil : P [] := hP line [] List.nil_infix hline
      have hquote : Block.Holds P
          (.quote (quoteText (.line line) :: (rest.takeWhile continuesQuote).map quoteText)) := by
        refine List.forall_mem_cons.mpr ⟨?_, fun l hl => ?_⟩
        · exact quoteText_holds hP hnil hline
        · obtain ⟨s, hs, rfl⟩ := List.mem_map.mp hl
          exact quoteText_holds hP hnil (hrest s ((List.takeWhile_sublist _).mem hs))
      exact List.forall_mem_cons.mpr ⟨hquote, ih fun s hs => hrest s ((List.dropWhile_sublist _).mem hs)⟩
  | case8 line rest hkind _ ih =>
      obtain ⟨hline, hrest⟩ := List.forall_mem_cons.mp h
      have htail : ∀ s ∈ rest.tail, s.Holds P := fun s hs => hrest s (List.mem_of_mem_tail hs)
      have htable : Block.Holds P
          (.table (cells line) ((rest.tail.takeWhile continuesTable).map rowCells)) := by
        refine ⟨fun l hl => hP line l (infix_of_mem_cells hl) hline, fun row hrow => ?_⟩
        obtain ⟨s, hs, rfl⟩ := List.mem_map.mp hrow
        exact rowCells_holds hP (htail s ((List.takeWhile_sublist _).mem hs))
      exact List.forall_mem_cons.mpr ⟨htable, ih fun s hs => htail s ((List.dropWhile_sublist _).mem hs)⟩
  | case9 line rest hkind _ ih =>
      obtain ⟨hline, hrest⟩ := List.forall_mem_cons.mp h
      have hlist : Block.Holds P
          (.list ((.line line :: rest.takeWhile (continuesList db)).filterMap lineItem?)) := by
        intro item hitem
        obtain ⟨s, hs, hitem⟩ := List.mem_filterMap.mp hitem
        rcases List.mem_cons.mp hs with rfl | hs
        · exact lineItem?_holds hP hline hitem
        · exact lineItem?_holds hP (hrest s ((List.takeWhile_sublist _).mem hs)) hitem
      exact List.forall_mem_cons.mpr ⟨hlist, ih fun s hs => hrest s ((List.dropWhile_sublist _).mem hs)⟩
  | case10 line rest name remainder hkind ih =>
      obtain ⟨hline, hrest⟩ := List.forall_mem_cons.mp h
      obtain ⟨hname, hremainder⟩ := label?_infix (fits_of_kind hkind)
      refine List.forall_mem_cons.mpr ⟨hP line name hname hline, ?_⟩
      split
      · exact ih hrest
      · exact addLine_holds (hP line remainder hremainder hline) (ih hrest)
  | case11 line rest hkind ih =>
      obtain ⟨hline, hrest⟩ := List.forall_mem_cons.mp h
      exact addLine_holds hline (ih hrest)

end Holds

end LeadSheet.Markup
