import LeadSheet.Proofs.Markup.Compose
import LeadSheet.Proofs.Markup.Safety

/-!
# The literal regions of a body

A line of three backticks opens a region if a later line is a closing one; the region reaches to the nearest such
line. The regions of a body become its code blocks, in order and with nothing added, and no rule for lines or
blocks touches them.

* `Regions ls rs` : the regions of the lines are `rs`;
* `Region.markup` : what a region reads like in a document;
* `codeBlocks_setFences` : the code that is set apart is that of the regions;
* `codeBlocks_bodyBlocks` : it passes through code spans and through the reading of blocks.
-/

namespace LeadSheet.Markup

open Text

/-! ## Regions -/

/-- Nothing but spaces and tabs. -/
def AllBlank (s : List Char) : Prop := ∀ c ∈ s, isBlank c = true

instance (s : List Char) : Decidable (AllBlank s) := decidable_of_iff (s.all isBlank = true) List.all_eq_true

/-- A line that can open a region: blanks, three backticks, and what else the line says. -/
def OpensWith (info line : List Char) : Prop := ∃ blanks, AllBlank blanks ∧ line = blanks ++ "```".toList ++ info

/-- A line that closes a region: three backticks and blanks around them. -/
def Closes (line : List Char) : Prop := ∃ blanks, AllBlank blanks ∧ OpensWith blanks line

/-- A region: what its opening line says after the backticks, and the lines inside. -/
structure Region where
  info : List Char
  inner : List (List Char)

/-- The regions of some lines, found from the first line on. -/
inductive Regions : List (List Char) → List Region → Prop
  | none {ls : List (List Char)} :
      (∀ before line after info, ls = before ++ line :: after → OpensWith info line → ∀ l ∈ after, ¬ Closes l) →
        Regions ls []
  | region {before inner after : List (List Char)} {opening closing info : List Char} {rs : List Region} :
      (∀ l ∈ before, ∀ info, ¬ OpensWith info l) → OpensWith info opening → (∀ l ∈ inner, ¬ Closes l) →
        Closes closing → Regions after rs →
          Regions (before ++ opening :: (inner ++ closing :: after)) (⟨info, inner⟩ :: rs)

namespace Region

/-- The language: the longest run of characters of a language's name after the backticks and some blanks. -/
def language (r : Region) : List Char := (r.info.dropWhile isBlank).takeWhile isLanguageChar

/-- The lines inside, without the line ends after the last one that is not empty. -/
def code (r : Region) : List Char := dropEndWhile (· == '\n') (joinLines r.inner)

def markup (r : Region) : List Char :=
  "<pre><code".toList ++
    (if r.language = [] then [] else " class=\"language-".toList ++ r.language ++ ['"']) ++ ['>'] ++ escape r.code ++
    "</code></pre>".toList

end Region

/-! ## Opening and closing lines -/

theorem afterFence?_eq_some {line rest : List Char} :
    afterFence? line = some rest ↔ ∃ info, OpensWith info line ∧ rest = info.dropWhile isBlank := by
  unfold afterFence?
  constructor
  · intro h
    split at h
    · rename_i info hdrop
      refine ⟨info, ⟨line.takeWhile isBlank, fun c hc => List.mem_takeWhile_imp hc, ?_⟩, (Option.some.inj h).symm⟩
      rw [List.append_assoc]
      exact (List.takeWhile_append_dropWhile (p := isBlank)).symm.trans (congrArg _ hdrop)
    · simp at h
  · rintro ⟨info, ⟨blanks, hblanks, rfl⟩, rfl⟩
    have hdrop : (blanks ++ "```".toList ++ info).dropWhile isBlank = '`' :: '`' :: '`' :: info := by
      rw [List.append_assoc, List.dropWhile_append_of_pos hblanks]
      rfl
    rw [hdrop]
    rfl

theorem closesFence_iff {line : List Char} : closesFence line = true ↔ Closes line := by
  have hcloses : closesFence line = true ↔ afterFence? line = some [] := by
    unfold closesFence
    split
    · rename_i h
      simp [h]
    · rename_i h
      simpa using h
  rw [hcloses, afterFence?_eq_some]
  constructor
  · rintro ⟨info, hline, hinfo⟩
    exact ⟨info, List.dropWhile_eq_nil_iff.mp hinfo.symm, hline⟩
  · rintro ⟨blanks, hblanks, hline⟩
    exact ⟨blanks, hline, (List.dropWhile_eq_nil_iff.mpr hblanks).symm⟩

theorem fenceLanguage?_of_opens {info line : List Char} (h : OpensWith info line) (inner : List (List Char)) :
    fenceLanguage? line = some (Region.language ⟨info, inner⟩) := by
  rw [fenceLanguage?, afterFence?_eq_some.mpr ⟨info, h, rfl⟩]
  rfl

theorem fenceLanguage?_of_not_opens {line : List Char} (h : ∀ info, ¬ OpensWith info line) :
    fenceLanguage? line = none := by
  rw [fenceLanguage?, Option.map_eq_none_iff, Option.eq_none_iff_forall_ne_some]
  intro rest hrest
  obtain ⟨info, hline, -⟩ := afterFence?_eq_some.mp hrest
  exact h info hline

/-! ## Code that is set apart -/

theorem setFences_of_not_opens {line : List Char} (h : ∀ info, ¬ OpensWith info line) (rest : List (List Char)) :
    setFences (line :: rest) = .line line :: setFences rest := by
  rw [setFences, fenceLanguage?_of_not_opens h]

theorem dropWhile_not_closes {ls : List (List Char)} (h : ∀ l ∈ ls, ¬ Closes l) :
    ls.dropWhile (!closesFence ·) = [] := by
  rw [List.dropWhile_eq_nil_iff]
  intro l hl
  have hl : ¬ closesFence l = true := fun hclose => h l hl (closesFence_iff.mp hclose)
  simpa using hl

theorem setFences_of_not_closes {rest : List (List Char)} (h : ∀ l ∈ rest, ¬ Closes l) (line : List Char) :
    setFences (line :: rest) = .line line :: setFences rest := by
  rw [setFences]
  split
  · rfl
  · split
    · rfl
    · rename_i hdrop
      rw [dropWhile_not_closes h] at hdrop
      exact absurd hdrop (by simp)

theorem setFences_region {inner after : List (List Char)} {opening closing info : List Char}
    (hopening : OpensWith info opening) (hinner : ∀ l ∈ inner, ¬ Closes l) (hclosing : Closes closing) :
    setFences (opening :: (inner ++ closing :: after)) =
      .fence (Region.language ⟨info, inner⟩) (Region.code ⟨info, inner⟩) :: setFences after := by
  have hstop : (!closesFence closing) = false := by simp [closesFence_iff.mpr hclosing]
  have hdrop : (inner ++ closing :: after).dropWhile (!closesFence ·) = closing :: after := by
    rw [dropWhile_append_mark (p := (!closesFence ·)) hstop, dropWhile_not_closes hinner, List.nil_append]
  have htake : (inner ++ closing :: after).takeWhile (!closesFence ·) = inner := by
    rw [takeWhile_append_mark (p := (!closesFence ·)) hstop, List.takeWhile_eq_self_iff]
    exact List.dropWhile_eq_nil_iff.mp (dropWhile_not_closes hinner)
  rw [setFences, fenceLanguage?_of_opens hopening inner]
  simp only
  split
  · rename_i hnil
    rw [hdrop] at hnil
    exact absurd hnil (by simp)
  · rename_i close rest hsome
    rw [hdrop] at hsome
    obtain ⟨-, rfl⟩ := List.cons.inj hsome
    rw [htake]
    rfl

/-- The language and the code of a code block. -/
def Source.codeBlock? {α : Type} : Source α → Option (List Char × List Char)
  | .line _ => none
  | .fence language code => some (language, code)

/-- The code that is set apart is that of the regions. -/
theorem codeBlocks_setFences {ls : List (List Char)} {rs : List Region} (h : Regions ls rs) :
    (setFences ls).filterMap Source.codeBlock? = rs.map fun r => (r.language, r.code) := by
  induction h with
  | @none ls hls =>
      induction ls with
      | nil => rw [setFences, List.filterMap_nil, List.map_nil]
      | cons line ls ih =>
          have hstep : setFences (line :: ls) = .line line :: setFences ls := by
            by_cases hopens : ∃ info, OpensWith info line
            · obtain ⟨info, hinfo⟩ := hopens
              exact setFences_of_not_closes (hls [] line ls info rfl hinfo) line
            · exact setFences_of_not_opens (not_exists.mp hopens) ls
          rw [hstep, List.filterMap_cons]
          exact ih fun before l after info hl => hls (line :: before) l after info (by rw [hl, List.cons_append])
  | @region before inner after opening closing info rs hbefore hopening hinner hclosing _ ih =>
      induction before with
      | nil =>
          rw [List.nil_append, setFences_region hopening hinner hclosing, List.filterMap_cons, Source.codeBlock?, ih,
            List.map_cons]
      | cons line before ihbefore =>
          obtain ⟨hline, hbefore⟩ := List.forall_mem_cons.mp hbefore
          rw [List.cons_append, setFences_of_not_opens hline, List.filterMap_cons]
          exact ihbefore hbefore

theorem Regions.cons {ls : List (List Char)} {rs : List Region} (h : Regions ls rs) {line : List Char}
    (hline : ∀ info, ¬ OpensWith info line) : Regions (line :: ls) rs := by
  cases h with
  | none hls =>
      refine .none fun before line' after info heq hopens => ?_
      cases before with
      | nil => exact absurd ((List.cons.inj heq).1 ▸ hopens) (hline info)
      | cons _ before => exact hls before line' after info (List.cons.inj heq).2 hopens
  | region hbefore hopening hinner hclosing hafter =>
      exact .region (List.forall_mem_cons.mpr ⟨hline, hbefore⟩) hopening hinner hclosing hafter

/-- The lines have regions, whatever they are. -/
theorem exists_regions (ls : List (List Char)) : ∃ rs, Regions ls rs := by
  fun_induction setFences ls with
  | case1 => exact ⟨[], .none (by simp)⟩
  | case2 line rest h ih =>
      obtain ⟨rs, hrs⟩ := ih
      refine ⟨rs, hrs.cons fun info hinfo => ?_⟩
      exact absurd (h.symm.trans (fenceLanguage?_of_opens hinfo [])) (by simp)
  | case3 line rest language h hdrop ih =>
      have hrest : ∀ l ∈ rest, ¬ Closes l := by
        intro l hl hcloses
        simpa [closesFence_iff.mpr hcloses] using List.dropWhile_eq_nil_iff.mp hdrop l hl
      refine ⟨[], .none fun before line' after info heq _ l hl => hrest l ?_⟩
      cases before with
      | nil => exact (List.cons.inj heq).2 ▸ hl
      | cons _ before => exact (List.cons.inj heq).2 ▸ List.mem_append_right before (List.mem_cons_of_mem _ hl)
  | case4 line rest language h closing after hdrop _ ih =>
      obtain ⟨rs, hrs⟩ := ih
      obtain ⟨hclosing, hrest⟩ := eq_takeWhile_append hdrop
      have hline : ∃ info, OpensWith info line := by
        by_contra hnone
        exact absurd (h.symm.trans (fenceLanguage?_of_not_opens (not_exists.mp hnone))) (by simp)
      obtain ⟨info, hinfo⟩ := hline
      have hinner : ∀ l ∈ rest.takeWhile (!closesFence ·), ¬ Closes l := by
        intro l hl hcloses
        simpa [closesFence_iff.mpr hcloses] using List.mem_takeWhile_imp hl
      have hclosing : Closes closing := closesFence_iff.mp (by simpa using hclosing)
      generalize rest.takeWhile (!closesFence ·) = inner at hrest hinner
      rw [hrest]
      have hregion : Regions ([] ++ line :: (inner ++ closing :: after)) (⟨info, inner⟩ :: rs) :=
        .region (by simp) hinfo hinner hclosing hrs
      exact ⟨_, hregion⟩

/-! ## Code through the reading of lines and blocks -/

theorem codeBlocks_setAllSpans (n : Nat) (sources : List (Source (List Char))) :
    (setAllSpans n sources).1.filterMap Source.codeBlock? = sources.filterMap Source.codeBlock? := by
  induction sources generalizing n with
  | nil => rfl
  | cons s sources ih =>
      cases s with
      | line l => exact ih _
      | fence language code => exact congrArg ((language, code) :: ·) (ih n)

/-- The language and the code of a block, if it is a code block. -/
def Block.codeBlock? : Block → Option (List Char × List Char)
  | .fence language code => some (language, code)
  | _ => none

theorem codeBlocks_addLine (line : Line) (blocks : List Block) :
    (addLine line blocks).filterMap Block.codeBlock? = blocks.filterMap Block.codeBlock? := by
  cases blocks with
  | nil => rfl
  | cons b blocks => cases b <;> rfl

theorem filterMap_dropWhile {α β : Type} {p : α → Bool} {f : α → Option β} (h : ∀ a, p a = true → f a = none)
    (s : List α) : (s.dropWhile p).filterMap f = s.filterMap f := by
  induction s with
  | nil => rfl
  | cons a s ih =>
      rw [List.dropWhile_cons]
      split
      · rename_i ha
        rw [ih, List.filterMap_cons, h a ha]
      · rfl

/-- No block takes a code block into itself. -/
theorem codeBlocks_readBlocks (db : Chord.Database) (ls : List (Source Line)) :
    (readBlocks db ls).filterMap Block.codeBlock? = ls.filterMap Source.codeBlock? := by
  have hquote : ∀ s, continuesQuote s = true → s.codeBlock? = none := by
    intro s hs
    cases s with
    | line l => rfl
    | fence language code => simp [continuesQuote] at hs
  have htable : ∀ s, continuesTable s = true → s.codeBlock? = none := by
    intro s hs
    cases s with
    | line l => rfl
    | fence language code => simp [continuesTable] at hs
  have hlist : ∀ s, continuesList db s = true → s.codeBlock? = none := by
    intro s hs
    cases s with
    | line l => rfl
    | fence language code => simp [continuesList] at hs
  fun_induction readBlocks db ls with
  | case1 => rfl
  | case2 language code rest ih => exact congrArg ((language, code) :: ·) ih
  | case3 line rest h ih => exact ih
  | case4 line rest level text h ih => exact ih
  | case5 line rest h ih => exact ih
  | case6 line rest r h ih => exact ih
  | case7 line rest h _ ih => exact ih.trans (filterMap_dropWhile hquote rest)
  | case8 line rest h _ ih =>
      obtain ⟨l, hnext, -⟩ : ∃ l, rest.head? = some (.line l) ∧ isSeparator l = true := fits_of_kind h
      cases rest with
      | nil => simp at hnext
      | cons s rest =>
          obtain rfl := Option.some.inj hnext
          exact ih.trans (filterMap_dropWhile htable rest)
  | case9 line rest h _ ih => exact ih.trans (filterMap_dropWhile hlist rest)
  | case10 line rest name remainder h ih =>
      change List.filterMap Block.codeBlock? (if remainder.isEmpty then _ else _) = _
      split
      · exact ih
      · exact (codeBlocks_addLine remainder _).trans ih
  | case11 line rest h ih => exact (codeBlocks_addLine line _).trans ih

/-- The code blocks of a body are its regions. -/
theorem codeBlocks_bodyBlocks (db : Chord.Database) {body : List Char} {rs : List Region}
    (h : Regions (lines (unixLines body)) rs) :
    (bodyBlocks db body).filterMap Block.codeBlock? = rs.map fun r => (r.language, r.code) := by
  rw [bodyBlocks, codeBlocks_readBlocks, setCode, codeBlocks_setAllSpans, codeBlocks_setFences h]

end LeadSheet.Markup
