import LeadSheet.Markup.Block
import LeadSheet.Proofs.Markup.Readers

/-!
# Parts of a line

`Trims line text` : the text is the line without some characters at either end, none of them a letter.
Blanks, bullets, number signs and bars are taken off in this way. The readers of a line return trimmed
parts of it, a label's name and remainder, or, of a reference line, some stretches of it.
-/

namespace LeadSheet.Markup

open Text

/-! ## Trimmed lines -/

/-- A character other than an ASCII letter. -/
def Piece.isFiller (p : Piece) : Bool := p.sat fun c => !isAsciiLetter c

/-- The line holds fillers only. -/
def AllFiller (line : Line) : Prop := ∀ p ∈ line, p.isFiller = true

/-- The text is the line without some fillers at either end. -/
def Trims (line text : Line) : Prop :=
  ∃ a b, line = a ++ text ++ b ∧ AllFiller a ∧ AllFiller b

theorem isAsciiLetter_of_range {r : Nat × Nat} (hr : r.2 < 65 ∨ 122 < r.1) {c : Char}
    (hc : r.1 ≤ c.toNat ∧ c.toNat ≤ r.2) : isAsciiLetter c = false := by
  have hletter : ¬ ((97 ≤ c.toNat ∧ c.toNat ≤ 122) ∨ (65 ≤ c.toNat ∧ c.toNat ≤ 90)) := by omega
  simpa [isAsciiLetter, Char.le_def, UInt32.le_iff_toNat_le] using hletter

theorem isAsciiLetter_of_isSpace {c : Char} (h : isSpace c = true) : isAsciiLetter c = false := by
  have hranges : ∀ r ∈ spaceRanges, r.2 < 65 ∨ 122 < r.1 := by decide
  obtain ⟨r, hr, hc⟩ := Ranges.contains_iff.mp h
  exact isAsciiLetter_of_range (hranges r hr) hc

theorem isAsciiLetter_of_isDigit {c : Char} (h : isDigit c = true) : isAsciiLetter c = false := by
  have hranges : ∀ r ∈ digitRanges, r.2 < 65 ∨ 122 < r.1 := by decide
  rw [isDigit, digitValue?, Option.isSome_map, Ranges.interval?, List.find?_isSome] at h
  obtain ⟨r, hr, hc⟩ := h
  simp only [Bool.and_eq_true, decide_eq_true_eq] at hc
  exact isAsciiLetter_of_range (hranges r hr) hc

namespace Piece

theorem isFiller_of_space {p : Piece} (h : p.sat isSpace = true) : p.isFiller = true := by
  cases p with
  | char c =>
      have hc : isSpace c = true := h
      simp only [isFiller, sat, isAsciiLetter_of_isSpace hc, Bool.not_false]
  | tag t => simp [sat] at h
  | literal n content => simp [sat] at h

theorem isFiller_of_blank {p : Piece} (h : p.sat isBlank = true) : p.isFiller = true := by
  cases p with
  | char c =>
      have hc : isBlank c = true := h
      exact isFiller_of_space (isSpace_of_isBlank hc)
  | tag t => simp [sat] at h
  | literal n content => simp [sat] at h

theorem isFiller_of_is {c : Char} (hc : isAsciiLetter c = false) {p : Piece} (h : p.is c = true) :
    p.isFiller = true := by
  rw [eq_char_of_is h]
  simp only [isFiller, sat, hc, Bool.not_false]

end Piece

theorem allFiller_append {a b : Line} : AllFiller (a ++ b) ↔ AllFiller a ∧ AllFiller b :=
  List.forall_mem_append

theorem allFiller_cons {p : Piece} {a : Line} : AllFiller (p :: a) ↔ p.isFiller = true ∧ AllFiller a :=
  List.forall_mem_cons

theorem allFiller_nil : AllFiller [] := by simp [AllFiller]

theorem allFiller_takeWhile {q : Piece → Bool} (hq : ∀ p, q p = true → p.isFiller = true) (line : Line) :
    AllFiller (line.takeWhile q) :=
  fun p hp => hq p (List.mem_takeWhile_imp hp)

namespace Trims

theorem refl (line : Line) : Trims line line := ⟨[], [], by simp, allFiller_nil, allFiller_nil⟩

theorem trans {line text inner : Line} (h : Trims line text) (h' : Trims text inner) :
    Trims line inner := by
  obtain ⟨a, b, rfl, ha, hb⟩ := h
  obtain ⟨a', b', rfl, ha', hb'⟩ := h'
  exact ⟨a ++ a', b' ++ b, by simp, allFiller_append.mpr ⟨ha, ha'⟩, allFiller_append.mpr ⟨hb', hb⟩⟩

theorem isInfix {line text : Line} (h : Trims line text) : text <:+: line := by
  obtain ⟨a, b, rfl, -, -⟩ := h
  exact ⟨a, b, rfl⟩

theorem of_allFiller {line text : Line} (hline : AllFiller line) (h : text <:+: line) : Trims line text := by
  obtain ⟨a, b, rfl⟩ := h
  rw [allFiller_append, allFiller_append] at hline
  exact ⟨a, b, rfl, hline.1.1, hline.2⟩

theorem append_left {a : Line} (ha : AllFiller a) (text : Line) : Trims (a ++ text) text :=
  ⟨a, [], by simp, ha, allFiller_nil⟩

theorem append_right {b : Line} (hb : AllFiller b) (text : Line) : Trims (text ++ b) text :=
  ⟨[], b, by simp, allFiller_nil, hb⟩

theorem dropWhile {q : Piece → Bool} (hq : ∀ p, q p = true → p.isFiller = true) (line : Line) :
    Trims line (line.dropWhile q) := by
  have h := append_left (allFiller_takeWhile hq line) (line.dropWhile q)
  rwa [List.takeWhile_append_dropWhile] at h

theorem dropEndWhile {q : Piece → Bool} (hq : ∀ p, q p = true → p.isFiller = true) (line : Line) :
    Trims line (dropEndWhile q line) := by
  have hend : AllFiller (line.reverse.takeWhile q).reverse :=
    fun p hp => allFiller_takeWhile hq _ p (List.mem_reverse.mp hp)
  have h := append_right hend (Text.dropEndWhile q line)
  rwa [Text.dropEndWhile, ← List.reverse_append, List.takeWhile_append_dropWhile, List.reverse_reverse] at h

end Trims

theorem dropBlanks_trims (line : Line) : Trims line (Line.dropBlanks line) :=
  .dropWhile (fun _ => Piece.isFiller_of_blank) line

theorem dropEndBlanks_trims (line : Line) : Trims line (Line.dropEndBlanks line) :=
  .dropEndWhile (fun _ => Piece.isFiller_of_blank) line

theorem trim_trims (line : Line) : Trims line (Line.trim line) :=
  (Trims.dropWhile (fun _ => Piece.isFiller_of_space) line).trans
    (.dropEndWhile (fun _ => Piece.isFiller_of_space) _)

/-! ## The readers of a line in terms of their marks -/

theorem quoted?_eq (line : Line) :
    quoted? line = (Line.dropMark? ['>'] (Line.dropBlanks line)).map fun rest =>
      if rest.head?.any (Piece.sat isBlank) then rest.tail else rest := by
  unfold quoted?
  rcases Line.head_cases '>' (Line.dropBlanks line) with ⟨rest, h⟩ | ⟨hne, hnone⟩
  · rw [h, Line.dropMark?_char, Line.dropMark?]
    cases rest with
    | nil => rfl
    | cons p rest =>
        simp only [Option.map_some, List.head?_cons, Option.any_some, List.tail_cons]
        rfl
  · rw [hnone]
    split
    · exact absurd ‹_› (hne _)
    · rfl

/-- A character that marks an item without a number. -/
def isBulletChar (c : Char) : Bool := c == '-' || c == '*' || c == '+'

theorem bullet?_eq (line : Line) :
    bullet? line = if line.head?.any (Piece.sat isBulletChar) then some (false, line.tail)
      else if (Line.spanChars isDigit line).1 = [] then none
      else (Line.dropMark? ['.'] (Line.spanChars isDigit line).2).map fun after => (true, after) := by
  unfold bullet?
  match line with
  | [] => rfl
  | .tag _ :: _ => rfl
  | .literal _ _ :: _ => rfl
  | .char c :: rest =>
      have hbullet : (c = '-' ∨ c = '*' ∨ c = '+') ↔ isBulletChar c = true := by simp [isBulletChar, or_assoc]
      simp only [List.head?_cons, Option.any_some, Piece.sat, hbullet, List.tail_cons]
      refine if_congr Iff.rfl rfl ?_
      generalize Line.spanChars isDigit (.char c :: rest) = digits
      split
      · rfl
      · rename_i run after hne
        rw [if_neg hne, Line.dropMark?_char]
        rfl
      · rename_i hempty hdot
        have hmark : Line.dropMark? ['.'] digits.2 = none :=
          Line.dropMark?_of_ne fun after h => hdot digits.1 after (Prod.ext rfl h)
        simp only [hmark, Option.map_none, ite_self]

theorem label?_eq (db : Chord.Database) (line : Line) :
    label? db line = (Line.dropMark? ['['] (Line.dropBlanks line)).bind fun rest =>
      (bracketed? rest).bind fun (name, after) =>
        if after.head?.any (Piece.is '(') || (!(Line.trim after).isEmpty && db.isChord (Line.source name)) then none
        else some (name, Line.trim after) := by
  unfold label?
  rcases Line.head_cases '[' (Line.dropBlanks line) with ⟨rest, h⟩ | ⟨hne, hnone⟩
  · rw [h, Line.dropMark?_char, Line.dropMark?, Option.bind_some]
    simp only [bracketed?]
    cases rest.dropWhile (!Piece.is ']' ·) with
    | nil => rfl
    | cons p after =>
        simp only
        cases (rest.takeWhile (!Piece.is ']' ·)).isEmpty with
        | true => rfl
        | false =>
            simp only [Bool.false_or, Bool.false_eq_true, if_false, Option.bind_some]
            cases after.head?.any (Piece.is '(') <;> cases !(Line.trim after).isEmpty && db.isChord _ <;> rfl
  · rw [hnone]
    split
    · exact absurd ‹_› (hne _)
    · rfl

/-! ## What the readers of a line return -/

theorem heading?_eq_some {line text : Line} {level : Nat} (h : heading? line = some (level, text)) :
    1 ≤ level ∧ level ≤ 5 ∧ Trims line text := by
  have hmark : Trims line (line.dropWhile (Piece.is '#')) :=
    .dropWhile (fun _ => Piece.isFiller_of_is rfl) line
  simp only [heading?] at h
  generalize line.dropWhile (Piece.is '#') = rest at h hmark
  have hinner := (dropBlanks_trims rest).trans (dropEndBlanks_trims (Line.dropBlanks rest))
  split at h
  · simp at h
  · rename_i hmarks
    simp only [Bool.or_eq_true, List.isEmpty_iff, decide_eq_true_eq, not_or] at hmarks
    have hpos := List.length_pos_iff.mpr hmarks.1.1
    split at h
    · rename_i hempty
      split at h
      · simp at h
      · simp only [Option.some.injEq, Prod.mk.injEq] at h
        obtain ⟨rfl, rfl⟩ := h
        refine ⟨hpos, by omega, hmark.trans ?_⟩
        obtain ⟨a, b, hrest, ha, hb⟩ := hinner
        rw [List.isEmpty_iff.mp hempty, List.append_nil] at hrest
        have hblanks : AllFiller rest := by
          rw [hrest]
          exact allFiller_append.mpr ⟨ha, hb⟩
        have hprefix : rest.takeWhile (Piece.sat isBlank) <:+: rest := (List.takeWhile_prefix _).isInfix
        exact .of_allFiller hblanks ((List.drop_suffix _ _).isInfix.trans hprefix)
    · simp only [Option.some.injEq, Prod.mk.injEq] at h
      obtain ⟨rfl, rfl⟩ := h
      exact ⟨hpos, by omega, hmark.trans hinner⟩

theorem quoted?_trims {line text : Line} (h : quoted? line = some text) : Trims line text := by
  refine (dropBlanks_trims line).trans ?_
  unfold quoted? at h
  split at h
  · rename_i rest heq
    rw [heq]
    refine (Trims.append_left (a := [.char '>']) (by simp [AllFiller, Piece.isFiller, Piece.sat, isAsciiLetter])
      rest).trans ?_
    split at h
    · obtain rfl := Option.some.inj h
      exact .refl []
    · rename_i piece more
      split at h
      · rename_i hblank
        obtain rfl := Option.some.inj h
        have hpiece : AllFiller [piece] := by simpa [AllFiller] using Piece.isFiller_of_blank hblank
        exact .append_left hpiece more
      · obtain rfl := Option.some.inj h
        exact .refl _
  · simp at h

theorem bullet?_trims {line rest : Line} {ordered : Bool} (h : bullet? line = some (ordered, rest)) :
    Trims line rest := by
  unfold bullet? at h
  split at h
  · rename_i c tail
    split at h
    · rename_i hc
      simp only [Option.some.injEq, Prod.mk.injEq] at h
      obtain ⟨-, rfl⟩ := h
      refine .append_left (a := [.char c]) ?_ tail
      rcases hc with rfl | rfl | rfl <;> simp [AllFiller, Piece.isFiller, Piece.sat, isAsciiLetter]
    · have hline := Line.spanChars_eq isDigit (.char c :: tail)
      have hdigits := Line.spanChars_all isDigit (.char c :: tail)
      split at h
      · simp at h
      · rename_i digits after _ heq
        simp only [Option.some.injEq, Prod.mk.injEq] at h
        obtain ⟨-, rfl⟩ := h
        rw [heq] at hline hdigits
        rw [hline, show Line.ofChars digits ++ .char '.' :: after =
          (Line.ofChars digits ++ [.char '.']) ++ after by simp]
        refine .append_left (allFiller_append.mpr ⟨fun p hp => ?_, ?_⟩) after
        · obtain ⟨d, hd, rfl⟩ := List.mem_map.mp hp
          simp [Piece.isFiller, Piece.sat, isAsciiLetter_of_isDigit (hdigits d hd)]
        · simp [AllFiller, Piece.isFiller, Piece.sat, isAsciiLetter]
      · simp at h
  · simp at h

theorem item?_trims {line : Line} {item : Item} (h : item? line = some item) : Trims line item.text := by
  unfold item? at h
  split at h
  · simp at h
  · obtain ⟨⟨ordered, rest⟩, hbullet, h⟩ := Option.bind_eq_some_iff.mp h
    simp only at h
    split at h
    · obtain rfl := Option.some.inj h
      exact (dropBlanks_trims line).trans ((bullet?_trims hbullet).trans (dropBlanks_trims rest))
    · simp at h

theorem dropBar_trims (line : Line) : Trims line (dropBar line) := by
  cases line with
  | nil => exact .refl []
  | cons piece rest =>
      simp only [dropBar]
      split
      · rename_i hbar
        have hpiece : AllFiller [piece] := by simpa [AllFiller] using Piece.isFiller_of_is rfl hbar
        exact .append_left hpiece rest
      · exact .refl _

theorem dropEndBar_trims (line : Line) : Trims line (dropEndBar line) := by
  obtain ⟨a, b, hline, ha, hb⟩ := dropBar_trims line.reverse
  refine ⟨b.reverse, a.reverse, ?_, ?_, ?_⟩
  · rw [dropEndBar, ← List.reverse_append, ← List.reverse_append, ← List.append_assoc, ← hline,
      List.reverse_reverse]
  · exact fun p hp => hb p (List.mem_reverse.mp hp)
  · exact fun p hp => ha p (List.mem_reverse.mp hp)

/-- A row without the bars that close it off. -/
theorem row_trims (row : Line) : Trims row (dropEndBar (dropBar (Line.trim row))) :=
  (trim_trims row).trans ((dropBar_trims _).trans (dropEndBar_trims _))

theorem infix_of_mem_cells {row cell : Line} (h : cell ∈ cells row) : cell <:+: row := by
  obtain ⟨part, hpart, rfl⟩ := List.mem_map.mp h
  exact (trim_trims part).isInfix.trans ((infix_of_mem_cutAt hpart).trans (row_trims row).isInfix)

theorem label?_eq_some {db : Chord.Database} {line name remainder : Line}
    (h : label? db line = some (name, remainder)) :
    ∃ a after, line = a ++ (name ++ .char ']' :: after) ∧ AllFiller a ∧ Trims after remainder := by
  have hline : line.takeWhile (Piece.sat isBlank) ++ Line.dropBlanks line = line :=
    List.takeWhile_append_dropWhile
  have hblanks := allFiller_takeWhile (fun _ => Piece.isFiller_of_blank) line
  unfold label? at h
  split at h
  · rename_i rest heq
    rw [heq] at hline
    simp only at h
    split at h
    · simp at h
    · rename_i piece after hafter
      obtain ⟨hpiece, hrest⟩ := eq_takeWhile_append hafter
      have hpiece : piece = .char ']' := Piece.eq_char_of_is (by simpa using hpiece)
      split at h
      · simp at h
      · split at h
        · simp at h
        · simp only [Option.some.injEq, Prod.mk.injEq] at h
          obtain ⟨rfl, rfl⟩ := h
          have hopen : Piece.isFiller (.char '[') = true := rfl
          refine ⟨line.takeWhile (Piece.sat isBlank) ++ [.char '['], after, ?_, ?_, trim_trims after⟩
          · rw [← hpiece, ← hrest, List.append_assoc]
            exact hline.symm
          · exact allFiller_append.mpr ⟨hblanks, allFiller_cons.mpr ⟨hopen, allFiller_nil⟩⟩
  · simp at h

theorem label?_infix {db : Chord.Database} {line name remainder : Line}
    (h : label? db line = some (name, remainder)) : name <:+: line ∧ remainder <:+: line := by
  obtain ⟨a, after, rfl, -, hafter⟩ := label?_eq_some h
  refine ⟨⟨a, .char ']' :: after, by simp⟩, hafter.isInfix.trans ?_⟩
  exact ⟨a ++ (name ++ [.char ']']), [], by simp⟩

theorem referenceParts?_infix {line : Line} {r : Reference} (h : referenceParts? line = some r) :
    r.name <:+: line ∧ r.frets <:+: line ∧ r.remark <:+: line := by
  unfold referenceParts? at h
  split at h
  · simp at h
  · rename_i rest hrest
    have hline : rest <:+ line := by
      rw [Line.dropMark?_eq_some hrest]
      exact List.suffix_append _ _
    simp only at h
    split at h
    · simp at h
    · rename_i inner hinner
      have hinside : inner <:+ line := by
        have hdrop := List.dropWhile_suffix (l := rest) (Piece.sat (· != ':'))
        rw [Line.dropMark?_eq_some hinner] at hdrop
        exact (List.suffix_append _ _).trans (hdrop.trans hline)
      split at h
      · simp at h
      · rename_i piece remark hremark
        split at h
        · obtain rfl := Option.some.inj h
          have hcontent := (List.takeWhile_prefix (l := inner) (!Piece.is ']' ·)).isInfix.trans hinside.isInfix
          refine ⟨?_, ?_, ?_⟩
          · exact (trim_trims _).isInfix.trans ((List.takeWhile_prefix _).isInfix.trans hline.isInfix)
          · refine List.IsInfix.trans (List.IsSuffix.isInfix ?_) hcontent
            have hprefix := List.takeWhile_prefix (l := (inner.takeWhile (!Piece.is ']' ·)).reverse)
              (!Piece.is '|' ·)
            have hsuffix := List.reverse_suffix.mpr hprefix
            rwa [List.reverse_reverse] at hsuffix
          · have hdrop := List.dropWhile_suffix (l := inner) (!Piece.is ']' ·)
            rw [hremark] at hdrop
            exact ((List.suffix_cons piece remark).trans (hdrop.trans hinside)).isInfix
        · simp at h

theorem reference?_infix {db : Chord.Database} {line : Line} {r : Reference} (h : reference? db line = some r) :
    r.name <:+: line ∧ r.frets <:+: line ∧ r.remark <:+: line :=
  referenceParts?_infix (Option.filter_eq_some_iff.mp h).1

end LeadSheet.Markup
