import LeadSheet.Proofs.Markup.Blocks
import LeadSheet.Proofs.Markup.Parts
import LeadSheet.Proofs.Markup.Fences
import LeadSheet.Proofs.Markup.Raw.Inline

/-!
# Reading a line on its text

What a line is, and what its parts are, is read alike from its source text and from its pieces. The
placeholder of a block is a line of its own kind (`kind_mark`), and no other line reads like one.
-/

namespace LeadSheet.Markup

open Text
open Raw (LiteralKind LiteralTable Placeholder)

/-! ## Trimming -/

section Trimming

variable (l : Line)

theorem isEmpty_source : (Line.source l).isEmpty = l.isEmpty := by
  rw [Bool.eq_iff_iff, List.isEmpty_iff, List.isEmpty_iff, Line.source_eq_nil]

theorem isEmptyLine_source : Raw.isEmptyLine (Line.source l) = Line.isEmptyLine l :=
  all_source fun p _ => readsAlike_sat (by decide) p

theorem dropBlanks_source : Raw.dropBlanks (Line.source l) = Line.source (Line.dropBlanks l) :=
  (takeWhile_source fun p _ => readsAlike_sat (by decide) p).2

theorem dropEndBlanks_source : Raw.dropEndBlanks (Line.source l) = Line.source (Line.dropEndBlanks l) :=
  (dropEndWhile_source fun p _ => readsAlike_sat (by decide) p).1

theorem trim_source : trim (Line.source l) = Line.source (Line.trim l) := by
  rw [trim, trimStart, (takeWhile_source fun p _ => readsAlike_sat (by decide) p).2, trimEnd,
    (dropEndWhile_source fun p _ => readsAlike_sat (by decide) p).1]
  rfl

/-- A piece that a class of ordinary characters knows is a plain character. -/
theorem source_of_sat_char {q : Char → Bool} (hq : Ordinary q) {p : Piece} (h : p.sat q = true) :
    ∃ c, p = .char c ∧ p.source = [c] := by
  cases p with
  | char c =>
      have hc : isPlain c = true := isPlain_of_class ⟨hq.2.1, hq.2.2.1, hq.1⟩ h
      exact ⟨c, rfl, escapeChar_of_isPlain hc⟩
  | tag x => simp [Piece.sat] at h
  | literal n content => simp [Piece.sat] at h

theorem source_of_sat {q : Char → Bool} (hq : Ordinary q) {l : Line} (h : ∀ p ∈ l, p.sat q = true) :
    ∃ s, l = Line.ofChars s ∧ s.all isPlain = true := by
  induction l with
  | nil => exact ⟨[], rfl, rfl⟩
  | cons p l ih =>
      obtain ⟨hp, hl⟩ := List.forall_mem_cons.mp h
      obtain ⟨s, rfl, hs⟩ := ih hl
      cases p with
      | char c =>
          have hc : isPlain c = true := isPlain_of_class ⟨hq.2.1, hq.2.2.1, hq.1⟩ hp
          exact ⟨c :: s, rfl, by rw [List.all_cons, hc, hs]; rfl⟩
      | tag x => simp [Piece.sat] at hp
      | literal n content => simp [Piece.sat] at hp

theorem source_ofChars_of_plain {s : List Char} (h : s.all isPlain = true) : Line.source (Line.ofChars s) = s := by
  rw [Line.source_ofChars, escape_of_plain h]

end Trimming

/-! ## Headings and rules -/

theorem heading?_source (l : Line) :
    Raw.heading? (Line.source l) = (heading? l).map (Prod.map id Line.source) := by
  have hmarks : ∀ p : Piece, ReadsAlike (Piece.is '#') (· == '#') p := readsAlike_sat (by decide)
  have hblanks : ∀ p : Piece, ReadsAlike (Piece.sat isBlank) isBlank p := readsAlike_sat (by decide)
  obtain ⟨htake, hdrop⟩ := takeWhile_source (l := l) fun p _ => hmarks p
  obtain ⟨htake', hdrop'⟩ := takeWhile_source (l := l.dropWhile (Piece.is '#')) fun p _ => hblanks p
  obtain ⟨marks, hm, hmplain⟩ := source_of_sat (q := (· == '#')) (by decide)
    (l := l.takeWhile (Piece.is '#')) fun p hp => List.mem_takeWhile_imp hp
  obtain ⟨blanks, hb, hbplain⟩ := source_of_sat (q := isBlank) (by decide)
    (l := (l.dropWhile (Piece.is '#')).takeWhile (Piece.sat isBlank)) fun p hp => List.mem_takeWhile_imp hp
  rw [Raw.heading?, heading?]
  simp only [htake, hdrop, htake', dropBlanks_source, dropEndBlanks_source, hm, hb, source_ofChars_of_plain hmplain,
    source_ofChars_of_plain hbplain]
  have hlength : ∀ s : List Char, (Line.ofChars s).length = s.length := fun s => List.length_map _
  have hempty : ∀ s : List Char, (Line.ofChars s).isEmpty = s.isEmpty := fun s => List.isEmpty_map
  rw [hlength, hlength, hempty, hempty, isEmpty_source]
  split
  · rfl
  · split
    · split
      · rfl
      · have hdrop : (Line.ofChars blanks).drop (blanks.length - 1) = Line.ofChars (blanks.drop (blanks.length - 1)) :=
          List.map_drop.symm
        have hplain : (blanks.drop (blanks.length - 1)).all isPlain = true :=
          List.all_eq_true.mpr fun c hc => List.all_eq_true.mp hbplain c (List.mem_of_mem_drop hc)
        rw [hdrop, Option.map_some, Prod.map, source_ofChars_of_plain hplain]
        rfl
    · rfl

theorem ordinary_ruleMark {c : Char} (hc : c ∈ ['-', '*', '_']) : Ordinary (· == c) := by
  simp only [List.mem_cons, List.not_mem_nil, or_false] at hc
  rcases hc with rfl | rfl | rfl <;> decide

theorem isRule_source (l : Line) : Raw.isRule (Line.source l) = isRule l := by
  rw [Raw.isRule, isRule]
  simp only [dropBlanks_source, dropEndBlanks_source]
  generalize Line.dropEndBlanks (Line.dropBlanks l) = marks
  have hall : ∀ c ∈ ['-', '*', '_'], (Line.source marks).all (· == c) = marks.all (Piece.is c) := by
    intro c hc
    exact all_source fun p _ => readsAlike_sat (ordinary_ruleMark hc) p
  have hany : (['-', '*', '_'].any fun c => (Line.source marks).all (· == c)) =
      ['-', '*', '_'].any fun c => marks.all (Piece.is c) := by
    simp only [List.any_cons, List.any_nil, hall '-' (by simp), hall '*' (by simp), hall '_' (by simp)]
  rw [hany]
  cases hmarks : ['-', '*', '_'].any fun c => marks.all (Piece.is c) with
  | false => simp
  | true =>
      obtain ⟨c, hc, hmarks⟩ := List.any_eq_true.mp hmarks
      obtain ⟨s, rfl, hs⟩ := source_of_sat (ordinary_ruleMark hc) (List.all_eq_true.mp hmarks)
      rw [source_ofChars_of_plain hs, Line.ofChars, List.length_map]

/-! ## Quotes and items -/

theorem quoteMark_source (l : Line) :
    Text.dropMark? "&gt;".toList (Line.source l) = (Line.dropMark? ['>'] l).map Line.source := by
  have hmark : "&gt;".toList = ['&', 'g', 't', ';'] := by simp
  rw [hmark]
  cases l with
  | nil => rfl
  | cons p l =>
      rw [Line.source_cons]
      cases p with
      | char c =>
          rw [Piece.source_char]
          cases hplain : isPlain c with
          | true =>
              have hne : ∀ d, isPlain d = false → d ≠ c := by
                rintro d hd rfl
                simp [hplain] at hd
              rw [escapeChar_of_isPlain hplain, List.singleton_append, Text.dropMark?,
                if_neg (hne '&' (by decide)), Line.dropMark?, if_neg (hne '>' (by decide))]
              rfl
          | false => rcases eq_of_not_isPlain hplain with rfl | rfl | rfl <;> rfl
      | tag x => rfl
      | literal n content =>
          rw [Piece.source_literal]
          rfl

theorem quoted?_source (l : Line) : Raw.quoted? (Line.source l) = (quoted? l).map Line.source := by
  rw [Raw.quoted?, dropBlanks_source, quoteMark_source, quoted?_eq]
  cases Line.dropMark? ['>'] (Line.dropBlanks l) with
  | none => rfl
  | some rest =>
      simp only [Option.map_some, Option.some.injEq]
      cases rest with
      | nil => rfl
      | cons p rest =>
          obtain ⟨d, x, hsource⟩ := List.exists_cons_of_ne_nil (source_ne_nil p)
          have hhead := head?_any_source (l := p :: rest) fun p _ => readsAlike_sat (q := isBlank) (by decide) p
          rw [Line.source_cons, hsource, List.cons_append, List.head?_cons, Option.any_some] at hhead
          rw [Line.source_cons, hsource, List.cons_append, Raw.dropBlank, hhead]
          split
          · rename_i hblank
            obtain ⟨c, rfl, hc⟩ := source_of_sat_char (q := isBlank) (by decide) hblank
            rw [List.tail_cons, (List.cons.inj (hsource.symm.trans hc)).2, List.nil_append]
          · rw [Line.source_cons, hsource, List.cons_append]

theorem bullet?_source {t : LiteralTable} {l : Line} (hl : l.Fits t) :
    Raw.bullet? (Line.source l) = (bullet? l).map (Prod.map id Line.source) := by
  rw [bullet?_eq]
  cases l with
  | nil => rfl
  | cons p l =>
      obtain ⟨d, x, hsource⟩ := List.exists_cons_of_ne_nil (source_ne_nil p)
      have hhead := head?_any_source (l := p :: l) fun p _ => readsAlike_sat (q := isBulletChar) (by decide) p
      have hgo : ∀ c, c ≠ '\n' → isDigit c = true → ∀ d ∈ escapeChar c, isDigit d = true := by
        intro c _ hc d hd
        have hplain : isPlain c = true := isPlain_of_class (by decide) hc
        rw [escapeChar_of_isPlain hplain, List.mem_singleton] at hd
        rwa [hd]
      have hstop : ∀ c, isDigit c = false → (escapeChar c).head?.any isDigit = false := by
        intro c hc
        cases hplain : isPlain c with
        | true => rwa [escapeChar_of_isPlain hplain]
        | false => rcases eq_of_not_isPlain hplain with rfl | rfl | rfl <;> decide
      obtain ⟨htake, hdrop⟩ := spanChars_source (by decide) hgo hstop hl
      rw [Line.source_cons, hsource, List.cons_append] at hhead htake hdrop ⊢
      have hbullet : (d = '-' ∨ d = '*' ∨ d = '+') ↔ isBulletChar d = true := by simp [isBulletChar, or_assoc]
      rw [List.head?_cons, Option.any_some] at hhead
      simp only [Raw.bullet?, hbullet, hhead, htake, hdrop, escape_eq_nil, dropMark?_source (by decide : ['.'].all isPlain = true)]
      split
      · rename_i hp
        obtain ⟨c, rfl, hc⟩ := source_of_sat_char (q := isBulletChar) (by decide) hp
        rw [(List.cons.inj (hsource.symm.trans hc)).2, List.nil_append]
        rfl
      · split
        · rfl
        · cases Line.dropMark? ['.'] (Line.spanChars isDigit (p :: l)).2 with
          | none => rfl
          | some after => rfl

/-- An item with its text as it is in the source. -/
def Item.source (i : Item) : Raw.Item := ⟨i.indent, i.ordered, Line.source i.text⟩

theorem foldl_columnAfter {l : Line} (h : ∀ p ∈ l, p.sat isBlank = true) (column : Nat) :
    (Line.source l).foldl Raw.columnAfter column = l.foldl columnAfter column := by
  induction l generalizing column with
  | nil => rfl
  | cons p l ih =>
      obtain ⟨hp, hl⟩ := List.forall_mem_cons.mp h
      obtain ⟨c, rfl, hc⟩ := source_of_sat_char (q := isBlank) (by decide) hp
      rw [Line.source_cons, hc, List.singleton_append, List.foldl_cons, List.foldl_cons, ih hl]
      congr 1
      simp [Raw.columnAfter, columnAfter, Piece.is, Piece.sat]

theorem item?_source {t : LiteralTable} {l : Line} (hl : l.Fits t) :
    Raw.item? (Line.source l) = (item? l).map Item.source := by
  have hblanks : ∀ p : Piece, ReadsAlike (Piece.sat isBlank) isBlank p := readsAlike_sat (by decide)
  have hindent := foldl_columnAfter (l := l.takeWhile (Piece.sat isBlank)) (fun p hp => List.mem_takeWhile_imp hp) 0
  have hdrop : (Line.dropBlanks l).Fits t := hl.subset (List.dropWhile_sublist _).subset
  rw [Raw.item?, item?, isRule_source, dropBlanks_source, bullet?_source hdrop,
    (takeWhile_source fun p _ => hblanks p).1, hindent]
  split
  · rfl
  · cases bullet? (Line.dropBlanks l) with
    | none => rfl
    | some found =>
        obtain ⟨ordered, rest⟩ := found
        have hhead := head?_any_source (l := rest) fun p _ => hblanks p
        simp only [Option.map_some, Option.bind_some, Prod.map, hhead, dropBlanks_source, Option.bind_eq_bind]
        split <;> rfl

/-! ## Tables -/

theorem cutAt_append {α : Type} {isCut : α → Bool} {x : List α} (hx : ∀ a ∈ x, isCut a = false) {s part : List α}
    {parts : List (List α)} (hs : cutAt isCut s = part :: parts) : cutAt isCut (x ++ s) = (x ++ part) :: parts := by
  induction x with
  | nil => exact hs
  | cons a x ih =>
      obtain ⟨ha, hx⟩ := List.forall_mem_cons.mp hx
      rw [List.cons_append, cutAt, ha, ih hx]
      rfl

section Fits

variable {t : LiteralTable} {l : Line} (hl : l.Fits t)

include hl

/-- Of the pieces of a line, only a vertical bar has one in its source text. -/
theorem bar_cases {p : Piece} (hp : p ∈ l) : (p.is '|' = true ∧ p.source = ['|']) ∨
    (p.is '|' = false ∧ ∀ c ∈ p.source, (c == '|') = false) := by
  cases his : p.is '|' with
  | true =>
      rw [Piece.eq_char_of_is his]
      exact Or.inl ⟨rfl, rfl⟩
  | false =>
      refine Or.inr ⟨rfl, fun c hc => beq_eq_false_iff_ne.mpr ?_⟩
      rintro rfl
      rcases mem_source (hl p hp) hc with rfl | hfiller
      · simp [Piece.is, Piece.sat] at his
      · exact absurd hfiller (by decide)

theorem cutAtBars_source : Raw.cutAtBars (Line.source l) = (cutAtBars l).map Line.source := by
  rw [Raw.cutAtBars, cutAtBars]
  induction l with
  | nil => rfl
  | cons p l ih =>
      have ih := ih (hl.subset (List.subset_cons_self p l))
      obtain ⟨part, parts, hparts⟩ := List.exists_cons_of_ne_nil (cutAt_ne_nil (Piece.is '|') l)
      rw [Line.source_cons, cutAt]
      rcases bar_cases hl List.mem_cons_self with ⟨hp, hsource⟩ | ⟨hp, hsource⟩
      · rw [hsource, hp, List.singleton_append, cutAt_mark rfl, ih]
        rfl
      · rw [hparts, List.map_cons] at ih
        rw [cutAt_append hsource ih, hp, hparts]
        rfl

theorem hasBar_source : Raw.hasBar (Line.source l) = hasBar l := by
  rw [Raw.hasBar, hasBar, Bool.eq_iff_iff, List.any_eq_true, List.any_eq_true]
  constructor
  · rintro ⟨c, hc, hbar⟩
    obtain ⟨p, hp, hcp⟩ := List.mem_flatMap.mp hc
    refine ⟨p, hp, ?_⟩
    rcases bar_cases hl hp with ⟨hbar', -⟩ | ⟨-, hnone⟩
    · exact hbar'
    · exact absurd hbar (by simp [hnone c hcp])
  · rintro ⟨p, hp, hbar⟩
    rw [Piece.eq_char_of_is hbar] at hp
    exact ⟨'|', List.mem_flatMap.mpr ⟨_, hp, List.mem_singleton.mpr rfl⟩, rfl⟩

theorem dropBar_source : Raw.dropBar (Line.source l) = Line.source (dropBar l) := by
  cases l with
  | nil => rfl
  | cons p l =>
      rw [Line.source_cons, dropBar]
      rcases bar_cases hl List.mem_cons_self with ⟨hp, hsource⟩ | ⟨hp, hsource⟩
      · rw [hsource, hp]
        rfl
      · obtain ⟨d, x, hd⟩ := List.exists_cons_of_ne_nil (source_ne_nil p)
        have hne : d ≠ '|' := beq_eq_false_iff_ne.mp (hsource d (hd ▸ List.mem_cons_self))
        rw [hd, List.cons_append, Raw.dropBar, if_neg hne, hp, ← List.cons_append, ← hd]
        rfl

theorem dropEndBar_source : Raw.dropEndBar (Line.source l) = Line.source (dropEndBar l) := by
  rw [Raw.dropEndBar, dropEndBar]
  rcases List.eq_nil_or_concat l with rfl | ⟨front, p, rfl⟩
  · rfl
  · rw [List.concat_eq_append] at hl ⊢
    rw [Line.source_append, Line.source_cons, Line.source_nil, List.append_nil, List.reverse_append,
      List.reverse_append, List.reverse_singleton, List.singleton_append, dropBar]
    rcases bar_cases hl (List.mem_append_right front List.mem_cons_self) with ⟨hp, hsource⟩ | ⟨hp, hsource⟩
    · rw [hsource, hp, List.reverse_singleton, List.singleton_append, Raw.dropBar]
      simp
    · obtain ⟨d, x, hd⟩ := List.exists_cons_of_ne_nil (by simpa using source_ne_nil p : p.source.reverse ≠ [])
      have hne : d ≠ '|' :=
        beq_eq_false_iff_ne.mp (hsource d (List.mem_reverse.mp (hd ▸ List.mem_cons_self)))
      rw [hd, List.cons_append, Raw.dropBar, if_neg hne, hp, ← List.cons_append, ← hd]
      simp

end Fits

theorem cells_source {t : LiteralTable} {l : Line} (hl : l.Fits t) :
    Raw.cells (Line.source l) = (cells l).map Line.source := by
  have htrim : (Line.trim l).Fits t := hl.subset (trim_trims l).isInfix.subset
  have hfront : (dropBar (Line.trim l)).Fits t := htrim.subset (dropBar_trims _).isInfix.subset
  have hrow : (dropEndBar (dropBar (Line.trim l))).Fits t := hfront.subset (dropEndBar_trims _).isInfix.subset
  rw [Raw.cells, trim_source, dropBar_source htrim, dropEndBar_source hfront, cutAtBars_source hrow, cells,
    List.map_map, List.map_map]
  exact List.map_congr_left fun cell _ => trim_source cell

theorem isColon_source (l : Line) :
    (Line.source l == [':']) = (decide (l.length = 1) && l.all (Piece.is ':')) := by
  have hall : (Line.source l).all (· == ':') = l.all (Piece.is ':') :=
    all_source fun p _ => readsAlike_sat (by decide) p
  cases hl : l.all (Piece.is ':') with
  | false =>
      rw [hl] at hall
      rw [Bool.and_false, beq_eq_false_iff_ne]
      intro hsource
      simp [hsource] at hall
  | true =>
      obtain ⟨s, rfl, hs⟩ := source_of_sat (q := (· == ':')) (by decide) (List.all_eq_true.mp hl)
      have hcolon : ∀ c ∈ s, c = ':' := fun c hc => by
        simpa [Piece.is, Piece.sat] using List.all_eq_true.mp hl _ (List.mem_map_of_mem hc)
      rw [source_ofChars_of_plain hs, Bool.and_true, Line.ofChars, List.length_map]
      cases s with
      | nil => rfl
      | cons c s =>
          cases s with
          | nil => simp [hcolon c List.mem_cons_self]
          | cons d s => simp

theorem isSeparatorCell_source (cell : Line) : Raw.isSeparatorCell (Line.source cell) = isSeparatorCell cell := by
  have hcolon : ∀ p : Piece, ReadsAlike (Piece.is ':') (· == ':') p := readsAlike_sat (by decide)
  have hhyphen : ∀ p : Piece, ReadsAlike (Piece.is '-') (· == '-') p := readsAlike_sat (by decide)
  rw [Raw.isSeparatorCell, isSeparatorCell]
  simp only [dropBlanks_source, dropEndBlanks_source]
  generalize Line.dropEndBlanks (Line.dropBlanks cell) = inner
  have hhead := head?_any_source (l := inner) fun p _ => hcolon p
  have hdrop : (if (Line.source inner).head?.any (· == ':') then (Line.source inner).drop 1 else Line.source inner) =
      Line.source (if inner.head?.any (Piece.is ':') then inner.drop 1 else inner) := by
    rw [hhead]
    split
    · rename_i hinner
      cases inner with
      | nil => rfl
      | cons p inner =>
          obtain ⟨c, rfl, hc⟩ := source_of_sat_char (q := (· == ':')) (by decide) hinner
          rw [Line.source_cons, hc]
          rfl
    · rfl
  rw [hdrop]
  generalize (if inner.head?.any (Piece.is ':') then inner.drop 1 else inner) = inner
  obtain ⟨htake, hrest⟩ := takeWhile_source (l := inner) fun p _ => hhyphen p
  simp only [htake, hrest, isEmpty_source, isColon_source]

theorem isSeparator_source {t : LiteralTable} {l : Line} (hl : l.Fits t) :
    Raw.isSeparator (Line.source l) = isSeparator l := by
  have hinner : (Line.dropEndBlanks (Line.dropBlanks l)).Fits t :=
    hl.subset ((dropBlanks_trims l).trans (dropEndBlanks_trims _)).isInfix.subset
  have hfront := hinner.subset (dropBar_trims _).isInfix.subset
  have hrow := hfront.subset (dropEndBar_trims _).isInfix.subset
  rw [Raw.isSeparator, isSeparator]
  simp only [dropBlanks_source, dropEndBlanks_source, dropBar_source hinner, dropEndBar_source hfront,
    cutAtBars_source hrow, List.length_map, List.all_map]
  simp only [Function.comp_def, isSeparatorCell_source]

/-! ## Reference lines and labels -/

/-- A reference line with its parts as they are in the source. -/
def Reference.source (r : Reference) : Raw.Reference := ⟨Line.source r.name, Line.source r.frets, Line.source r.remark⟩

/-- The name of a reference line ends at a colon; none follows a literal, whose placeholder has one. -/
theorem referenceName_source {l : Line} (hl : l.IsBare) :
    ((Text.dropMark? [':', ' ', '['] ((Line.source l).dropWhile (· != ':'))).map fun inner =>
        ((Line.source l).takeWhile (· != ':'), inner)) =
      (Line.dropMark? [':', ' ', '['] (l.dropWhile (Piece.sat (· != ':')))).map fun inner =>
        (Line.source (l.takeWhile (Piece.sat (· != ':'))), Line.source inner) := by
  induction l with
  | nil => rfl
  | cons p l ih =>
      obtain ⟨hp, hrest⟩ := List.forall_mem_cons.mp hl
      cases p with
      | tag x => exact absurd hp id
      | literal n content =>
          have hdigits : ∀ c ∈ (Nat.toDigits 10 n).head?, c ≠ ' ' := by
            rintro c hc rfl
            exact absurd (Nat.isDigit_of_mem_toDigits (by decide) (by decide) (List.mem_of_mem_head? hc)) (by decide)
          obtain ⟨d, digits, hd⟩ := List.exists_cons_of_ne_nil (Nat.toDigits_ne_nil (n := n) (b := 10))
          have hne : ' ' ≠ d := Ne.symm (hdigits d (by simp [hd]))
          have hdrop : (Line.source (.literal n content :: l)).dropWhile (· != ':') =
              ':' :: d :: (digits ++ ['-', '-', '>'] ++ Line.source l) := by
            rw [Line.source_cons, Piece.source_literal, hd]
            simp
          rw [hdrop, Text.dropMark?, if_pos rfl, Text.dropMark?, if_neg hne]
          rfl
      | char c =>
          rw [Line.source_cons, Piece.source_char, List.takeWhile_cons, List.dropWhile_cons]
          by_cases hc : c = ':'
          · have hmark := dropMark?_source (by decide : [':', ' ', '['].all isPlain = true) (.char ':' :: l)
            have hsource : Line.source (.char ':' :: l) = ':' :: Line.source l := rfl
            rw [hsource] at hmark
            rw [hc]
            simp only [show escapeChar ':' = [':'] from rfl, List.singleton_append, Piece.sat, bne_self_eq_false,
              List.takeWhile_cons, List.dropWhile_cons, Bool.false_eq_true, if_false, hmark, Option.map_map]
            rfl
          · have hgo : ∀ d ∈ escapeChar c, (d != ':') = true := escapeChar_goes (by decide) fun _ => by simpa using hc
            have hsat : (Piece.char c).sat (· != ':') = true := by simpa [Piece.sat] using hc
            rw [List.takeWhile_append_of_pos hgo, List.dropWhile_append_of_pos hgo, hsat, if_pos rfl, if_pos rfl,
              Line.source_cons, Piece.source_char]
            have ih := congrArg (Option.map (Prod.map (escapeChar c ++ ·) id)) (ih hrest)
            rw [Option.map_map, Option.map_map] at ih
            exact ih

theorem referenceParts?_source {t : LiteralTable} {l : Line} (hl : l.Fits t) (hbare : l.IsBare) :
    Raw.referenceParts? (Line.source l) = (referenceParts? l).map Reference.source := by
  rw [Raw.referenceParts?, dropMark?_source (by decide), referenceParts?]
  cases hdash : Line.dropMark? ['-', ' '] l with
  | none => rfl
  | some rest =>
      have hline : rest <:+ l := by
        rw [Line.dropMark?_eq_some hdash]
        exact List.suffix_append _ _
      have hname := referenceName_source (l := rest) fun p hp => hbare p (hline.subset hp)
      rw [Option.map_some, Option.bind_some]
      cases hcolon : Line.dropMark? [':', ' ', '['] (rest.dropWhile (Piece.sat (· != ':'))) with
      | none =>
          rw [hcolon, Option.map_none, Option.map_eq_none_iff] at hname
          simp only [hname, Option.bind_none, hcolon, Option.map_none]
      | some inner =>
          rw [hcolon, Option.map_some, Option.map_eq_some_iff] at hname
          obtain ⟨text, htext, hpair⟩ := hname
          obtain ⟨htake, rfl⟩ := Prod.mk.inj hpair
          have hinner : inner.Fits t := by
            have hsuffix := List.dropWhile_suffix (l := rest) (Piece.sat (· != ':'))
            rw [Line.dropMark?_eq_some hcolon] at hsuffix
            exact hl.subset ((List.suffix_append _ _).trans (hsuffix.trans hline)).subset
          have hcontent : Line.Fits t (inner.takeWhile (!Piece.is ']' ·)) :=
            hinner.subset (List.takeWhile_prefix _).subset
          obtain ⟨htakeInner, hdropInner⟩ := takeWhile_source (l := inner) fun p hp =>
            readsAlike_until (q := Raw.isLabelChar) (c := ']') (by decide) (by decide)
              (fun d hd hlf => by simp [Raw.isLabelChar, hd, hlf]) (hinner p hp)
          obtain ⟨-, hfrets⟩ := dropEndWhile_source (l := inner.takeWhile (!Piece.is ']' ·)) fun p hp =>
            readsAlike_until (q := (· != '|')) (c := '|') (by decide) (by decide) (fun d hd _ => by simpa using hd)
              (hcontent p hp)
          have hletter := head?_any_source (l := rest.takeWhile (Piece.sat (· != ':'))) fun p _ =>
            readsAlike_sat (q := fun c => 'A' ≤ c && c ≤ 'G') (by decide) p
          have hall := all_source (l := ((inner.takeWhile (!Piece.is ']' ·)).reverse.takeWhile (!Piece.is '|' ·)).reverse)
            fun p _ => readsAlike_sat (q := isFretChar) (by decide) p
          simp only [htext, Option.bind_some, htake, htakeInner, hdropInner, hfrets, hasBar_source hcontent,
            isEmpty_source, trim_source, hletter, hall, hcolon]
          cases hclose : inner.dropWhile (!Piece.is ']' ·) with
          | nil => rfl
          | cons p remark =>
              have hp : p = .char ']' := Piece.eq_char_of_is (by simpa using (eq_takeWhile_append hclose).1)
              have hmark : Text.dropMark? [']'] (Line.source (p :: remark)) = some (Line.source remark) := by
                rw [hp]
                rfl
              rw [hmark, Option.bind_some]
              simp only
              split <;> rfl

theorem reference?_source (db : Chord.Database) {t : LiteralTable} {l : Line} (hl : l.Fits t) (hbare : l.IsBare) :
    Raw.reference? db (Line.source l) = (reference? db l).map Reference.source := by
  rw [Raw.reference?, reference?, referenceParts?_source hl hbare]
  cases referenceParts? l with
  | none => rfl
  | some r =>
      simp only [Option.map_some, Option.filter, Reference.source]
      split <;> rfl

theorem label?_source (db : Chord.Database) {t : LiteralTable} {l : Line} (hl : l.Fits t) :
    Raw.label? db (Line.source l) = (label? db l).map (Prod.map Line.source Line.source) := by
  have hdrop : (Line.dropBlanks l).Fits t := hl.subset (List.dropWhile_sublist _).subset
  rw [Raw.label?, dropBlanks_source, dropMark?_source (by decide), label?_eq]
  cases hopen : Line.dropMark? ['['] (Line.dropBlanks l) with
  | none => rfl
  | some rest =>
      rw [Option.map_some, Option.bind_some, Option.bind_some, bracketed?_source (fits_of_dropMark? hdrop hopen)]
      cases bracketed? rest with
      | none => rfl
      | some found =>
          obtain ⟨name, after⟩ := found
          have hparen : (Line.source after).head?.any (· == '(') = after.head?.any (Piece.is '(') :=
            head?_any_source fun p _ => readsAlike_sat (by decide) p
          simp only [Option.map_some, Option.bind_some, Prod.map, hparen, trim_source, isEmpty_source]
          cases after.head?.any (Piece.is '(') with
          | true => rfl
          | false => cases !(Line.trim after).isEmpty && db.isChord (Line.source name) <;> rfl

/-! ## Placeholders of blocks -/

def blockMark (n : Nat) : List Char := (Placeholder.mk .block (Nat.toDigits 10 n)).text

theorem blockMark_eq (n : Nat) : blockMark n =
    ['<', '!', '-', '-', 'b', 'l', 'o', 'c', 'k', ':'] ++ (Nat.toDigits 10 n ++ ['-', '-', '>']) := by
  simp [blockMark, Placeholder.text, LiteralKind.name]

theorem isFiller_blockMark (n : Nat) : ∀ c ∈ blockMark n, isFiller c = true := by
  intro c hc
  rw [blockMark_eq] at hc
  rcases List.mem_append.mp hc with hc | hc
  · exact List.all_eq_true.mp (by decide : ['<', '!', '-', '-', 'b', 'l', 'o', 'c', 'k', ':'].all isFiller = true) c hc
  · rcases List.mem_append.mp hc with hc | hc
    · simp [isFiller, Nat.isDigit_of_mem_toDigits (by decide) (by decide) hc]
    · exact List.all_eq_true.mp (by decide : ['-', '-', '>'].all isFiller = true) c hc

/-- Trimming leaves the placeholder of a block as it is. -/
theorem dropWhile_blockMark {q : Char → Bool} (hq : Ordinary q) (n : Nat) :
    (blockMark n).dropWhile q = blockMark n ∧ dropEndWhile q (blockMark n) = blockMark n := by
  obtain ⟨-, hopen, hclose, -⟩ := hq
  have hlast : blockMark n =
      (['<', '!', '-', '-', 'b', 'l', 'o', 'c', 'k', ':'] ++ (Nat.toDigits 10 n ++ ['-', '-'])) ++ ['>'] := by
    simp [blockMark_eq]
  constructor
  · refine dropWhile_of_head ?_
    rw [blockMark_eq]
    exact hopen
  · have hhead : (blockMark n).reverse.head?.any q = false := by
      rw [List.head?_reverse, hlast, List.getLast?_concat]
      exact hclose
    rw [dropEndWhile, dropWhile_of_head hhead, List.reverse_reverse]

theorem trim_blockMark (n : Nat) : trim (blockMark n) = blockMark n := by
  obtain ⟨hstart, hend⟩ := dropWhile_blockMark (q := isSpace) (by decide) n
  rw [trim, trimStart, hstart, trimEnd, hend]

theorem isEmptyLine_blockMark (n : Nat) : Raw.isEmptyLine (blockMark n) = false := by
  rw [Raw.isEmptyLine, blockMark_eq]
  rfl

theorem isBlockMark_blockMark (n : Nat) : Raw.isBlockMark (blockMark n) = true := by
  have htext := ofKind?_text .block n []
  rw [List.append_nil] at htext
  rw [Raw.isBlockMark, blockMark, htext]

/-- No line reads like the placeholder of a block. -/
theorem isBlockMark_source (l : Line) : Raw.isBlockMark (Line.source l) = false := by
  have hmark : Text.dropMark? ("<!--".toList ++ (LiteralKind.block.name ++ [':'])) (Line.source l) = none := by
    have hopen : "<!--".toList ++ (LiteralKind.block.name ++ [':']) =
        ['<', '!', '-', '-', 'b', 'l', 'o', 'c', 'k', ':'] := by simp [LiteralKind.name]
    rw [hopen]
    cases l with
    | nil => rfl
    | cons p l =>
        rw [Line.source_cons]
        cases p with
        | char c =>
            refine dropMark?_of_head ?_
            rw [head?_append (source_ne_nil _)]
            cases hplain : isPlain c with
            | true =>
                rw [Piece.source_char, escapeChar_of_isPlain hplain]
                rintro ⟨⟩
                exact absurd hplain (by decide)
            | false => rcases eq_of_not_isPlain hplain with rfl | rfl | rfl <;> decide
        | tag x =>
            obtain ⟨c, u, htext, hc, -⟩ := x.text_shape
            rw [Piece.source_tag, htext, List.cons_append, List.cons_append, Text.dropMark?, if_pos rfl, Text.dropMark?,
              if_neg (Ne.symm hc)]
        | literal n content =>
            rw [Piece.source_literal]
            rfl
  rw [Raw.isBlockMark, Placeholder.ofKind?, hmark]
  rfl

theorem not_bar_blockMark (n : Nat) : ∀ c ∈ blockMark n, (c == '|') = false := by
  intro c hc
  rw [beq_eq_false_iff_ne]
  rintro rfl
  exact absurd (isFiller_blockMark n _ hc) (by decide)

theorem hasBar_blockMark (n : Nat) : Raw.hasBar (blockMark n) = false :=
  List.any_eq_false.mpr fun c hc => by simp [not_bar_blockMark n c hc]

theorem isSeparator_blockMark (n : Nat) : Raw.isSeparator (blockMark n) = false := by
  obtain ⟨hstart, hend⟩ := dropWhile_blockMark (q := isBlank) (by decide) n
  have hbar : Raw.dropBar (blockMark n) = blockMark n := by
    rw [blockMark_eq]
    rfl
  have hcut : Raw.cutAtBars (Raw.dropEndBar (blockMark n)) = [Raw.dropEndBar (blockMark n)] := by
    refine cutAt_of_uncut fun c hc => ?_
    rw [Raw.dropEndBar, List.mem_reverse] at hc
    have hc' : c ∈ (blockMark n).reverse := by
      cases hreverse : (blockMark n).reverse with
      | nil => simp [hreverse, Raw.dropBar] at hc
      | cons d s =>
          rw [hreverse, Raw.dropBar] at hc
          split at hc
          · exact List.mem_cons_of_mem d hc
          · exact hc
    exact not_bar_blockMark n c (List.mem_reverse.mp hc')
  rw [Raw.isSeparator]
  simp only [Raw.dropBlanks, hstart, Raw.dropEndBlanks, hend, hbar, hcut]
  rfl

theorem item?_blockMark (n : Nat) : Raw.item? (blockMark n) = none := by
  have hstart := (dropWhile_blockMark (q := isBlank) (by decide) n).1
  have hbullet : Raw.bullet? (blockMark n) = none := by
    have hdigit : (blockMark n).takeWhile isDigit = [] := by
      refine takeWhile_of_head ?_
      rw [blockMark_eq]
      exact (by decide : isDigit '<' = false)
    rw [blockMark_eq] at hdigit ⊢
    rw [List.cons_append] at hdigit ⊢
    rw [Raw.bullet?, if_neg (by decide), if_pos hdigit]
  rw [Raw.item?, Raw.dropBlanks, hstart, hbullet]
  split <;> rfl

theorem quoted?_blockMark (n : Nat) : Raw.quoted? (blockMark n) = none := by
  have hstart := (dropWhile_blockMark (q := isBlank) (by decide) n).1
  have hmark : Text.dropMark? "&gt;".toList (blockMark n) = none := by
    have hopen : "&gt;".toList = ['&', 'g', 't', ';'] := by simp
    rw [hopen, blockMark_eq]
    rfl
  rw [Raw.quoted?, Raw.dropBlanks, hstart, hmark]
  rfl

/-! ## Kinds -/

def Kind.source : Kind → Raw.Kind
  | .blank => .blank
  | .heading level text => .heading level (Line.source text)
  | .rule => .rule
  | .reference r => .reference r.source
  | .quote => .quote
  | .table => .table
  | .item => .item
  | .label name remainder => .label (Line.source name) (Line.source remainder)
  | .plain => .plain

/-- A line of a body and its text: the source text of a line, or the placeholder of a code block. -/
inductive StandsFor (t : LiteralTable) : Source Line → List Char → Prop
  | line {l : Line} : l.Fits t → l.IsBare → StandsFor t (.line l) (Line.source l)
  | fence {language code : List Char} {n : Nat} :
      t.blocks[n]? = some (Token.print (fenceTokens language code)) → StandsFor t (.fence language code) (blockMark n)

theorem kind_mark (db : Chord.Database) (n : Nat) (next : Option (List Char)) :
    Raw.kind db (blockMark n) next = .mark := by
  rw [Raw.kind, isEmptyLine_blockMark, trim_blockMark, isBlockMark_blockMark]
  rfl

/-- The kind of a line before a separator or another line. -/
theorem kind_eq (db : Chord.Database) (l : Line) {next : Option (Source Line)} {isHeader : Bool}
    (h : isHeader = next.any (fun | .line l => isSeparator l | .fence _ _ => false)) :
    kind db l next =
      if Line.isEmptyLine l then .blank
      else
        match heading? l with
        | some (level, text) => .heading level text
        | none =>
          if isRule l then .rule
          else
            match reference? db l with
            | some r => .reference r
            | none =>
              if (quoted? l).isSome then .quote
              else if hasBar l && isHeader then .table
              else if (item? l).isSome then .item
              else
                match label? db l with
                | some (name, remainder) => .label name remainder
                | none => .plain := by
  subst h
  rfl

theorem kind_source (db : Chord.Database) {t : LiteralTable} {l : Line} (hl : l.Fits t) (hbare : l.IsBare)
    {next : Option (Source Line)} {next' : Option (List Char)}
    (hnext : next'.any Raw.isSeparator = next.any (fun | .line l => isSeparator l | .fence _ _ => false)) :
    Raw.kind db (Line.source l) next' = (kind db l next).source := by
  rw [kind_eq db l hnext, Raw.kind, isEmptyLine_source, trim_source, isBlockMark_source, heading?_source, isRule_source,
    reference?_source db hl hbare, quoted?_source, hasBar_source hl, item?_source hl, label?_source db hl]
  simp only [Option.isSome_map]
  split
  · rfl
  · simp only [Bool.false_eq_true, if_false]
    cases heading? l with
    | some found => rfl
    | none =>
        simp only [Option.map_none]
        split
        · rfl
        · cases reference? db l with
          | some r => rfl
          | none =>
              simp only [Option.map_none]
              split
              · rfl
              · split
                · rfl
                · split
                  · rfl
                  · cases label? db l with
                    | some found => rfl
                    | none => rfl

end LeadSheet.Markup
