import LeadSheet.Proofs.Chord.Names
import LeadSheet.Proofs.Markup.Compose
import LeadSheet.Proofs.Markup.Rewriting
import LeadSheet.Proofs.Markup.Safety

/-!
# The numbers of literals in a line

The number of a literal has one use: a chord name is looked up by its source text, in which a literal stands as
a mark with its number. Such a mark holds a `<`. So for a database in which no key and no quality has one, the
numbers have no effect on what is shown.

* `Line.anonymous` : the line with the numbers of its literals left out, which every reader and every rule keeps;
* `isChord_source_anonymous` : a name with a literal in it is no chord, whatever the number;
* `renderLine_congr` : lines that differ in numbers only are marked up alike.
-/

namespace LeadSheet.Markup

open Text

/-! ## Lines without numbers -/

namespace Piece

/-- The piece with the number of a literal left out. -/
def anonymous : Piece → Piece
  | char c => char c
  | tag t => tag t
  | literal _ content => literal 0 content

@[simp] theorem anonymous_char (c : Char) : (char c).anonymous = char c := rfl
@[simp] theorem anonymous_tag (t : Tag) : (tag t).anonymous = tag t := rfl
@[simp] theorem anonymous_literal (n : Nat) (content : List Token) :
    (literal n content).anonymous = literal 0 content := rfl

@[simp] theorem anonymous_anonymous (p : Piece) : p.anonymous.anonymous = p.anonymous := by cases p <;> rfl

@[simp] theorem sat_anonymous (q : Char → Bool) (p : Piece) : p.anonymous.sat q = p.sat q := by cases p <;> rfl

@[simp] theorem is_anonymous (c : Char) (p : Piece) : p.anonymous.is c = p.is c := sat_anonymous _ p

@[simp] theorem opaqueOr_anonymous (q : Char → Bool) (p : Piece) : p.anonymous.opaqueOr q = p.opaqueOr q := by
  cases p <;> rfl

@[simp] theorem tokens_anonymous (p : Piece) : p.anonymous.tokens = p.tokens := by cases p <;> rfl

end Piece

namespace Line

def anonymous (l : Line) : Line := l.map Piece.anonymous

@[simp] theorem anonymous_nil : anonymous [] = [] := rfl
@[simp] theorem anonymous_cons (p : Piece) (l : Line) : anonymous (p :: l) = p.anonymous :: anonymous l := rfl
@[simp] theorem anonymous_append (l l' : Line) : anonymous (l ++ l') = anonymous l ++ anonymous l' := List.map_append

@[simp] theorem anonymous_anonymous (l : Line) : l.anonymous.anonymous = l.anonymous := by simp [anonymous]

theorem dropMark?_anonymous (mark : List Char) (l : Line) :
    dropMark? mark l.anonymous = (dropMark? mark l).map anonymous := by
  induction mark generalizing l with
  | nil => rfl
  | cons c mark ih =>
      match l with
      | [] => rfl
      | .tag _ :: _ => rfl
      | .literal _ _ :: _ => rfl
      | .char d :: rest =>
          simp only [anonymous_cons, Piece.anonymous_char, dropMark?, ih]
          split
          · rfl
          · rfl

theorem spanChars_anonymous (q : Char → Bool) (l : Line) :
    spanChars q l.anonymous = Prod.map id anonymous (spanChars q l) := by
  fun_induction spanChars q l with
  | case1 c rest hc run after h ih =>
      simp only [anonymous_cons, Piece.anonymous_char, spanChars, hc, ih, h]
      rfl
  | case2 c rest hc => simp [spanChars, hc]
  | case3 l h =>
      match l with
      | [] => rfl
      | .tag _ :: _ => rfl
      | .literal _ _ :: _ => rfl
      | .char c :: rest => exact absurd rfl (h c rest)

theorem takeWhile_anonymous {q : Piece → Bool} (hq : ∀ p : Piece, q p.anonymous = q p) (l : Line) :
    l.anonymous.takeWhile q = anonymous (l.takeWhile q) := by
  have hcomp : q ∘ Piece.anonymous = q := funext hq
  rw [anonymous, List.takeWhile_map, hcomp]
  rfl

theorem dropWhile_anonymous {q : Piece → Bool} (hq : ∀ p : Piece, q p.anonymous = q p) (l : Line) :
    l.anonymous.dropWhile q = anonymous (l.dropWhile q) := by
  have hcomp : q ∘ Piece.anonymous = q := funext hq
  rw [anonymous, List.dropWhile_map, hcomp]
  rfl

@[simp] theorem reverse_anonymous (l : Line) : l.anonymous.reverse = anonymous l.reverse :=
  List.map_reverse.symm

theorem dropEndWhile_anonymous {q : Piece → Bool} (hq : ∀ p : Piece, q p.anonymous = q p) (l : Line) :
    dropEndWhile q l.anonymous = anonymous (dropEndWhile q l) := by
  rw [dropEndWhile, reverse_anonymous, dropWhile_anonymous hq, reverse_anonymous]
  rfl

theorem all_anonymous {q : Piece → Bool} (hq : ∀ p : Piece, q p.anonymous = q p) (l : Line) :
    l.anonymous.all q = l.all q := by
  have hcomp : q ∘ Piece.anonymous = q := funext hq
  rw [anonymous, List.all_map, hcomp]

theorem any_anonymous {q : Piece → Bool} (hq : ∀ p : Piece, q p.anonymous = q p) (l : Line) :
    l.anonymous.any q = l.any q := by
  have hcomp : q ∘ Piece.anonymous = q := funext hq
  rw [anonymous, List.any_map, hcomp]

theorem head?_any_anonymous {q : Piece → Bool} (hq : ∀ p : Piece, q p.anonymous = q p) (l : Line) :
    l.anonymous.head?.any q = l.head?.any q := by
  cases l with
  | nil => rfl
  | cons p l => exact hq p

@[simp] theorem tail_anonymous (l : Line) : l.anonymous.tail = anonymous l.tail := List.map_tail.symm

@[simp] theorem length_anonymous (l : Line) : l.anonymous.length = l.length := List.length_map _

@[simp] theorem isEmpty_anonymous (l : Line) : l.anonymous.isEmpty = l.isEmpty := List.isEmpty_map

@[simp] theorem anonymous_eq_nil (l : Line) : l.anonymous = [] ↔ l = [] := List.map_eq_nil_iff

@[simp] theorem tokens_anonymous (l : Line) : tokens l.anonymous = tokens l := by
  induction l with
  | nil => rfl
  | cons p l ih => rw [anonymous_cons, tokens_cons, tokens_cons, Piece.tokens_anonymous, ih]

@[simp] theorem dropBlanks_anonymous (l : Line) : dropBlanks l.anonymous = (dropBlanks l).anonymous :=
  dropWhile_anonymous (fun p => by simp) l

@[simp] theorem dropEndBlanks_anonymous (l : Line) : dropEndBlanks l.anonymous = (dropEndBlanks l).anonymous :=
  dropEndWhile_anonymous (fun p => by simp) l

@[simp] theorem trim_anonymous (l : Line) : trim l.anonymous = (trim l).anonymous := by
  rw [trim, dropWhile_anonymous (fun p => by simp), dropEndWhile_anonymous (fun p => by simp)]
  rfl

@[simp] theorem isEmptyLine_anonymous (l : Line) : isEmptyLine l.anonymous = isEmptyLine l :=
  all_anonymous (fun p => by simp) l

end Line

/-! ## Code, images, links and emphasis -/

theorem setSpans_anonymous (n m : Nat) (s : List Char) : (setSpans n s).1.anonymous = (setSpans m s).1.anonymous := by
  fun_induction setSpans n s generalizing m with
  | case1 n =>
      rw [setSpans]
  | case2 n c rest hc hdrop =>
      rw [setSpans, if_pos hc]
      split
      · rfl
      · rename_i heq
        exact absurd (hdrop.symm.trans heq) (by simp)
  | case3 n c rest hc mark after hdrop _ pieces k heq ih =>
      rw [setSpans, if_pos hc]
      split
      · rename_i hnone
        exact absurd (hdrop.symm.trans hnone) (by simp)
      · rename_i hsome
        obtain ⟨rfl, rfl⟩ := List.cons.inj (hdrop.symm.trans hsome)
        rw [heq] at ih
        exact congrArg (_ :: ·) (ih (m + 1))
  | case4 n c rest hc pieces k heq ih =>
      rw [setSpans, if_neg hc]
      rw [heq] at ih
      exact congrArg (_ :: ·) (ih m)

theorem address?_anonymous (l : Line) : address? l.anonymous = (address? l).map (Prod.map id Line.anonymous) := by
  rw [address?_eq, address?_eq, Line.dropMark?_anonymous]
  cases Line.dropMark? ['('] l with
  | none => rfl
  | some rest =>
      simp only [Option.map_some, Option.bind_some, Line.spanChars_anonymous, Prod.map_fst, id_eq, Prod.map_snd,
        Line.dropMark?_anonymous]
      split
      · rfl
      · rw [Option.map_map, Option.map_map]
        rfl

theorem image?_anonymous (l : Line) :
    image? l.anonymous = (image? l).map (Prod.map id (Prod.map id Line.anonymous)) := by
  rw [image?_eq, image?_eq, Line.dropMark?_anonymous]
  cases Line.dropMark? ['!', '['] l with
  | none => rfl
  | some rest =>
      simp only [Option.map_some, Option.bind_some, Line.spanChars_anonymous, Prod.map_fst, id_eq, Prod.map_snd,
        Line.dropMark?_anonymous]
      cases Line.dropMark? [']'] (Line.spanChars (· != ']') rest).2 with
      | none => rfl
      | some more =>
          simp only [Option.map_some, Option.bind_some, address?_anonymous, Option.map_map]
          rfl

theorem bracketed?_anonymous (l : Line) :
    bracketed? l.anonymous = (bracketed? l).map (Prod.map Line.anonymous Line.anonymous) := by
  have hclose : ∀ p : Piece, (!p.anonymous.is ']') = !p.is ']' := by simp
  rw [bracketed?_eq, bracketed?_eq, Line.takeWhile_anonymous hclose, Line.dropWhile_anonymous hclose,
    Line.dropMark?_anonymous]
  simp only [Line.anonymous_eq_nil]
  split
  · rfl
  · rw [Option.map_map, Option.map_map]
    rfl

theorem link?_anonymous (l : Line) :
    link? l.anonymous = (link? l).map (Prod.map Line.anonymous (Prod.map id Line.anonymous)) := by
  rw [link?_eq, link?_eq, Line.dropMark?_anonymous]
  cases Line.dropMark? ['['] l with
  | none => rfl
  | some rest =>
      simp only [Option.map_some, Option.bind_some, bracketed?_anonymous]
      cases bracketed? rest with
      | none => rfl
      | some b =>
          simp only [Option.map_some, Option.bind_some, Prod.map_fst, Prod.map_snd, address?_anonymous, Option.map_map]
          rfl

theorem setImages_anonymous (n m : Nat) (l : Line) :
    (setImages n l.anonymous).1.anonymous = (setImages m l).1.anonymous := by
  fun_induction setImages m l generalizing n with
  | case1 =>
      rw [Line.anonymous_nil, setImages]
      rfl
  | case2 m piece rest description address after h _ pieces k heq ih =>
      have himage : image? (piece.anonymous :: Line.anonymous rest) =
          some (description, address, Line.anonymous after) := by
        rw [← Line.anonymous_cons, image?_anonymous, h]
        rfl
      rw [Line.anonymous_cons, setImages_of_some himage, Line.anonymous_cons, ih, heq]
      rfl
  | case3 m piece rest h pieces k heq ih =>
      have himage : image? (piece.anonymous :: Line.anonymous rest) = none := by
        rw [← Line.anonymous_cons, image?_anonymous, h]
        rfl
      rw [Line.anonymous_cons, setImages_of_none himage, Line.anonymous_cons, ih, heq]
      simp

theorem setLinks_anonymous (n m : Nat) (l : Line) :
    (setLinks n l.anonymous).1.anonymous = (setLinks m l).1.anonymous := by
  fun_induction setLinks m l generalizing n with
  | case1 =>
      rw [Line.anonymous_nil, setLinks]
      rfl
  | case2 m piece rest label address after h _ pieces k heq ih =>
      have hlink : link? (piece.anonymous :: Line.anonymous rest) =
          some (Line.anonymous label, address, Line.anonymous after) := by
        rw [← Line.anonymous_cons, link?_anonymous, h]
        rfl
      rw [Line.anonymous_cons, setLinks_of_some hlink]
      simp only [List.cons_append, Line.anonymous_cons, Line.anonymous_append, ih, heq]
      simp
  | case3 m piece rest h pieces k heq ih =>
      have hlink : link? (piece.anonymous :: Line.anonymous rest) = none := by
        rw [← Line.anonymous_cons, link?_anonymous, h]
        rfl
      rw [Line.anonymous_cons, setLinks_of_none hlink, Line.anonymous_cons, ih, heq]
      simp

namespace Emphasis

theorem closing?_anonymous (e : Emphasis) (last : Piece) (l : Line) :
    closing? e last.anonymous l.anonymous = (closing? e last l).map Line.anonymous := by
  have hword : ∀ after : Line, after.anonymous.head?.any (Piece.sat isWord) = after.head?.any (Piece.sat isWord) :=
    Line.head?_any_anonymous (fun p => by simp)
  rw [closing?, closing?, Piece.opaqueOr_anonymous, Line.dropMark?_anonymous]
  split
  · cases Line.dropMark? e.mark l with
    | none => rfl
    | some after =>
        rw [Option.map_some, Option.filter_some, Option.filter_some, hword]
        split
        · rfl
        · rfl
  · rfl

theorem findClosing_anonymous (e : Emphasis) (last : Piece) (l : Line) :
    findClosing e last.anonymous l.anonymous = (findClosing e last l).map (Prod.map Line.anonymous Line.anonymous) := by
  have hclosing := closing?_anonymous e last l
  induction l generalizing last with
  | nil =>
      rw [Line.anonymous_nil] at hclosing ⊢
      rw [findClosing_nil, findClosing_nil, hclosing, Option.map_map, Option.map_map]
      rfl
  | cons p l ih =>
      rw [Line.anonymous_cons] at hclosing ⊢
      rw [findClosing_cons, findClosing_cons, hclosing]
      cases closing? e last (p :: l) with
      | none =>
          simp only [Option.map_none, ih p (closing?_anonymous e p l), Option.map_map]
          rfl
      | some after => rfl

theorem match?_anonymous (e : Emphasis) (l : Line) :
    match? e l.anonymous = (match? e l).map (Prod.map Line.anonymous Line.anonymous) := by
  rw [match?, match?, Line.dropMark?_anonymous]
  cases Line.dropMark? e.mark l with
  | none => rfl
  | some inner =>
      cases inner with
      | nil => rfl
      | cons first rest =>
          simp only [Option.map_some, Line.anonymous_cons, Piece.opaqueOr_anonymous, findClosing_anonymous]
          split
          · rw [Option.map_map, Option.map_map]
            rfl
          · rfl

theorem set_anonymous (e : Emphasis) (afterWord : Bool) (l : Line) :
    e.set afterWord l.anonymous = (e.set afterWord l).anonymous := by
  have hbegin : ∀ (afterWord : Bool) (l : Line),
      e.begin? afterWord l.anonymous = (e.begin? afterWord l).map (Prod.map Line.anonymous Line.anonymous) := by
    intro afterWord l
    rw [begin?, begin?, match?_anonymous]
    split
    · rfl
    · rfl
  fun_induction e.set afterWord l with
  | case1 afterWord => rw [Line.anonymous_nil, set]
  | case2 afterWord piece rest content after h _ ih =>
      have hset := hbegin afterWord (piece :: rest)
      rw [Line.anonymous_cons, show e.begin? afterWord (piece :: rest) = some (content, after) from h] at hset
      rw [Line.anonymous_cons, set_of_some hset, ih]
      simp
  | case3 afterWord piece rest h ih =>
      have hset := hbegin afterWord (piece :: rest)
      rw [Line.anonymous_cons, show e.begin? afterWord (piece :: rest) = none from h] at hset
      rw [Line.anonymous_cons, set_of_none hset, Piece.sat_anonymous, ih]
      rfl

end Emphasis

theorem setEmphases_anonymous (l : Line) : setEmphases l.anonymous = (setEmphases l).anonymous := by
  unfold setEmphases
  induction emphases generalizing l with
  | nil => rfl
  | cons e es ih => rw [List.foldl_cons, Emphasis.set_anonymous, ih, List.foldl_cons]

/-! ## Chords -/

theorem Piece.open_mem_source {p : Piece} (h : ∀ c, p ≠ .char c) : '<' ∈ p.source := by
  cases p with
  | char c => exact absurd rfl (h c)
  | tag t => exact List.mem_cons_self
  | literal n content => exact List.mem_append_left _ (List.mem_append_left _ List.mem_cons_self)

/-- A line is its own without numbers, unless its source text has a `<` with them and without them. -/
theorem Line.source_anonymous_cases (l : Line) :
    l.anonymous = l ∨ '<' ∈ source l.anonymous ∧ '<' ∈ source l := by
  induction l with
  | nil => exact Or.inl rfl
  | cons p l ih =>
      rw [anonymous_cons, source, source, List.flatMap_cons, List.flatMap_cons]
      rcases ih with ih | ⟨hanonymous, hl⟩
      · rw [ih]
        cases p with
        | char c => exact Or.inl rfl
        | tag t => exact Or.inl rfl
        | literal n content =>
            refine Or.inr ⟨List.mem_append_left _ ?_, List.mem_append_left _ ?_⟩
            · exact Piece.open_mem_source (by simp)
            · exact Piece.open_mem_source (by simp)
      · exact Or.inr ⟨List.mem_append_right _ hanonymous, List.mem_append_right _ hl⟩

section Lacks

variable {db : Chord.Database} (hdb : db.Lacks '<')

include hdb

theorem isChord_source_anonymous (l : Line) : db.isChord (Line.source l.anonymous) = db.isChord (Line.source l) := by
  have hfalse : ∀ {name : List Char}, '<' ∈ name → db.isChord name = false := by
    intro name hname
    rw [← Bool.not_eq_true]
    exact fun h => Chord.not_mem_of_isChord Chord.foreign_ne_open hdb h hname
  rcases l.source_anonymous_cases with h | ⟨hanonymous, hl⟩
  · rw [h]
  · rw [hfalse hanonymous, hfalse hl]

theorem setChords_anonymous (l : Line) : setChords db l.anonymous = (setChords db l).anonymous := by
  have hname : ∀ l : Line, name? l.anonymous = (name? l).map (Prod.map Line.anonymous Line.anonymous) := by
    intro l
    rw [name?, name?, Line.dropMark?_anonymous]
    cases Line.dropMark? ['['] l with
    | none => rfl
    | some rest => exact bracketed?_anonymous rest
  fun_induction setChords db l with
  | case1 => rw [Line.anonymous_nil, setChords]
  | case2 piece rest name after h _ hchord ih =>
      have hset := hname (piece :: rest)
      rw [Line.anonymous_cons, show name? (piece :: rest) = some (name, after) from name?_cons piece rest ▸ h] at hset
      rw [Line.anonymous_cons, setChords_of_some hset, isChord_source_anonymous hdb, if_pos hchord, ih]
      simp
  | case3 piece rest name after h _ hchord ih =>
      have hset := hname (piece :: rest)
      rw [Line.anonymous_cons, show name? (piece :: rest) = some (name, after) from name?_cons piece rest ▸ h] at hset
      rw [Line.anonymous_cons, setChords_of_some hset, isChord_source_anonymous hdb, if_neg hchord, ih]
      simp
  | case4 piece rest h ih =>
      have hset := hname (piece :: rest)
      rw [Line.anonymous_cons, show name? (piece :: rest) = none from name?_cons piece rest ▸ h] at hset
      rw [Line.anonymous_cons, setChords_of_none hset, ih]
      rfl

/-- Lines that differ in the numbers of their literals only are marked up alike. -/
theorem renderLine_congr {l m : Line} (h : l.anonymous = m.anonymous) (i j : Nat) :
    (renderLine db i l).1 = (renderLine db j m).1 := by
  have himages : (setImages i l).1.anonymous = (setImages j m).1.anonymous := by
    rw [← setImages_anonymous 0 i, h, setImages_anonymous 0 j]
  have hlinks : ∀ {l m : Line}, l.anonymous = m.anonymous → ∀ i j,
      (setLinks i l).1.anonymous = (setLinks j m).1.anonymous := by
    intro l m h i j
    rw [← setLinks_anonymous 0 i, h, setLinks_anonymous 0 j]
  have hinline : (setInline i l).anonymous = (setInline j m).anonymous := by
    rw [setInline, setInline, ← setEmphases_anonymous, ← setEmphases_anonymous, hlinks himages]
  rw [renderLine_fst, renderLine_fst, ← Line.tokens_anonymous, ← setChords_anonymous hdb, hinline,
    setChords_anonymous hdb, Line.tokens_anonymous]

end Lacks

end LeadSheet.Markup
