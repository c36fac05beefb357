import LeadSheet.Markup.Inline
import LeadSheet.Proofs.Scan

/-!
# What the rules inside a line take off its head

Every reader of the rules inside a line is met by one equation: the line is what was read, written out
again, followed by what is left. The characters of a mark, an address or a description are characters of
the line; a label, a chord name and the content of an emphasis are pieces of it. Where a reader looks for
marks, a second equation says so in terms of `Line.dropMark?`, and each rule is given by one step at the head of
a line.
-/

namespace LeadSheet.Markup

open Text

theorem Piece.eq_char_of_is {c : Char} {p : Piece} (h : p.is c = true) : p = .char c := by
  match p with
  | .char d => simpa [is, sat] using h
  | .tag t => simp [is, sat] at h
  | .literal n content => simp [is, sat] at h

namespace Line

@[simp] theorem ofChars_nil : ofChars [] = [] := rfl

@[simp] theorem ofChars_cons (c : Char) (s : List Char) : ofChars (c :: s) = .char c :: ofChars s := rfl

@[simp] theorem ofChars_append (s t : List Char) : ofChars (s ++ t) = ofChars s ++ ofChars t :=
  List.map_append

@[simp] theorem tokens_nil : tokens [] = [] := rfl

@[simp] theorem tokens_cons (p : Piece) (l : Line) : tokens (p :: l) = p.tokens ++ tokens l := rfl

@[simp] theorem tokens_append (l l' : Line) : tokens (l ++ l') = tokens l ++ tokens l' := List.flatMap_append

@[simp] theorem tokens_ofChars (s : List Char) : tokens (ofChars s) = Token.ofChars s := by
  rw [tokens, ofChars, List.flatMap_map]
  exact List.map_eq_flatMap.symm

theorem ofChars_inj {s t : List Char} : ofChars s = ofChars t ↔ s = t :=
  List.map_inj_right fun _ _ h => Piece.char.inj h

theorem infix_ofChars_iff {u s : List Char} : ofChars u <:+: ofChars s ↔ u <:+: s := by
  constructor
  · rintro ⟨a, b, h⟩
    obtain ⟨front, back, rfl, hfront, -⟩ := List.map_eq_append_iff.mp h.symm
    obtain ⟨a', u', rfl, -, hu⟩ := List.map_eq_append_iff.mp hfront
    rw [ofChars_inj.mp hu]
    exact ⟨a', back, rfl⟩
  · rintro ⟨a, b, rfl⟩
    exact ⟨ofChars a, ofChars b, by simp⟩

theorem spanChars_eq (p : Char → Bool) (line : Line) :
    line = ofChars (spanChars p line).1 ++ (spanChars p line).2 := by
  fun_induction spanChars p line with
  | case1 c rest _ run after h ih =>
      rw [h] at ih
      rw [ih]
      rfl
  | case2 => rfl
  | case3 => rfl

theorem spanChars_all (p : Char → Bool) (line : Line) : ∀ c ∈ (spanChars p line).1, p c = true := by
  fun_induction spanChars p line with
  | case1 c rest hc run after h ih =>
      rw [h] at ih
      exact List.forall_mem_cons.mpr ⟨hc, ih⟩
  | case2 => simp
  | case3 => simp

theorem dropMark?_eq_some {mark : List Char} {line rest : Line} (h : dropMark? mark line = some rest) :
    line = ofChars mark ++ rest := by
  induction mark generalizing line with
  | nil =>
      simp only [dropMark?, Option.some.injEq] at h
      rw [h]
      rfl
  | cons c mark ih =>
      cases line with
      | nil => simp [dropMark?] at h
      | cons p tail =>
          cases p with
          | tag t => simp [dropMark?] at h
          | literal n content => simp [dropMark?] at h
          | char d =>
              simp only [dropMark?] at h
              split at h
              · rename_i hcd
                rw [ih h, hcd]
                rfl
              · simp at h

theorem dropMark?_char (c : Char) (mark : List Char) (rest : Line) :
    dropMark? (c :: mark) (.char c :: rest) = dropMark? mark rest := if_pos rfl

/-- A line begins with the character, or its mark is not there. -/
theorem head_cases (c : Char) (line : Line) :
    (∃ rest, line = .char c :: rest) ∨
      (∀ rest, line ≠ .char c :: rest) ∧ ∀ mark, dropMark? (c :: mark) line = none := by
  match line with
  | [] => exact Or.inr ⟨by simp, fun _ => rfl⟩
  | .tag _ :: _ => exact Or.inr ⟨by simp, fun _ => rfl⟩
  | .literal _ _ :: _ => exact Or.inr ⟨by simp, fun _ => rfl⟩
  | .char d :: rest =>
      by_cases hcd : c = d
      · exact Or.inl ⟨rest, by rw [hcd]⟩
      · refine Or.inr ⟨fun rest' h => hcd ?_, fun mark => if_neg hcd⟩
        exact (Piece.char.inj (List.cons.inj h).1).symm

theorem dropMark?_of_ne {c : Char} {mark : List Char} {line : Line} (h : ∀ rest, line ≠ .char c :: rest) :
    dropMark? (c :: mark) line = none := by
  rcases head_cases c line with ⟨rest, hrest⟩ | ⟨-, hnone⟩
  · exact absurd hrest (h rest)
  · exact hnone mark

end Line

/-! ## Images and links -/

/-- An address stands between parentheses. -/
theorem address?_eq (line : Line) :
    address? line = (Line.dropMark? ['('] line).bind fun rest =>
      let address := Line.spanChars (fun c => c != ')' && !isSpace c) rest
      if address.1 = [] then none else (Line.dropMark? [')'] address.2).map fun after => (address.1, after) := by
  unfold address?
  split
  · rename_i rest
    rw [Line.dropMark?_char, Line.dropMark?, Option.bind_some]
    generalize Line.spanChars (fun c => c != ')' && !isSpace c) rest = address
    split
    · rfl
    · rename_i run after hne
      rw [if_neg hne, Line.dropMark?_char]
      rfl
    · rename_i hempty hclose
      have hmark : Line.dropMark? [')'] address.2 = none :=
        Line.dropMark?_of_ne fun after h => hclose address.1 after (Prod.ext rfl h)
      simp only [hmark, Option.map_none, ite_self]
  · rename_i hopen
    rw [Line.dropMark?_of_ne hopen]
    rfl

theorem image?_eq (line : Line) :
    image? line = (Line.dropMark? ['!', '['] line).bind fun rest =>
      let description := Line.spanChars (· != ']') rest
      (Line.dropMark? [']'] description.2).bind fun more =>
        (address? more).map fun (address, after) => (description.1, address, after) := by
  unfold image?
  split
  · rename_i rest
    rw [Line.dropMark?_char, Line.dropMark?_char, Line.dropMark?, Option.bind_some]
    generalize Line.spanChars (· != ']') rest = description
    split
    · rfl
    · rename_i hclose
      have hmark : Line.dropMark? [']'] description.2 = none :=
        Line.dropMark?_of_ne fun after h => hclose description.1 after (Prod.ext rfl h)
      simp only [hmark, Option.bind_none]
  · rename_i hopen
    rcases Line.head_cases '!' line with ⟨rest, rfl⟩ | ⟨-, hnone⟩
    · rw [Line.dropMark?_char, Line.dropMark?_of_ne fun rest' h => hopen rest' (by rw [h])]
      rfl
    · rw [hnone]
      rfl

theorem link?_eq (line : Line) :
    link? line = (Line.dropMark? ['['] line).bind fun rest => (bracketed? rest).bind fun (label, more) =>
      (address? more).map fun (address, after) => (label, address, after) := by
  unfold link?
  split
  · rename_i rest
    rw [Line.dropMark?_char, Line.dropMark?, Option.bind_some]
    cases bracketed? rest with
    | none => rfl
    | some b => rfl
  · rename_i hopen
    rw [Line.dropMark?_of_ne hopen]
    rfl

theorem bracketed?_eq (line : Line) :
    bracketed? line = if line.takeWhile (!Piece.is ']' ·) = [] then none
      else (Line.dropMark? [']'] (line.dropWhile (!Piece.is ']' ·))).map fun after =>
        (line.takeWhile (!Piece.is ']' ·), after) := by
  unfold bracketed?
  split
  · rename_i h
    rw [h]
    split <;> rfl
  · rename_i p after h
    have hp : p = .char ']' := Piece.eq_char_of_is (by simpa using (eq_takeWhile_append h).1)
    rw [h, hp, Line.dropMark?_char, Line.dropMark?]
    cases line.takeWhile (!Piece.is ']' ·) with
    | nil => rfl
    | cons p name => rfl

theorem address?_eq_some {line after : Line} {address : List Char}
    (h : address? line = some (address, after)) :
    line = Line.ofChars ('(' :: address ++ [')']) ++ after := by
  unfold address? at h
  split at h
  · rename_i rest
    have hrest := Line.spanChars_eq (fun c => c != ')' && !isSpace c) rest
    split at h
    · simp at h
    · rename_i hspan
      simp only [Option.some.injEq, Prod.mk.injEq] at h
      obtain ⟨rfl, rfl⟩ := h
      rw [hrest, hspan]
      simp
    · simp at h
  · simp at h

theorem image?_eq_some {line after : Line} {description address : List Char}
    (h : image? line = some (description, address, after)) :
    line = Line.ofChars ('!' :: '[' :: description ++ ']' :: '(' :: address ++ [')']) ++ after := by
  unfold image? at h
  split at h
  · rename_i rest
    have hrest := Line.spanChars_eq (· != ']') rest
    split at h
    · rename_i more hspan
      obtain ⟨⟨a, t⟩, ha, ht⟩ := Option.map_eq_some_iff.mp h
      simp only [Prod.mk.injEq] at ht
      obtain ⟨rfl, rfl, rfl⟩ := ht
      rw [hrest, hspan, address?_eq_some ha]
      simp
    · simp at h
  · simp at h

theorem bracketed?_eq_some {line name after : Line} (h : bracketed? line = some (name, after)) :
    line = name ++ .char ']' :: after ∧ name ≠ [] ∧ ∀ p ∈ name, p.is ']' = false := by
  unfold bracketed? at h
  split at h
  · simp at h
  · rename_i piece rest hdrop
    split at h
    · simp at h
    · rename_i hne
      simp only [Option.some.injEq, Prod.mk.injEq] at h
      obtain ⟨rfl, rfl⟩ := h
      obtain ⟨hpiece, hline⟩ := eq_takeWhile_append hdrop
      have hpiece : piece = .char ']' := Piece.eq_char_of_is (by simpa using hpiece)
      refine ⟨by rw [← hpiece]; exact hline, by simpa using hne, fun p hp => ?_⟩
      simpa using List.mem_takeWhile_imp hp

theorem link?_eq_some {line label after : Line} {address : List Char}
    (h : link? line = some (label, address, after)) :
    line = .char '[' :: label ++ (Line.ofChars (']' :: '(' :: address ++ [')']) ++ after) := by
  unfold link? at h
  split at h
  · split at h
    · rename_i hb
      obtain ⟨⟨a, t⟩, ha, ht⟩ := Option.map_eq_some_iff.mp h
      simp only [Prod.mk.injEq] at ht
      obtain ⟨rfl, rfl, rfl⟩ := ht
      rw [(bracketed?_eq_some hb).1, address?_eq_some ha]
      simp
    · simp at h
  · simp at h

namespace Emphasis

theorem closing?_eq_some {e : Emphasis} {last : Piece} {line after : Line}
    (h : closing? e last line = some after) : line = Line.ofChars e.mark ++ after := by
  unfold closing? at h
  split at h
  · exact Line.dropMark?_eq_some (Option.filter_eq_some_iff.mp h).1
  · simp at h

theorem findClosing_eq_some {e : Emphasis} {last : Piece} {line content after : Line}
    (h : findClosing e last line = some (content, after)) :
    line = content ++ (Line.ofChars e.mark ++ after) := by
  induction line generalizing last content with
  | nil =>
      unfold findClosing at h
      split at h
      · rename_i hc
        simp only [Option.some.injEq, Prod.mk.injEq] at h
        obtain ⟨rfl, rfl⟩ := h
        exact closing?_eq_some hc
      · simp at h
      · rename_i heq
        simp at heq
  | cons piece rest ih =>
      unfold findClosing at h
      split at h
      · rename_i hc
        simp only [Option.some.injEq, Prod.mk.injEq] at h
        obtain ⟨rfl, rfl⟩ := h
        exact closing?_eq_some hc
      · simp at h
      · rename_i heq
        simp only [List.cons.injEq] at heq
        obtain ⟨rfl, rfl⟩ := heq
        obtain ⟨⟨c, t⟩, hf, ht⟩ := Option.map_eq_some_iff.mp h
        simp only [Prod.mk.injEq] at ht
        obtain ⟨rfl, rfl⟩ := ht
        rw [ih hf]
        rfl

theorem match?_eq_some {e : Emphasis} {line content after : Line}
    (h : match? e line = some (content, after)) :
    line = Line.ofChars e.mark ++ (content ++ (Line.ofChars e.mark ++ after)) := by
  unfold match? at h
  split at h
  · rename_i first rest hd
    split at h
    · obtain ⟨⟨c, t⟩, hf, ht⟩ := Option.map_eq_some_iff.mp h
      simp only [Prod.mk.injEq] at ht
      obtain ⟨rfl, rfl⟩ := ht
      rw [Line.dropMark?_eq_some hd, findClosing_eq_some hf]
      rfl
    · simp at h
  · simp at h

end Emphasis

/-! ## One step of each rule -/

theorem setImages_of_some {n : Nat} {piece : Piece} {rest after : Line} {description address : List Char}
    (h : image? (piece :: rest) = some (description, address, after)) :
    setImages n (piece :: rest) =
      (.literal n [.tag (.image address description)] :: (setImages (n + 1) after).1, (setImages (n + 1) after).2) := by
  rw [setImages]
  split
  · rename_i heq
    rw [h] at heq
    obtain ⟨rfl, rfl, rfl⟩ := by simpa using heq
    rfl
  · rename_i heq
    exact absurd (h.symm.trans heq) (by simp)

theorem setImages_of_none {n : Nat} {piece : Piece} {rest : Line} (h : image? (piece :: rest) = none) :
    setImages n (piece :: rest) = (piece :: (setImages n rest).1, (setImages n rest).2) := by
  rw [setImages]
  split
  · rename_i heq
    exact absurd (h.symm.trans heq) (by simp)
  · rfl

theorem setLinks_of_some {n : Nat} {piece : Piece} {rest label after : Line} {address : List Char}
    (h : link? (piece :: rest) = some (label, address, after)) :
    setLinks n (piece :: rest) =
      (.literal n [.tag (.opening (.anchor address))] :: label ++
        .tag (.closing (.anchor address)) :: (setLinks (n + 1) after).1, (setLinks (n + 1) after).2) := by
  rw [setLinks]
  split
  · rename_i heq
    rw [h] at heq
    obtain ⟨rfl, rfl, rfl⟩ := by simpa using heq
    rfl
  · rename_i heq
    exact absurd (h.symm.trans heq) (by simp)

theorem setLinks_of_none {n : Nat} {piece : Piece} {rest : Line} (h : link? (piece :: rest) = none) :
    setLinks n (piece :: rest) = (piece :: (setLinks n rest).1, (setLinks n rest).2) := by
  rw [setLinks]
  split
  · rename_i heq
    exact absurd (h.symm.trans heq) (by simp)
  · rfl

namespace Emphasis

theorem findClosing_nil (e : Emphasis) (last : Piece) :
    findClosing e last [] = (closing? e last []).map fun after => ([], after) := by
  rw [findClosing.eq_def]
  cases closing? e last [] with
  | none => rfl
  | some after => rfl

theorem findClosing_cons (e : Emphasis) (last piece : Piece) (rest : Line) :
    findClosing e last (piece :: rest) = match closing? e last (piece :: rest) with
      | some after => some ([], after)
      | none => (findClosing e piece rest).map fun (content, after) => (piece :: content, after) := by
  rw [findClosing.eq_def]
  cases closing? e last (piece :: rest) with
  | none => rfl
  | some after => rfl

def begin? (e : Emphasis) (afterWord : Bool) (line : Line) : Option (Line × Line) :=
  if e.wholeWord && afterWord then none else e.match? line

theorem set_of_some {e : Emphasis} {afterWord : Bool} {piece : Piece} {rest content after : Line}
    (h : e.begin? afterWord (piece :: rest) = some (content, after)) :
    e.set afterWord (piece :: rest) = .tag (.opening e.element) :: content ++
      .tag (.closing e.element) :: e.set (e.mark.getLast?.any isWord) after := by
  rw [begin?] at h
  rw [set]
  split
  · rename_i heq
    rw [h] at heq
    obtain ⟨rfl, rfl⟩ := by simpa using heq
    rfl
  · rename_i heq
    exact absurd (h.symm.trans heq) (by simp)

theorem set_of_none {e : Emphasis} {afterWord : Bool} {piece : Piece} {rest : Line}
    (h : e.begin? afterWord (piece :: rest) = none) :
    e.set afterWord (piece :: rest) = piece :: e.set (piece.sat isWord) rest := by
  rw [begin?] at h
  rw [set]
  split
  · rename_i heq
    exact absurd (h.symm.trans heq) (by simp)
  · rfl

end Emphasis

def name? (line : Line) : Option (Line × Line) := (Line.dropMark? ['['] line).bind bracketed?

theorem name?_cons (piece : Piece) (rest : Line) :
    name? (piece :: rest) = if piece.is '[' then bracketed? rest else none := by
  match piece with
  | .tag _ => rfl
  | .literal _ _ => rfl
  | .char c =>
      by_cases hc : c = '['
      · rw [hc]
        rfl
      · simp [name?, Line.dropMark?, Piece.is, Piece.sat, hc, Ne.symm hc]

theorem setChords_of_some {db : Chord.Database} {piece : Piece} {rest name after : Line}
    (h : name? (piece :: rest) = some (name, after)) :
    setChords db (piece :: rest) = if db.isChord (Line.source name) then
        .tag (.opening .chord) :: name ++ .tag (.closing .chord) :: setChords db after
      else piece :: name ++ .char ']' :: setChords db after := by
  rw [name?_cons] at h
  rw [setChords]
  split
  · rename_i heq
    rw [h] at heq
    obtain ⟨rfl, rfl⟩ := by simpa using heq
    rfl
  · rename_i heq
    exact absurd (h.symm.trans heq) (by simp)

theorem setChords_of_none {db : Chord.Database} {piece : Piece} {rest : Line} (h : name? (piece :: rest) = none) :
    setChords db (piece :: rest) = piece :: setChords db rest := by
  rw [name?_cons] at h
  rw [setChords]
  split
  · rename_i heq
    exact absurd (h.symm.trans heq) (by simp)
  · rfl

end LeadSheet.Markup
