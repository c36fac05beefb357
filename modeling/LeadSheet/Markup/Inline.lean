import LeadSheet.Chord.Oracle
import LeadSheet.Markup.Piece

/-!
# Markup inside a line

The rules are applied one after another, each to the whole line as the one before has left it: images,
links, struck-out text, strong and emphasised text in two spellings each, and last the chords. Each rule
goes through the line from left to right and takes the first match it finds, the shortest one at that
place; matches of one rule do not overlap.
-/

namespace LeadSheet.Markup

open Text

/-! ## Images and links -/

/-- An address in parentheses at the head of a line, and what follows. It is not empty and holds neither
white space nor a closing parenthesis. -/
def address? (line : Line) : Option (List Char × Line) :=
  match line with
  | .char '(' :: rest =>
    match Line.spanChars (fun c => c != ')' && !isSpace c) rest with
    | ([], _) => none
    | (address, .char ')' :: after) => some (address, after)
    | _ => none
  | _ => none

theorem length_address? {line after : Line} {address : List Char}
    (h : address? line = some (address, after)) : after.length < line.length := by
  unfold address? at h
  split at h
  · rename_i rest
    have hle := Line.length_spanChars_le (fun c => c != ')' && !isSpace c) rest
    split at h
    · simp at h
    · rename_i heq
      simp only [Option.some.injEq, Prod.mk.injEq] at h
      obtain ⟨-, rfl⟩ := h
      rw [heq] at hle
      simp only [List.length_cons] at hle ⊢
      omega
    · simp at h
  · simp at h

/-- An image `![description](address)` at the head of a line. -/
def image? (line : Line) : Option (List Char × List Char × Line) :=
  match line with
  | .char '!' :: .char '[' :: rest =>
    match Line.spanChars (· != ']') rest with
    | (description, .char ']' :: more) =>
      (address? more).map fun (address, after) => (description, address, after)
    | _ => none
  | _ => none

theorem length_image? {line after : Line} {description address : List Char}
    (h : image? line = some (description, address, after)) : after.length < line.length := by
  unfold image? at h
  split at h
  · rename_i rest
    have hle := Line.length_spanChars_le (· != ']') rest
    split at h
    · rename_i heq
      obtain ⟨⟨a, t⟩, ha, ht⟩ := Option.map_eq_some_iff.mp h
      simp only [Prod.mk.injEq] at ht
      obtain ⟨-, -, rfl⟩ := ht
      have := length_address? ha
      rw [heq] at hle
      simp only [List.length_cons] at hle ⊢
      omega
    · simp at h
  · simp at h

/-- The text between brackets at the head of a line, which begins after the opening one, and what
follows the closing one. The text is not empty. -/
def bracketed? (line : Line) : Option (Line × Line) :=
  match line.dropWhile (!Piece.is ']' ·) with
  | [] => none
  | _ :: after =>
    if (line.takeWhile (!Piece.is ']' ·)).isEmpty then none
    else some (line.takeWhile (!Piece.is ']' ·), after)

theorem length_bracketed? {line name after : Line} (h : bracketed? line = some (name, after)) :
    after.length < line.length := by
  unfold bracketed? at h
  have hle := (List.dropWhile_sublist (l := line) (!Piece.is ']' ·)).length_le
  split at h
  · simp at h
  · rename_i heq
    rw [heq] at hle
    split at h
    · simp at h
    · simp only [Option.some.injEq, Prod.mk.injEq] at h
      obtain ⟨-, rfl⟩ := h
      simp only [List.length_cons] at hle
      omega

/-- A link `[label](address)` at the head of a line. -/
def link? (line : Line) : Option (Line × List Char × Line) :=
  match line with
  | .char '[' :: rest =>
    match bracketed? rest with
    | some (label, more) => (address? more).map fun (address, after) => (label, address, after)
    | none => none
  | _ => none

theorem length_link? {line label after : Line} {address : List Char}
    (h : link? line = some (label, address, after)) : after.length < line.length := by
  unfold link? at h
  split at h
  · split at h
    · rename_i hb
      obtain ⟨⟨a, t⟩, ha, ht⟩ := Option.map_eq_some_iff.mp h
      simp only [Prod.mk.injEq] at ht
      obtain ⟨-, -, rfl⟩ := ht
      have := length_address? ha
      have := length_bracketed? hb
      simp only [List.length_cons]
      omega
    · simp at h
  · simp at h

/-- Replaces the images of a line, the first of which has the number `n`. -/
def setImages (n : Nat) (line : Line) : Line × Nat :=
  match line with
  | [] => ([], n)
  | piece :: rest =>
    match h : image? (piece :: rest) with
    | some (description, address, after) =>
      have : after.length ≤ rest.length := Nat.le_of_lt_succ (length_image? h)
      let (pieces, m) := setImages (n + 1) after
      (.literal n [.tag (.image address description)] :: pieces, m)
    | none =>
      let (pieces, m) := setImages n rest
      (piece :: pieces, m)
termination_by line.length

/-- Replaces the links of a line, the first of which has the number `n`. The opening tag, which holds
the address, is a literal; the label stays open to the rules that follow. -/
def setLinks (n : Nat) (line : Line) : Line × Nat :=
  match line with
  | [] => ([], n)
  | piece :: rest =>
    match h : link? (piece :: rest) with
    | some (label, address, after) =>
      have : after.length ≤ rest.length := Nat.le_of_lt_succ (length_link? h)
      let (pieces, m) := setLinks (n + 1) after
      (.literal n [.tag (.opening (.anchor address))] :: label ++
        .tag (.closing (.anchor address)) :: pieces, m)
    | none =>
      let (pieces, m) := setLinks n rest
      (piece :: pieces, m)
termination_by line.length

/-! ## Emphasis -/

/-- A kind of emphasis. Text is marked by writing `mark` before and after it; the first and the last
piece between the marks must satisfy `edge`. Where `wholeWord` is set, no word character may stand
before the opening or after the closing mark. -/
structure Emphasis where
  mark : List Char
  element : Element
  edge : Char → Bool
  wholeWord : Bool

namespace Emphasis

/-- What follows a closing mark at the head of a line that comes after the piece `last`. -/
def closing? (e : Emphasis) (last : Piece) (line : Line) : Option Line :=
  if last.opaqueOr e.edge then
    (Line.dropMark? e.mark line).filter fun after =>
      !(e.wholeWord && after.head?.any (Piece.sat isWord))
  else none

theorem length_closing? {e : Emphasis} {last : Piece} {line after : Line}
    (h : closing? e last line = some after) : after.length + e.mark.length = line.length := by
  unfold closing? at h
  split at h
  · exact Line.length_dropMark? (Option.filter_eq_some_iff.mp h).1
  · simp at h

/-- The pieces up to the nearest closing mark in a line that comes after the piece `last`, and what
follows the mark. -/
def findClosing (e : Emphasis) (last : Piece) (line : Line) : Option (Line × Line) :=
  match closing? e last line, line with
  | some after, _ => some ([], after)
  | none, [] => none
  | none, piece :: rest =>
    (findClosing e piece rest).map fun (content, after) => (piece :: content, after)

/-- Marked text at the head of a line: its content and what follows. -/
def match? (e : Emphasis) (line : Line) : Option (Line × Line) :=
  match Line.dropMark? e.mark line with
  | some (first :: rest) =>
    if first.opaqueOr e.edge then
      (findClosing e first rest).map fun (content, after) => (first :: content, after)
    else none
  | _ => none

theorem length_findClosing {e : Emphasis} {last : Piece} {line content after : Line}
    (h : findClosing e last line = some (content, after)) :
    after.length + content.length ≤ line.length := by
  induction line generalizing last content with
  | nil =>
    unfold findClosing at h
    split at h
    · rename_i hc
      simp only [Option.some.injEq, Prod.mk.injEq] at h
      obtain ⟨rfl, rfl⟩ := h
      have := length_closing? hc
      simp only [List.length_nil] at this ⊢
      omega
    · simp at h
    · rename_i heq
      simp at heq
  | cons piece rest ih =>
    unfold findClosing at h
    split at h
    · rename_i hc
      simp only [Option.some.injEq, Prod.mk.injEq] at h
      obtain ⟨rfl, rfl⟩ := h
      have := length_closing? hc
      simp only [List.length_nil]
      omega
    · simp at h
    · rename_i p r _ heq
      simp only [List.cons.injEq] at heq
      obtain ⟨rfl, rfl⟩ := heq
      obtain ⟨⟨c, t⟩, hf, ht⟩ := Option.map_eq_some_iff.mp h
      simp only [Prod.mk.injEq] at ht
      obtain ⟨rfl, rfl⟩ := ht
      have := ih hf
      simp only [List.length_cons]
      omega

theorem length_match? {e : Emphasis} {line content after : Line}
    (h : match? e line = some (content, after)) : after.length < line.length := by
  unfold match? at h
  split at h
  · rename_i first rest hd
    split at h
    · obtain ⟨⟨c, t⟩, hf, ht⟩ := Option.map_eq_some_iff.mp h
      simp only [Prod.mk.injEq] at ht
      obtain ⟨rfl, rfl⟩ := ht
      have h1 := length_findClosing hf
      have h2 := Line.length_dropMark? hd
      simp only [List.length_cons] at h2
      omega
    · simp at h
  · simp at h

/-- Sets the marked texts of a line; `afterWord` says whether a word character comes before it. -/
def set (e : Emphasis) (afterWord : Bool) (line : Line) : Line :=
  match line with
  | [] => []
  | piece :: rest =>
    match h : if e.wholeWord && afterWord then none else e.match? (piece :: rest) with
    | some (content, after) =>
      have : after.length ≤ rest.length := by
        split at h
        · simp at h
        · exact Nat.le_of_lt_succ (length_match? h)
      .tag (.opening e.element) :: content ++
        .tag (.closing e.element) :: set e (e.mark.getLast?.any isWord) after
    | none => piece :: set e (piece.sat isWord) rest
termination_by line.length

end Emphasis

/-- The kinds of emphasis in the order in which they are set: those with a double mark before those with
a single one. -/
def emphases : List Emphasis :=
  [⟨['~', '~'], .deleted, fun c => !isSpace c, false⟩,
    ⟨['*', '*'], .strong, fun c => !isSpace c, false⟩,
    ⟨['_', '_'], .strong, fun c => !isSpace c, true⟩,
    ⟨['*'], .emphasis, fun c => !isSpace c && c != '*', false⟩,
    ⟨['_'], .emphasis, fun c => !isSpace c && c != '_', true⟩]

def setEmphases (line : Line) : Line := emphases.foldl (fun line e => e.set false line) line

/-! ## Chords -/

/-- Sets the chords of a line: the bracketed texts that the database knows, without their brackets. Any
other bracketed text is left as it is. -/
def setChords (db : Chord.Database) (line : Line) : Line :=
  match line with
  | [] => []
  | piece :: rest =>
    match h : if piece.is '[' then bracketed? rest else none with
    | some (name, after) =>
      have : after.length ≤ rest.length := by
        split at h
        · exact Nat.le_of_lt (length_bracketed? h)
        · simp at h
      if db.isChord (Line.source name) then
        .tag (.opening .chord) :: name ++ .tag (.closing .chord) :: setChords db after
      else piece :: name ++ .char ']' :: setChords db after
    | none => piece :: setChords db rest
termination_by line.length
decreasing_by all_goals simp only [List.length_cons]; omega

/-! ## All rules -/

/-- Marks up a line, the first literal of which has the number `n`. Gives the tokens and the next free
number. -/
def renderLine (db : Chord.Database) (n : Nat) (line : Line) : List Token × Nat :=
  let (line, n) := setImages n line
  let (line, n) := setLinks n line
  (Line.tokens (setChords db (setEmphases line)), n)

def renderLines (db : Chord.Database) (n : Nat) : List Line → List (List Token) × Nat
  | [] => ([], n)
  | line :: rest =>
    let (tokens, n) := renderLine db n line
    let (others, n) := renderLines db n rest
    (tokens :: others, n)

end LeadSheet.Markup
