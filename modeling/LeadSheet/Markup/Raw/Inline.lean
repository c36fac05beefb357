import LeadSheet.Markup.Inline
import LeadSheet.Markup.Raw.Table

/-!
# The rules inside a line, on its text

The text is escaped by the time these rules run, and holds placeholders and the tags that earlier rules
have put there. An address and a description hold no `<`, so neither takes a placeholder or a tag in.
-/

namespace LeadSheet.Markup.Raw

open Text

def wrap (e : Element) (content : List Char) : List Char :=
  (Tag.opening e).text ++ (content ++ (Tag.closing e).text)

/-- Escaped text as the value of a quoted attribute: only the quotes are left to be escaped. -/
def escapeQuotes (s : List Char) : List Char :=
  s.flatMap fun c => if c = '"' then "&quot;".toList else [c]

/-- Any character but a line end. -/
def isDot (c : Char) : Bool := c != '\n'

/-! ## Images, links and chords -/

def isDescriptionChar (c : Char) : Bool := c != ']' && c != '\n' && c != '<'

def isAddressChar (c : Char) : Bool := c != ')' && !isSpace c && c != '<'

def isLabelChar (c : Char) : Bool := c != ']' && c != '\n'

/-- An address in parentheses at the head of a text, and what follows. -/
def address? (s : List Char) : Option (List Char × List Char) :=
  (dropMark? ['('] s).bind fun rest =>
    if rest.takeWhile isAddressChar = [] then none
    else (dropMark? [')'] (rest.dropWhile isAddressChar)).map fun after => (rest.takeWhile isAddressChar, after)

theorem length_address? {s address after : List Char} (h : address? s = some (address, after)) :
    after.length < s.length := by
  obtain ⟨rest, hrest, h⟩ := Option.bind_eq_some_iff.mp h
  split at h
  · simp at h
  · obtain ⟨after', hafter, heq⟩ := Option.map_eq_some_iff.mp h
    obtain ⟨-, rfl⟩ := Prod.mk.inj heq
    have hopen := length_dropMark? hrest
    have hclose := length_dropMark? hafter
    have hrun := length_dropWhile_le isAddressChar rest
    simp only [List.length_singleton] at hopen hclose
    omega

/-- The text in brackets at the head of a text, behind the opening one, and what follows. -/
def bracketed? (s : List Char) : Option (List Char × List Char) :=
  if s.takeWhile isLabelChar = [] then none
  else (dropMark? [']'] (s.dropWhile isLabelChar)).map fun after => (s.takeWhile isLabelChar, after)

theorem length_bracketed? {s name after : List Char} (h : bracketed? s = some (name, after)) :
    after.length < s.length := by
  rw [bracketed?] at h
  split at h
  · simp at h
  · obtain ⟨after', hafter, heq⟩ := Option.map_eq_some_iff.mp h
    obtain ⟨-, rfl⟩ := Prod.mk.inj heq
    have hclose := length_dropMark? hafter
    have hrun := length_dropWhile_le isLabelChar s
    simp only [List.length_singleton] at hclose
    omega

/-- An image at the head of a text, its description and its address, and what follows. -/
def image? (s : List Char) : Option ((List Char × List Char) × List Char) :=
  (dropMark? ['!', '['] s).bind fun rest =>
    (dropMark? [']'] (rest.dropWhile isDescriptionChar)).bind fun more =>
      (address? more).map fun (address, after) => ((rest.takeWhile isDescriptionChar, address), after)

theorem length_image? {s after : List Char} {found : List Char × List Char} (h : image? s = some (found, after)) :
    after.length < s.length := by
  obtain ⟨rest, hrest, h⟩ := Option.bind_eq_some_iff.mp h
  obtain ⟨more, hmore, h⟩ := Option.bind_eq_some_iff.mp h
  obtain ⟨⟨address, after'⟩, haddress, heq⟩ := Option.map_eq_some_iff.mp h
  obtain ⟨-, rfl⟩ := Prod.mk.inj heq
  have hopen := length_dropMark? hrest
  have hclose := length_dropMark? hmore
  have hafter := length_address? haddress
  have hrun := length_dropWhile_le isDescriptionChar rest
  simp only [List.length_cons, List.length_nil] at hopen hclose
  omega

def image : Pattern (List Char × List Char) where
  find? _ := image?
  shorter := length_image?

/-- A link at the head of a text, its label and its address, and what follows. -/
def link? (s : List Char) : Option ((List Char × List Char) × List Char) :=
  (dropMark? ['['] s).bind fun rest =>
    (bracketed? rest).bind fun (label, more) =>
      (address? more).map fun (address, after) => ((label, address), after)

theorem length_link? {s after : List Char} {found : List Char × List Char} (h : link? s = some (found, after)) :
    after.length < s.length := by
  obtain ⟨rest, hrest, h⟩ := Option.bind_eq_some_iff.mp h
  obtain ⟨⟨label, more⟩, hmore, h⟩ := Option.bind_eq_some_iff.mp h
  obtain ⟨⟨address, after'⟩, haddress, heq⟩ := Option.map_eq_some_iff.mp h
  obtain ⟨-, rfl⟩ := Prod.mk.inj heq
  have hopen := length_dropMark? hrest
  have hclose := length_bracketed? hmore
  have hafter := length_address? haddress
  simp only [List.length_singleton] at hopen
  omega

def link : Pattern (List Char × List Char) where
  find? _ := link?
  shorter := length_link?

/-- A text between brackets at the head of a text, and what follows. -/
def chord? (s : List Char) : Option (List Char × List Char) := (dropMark? ['['] s).bind bracketed?

theorem length_chord? {s name after : List Char} (h : chord? s = some (name, after)) : after.length < s.length := by
  obtain ⟨rest, hrest, h⟩ := Option.bind_eq_some_iff.mp h
  have hopen := length_dropMark? hrest
  have hclose := length_bracketed? h
  simp only [List.length_singleton] at hopen
  omega

def chord : Pattern (List Char) where
  find? _ := chord?
  shorter := length_chord?

def putImage (found : List Char × List Char) : Marking (List Char) :=
  LiteralTable.add .inline ("<img src=\"".toList ++ (escapeQuotes found.2 ++
    ("\" alt=\"".toList ++ (escapeQuotes found.1 ++ "\">".toList))))

/-- The opening tag of a link is a literal; its label is not. -/
def putLink (found : List Char × List Char) : Marking (List Char) := do
  let start ← LiteralTable.add .inline ("<a href=\"".toList ++ (escapeQuotes found.2 ++ "\">".toList))
  return start ++ (found.1 ++ "</a>".toList)

/-- A chord is set without its brackets; any other name stays as it is. -/
def putChord (db : Chord.Database) (name : List Char) : List Char :=
  if db.isChord name then wrap .chord name else '[' :: (name ++ [']'])

/-! ## Emphasis -/

namespace Emphasis

/-- What follows a closing mark at the head of a text that comes after the character `last`. -/
def closing? (e : Emphasis) (last : Char) (s : List Char) : Option (List Char) :=
  if e.edge last then
    (dropMark? e.mark s).filter fun after => !(e.wholeWord && after.head?.any isWord)
  else none

/-- The characters up to the nearest closing mark, all on one line, and what follows the mark. -/
def findClosing (e : Emphasis) (last : Char) : List Char → Option (List Char × List Char)
  | [] => (closing? e last []).map fun after => ([], after)
  | c :: rest =>
    match closing? e last (c :: rest) with
    | some after => some ([], after)
    | none =>
      if isDot c then (findClosing e c rest).map fun (content, after) => (c :: content, after) else none

/-- Marked text at the head of a text: its content and what follows. -/
def match? (e : Emphasis) (s : List Char) : Option (List Char × List Char) :=
  (dropMark? e.mark s).bind fun
    | [] => none
    | first :: rest =>
      if e.edge first && isDot first then
        (findClosing e first rest).map fun (content, after) => (first :: content, after)
      else none

theorem length_closing? {e : Emphasis} {last : Char} {s after : List Char} (h : closing? e last s = some after) :
    after.length ≤ s.length := by
  rw [closing?] at h
  split at h
  · have := length_dropMark? (Option.filter_eq_some_iff.mp h).1
    omega
  · simp at h

theorem length_findClosing {e : Emphasis} {last : Char} {s content after : List Char}
    (h : findClosing e last s = some (content, after)) : after.length ≤ s.length := by
  induction s generalizing last content with
  | nil =>
    obtain ⟨after', hclosing, heq⟩ := Option.map_eq_some_iff.mp h
    obtain ⟨-, rfl⟩ := Prod.mk.inj heq
    exact length_closing? hclosing
  | cons c rest ih =>
    rw [findClosing] at h
    split at h
    · rename_i after' hclosing
      obtain ⟨-, rfl⟩ := Prod.mk.inj (Option.some.inj h)
      exact length_closing? hclosing
    · split at h
      · obtain ⟨⟨content', after'⟩, hfind, heq⟩ := Option.map_eq_some_iff.mp h
        obtain ⟨-, rfl⟩ := Prod.mk.inj heq
        exact Nat.le_succ_of_le (ih hfind)
      · simp at h

theorem length_match? {e : Emphasis} {s content after : List Char} (h : match? e s = some (content, after)) :
    after.length < s.length := by
  obtain ⟨text, htext, h⟩ := Option.bind_eq_some_iff.mp h
  have hopen := length_dropMark? htext
  split at h
  · simp at h
  · split at h
    · obtain ⟨⟨content', after'⟩, hfind, heq⟩ := Option.map_eq_some_iff.mp h
      obtain ⟨-, rfl⟩ := Prod.mk.inj heq
      have := length_findClosing hfind
      simp only [List.length_cons] at hopen
      omega
    · simp at h

/-- Marked text. With `wholeWord` set, none begins behind a word character. -/
def pattern (e : Emphasis) : Pattern (List Char) where
  find? before s := if e.wholeWord && before.any isWord then none else match? e s
  shorter h := by
    split at h
    · simp at h
    · exact length_match? h

end Emphasis

/-! ## All rules -/

def setEmphases (s : List Char) : List Char :=
  emphases.foldl (fun s e => Id.run ((Emphasis.pattern e).sub (fun content => pure (wrap e.element content)) none s)) s

def setChords (db : Chord.Database) (s : List Char) : List Char :=
  Id.run (chord.sub (fun name => pure (putChord db name)) none s)

def renderLine (db : Chord.Database) (s : List Char) : Marking (List Char) := do
  let s ← image.sub putImage none s
  let s ← link.sub putLink none s
  return setChords db (setEmphases s)

end LeadSheet.Markup.Raw
