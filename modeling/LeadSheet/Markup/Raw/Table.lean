import LeadSheet.Markup.Html
import LeadSheet.Text.Digit
import LeadSheet.Text.Pattern

/-!
# The side table of literals

A stretch of text that no later rule may touch is moved to a table, and a comment with its kind and its
number stands for it. In the end the comments are swapped for what they stand for, those of spans first
and then those of blocks. Looking up a number that the table does not hold is an error.
-/

namespace LeadSheet.Markup.Raw

open Text

inductive LiteralKind
  | block
  | inline
  deriving DecidableEq

def LiteralKind.name : LiteralKind → List Char
  | block => "block".toList
  | inline => "inline".toList

/-- The comment that stands for a literal. The digits of its number are as they are written. -/
structure Placeholder where
  kind : LiteralKind
  digits : List Char
  deriving DecidableEq

namespace Placeholder

def text (p : Placeholder) : List Char :=
  "<!--".toList ++ (p.kind.name ++ (':' :: (p.digits ++ "-->".toList)))

/-- The number that the digits, of whatever script, write. -/
def number (p : Placeholder) : Nat := p.digits.foldl (fun n c => 10 * n + (digitValue? c).getD 0) 0

/-- The placeholder of a kind at the head of a text, and what follows it. -/
def ofKind? (kind : LiteralKind) (s : List Char) : Option (Placeholder × List Char) :=
  (dropMark? ("<!--".toList ++ (kind.name ++ [':'])) s).bind fun rest =>
    if rest.takeWhile isDigit = [] then none
    else (dropMark? "-->".toList (rest.dropWhile isDigit)).map fun after =>
      (⟨kind, rest.takeWhile isDigit⟩, after)

theorem length_ofKind? {kind : LiteralKind} {s after : List Char} {p : Placeholder}
    (h : ofKind? kind s = some (p, after)) : after.length < s.length := by
  obtain ⟨rest, hrest, h⟩ := Option.bind_eq_some_iff.mp h
  split at h
  · simp at h
  · obtain ⟨after', hafter, heq⟩ := Option.map_eq_some_iff.mp h
    obtain ⟨-, rfl⟩ := Prod.mk.inj heq
    have hmark := length_dropMark? hrest
    have hend := length_dropMark? hafter
    have hdigits := length_dropWhile_le isDigit rest
    simp only [List.length_append, List.length_singleton] at hmark
    omega

/-- A placeholder of either kind. -/
def pattern : Pattern Placeholder where
  find? _ s := (ofKind? .block s).or (ofKind? .inline s)
  shorter h := (Option.or_eq_some_iff.mp h).elim length_ofKind? fun h => length_ofKind? h.2

end Placeholder

/-- The literals of a document, each with its markup, numbered from zero by kind. -/
structure LiteralTable where
  blocks : List (List Char)
  inlines : List (List Char)

/-- What is done with a table at hand. -/
abbrev Marking := StateM LiteralTable

/-- The number that the table does not hold. -/
structure MissingLiteral where
  placeholder : Placeholder
  deriving DecidableEq

namespace LiteralTable

def empty : LiteralTable := ⟨[], []⟩

/-- Puts a literal in the table, and gives what stands for it. -/
def add (kind : LiteralKind) (markup : List Char) : Marking (List Char) := fun t =>
  match kind with
  | .block => (Placeholder.text ⟨.block, Nat.toDigits 10 t.blocks.length⟩, { t with blocks := t.blocks ++ [markup] })
  | .inline =>
    (Placeholder.text ⟨.inline, Nat.toDigits 10 t.inlines.length⟩, { t with inlines := t.inlines ++ [markup] })

def ofKind (t : LiteralTable) : LiteralKind → List (List Char)
  | .block => t.blocks
  | .inline => t.inlines

/-- What is put in the place of a placeholder while those of one kind are swapped. -/
def look (t : LiteralTable) (kind : LiteralKind) (p : Placeholder) : Except MissingLiteral (List Char) :=
  if p.kind ≠ kind then .ok p.text
  else
    match (t.ofKind kind)[p.number]? with
    | some markup => .ok markup
    | none => .error ⟨p⟩

/-- The text with the placeholders of one kind swapped for what they stand for. -/
def swap (t : LiteralTable) (kind : LiteralKind) (s : List Char) : Except MissingLiteral (List Char) :=
  Placeholder.pattern.sub (t.look kind) none s

/-- The text with all placeholders swapped. -/
def restore (t : LiteralTable) (s : List Char) : Except MissingLiteral (List Char) := do
  t.swap .block (← t.swap .inline s)

end LiteralTable

end LeadSheet.Markup.Raw
