import LeadSheet.Chord.Oracle
import LeadSheet.Text.Scan

/-!
# The chords that a song mentions

A mention is a text between brackets. It may itself contain an opening bracket, and may run over the
end of a line: it reaches from the first opening bracket that some character other than `]` follows, to
the next closing one. The chords of a song are the mentions that the database knows, each once, in
code-point order.
-/

namespace LeadSheet.Chord

def mentions (s : List Char) : List (List Char) :=
  match s with
  | [] => []
  | c :: rest =>
    if c == '[' then
      let name := rest.takeWhile (· != ']')
      match h : rest.dropWhile (· != ']') with
      | [] => []
      | _ :: after =>
        have := Text.length_lt_of_dropWhile_cons h
        if name.isEmpty then mentions after else name :: mentions after
    else mentions rest
termination_by s.length
decreasing_by all_goals simp only [List.length_cons]; omega

/-- Code-point order of texts. -/
def precedes : List Char → List Char → Bool
  | _, [] => false
  | [], _ :: _ => true
  | c :: s, d :: t => c < d || (c == d && precedes s t)

/-- Puts a text into a strictly ascending list, unless it is there. -/
def insertSorted (name : List Char) : List (List Char) → List (List Char)
  | [] => [name]
  | other :: rest =>
    if precedes name other then name :: other :: rest
    else if precedes other name then other :: insertSorted name rest
    else other :: rest

/-- The distinct texts of a list in ascending order. -/
def sortDistinct (names : List (List Char)) : List (List Char) :=
  names.foldl (fun sorted name => insertSorted name sorted) []

namespace Database

def chordsIn (db : Database) (s : List Char) : List (List Char) :=
  sortDistinct ((mentions s).filter db.isChord)

end Database

end LeadSheet.Chord
