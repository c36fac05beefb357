import LeadSheet.Text.Case

/-!
# Chord names

A chord name is a pitch letter, an optional accidental, and a quality: `A7sus4`, `Gb`, `ebm7`. Resolving
it spells the pitch in one way for each of the twelve pitch classes, so that `C#` and `Db` meet, and the
quality in the vocabulary of the database. Letter case does not matter in either part. A text that does
not start with a pitch letter is its own key with a major quality; whether anything is stored there is
for the database to say.
-/

namespace LeadSheet.Chord

/-- The quality of a chord that names none. -/
def major : String := "major"

/-- The spellings of a pitch in upper case, with the one that the database uses. -/
def pitchSpellings : List (String × String) :=
  [("C", "C"), ("C#", "Csharp"), ("DB", "Csharp"), ("D", "D"), ("D#", "Eb"), ("EB", "Eb"), ("E", "E"),
    ("F", "F"), ("F#", "Fsharp"), ("GB", "Fsharp"), ("G", "G"), ("G#", "Ab"), ("AB", "Ab"),
    ("A", "A"), ("A#", "Bb"), ("BB", "Bb"), ("B", "B")]

/-- The spellings of a quality in lower case, with the one that the database uses. -/
def suffixSpellings : List (String × String) :=
  [("", major), ("m", "minor"), ("min", "minor"), ("maj", major), ("maj7", "maj7"), ("m7", "m7"),
    ("min7", "m7"), ("7", "7"), ("7sus4", "7sus4"), ("sus2", "sus2"), ("sus4", "sus4"), ("dim", "dim"),
    ("aug", "aug"), ("6", "6"), ("9", "9"), ("11", "11"), ("13", "13"), ("add9", "add9"),
    ("dim7", "dim7"), ("m7b5", "m7b5"), ("maj9", "maj9"), ("m9", "m9"), ("9sus4", "9sus4"),
    ("6/9", "69"), ("mmaj7", "mmaj7")]

/-- The database's spelling of a pitch; one that is not listed is left in upper case. -/
def normalizeKey (key : List Char) : String :=
  let upper := String.ofList (Text.upper key)
  (pitchSpellings.lookup upper).getD upper

/-- The database's spelling of a quality; one that is not listed is left in lower case. -/
def normalizeSuffix (suffix : List Char) : String :=
  let lower := String.ofList (Text.lower suffix)
  (suffixSpellings.lookup lower).getD lower

def isPitchLetter (c : Char) : Bool := ('A' ≤ c && c ≤ 'G') || ('a' ≤ c && c ≤ 'g')

def isAccidental (c : Char) : Bool := c == '#' || c == 'b' || c == 'B'

/-- The pitch and the quality of a name, if it begins with a pitch letter. An accidental always belongs
to the pitch. -/
def splitName? : List Char → Option (List Char × List Char)
  | [] => none
  | letter :: rest =>
    if isPitchLetter letter then
      match rest with
      | [] => some ([letter], [])
      | accidental :: suffix =>
        if isAccidental accidental then some ([letter, accidental], suffix) else some ([letter], rest)
    else none

/-- A chord name in the vocabulary of the database, beside its text as written. -/
structure Token where
  raw : String
  key : String
  suffix : String
  deriving DecidableEq

def Token.ofName (name : List Char) : Token :=
  let raw := String.ofList name
  match splitName? name with
  | some (key, suffix) => ⟨raw, normalizeKey key, normalizeSuffix suffix⟩
  | none => ⟨raw, raw, major⟩

/-- Resolves any text. The empty one has no key. -/
def Token.ofText (text : List Char) : Token :=
  if text.isEmpty then ⟨"", "", major⟩ else Token.ofName text

end LeadSheet.Chord
