import LeadSheet.Chord.Database
import LeadSheet.Json.Reader

/-!
# Loading a chord database

A database is decoded from JSON: an object that maps keys to lists of definitions, or one that holds
such an object under `chords`. Loading never guesses. A key, definition or fingering that is not well
formed is dropped, and each drop is reported with its reason; everything else is kept in order. Only a
text that is not such an object at all is refused.
-/

namespace LeadSheet.Chord

/-! ## Fingerings -/

def stringCount : Nat := 6

def maxFret : Nat := 15

/-- Why a fingering is dropped. -/
inductive PositionDefect
  | notAnObject
  | fretsMissing
  | symbolCount (count : Nat)
  | fretCount (count : Nat)
  | notAnInteger (fret : Json)
  | fretTooHigh (fret : Int)
  | otherKind

namespace PositionDefect

def message : PositionDefect → String
  | notAnObject => "Input should be a valid dictionary or instance of PositionModel"
  | fretsMissing => "frets: Field required"
  | symbolCount n => s!"frets: Value error, expected {stringCount} fret symbols, got {n}"
  | fretCount n => s!"frets: Value error, expected {stringCount} frets, got {n}"
  | notAnInteger fret => s!"frets: Value error, fret {fret.display} is not an integer"
  | fretTooHigh fret => s!"frets: Value error, fret {fret} is above {maxFret}"
  | otherKind => "frets: Value error, frets must be a string or a list of integers"

end PositionDefect

/-- The symbol of a fret: a negative number mutes the string. -/
def fretSymbol (fret : Int) : Char := if fret < 0 then 'x' else Nat.digitChar fret.toNat

/-- The symbol of one element of a list of frets. -/
def readFret : Json → Except PositionDefect Char
  | .int fret => if maxFret < fret then .error (.fretTooHigh fret) else .ok (fretSymbol fret)
  | other => .error (.notAnInteger other)

/-- Reads the frets of a fingering, given as six symbols or six numbers. -/
def readFrets : Json → Except PositionDefect String
  | .text s => if s.length = stringCount then .ok s else .error (.symbolCount s.length)
  | .array frets =>
    if frets.length = stringCount then (frets.mapM readFret).map String.ofList
    else .error (.fretCount frets.length)
  | _ => .error .otherKind

/-- Reads a fingering: an object whose other fields are ignored. -/
def readPosition : Json → Except PositionDefect Position
  | .object fields =>
    match fields.lookup "frets" with
    | none => .error .fretsMissing
    | some frets => (readFrets frets).map Position.mk
  | _ => .error .notAnObject

/-! ## Definitions -/

/-- Why a definition is dropped. -/
inductive DefinitionDefect
  | notAnObject
  | suffixMissing
  | suffixNotText
  | suffixEmpty
  | positionsNotAList

namespace DefinitionDefect

def message : DefinitionDefect → String
  | notAnObject => "Input should be a valid dictionary or instance of ChordDefinitionModel"
  | suffixMissing => "suffix: Field required"
  | suffixNotText => "suffix: Input should be a valid string"
  | suffixEmpty => "suffix: String should have at least 1 character"
  | positionsNotAList => "positions: Input should be a valid list"

end DefinitionDefect

def readSuffix (fields : List (String × Json)) : Except DefinitionDefect String :=
  match fields.lookup "suffix" with
  | none => .error .suffixMissing
  | some (.text s) => if s.isEmpty then .error .suffixEmpty else .ok s
  | some _ => .error .suffixNotText

/-- Reads the raw fingerings of a definition; none need be given. -/
def readRawPositions (fields : List (String × Json)) : Except DefinitionDefect (List Json) :=
  match fields.lookup "positions" with
  | none => .ok []
  | some (.array raw) => .ok raw
  | some _ => .error .positionsNotAList

/-- Reads the suffix and the raw fingerings of a definition; a fault of the suffix comes first. -/
def readRawDefinition : Json → Except DefinitionDefect (String × List Json)
  | .object fields => do
    let suffix ← readSuffix fields
    let raw ← readRawPositions fields
    pure (suffix, raw)
  | _ => .error .notAnObject

/-! ## Reports -/

def dropReport (place : Nat) (message : String) : Log.Record :=
  ⟨.warning, Database.logger, place, message⟩

def positionReport (key suffix : String) (raw : Json) (defect : PositionDefect) : Log.Record :=
  dropReport 238 s!"Dropping malformed position of {key}{suffix}: {raw.display} ({defect.message})"

def definitionReport (key : String) (defect : DefinitionDefect) : Log.Record :=
  dropReport 230 s!"Dropping definition under {Text.quotedString key}: {defect.message}"

def emptyKeyReport (key : String) : Log.Record :=
  dropReport 150 s!"Dropping chord key {Text.quotedString key}: not a non-empty string."

/-- The report on a key without a list of definitions. -/
def notAListReport (key : String) : Log.Record :=
  dropReport 153 s!"Dropping chord key {Text.quotedString key}: definitions are not a list."

def loadedReport (count : Nat) : Log.Record :=
  ⟨.debug, Database.logger, 162, s!"Loaded {count} chord keys."⟩

/-! ## Loading -/

/-- A part of the data that was kept or dropped, with the reports on what was dropped from it. -/
abbrev Reported (α : Type) := Option α × List Log.Record

def kept {α : Type} (parts : List (Reported α)) : List α := parts.filterMap Prod.fst

def reports {α : Type} (parts : List (Reported α)) : List Log.Record := parts.flatMap Prod.snd

def loadPosition (key suffix : String) (raw : Json) : Reported Position :=
  match readPosition raw with
  | .ok position => (some position, [])
  | .error defect => (none, [positionReport key suffix raw defect])

def loadDefinition (key : String) (entry : Json) : Reported Definition :=
  match readRawDefinition entry with
  | .error defect => (none, [definitionReport key defect])
  | .ok (suffix, raw) =>
    let positions := raw.map (loadPosition key suffix)
    (some ⟨suffix, kept positions⟩, reports positions)

def loadKey (key : String) (entries : Json) : Reported (String × List Definition) :=
  if key.isEmpty then (none, [emptyKeyReport key])
  else match entries with
    | .array entries =>
      let definitions := entries.map (loadDefinition key)
      (some (key, kept definitions), reports definitions)
    | _ => (none, [notAListReport key])

/-- Why a text is not a chord database. -/
inductive LoadError
  | notJson (text : List Char) (cause : Json.Error)
  | notAnObject
  | chordsNotAnObject

namespace LoadError

def message : LoadError → String
  | notJson text (.malformed fault position) =>
    "Chord database is not valid JSON: " ++ Json.Error.message text (.malformed fault position)
  | notJson text cause => cause.message text
  | notAnObject => "Chord database must be a JSON object."
  | chordsNotAnObject => "Chord database 'chords' entry must be a JSON object."

end LoadError

namespace Database

/-- Builds the database of a decoded mapping, with all reports: those on malformed items, the number of
keys, and those on duplicates. -/
def ofFields (fields : List (String × Json)) : Database × List Log.Record :=
  let parts := fields.map fun (key, entries) => loadKey key entries
  let (db, duplicates) := ofDefinitions (kept parts)
  (db, reports parts ++ loadedReport db.size :: duplicates)

def ofJson : Json → Except LoadError (Database × List Log.Record)
  | .object fields =>
    match fields.lookup "chords" with
    | none => .ok (ofFields fields)
    | some (.object chords) => .ok (ofFields chords)
    | some _ => .error .chordsNotAnObject
  | _ => .error .notAnObject

def ofText (text : List Char) : Except LoadError (Database × List Log.Record) :=
  match Json.decode text with
  | .error cause => .error (.notJson text cause)
  | .ok data => ofJson data

end Database

end LeadSheet.Chord
