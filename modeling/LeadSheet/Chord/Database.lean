import LeadSheet.Log.Record
import LeadSheet.Text.Quoted

/-!
# The chord database

A database lists, under each pitch key, the chord qualities that are known for it, and under each
quality its fingerings. Keys and qualities keep the order in which they were loaded. A quality occurs
once under a key: of several definitions with one suffix the first is kept, and each of the others is
reported.
-/

namespace LeadSheet.Chord

/-- One way to hold a chord: a symbol for every string, `x` for a muted one, `0` for an open one, or a
hexadecimal digit for the fret. -/
structure Position where
  frets : String
  deriving DecidableEq

/-- A chord quality under some key, with its fingerings. -/
structure Definition where
  suffix : String
  positions : List Position
  deriving DecidableEq

structure Database where
  entries : List (String × List Definition)
  deriving DecidableEq

namespace Database

def keys (db : Database) : List String := db.entries.map Prod.fst

def size (db : Database) : Nat := db.entries.length

def contains (db : Database) (key : String) : Bool := db.keys.contains key

/-- The definitions under a key in load order; none when the key is unknown. -/
def definitions (db : Database) (key : String) : List Definition := (db.entries.lookup key).getD []

def find? (db : Database) (key suffix : String) : Option Definition :=
  (db.definitions key).find? fun d => d.suffix == suffix

/-- The part of the program that reports on databases. -/
def logger : String := "chordsheet.chord_database"

/-- The report on a definition whose suffix is taken. -/
def duplicateReport (key suffix : String) : Log.Record where
  level := .warning
  logger := logger
  place := 64
  message :=
    s!"Dropping duplicate suffix {Text.quotedString suffix} for key {Text.quotedString key}."

/-- Splits definitions into the first ones of each suffix and the others; `taken` holds the suffixes
seen before. -/
def splitDuplicates (taken : List String) : List Definition → List Definition × List Definition
  | [] => ([], [])
  | d :: rest =>
    if taken.contains d.suffix then
      let (kept, dropped) := splitDuplicates taken rest
      (kept, d :: dropped)
    else
      let (kept, dropped) := splitDuplicates (d.suffix :: taken) rest
      (d :: kept, dropped)

/-- The database of some definitions, and a report on each that is dropped as a duplicate. -/
def ofDefinitions (entries : List (String × List Definition)) : Database × List Log.Record :=
  let split := entries.map fun (key, ds) => (key, splitDuplicates [] ds)
  (⟨split.map fun (key, kept, _) => (key, kept)⟩,
    split.flatMap fun (key, _, dropped) => dropped.map fun d => duplicateReport key d.suffix)

end Database

end LeadSheet.Chord
