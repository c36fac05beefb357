import LeadSheet.Chord.Database
import LeadSheet.Chord.Name

/-!
# Which texts are chords

The database decides: a text is a chord when its resolved name is stored. The empty text is not one,
whatever the database holds.
-/

namespace LeadSheet.Chord

namespace Database

/-- The definition of the chord that a text names. -/
def findName? (db : Database) (name : List Char) : Option Definition :=
  if name.isEmpty then none
  else
    let token := Token.ofText name
    db.find? token.key token.suffix

def isChord (db : Database) (name : List Char) : Bool := (db.findName? name).isSome

end Database

end LeadSheet.Chord
