import LeadSheet.Chord.Mention
import LeadSheet.Diagram.Svg
import LeadSheet.Markup.Body
import LeadSheet.Page.Sheet
import LeadSheet.Song.Document

/-!
# Songs

Everything that is derived from the text of a song: its two parts, the body as HTML, the chords that the
body mentions, and a diagram for each of them in the same order. From these a sheet is put together. The
title of the sheet is the one that is asked for, or else the song's own.
-/

namespace LeadSheet

/-- A song and everything that is derived from it. -/
structure Song where
  document : Document
  markup : String
  chords : List String
  diagrams : List Diagram

namespace Song

inductive Error
  | unsupportedFormat (name : String)
  | noWorkers
  | grid (cause : Diagram.Error)
  | svg (cause : Diagram.SvgError)

def Error.message : Error → String
  | unsupportedFormat name =>
    s!"Unsupported output format '{name}'. Use one of: fragment, html."
  | noWorkers => "max_workers must be greater than 0"
  | grid cause => cause.message
  | svg cause => cause.message

/-- How songs are rendered: the geometry of the diagrams, and how many of them may be drawn at a time.
The latter does not change the result, but where something is to be drawn there must be a worker. -/
structure Options where
  layout : Layout := {}
  workers : Option Int := none

def format (name : String) : Except Error SheetFormat :=
  match SheetFormat.ofName? name with
  | some f => .ok f
  | none => .error (.unsupportedFormat name)

/-- The report on the chords of a song. -/
def chordReport (chords : List String) : Log.Record where
  level := .debug
  logger := "chordsheet.song_renderer"
  place := 91
  message := s!"Found {chords.length} chord(s): " ++ String.intercalate ", " chords

def chordsOf (db : Chord.Database) (body : String) : List String :=
  (db.chordsIn body.toList).map String.ofList

def draw (options : Options) (db : Chord.Database) (chords : List String) :
    Except Error (List Diagram) :=
  if !chords.isEmpty && options.workers.any (· < 1) then .error .noWorkers
  else
    match chords.mapM fun name => Diagram.ofName options.layout db name.toList with
    | .ok diagrams => .ok diagrams
    | .error cause => .error (.grid cause)

def render (options : Options) (db : Chord.Database) (text : String) : Except Error Song :=
  let document := Document.parse text
  let chords := chordsOf db document.body
  (draw options db chords).map fun diagrams =>
    ⟨document, Markup.render db document.body, chords, diagrams⟩

def reports (song : Song) : List Log.Record := [chordReport song.chords]

/-- The title of a song: the one that is asked for, or else its own. -/
def title (song : Song) (asked : Option String) : String :=
  match asked with
  | some t => t
  | none => (song.document.metadata.lookup "title").getD ""

/-- A song on a sheet, with the document of each of its diagrams. -/
def sheet (song : Song) (asked : Option String) : Except Error Sheet :=
  match song.diagrams.mapM Diagram.svg with
  | .ok documents => .ok ⟨song.title asked, song.document.metadata, song.markup, documents⟩
  | .error cause => .error (.svg cause)

def page (song : Song) (asked : Option String) (format : SheetFormat) : Except Error String :=
  (song.sheet asked).map fun sheet => sheet.render format

end Song

end LeadSheet
