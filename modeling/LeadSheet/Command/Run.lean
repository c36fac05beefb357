import LeadSheet.Chord.Record
import LeadSheet.Command.Host

/-!
# The commands

* `render` writes a song with its diagrams to a file and tells on standard output how it gets on. It refuses to write
  over the song itself, and chooses a file beside the song when none is named.
* `chords` lists the chords of a song, each with its first fingering.
* `diagram` draws one chord, to standard output or to a file.

Log records go to standard error, from a level on that depends on whether the command is verbose.
-/

namespace LeadSheet.Command

/-! ## Paths and titles -/

/-- The file that a song is rendered to when none is named: beside the song, with the ending of a sheet, and never the
song itself. -/
def defaultOutput (song : PathName) : PathName :=
  let output := song.withSuffix SheetFormat.page.fileExtension
  if output = song then song.withFileName (song.stem ++ (".rendered" ++ SheetFormat.page.fileExtension : String))
  else output

def renderTarget (song : SystemText) (output : Option SystemText) : SystemText :=
  output.getD (defaultOutput (PathName.ofPath song)).path

/-- The title of a song that has none: the name of its file with spaces for underscores. -/
def fileTitle (song : PathName) : SystemText := song.stem.map fun c => if c = .char '_' then .char ' ' else c

/-- The title that is asked for: the one on the command line, or else, when the song has none, that of its file. -/
def askedTitle (song : SystemText) (title : Option SystemText) (text : String) : Option SystemText :=
  match title with
  | some t => some t
  | none =>
    if ((Document.parse text).metadata.lookup "title").isSome then none else some (fileTitle (PathName.ofPath song))

/-! ## Texts -/

/-- What `render` prints before it starts. -/
def openingLines (song output : SystemText) (format : SheetFormat) : List SystemText :=
  [SystemText.ofString s!"{programName} v{version}", ("  Song   : " : String) ++ song,
    SystemText.ofString s!"  Format : {format.name}", ("  Output : " : String) ++ output, [],
    SystemText.ofString "[1/3] Loading chord database..."]

/-- What `render` prints when the database is loaded. -/
def progressLines (db : Chord.Database) (output : SystemText) : List SystemText :=
  [SystemText.ofString s!"      {db.size} key(s) loaded",
    SystemText.ofString "[2/3] Rendering markup and chord diagrams...",
    ("[3/3] Writing output → '" : String) ++ output ++ ("'..." : String)]

def closingLines (output : SystemText) : List SystemText :=
  [[], ("Done!  Open '" : String) ++ output ++ ("' in any browser." : String)]

def wroteLine (target : SystemText) : SystemText := ("Wrote '" : String) ++ target ++ ("'." : String)

/-- The width of the names in a list of chords. -/
def nameWidth : Nat := 8

def chordLine (db : Chord.Database) (name : String) : String :=
  let frets := match (db.findName? name.toList).bind fun d => d.positions.head? with
    | some position => position.frets
    | none => "not found"
  name ++ String.ofList (List.replicate (nameWidth - name.length) ' ') ++ " " ++ frets

/-! ## Documents -/

/-- The sheet of a song, unless it cannot be written: a page shows its title, a fragment does not. -/
def pageText (song : Song) (asked : Option SystemText) (format : SheetFormat) : Except Song.Error (Option String) :=
  match asked with
  | none => (song.page none format).map some
  | some title =>
    match title.toString?, format with
    | some title, _ => (song.page (some title) format).map some
    | none, .fragment => (song.page none format).map some
    | none, .page => (song.page none format).map fun _ => none

/-- The drawing of a chord, unless it cannot be written: it shows the name of the chord. -/
def svgText (db : Chord.Database) (chord : SystemText) : Except Fault (Option String) :=
  match chord.toString? with
  | none => .ok none
  | some name =>
    match Diagram.ofName {} db name.toList with
    | .error e => .error (.diagram e)
    | .ok diagram =>
      match diagram.svg with
      | .error e => .error (.drawing e)
      | .ok svg => .ok (some svg)

/-! ## Commands -/

section

variable {m : Type → Type} [Monad m] (I : Interface) (host : Host m)

def loadDatabase (path : SystemText) : Program m Chord.Database := do
  match ← readText host path with
  | .error e => fail I host (.unreadDatabase e.message)
  | .ok text =>
    match Chord.Database.ofText text with
    | .error e => fail I host (.unreadDatabase e.message)
    | .ok loaded => do
      logAll host loaded.2
      return loaded.1

def makeSheet (song : SystemText) (title : Option SystemText) (format : SheetFormat) (db : Chord.Database) :
    Program m (Option String) := do
  match ← readText host song with
  | .error (.file path cause) => fail I host (.unwrittenSheet (cause.message path))
  | .error (.encoding cause) => fail I host (.unreadSong cause.message)
  | .ok text =>
    match Song.render {} db (String.ofList text) with
    | .error e => throw (.fault (.song e))
    | .ok rendered => do
      logAll host rendered.reports
      match pageText rendered (askedTitle song title (String.ofList text)) format with
      | .error e => throw (.fault (.song e))
      | .ok page => return page

/-- All of `render` that comes before the output is opened. -/
def prepareSheet (song database target : SystemText) (title : Option SystemText) (format : SheetFormat) :
    Program m (Option String) := do
  if (← host.resolve target) = (← host.resolve song) then
    fail I host (.overwritesSong target)
  else
    echoAll I host .stdout (openingLines song target format)
    let db ← loadDatabase I host database
    echoAll I host .stdout (progressLines db target)
    makeSheet I host song title format db

def render (song database target : SystemText) (title : Option SystemText) (format : SheetFormat) :
    Program m Unit := do
  let page ← prepareSheet I host song database target title format
  match ← writeText host target page with
  | .error cause => fail I host (.unwrittenSheet (cause.message target))
  | .ok () => echoAll I host .stdout (closingLines target)

def chords (song database : SystemText) : Program m Unit := do
  let db ← loadDatabase I host database
  match ← readText host song with
  | .error e => fail I host (.unreadSong e.message)
  | .ok text =>
    let names := Song.chordsOf db (Document.parse (String.ofList text)).body
    if names.isEmpty then echo I host .stderr ("No chords found." : String)
    else echoAll I host .stdout (names.map fun name => SystemText.ofString (chordLine db name))

def diagram (chord database : SystemText) (output : Option SystemText) : Program m Unit := do
  let db ← loadDatabase I host database
  match svgText db chord with
  | .error e => throw (.fault e)
  | .ok svg =>
    match output with
    | none =>
      match svg with
      | some svg => echo I host .stdout svg
      | none => throw (.fault .encoding)
    | some target => do
      match ← writeText host target svg with
      | .error cause => fail I host (.unwrittenDiagram (cause.message target))
      | .ok () => echo I host .stdout (wroteLine target)

def perform : Request → Program m Unit
  | .render song database output title format => render I host song database (renderTarget song output) title format
  | .chords song database => chords I host song database
  | .diagram chord database output => diagram I host chord database output

end

/-! ## Runs -/

inductive Ending
  | answered (status : Nat)
  | finished
  | stopped (reason : Stop)

def stoppedStatus : Nat := 1

def Ending.status : Ending → Nat
  | answered status => status
  | finished => 0
  | stopped _ => stoppedStatus

/-- The level from which records are shown. -/
def shownLevel (verbose : Bool) : Log.Level := if verbose then .debug else .warning

/-- The end of a run, from that of a program. -/
def Ending.of (completed : Ending) : Except Stop Unit → Ending
  | .ok () => completed
  | .error reason => stopped reason

section

variable {m : Type → Type} [Monad m] (I : Interface) (host : Host m)

/-- Prints the answer to a command line. -/
def respond (stdout stderr : List SystemText) : Program m Unit := do
  echoAll I host .stdout stdout
  echoAll I host .stderr stderr

/-- Does what a command line comes to. -/
def conclude : Reading → m Ending
  | .answer status stdout stderr => do
    return (Ending.answered status).of (← (respond I host stdout stderr).run)
  | .call verbose request => do
    host.setUpLog (shownLevel verbose) .stderr
    return Ending.finished.of (← (perform I host request).run)

end

end LeadSheet.Command
