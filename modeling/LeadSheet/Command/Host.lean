import LeadSheet.Command.Interface
import LeadSheet.Log.Router
import LeadSheet.Song.Song

/-!
# Programs

A `Program` is what a command does: it reads and writes files, prints to the standard streams and logs records, and may
stop before its end. All this is done through a `Host`. A program stops because of a failure, which it reports itself, or
because of an error that no command expects.
-/

namespace LeadSheet.Command

inductive Stream
  | stdout
  | stderr
  deriving DecidableEq

/-- The number of a standard stream among all that log records can be written to. -/
def Stream.number : Stream → Log.StreamId
  | stdout => 0
  | stderr => 1

/-- What the system does for a program. -/
structure Host (m : Type → Type) where
  read : (path : SystemText) → m (Except FileError Bytes)
  write : (path : SystemText) → Bytes → m (Except FileError Unit)
  /-- The absolute path of a path. -/
  resolve : (path : SystemText) → m (List SystemText)
  isTerminal : Stream → m Bool
  print : Stream → (text : String) → m Unit
  /-- Has records of a level and above written to a stream. -/
  setUpLog : Log.Level → Stream → m Unit
  log : Log.Record → m Unit

/-- Why a command fails. -/
inductive Failure
  | overwritesSong (output : SystemText)
  | unreadDatabase (cause : String)
  | unreadSong (cause : String)
  | unwrittenSheet (cause : String)
  | unwrittenDiagram (cause : String)
  deriving DecidableEq

def Failure.message : Failure → SystemText
  | overwritesSong output =>
    ("Output path '" : String) ++ output ++ ("' is the song file itself — pass a different --output." : String)
  | unreadDatabase cause => SystemText.ofString s!"Could not load chord database — {cause}"
  | unreadSong cause => SystemText.ofString s!"Could not read song file — {cause}"
  | unwrittenSheet cause => SystemText.ofString s!"Could not write output file — {cause}"
  | unwrittenDiagram cause => SystemText.ofString s!"Could not write SVG file — {cause}"

/-- An error that no command expects. -/
inductive Fault
  /-- A stray byte is to be written. -/
  | encoding
  | song (cause : Song.Error)
  | diagram (cause : Diagram.Error)
  | drawing (cause : Diagram.SvgError)

inductive Stop
  | failure (reason : Failure)
  | fault (cause : Fault)

abbrev Program (m : Type → Type) (α : Type) : Type := ExceptT Stop m α

section

variable {m : Type → Type} [Monad m] (I : Interface) (host : Host m)

/-- Prints a line to standard output, if it can be. -/
def printLine : Option String → Program m Unit
  | some line => host.print .stdout line
  | none => throw (.fault .encoding)

def echo (stream : Stream) (text : SystemText) : Program m Unit := do
  let terminal ← host.isTerminal stream
  match stream with
  | .stderr => host.print .stderr (I.shownLine terminal text)
  | .stdout => printLine host (I.line? terminal text)

def echoAll (stream : Stream) : List SystemText → Program m Unit
  | [] => pure ()
  | text :: rest => do
    echo I host stream text
    echoAll stream rest

/-- Reports a failure and stops. -/
def fail {α : Type} (reason : Failure) : Program m α := do
  echo I host .stderr (("  ERROR: " : String) ++ reason.message)
  throw (.failure reason)

def logAll : List Log.Record → Program m Unit
  | [] => pure ()
  | record :: rest => do
    host.log record
    logAll rest

def readText (path : SystemText) : Program m (Except ReadError (List Char)) := do
  match ← host.read path with
  | .error e => return .error (.file path e)
  | .ok contents => return (textOfBytes contents).mapError .encoding

/-- Writes a text; what has stray bytes is no text. The file is emptied before the text is looked at. -/
def writeText (path : SystemText) (text : Option String) : Program m (Except FileError Unit) := do
  match text with
  | some text => host.write path text.toUTF8.toList
  | none =>
    match ← host.write path [] with
    | .error e => return .error e
    | .ok () => throw (.fault .encoding)

end

end LeadSheet.Command
