import LeadSheet.Command.FileTree
import LeadSheet.Page.Sheet

/-!
# Command lines

How arguments are read, and how lines are printed, is not the business of the commands: an `Interface` reads a command
line, for which it may look at files, and either answers it or calls a command. It also decides in which form a text is
printed, because control sequences are for terminals only. What the commands rely on is stated here; `Reader` is an
interface that has these properties.
-/

namespace LeadSheet.Command

def programName : String := "chordsheet"

def version : String := "0.1.0"

inductive CommandName
  | render
  | chords
  | diagram
  deriving DecidableEq

def CommandName.name : CommandName → String
  | render => "render"
  | chords => "chords"
  | diagram => "diagram"

/-- What a command is to do. -/
inductive Request
  | render (song database : SystemText) (output title : Option SystemText) (format : SheetFormat)
  | chords (song database : SystemText)
  | diagram (chord database : SystemText) (output : Option SystemText)
  deriving DecidableEq

/-- The files that a request is to read. -/
def Request.inputs : Request → List SystemText
  | render song database _ _ _ => [song, database]
  | chords song database => [song, database]
  | diagram _ database _ => [database]

/-- What a command line comes to: an answer, with a status and the lines that are printed, or a request. -/
inductive Reading
  | answer (status : Nat) (stdout stderr : List SystemText)
  | call (verbose : Bool) (request : Request)
  deriving DecidableEq

/-- The same request, but verbose. -/
def Reading.verbosely : Reading → Reading
  | answer status stdout stderr => answer status stdout stderr
  | call _ request => call true request

structure Interface where
  /-- Reads a command line. `look` tells what is seen of a file, and the environment may name a database. -/
  read : (look : SystemText → Option Sight) → (environment : Option SystemText) → (arguments : List SystemText) → Reading
  /-- A text as it is printed. -/
  echo : (terminal : Bool) → SystemText → SystemText

namespace Interface

variable (I : Interface)

/-- A line as it is printed to standard output, where stray bytes cannot be. -/
def line? (terminal : Bool) (text : SystemText) : Option String := (I.echo terminal (text ++ [.char '\n'])).toString?

/-- A line as it is printed to standard error. -/
def shownLine (terminal : Bool) (text : SystemText) : String := (I.echo terminal (text ++ [.char '\n'])).shown

/-! ### What the commands rely on -/

/-- The option before a command makes it verbose and does nothing else. -/
def ReadsVerbose : Prop :=
  ∀ look environment (command : CommandName) (rest : List SystemText),
    I.read look environment ((("-v" : String) : SystemText) :: (command.name : SystemText) :: rest) =
      (I.read look environment ((command.name : SystemText) :: rest)).verbosely

/-- A command is only called when the files that it is to read are there and may be read. -/
def ChecksFiles : Prop :=
  ∀ look environment arguments verbose request, I.read look environment arguments = .call verbose request →
    ∀ path ∈ request.inputs, look path = some (.file true)

/-- Printing may leave characters out. -/
def EchoesPart : Prop := ∀ terminal text, (I.echo terminal text).Sublist text

/-- Nothing is left out for a terminal, and otherwise nothing of a text without escape characters. -/
def EchoesPlain : Prop :=
  ∀ terminal text, terminal = true ∨ SystemChar.char '\x1b' ∉ text → I.echo terminal text = text

end Interface

end LeadSheet.Command
