import LeadSheet.Command.Controls
import LeadSheet.Command.Help
import LeadSheet.Text.Case

/-!
# Reading command lines

A command line is options of the program, the name of a command, and that command's own options and argument. Help and
the version come before everything else that is asked for; a fault in the form of the line comes before these.

The parameters of a command are examined in the order in which they stand in the line: first the options that are used,
then the argument, then the options that are not used. The first parameter that is missing, or that names no file where
a file must be, is reported; arguments beyond the first are reported last. The database may also be named by the
environment.
-/

namespace LeadSheet.Command

/-- What a command line asks for, before any file is looked at. -/
inductive Invocation
  | version
  | help (command : Option CommandName)
  /-- Nothing is asked for at all. -/
  | nothing
  | misuse (command : Option CommandName) (error : UsageError)
  | command (verbose : Bool) (name : CommandName) (line : Scanned)
  deriving DecidableEq

namespace Invocation

/-- The first of some used options that is answered at once, with its answer. -/
def immediate? (command : Option CommandName) (uses : List OptionUse) : Option Invocation :=
  uses.findSome? fun u =>
    match u.name with
    | .version => some .version
    | .help => some (.help command)
    | _ => none

/-- Reads the part of a command line that belongs to a command. -/
def ofCommand (verbose : Bool) (name : CommandName) (arguments : List SystemText) : Invocation :=
  match scan name.options true arguments with
  | .error e => misuse (some name) e
  | .ok line => (immediate? (some name) line.uses).getD (command verbose name line)

/-- The answer to a name that no command has. What looks like an option is read as one first. -/
def ofUnknown (written : SystemText) (arguments : List SystemText) : Invocation :=
  match scan leadingOptions false (written :: arguments) with
  | .error e => misuse none e
  | .ok line =>
    (immediate? none line.uses).getD
      (misuse none (.unknownCommand written (closeNames written (CommandName.all.map CommandName.name))))

def read (arguments : List SystemText) : Invocation :=
  if arguments.isEmpty then nothing
  else
    match scan leadingOptions false arguments with
    | .error e => misuse none e
    | .ok line =>
      match immediate? none line.uses, line.arguments with
      | some i, _ => i
      | none, [] => misuse none .missingCommand
      | none, written :: rest =>
        match CommandName.ofName? written with
        | some name => ofCommand (line.has .verbose) name rest
        | none => ofUnknown written rest

end Invocation

/-! ## Parameters -/

inductive Parameter
  | argument
  | option (name : OptionName)
  deriving DecidableEq

def formatChoices : List SheetFormat := [.page, .fragment]

/-- The format that a text chooses, in any letter case. -/
def chosenFormat? (text : SystemText) : Option SheetFormat :=
  text.chars?.bind fun text => formatChoices.find? fun f => f.name.toList = Text.lower text

namespace Scanned

/-- The database of a command line: the one that it names, or else the one that the environment does. -/
def database? (line : Scanned) (environment : Option SystemText) : Option SystemText :=
  match line.value? .database with
  | some path => some path
  | none => environment.filter fun path => !path.isEmpty

/-- The parameters in the order in which they are examined. -/
def parameters (line : Scanned) (name : CommandName) : List Parameter :=
  line.uses.map (fun u => .option u.name) ++ .argument :: name.options.map .option

def request (line : Scanned) (name : CommandName) (environment : Option SystemText) : Except UsageError Request :=
  match line.arguments with
  | [] => .error (.missingArgument name.argumentLabel)
  | argument :: extra =>
    match line.database? environment with
    | none => .error (.missingOption OptionName.database.long)
    | some database =>
      if !extra.isEmpty then .error (.extraArguments extra)
      else
        let output := line.value? .output
        let format := (line.value? .format).bind chosenFormat?
        .ok (match name with
          | .render => .render argument database output (line.value? .title) (format.getD .page)
          | .chords => .chords argument database
          | .diagram => .diagram argument database output)

end Scanned

section

variable {m : Type → Type} [Monad m] (look : SystemText → m (Option Sight))

/-- What is wrong with a path that must lead to a file. -/
def fileFault? (parameter : String) (path : SystemText) : m (Option UsageError) := do
  match ← look path with
  | none => return some (.noSuchFile parameter path)
  | some .directory => return some (.notAFile parameter path)
  | some (.file false) => return some (.notReadable parameter path)
  | some (.file true) => return none

def parameterFault? (environment : Option SystemText) (name : CommandName) (line : Scanned) :
    Parameter → m (Option UsageError)
  | .argument =>
    match line.arguments with
    | [] => return some (.missingArgument name.argumentLabel)
    | argument :: _ =>
      match name with
      | .render | .chords => fileFault? look name.argumentLabel argument
      | .diagram => return none
  | .option .database =>
    match line.database? environment with
    | none => return some (.missingOption OptionName.database.long)
    | some path => fileFault? look OptionName.database.long path
  | .option .format =>
    match line.value? .format with
    | some text =>
      return if (chosenFormat? text).isSome then none
        else some (.noSuchChoice OptionName.format.long text (formatChoices.map SheetFormat.name))
    | none => return none
  | .option _ => return none

def firstFault? (environment : Option SystemText) (name : CommandName) (line : Scanned) :
    List Parameter → m (Option UsageError)
  | [] => return none
  | p :: rest => do
    match ← parameterFault? look environment name line p with
    | some e => return some e
    | none => firstFault? environment name line rest

/-! ## Answers -/

/-- The status of a run whose command line is wrong. -/
def misuseStatus : Nat := 2

/-- The report on a wrong command line. -/
def misuse (command : Option CommandName) (e : UsageError) : Reading :=
  let usage := if e.showsUsage then [usageLine command, helpHint command, ""] else []
  .answer misuseStatus [] (usage.map SystemText.ofString ++ [("Error: " : String) ++ e.message])

def readCommand (environment : Option SystemText) (verbose : Bool) (name : CommandName) (line : Scanned) : m Reading := do
  match ← firstFault? look environment name line (line.parameters name) with
  | some e => return misuse (some name) e
  | none =>
    match line.request name environment with
    | .error e => return misuse (some name) e
    | .ok request => return .call verbose request

def readLine (environment : Option SystemText) (arguments : List SystemText) : m Reading :=
  match Invocation.read arguments with
  | .version => return .answer 0 [SystemText.ofString s!"{programName}, version {version}"] []
  | .help command => return .answer 0 [SystemText.ofString (helpText command)] []
  | .nothing => return .answer misuseStatus [] [SystemText.ofString (helpText none)]
  | .misuse command e => return misuse command e
  | .command verbose name line => readCommand look environment verbose name line

end

/-- An interface of this kind. Control sequences are left out of what is printed, unless it goes to a terminal. -/
def reader : Interface where
  read look := readLine (m := Id) look
  echo terminal text := if terminal then text else dropControls text

end LeadSheet.Command
