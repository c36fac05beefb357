import LeadSheet.Command.Similar
import LeadSheet.Command.Usage

/-!
# Options

An option starts with a hyphen and has a long name, a short name, or both. Its value is attached to it,
after an equals sign in the long form and directly in the short one, or is the next argument, whatever
that looks like. Short options that take no value may be written together. Two hyphens alone end the
options; a single hyphen is an argument.

`scan` reads a command line from left to right into the options that are used, in order, and the
arguments that are left.
-/

namespace LeadSheet.Command

inductive OptionName
  | database
  | output
  | title
  | format
  | verbose
  | version
  | help
  deriving DecidableEq

namespace OptionName

def long : OptionName → String
  | database => "--db"
  | output => "--output"
  | title => "--title"
  | format => "--format"
  | verbose => "--verbose"
  | version => "--version"
  | help => "--help"

def letter? : OptionName → Option Char
  | output => some 'o'
  | verbose => some 'v'
  | help => some 'h'
  | _ => none

def takesValue : OptionName → Bool
  | database | output | title | format => true
  | verbose | version | help => false

end OptionName

/-- An option that is used, with its value. -/
structure OptionUse where
  name : OptionName
  value : SystemText := []
  deriving DecidableEq

structure Scanned where
  uses : List OptionUse := []
  arguments : List SystemText := []
  deriving DecidableEq

/-- An option whose value is the next argument, with its name as it is written. -/
structure Pending where
  name : OptionName
  written : SystemText
  deriving DecidableEq

/-- What one argument says: the options that it uses, and one more that waits for its value. -/
structure Scan where
  uses : List OptionUse := []
  pending : Option Pending := none
  deriving DecidableEq

def hyphen : SystemChar := .char '-'

def readShort (options : List OptionName) : (letters : SystemText) → Except UsageError Scan
  | [] => .ok {}
  | c :: rest =>
    let written := [hyphen, c]
    match options.find? fun o => o.letter?.map SystemChar.char = some c with
    | none => .error (.unknownOption written [])
    | some o =>
      if o.takesValue then
        if rest.isEmpty then .ok { pending := some ⟨o, written⟩ }
        else .ok { uses := [⟨o, rest⟩] }
      else (readShort options rest).map fun r => { r with uses := ⟨o, []⟩ :: r.uses }

/-- The parts of an option before and after its first equals sign. -/
def splitValue (argument : SystemText) : SystemText × Option SystemText :=
  match argument.dropWhile (· != .char '=') with
  | [] => (argument, none)
  | _ :: value => (argument.takeWhile (· != .char '='), some value)

/-- Reads an argument that starts with a hyphen and goes on. -/
def readOption (options : List OptionName) (argument : SystemText) : Except UsageError Scan :=
  let (written, value) := splitValue argument
  match options.find? fun o => SystemText.ofString o.long = written, value with
  | some o, none => .ok (if o.takesValue then { pending := some ⟨o, written⟩ } else { uses := [⟨o, []⟩] })
  | some o, some v =>
    if o.takesValue then .ok { uses := [⟨o, v⟩] } else .error (.valueUnwanted written)
  | none, _ =>
    match argument with
    | .char '-' :: .char '-' :: _ =>
      .error (.unknownOption written (closeNames written (options.map OptionName.long)))
    | _ :: letters => readShort options letters
    | [] => .ok {}

def isOption (argument : SystemText) : Bool :=
  match argument with
  | .char '-' :: _ :: _ => true
  | _ => false

/-- Puts what an argument says before what follows. -/
def Scanned.add (uses : List OptionUse) (arguments : List SystemText) (rest : Scanned) : Scanned :=
  ⟨uses ++ rest.uses, arguments ++ rest.arguments⟩

/-- Scans arguments while an option may wait for its value. Options are read everywhere when they are
`mixed` with arguments, and otherwise up to the first argument. -/
def scanFrom (options : List OptionName) (mixed : Bool) (pending : Option Pending) :
    List SystemText → Except UsageError Scanned
  | [] =>
    match pending with
    | some p => .error (.valueMissing p.written)
    | none => .ok {}
  | argument :: rest =>
    match pending with
    | some p => (scanFrom options mixed none rest).map (Scanned.add [⟨p.name, argument⟩] [])
    | none =>
      if argument = [hyphen, hyphen] then .ok { arguments := rest }
      else if isOption argument then
        match readOption options argument with
        | .error e => .error e
        | .ok r => (scanFrom options mixed r.pending rest).map (Scanned.add r.uses [])
      else if mixed then (scanFrom options mixed none rest).map (Scanned.add [] [argument])
      else .ok { arguments := argument :: rest }

def scan (options : List OptionName) (mixed : Bool) (arguments : List SystemText) :
    Except UsageError Scanned :=
  scanFrom options mixed none arguments

namespace Scanned

/-- The value of an option: that of its last use. -/
def value? (s : Scanned) (name : OptionName) : Option SystemText :=
  (s.uses.reverse.find? fun u => u.name = name).map OptionUse.value

def has (s : Scanned) (name : OptionName) : Bool := s.uses.any fun u => u.name = name

end Scanned

end LeadSheet.Command
