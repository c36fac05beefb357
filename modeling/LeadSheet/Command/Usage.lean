import LeadSheet.Command.SystemText

/-!
# Errors of usage

What can be wrong with a command line, and how it is said. An error is reported below the usage line of the command that
it concerns, except when an option lacks its value or has one too many: these two are found where the option stands and
are reported alone.
-/

namespace LeadSheet.Command

inductive UsageError
  | unknownOption (name : SystemText) (similar : List String)
  | valueMissing (option : SystemText)
  | valueUnwanted (option : SystemText)
  | missingArgument (label : String)
  | missingOption (option : String)
  | noSuchFile (parameter : String) (path : SystemText)
  | notAFile (parameter : String) (path : SystemText)
  | notReadable (parameter : String) (path : SystemText)
  | noSuchChoice (parameter : String) (value : SystemText) (choices : List String)
  | extraArguments (arguments : List SystemText)
  | unknownCommand (name : SystemText) (similar : List String)
  | missingCommand
  deriving DecidableEq

namespace UsageError

/-- The text that offers similar names. -/
def offer (similar : List String) : String :=
  let names := String.intercalate ", " (similar.map Text.quotedString)
  match similar with
  | [] => ""
  | [_] => s!" Did you mean {names}?"
  | _ => s!" (Did you mean one of: {names}?)"

def message : UsageError → SystemText
  | unknownOption name similar => SystemText.ofString (s!"No such option {name.quoted}." ++ offer similar)
  | valueMissing option => SystemText.ofString s!"Option {option.quoted} requires an argument."
  | valueUnwanted option => SystemText.ofString s!"Option {option.quoted} does not take a value."
  | missingArgument label => SystemText.ofString s!"Missing argument '{label}'."
  | missingOption option => SystemText.ofString s!"Missing option '{option}'."
  | noSuchFile parameter path =>
    SystemText.ofString s!"Invalid value for '{parameter}': File {path.quoted} does not exist."
  | notAFile parameter path =>
    SystemText.ofString s!"Invalid value for '{parameter}': File {path.quoted} is a directory."
  | notReadable parameter path =>
    SystemText.ofString s!"Invalid value for '{parameter}': File {path.quoted} is not readable."
  | noSuchChoice parameter value choices =>
    SystemText.ofString (s!"Invalid value for '{parameter}': {value.quoted} is not one of " ++
      String.intercalate ", " (choices.map Text.quotedString) ++ ".")
  | extraArguments arguments =>
    SystemText.ofString
        (if arguments.length = 1 then "Got unexpected extra argument (" else "Got unexpected extra arguments (") ++
      List.intercalate [.char ' '] arguments ++ [.char ')']
  | unknownCommand name similar => SystemText.ofString (s!"No such command {name.quoted}." ++ offer similar)
  | missingCommand => SystemText.ofString "Missing command."

def showsUsage : UsageError → Bool
  | valueMissing _ | valueUnwanted _ => false
  | _ => true

end UsageError

end LeadSheet.Command
