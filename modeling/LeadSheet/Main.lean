import LeadSheet.Command.Reader
import LeadSheet.Command.Run
import Std.Time.DateTime.Timestamp

/-!
# The program

The command line over the files and the standard streams of the system. Verbose log records carry the time in UTC. The
system is given texts without stray bytes only, and so are the commands.
-/

namespace LeadSheet.Command

def databaseVariable : String := "CHORDSHEET_DB"

/-- What the system says about a failure. -/
def fileErrorOf : IO.Error → FileError
  | .alreadyExists _ number reason
  | .otherError number reason
  | .resourceBusy number reason
  | .resourceVanished number reason
  | .unsupportedOperation number reason
  | .hardwareFault number reason
  | .unsatisfiedConstraints number reason
  | .illegalOperation number reason
  | .protocolError number reason
  | .timeExpired number reason
  | .interrupted _ number reason
  | .noFileOrDirectory _ number reason
  | .invalidArgument _ number reason
  | .permissionDenied _ number reason
  | .resourceExhausted _ number reason
  | .inappropriateType _ number reason
  | .noSuchThing _ number reason => ⟨number.toNat, reason⟩
  | .unexpectedEof => ⟨5, "Input/output error"⟩
  | .userError reason => ⟨5, reason⟩

def attempt {α : Type} (action : IO α) : IO (Except FileError α) := do
  match ← action.toBaseIO with
  | .ok a => return .ok a
  | .error e => return .error (fileErrorOf e)

def systemLook (path : SystemText) : IO (Option Sight) := do
  let path := System.mkFilePath [path.shown]
  match ← attempt path.metadata with
  | .error _ => return none
  | .ok found =>
    if found.type == .dir then return some .directory
    else
      match ← attempt (IO.FS.Handle.mk path .read) with
      | .ok _ => return some (.file true)
      | .error _ => return some (.file false)

/-- An absolute path without links; of what does not exist it is taken as it is written. -/
def systemResolve (path : SystemText) : IO (List SystemText) := do
  match ← attempt (IO.FS.realPath path.shown) with
  | .ok found => return resolvePath [] found.toString
  | .error _ => return resolvePath (resolvePath [] (← IO.currentDir).toString) path

def systemStream : Stream → IO IO.FS.Stream
  | .stdout => IO.getStdout
  | .stderr => IO.getStderr

/-- What a program does on the system, where a router holds the log records that are about to be written. -/
abbrev SystemM := StateT (Log.Router Log.Registry) IO

def flushLog : SystemM Unit := do
  for stream in [Stream.stdout, Stream.stderr] do
    (← systemStream stream).putStr ((← get).streams.getD stream.number "")
  modify fun router => { router with streams := router.streams.map fun _ => "" }

def systemHost : Host SystemM where
  read path := do return (← attempt (IO.FS.readBinFile path.shown)).map fun contents => contents.toList
  write path contents := attempt (IO.FS.writeBinFile path.shown (ByteArray.mk contents.toArray))
  resolve path := systemResolve path
  isTerminal stream := do (← systemStream stream).isTty
  print stream text := do (← systemStream stream).putStr text
  setUpLog level stream := modify (Log.Router.setup Log.Registry.loggers level stream.number)
  log record := do
    let now ← Std.Time.Timestamp.now
    modify (Log.Router.log Log.Registry.loggers (record.event now.toSecondsSinceUnixEpoch.val))
    flushLog

def runOnSystem (arguments : List String) : IO UInt32 := do
  let environment := (← IO.getEnv databaseVariable).map SystemText.ofString
  let reading ← readLine systemLook environment (arguments.map SystemText.ofString)
  let (ending, _) ← (conclude reader systemHost reading).run ⟨Log.Registry.loggers.initial, [], ["", ""]⟩
  return ending.status.toUInt32

end LeadSheet.Command

def main (arguments : List String) : IO UInt32 := LeadSheet.Command.runOnSystem arguments
