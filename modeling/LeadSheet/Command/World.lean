import LeadSheet.Command.Run

/-!
# Runs over a tree of files

A `World` is a host that is a plain value: a tree of files, and a router of log records whose first two streams are the
standard streams. A run begins with what its `Setting` says, with empty streams, and before anything is logged.
-/

namespace LeadSheet.Command

/-- What surrounds a run. The clock tells the time of each record. -/
structure Setting where
  files : FileTree
  environment : Option SystemText := none
  terminal : Stream → Bool := fun _ => false
  clock : Nat → Int := fun _ => 0

structure World (σ : Type) where
  files : FileTree
  terminal : Stream → Bool
  router : Log.Router σ
  clock : Nat → Int

namespace World

variable {σ : Type}

def printed (w : World σ) (stream : Stream) : String := w.router.streams.getD stream.number ""

def start (L : Log.Loggers σ) (s : Setting) : World σ :=
  ⟨s.files, s.terminal, ⟨L.initial, [], ["", ""]⟩, s.clock⟩

def print (stream : Stream) (text : String) (w : World σ) : World σ :=
  { w with router := w.router.write stream.number text }

def setUpLog (L : Log.Loggers σ) (level : Log.Level) (stream : Stream) (w : World σ) : World σ :=
  { w with router := w.router.setup L level stream.number }

/-- Logs a record at the time that the clock tells. -/
def log (L : Log.Loggers σ) (record : Log.Record) (w : World σ) : World σ :=
  { w with router := w.router.log L (record.event (w.clock 0)), clock := fun n => w.clock (n + 1) }

def host (L : Log.Loggers σ) : Host (StateM (World σ)) where
  read path := do return (← get).files.read path
  write path contents := do
    match (← get).files.write path contents with
    | .ok files =>
      modify fun w => { w with files := files }
      return .ok ()
    | .error e => return .error e
  resolve path := do return resolvePath (← get).files.cwd path
  isTerminal stream := do return (← get).terminal stream
  print stream text := modify (print stream text)
  setUpLog level stream := modify (setUpLog L level stream)
  log record := modify (log L record)

end World

/-- What a run leaves behind. -/
structure Outcome where
  ending : Ending
  stdout : String
  stderr : String
  files : FileTree

def Interface.run {σ : Type} (I : Interface) (L : Log.Loggers σ) (s : Setting) (arguments : List SystemText) : Outcome :=
  let (ending, w) := (conclude I (World.host L) (I.read s.files.look s.environment arguments)).run (World.start L s)
  ⟨ending, w.printed .stdout, w.printed .stderr, w.files⟩

end LeadSheet.Command
