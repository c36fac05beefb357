import LeadSheet.Log.Registry
import LeadSheet.Log.Template
import LeadSheet.Log.Timestamp

/-!
# Where log records go

A record that its logger lets pass goes to all handlers of the root, each of which writes it to a stream of
its own if the record reaches the handler's level. A set-up takes away the handlers that earlier set-ups
have installed, which it tells by a mark, and installs one for the stream that it is given. It sets the level
of the root together with that of the handler, and the level decides the form of the lines.
-/

namespace LeadSheet.Log

/-! ## The form of a line -/

def padEnd (width : Nat) (s : String) : String :=
  s ++ String.ofList (List.replicate (width - s.length) ' ')

def Record.plainLine (r : Record) : String := s!"chordsheet: {Level.name r.level}: {r.message}"

def Record.verboseLineAt (r : Record) (time place : String) : String :=
  s!"{time} {padEnd 7 (Level.name r.level)} {r.logger}:{place}  {r.message}"

def Record.verboseLine (r : Record) (time : String) : String := r.verboseLineAt time (toString r.place)

def isVerbose (level : Level) : Bool := level ≤ Level.debug

/-- A record as a line, if the time has a text where it is shown. -/
def lineOf? (verbose : Bool) (time : Int) (record : Record) : Option String :=
  if verbose then (timestamp? time).map fun t => record.verboseLine t ++ "\n"
  else some (record.plainLine ++ "\n")

/-! ## Records -/

/-- A record that is about to be made. -/
structure Event where
  level : Level
  /-- The name of the logger as the record shows it. -/
  logger : String
  place : Int
  template : String
  arguments : List Json
  /-- Seconds since the start of 1970. -/
  time : Int

/-- The record of an event, if the template fits its arguments. -/
def Event.record? (e : Event) : Option Record :=
  (fillTemplate? e.template e.arguments).map fun message => ⟨e.level, e.logger, e.place, message⟩

/-- A record that is made at a time. -/
def Record.event (r : Record) (time : Int) : Event := ⟨r.level, r.logger, r.place, r.message, [], time⟩

/-! ## Routers -/

/-- The number of a stream, in the order in which streams are opened. -/
abbrev StreamId := Nat

/-- What writes records to a stream. The handlers of set-ups are marked. -/
structure Handler where
  marked : Bool
  level : Level
  verbose : Bool
  stream : StreamId
  deriving DecidableEq

/-- The loggers, the handlers of the root, and the contents of all streams. -/
structure Router (σ : Type) where
  loggers : σ
  handlers : List Handler := []
  streams : List String := []

namespace Router

variable {σ : Type}

def write (stream : StreamId) (text : String) (r : Router σ) : Router σ :=
  { r with streams := r.streams.modify stream (· ++ text) }

def openStream (r : Router σ) : Router σ := { r with streams := r.streams ++ [""] }

def removeHandler (r : Router σ) (h : Handler) : Router σ := { r with handlers := r.handlers.erase h }

def addHandler (r : Router σ) (h : Handler) : Router σ := { r with handlers := r.handlers ++ [h] }

/-- Takes away the handlers of earlier set-ups and installs one for a stream. -/
def setup (L : Loggers σ) (level : Level) (stream : StreamId) (r : Router σ) : Router σ :=
  let r := (r.handlers.filter Handler.marked).foldl removeHandler r
  let r := { r with loggers := L.setLevel rootName level r.loggers }
  r.addHandler ⟨true, level, isVerbose level, stream⟩

/-- Gives a record to a handler. -/
def deliver (record : Record) (time : Int) (r : Router σ) (h : Handler) : Router σ :=
  if h.level ≤ record.level then
    match lineOf? h.verbose time record with
    | some line => r.write h.stream line
    | none => r
  else r

/-- Gives a record to all handlers, if its logger lets it pass and it has a message. -/
def log (L : Loggers σ) (event : Event) (r : Router σ) : Router σ :=
  let (enabled, loggers) := L.ask (canonicalName event.logger) event.level r.loggers
  let r := { r with loggers := loggers }
  match if enabled then event.record? else none with
  | some record => r.handlers.foldl (deliver record event.time) r
  | none => r

/-- The number of handlers that set-ups have installed. -/
def installedCount (r : Router σ) : Nat := r.handlers.countP Handler.marked

end Router

/-! ## Steps -/

/-- What can happen to a router. A set-up is for a new stream. -/
inductive Step
  | setup (level : Level)
  | setLevel (logger : String) (level : Level)
  | log (event : Event)

namespace Router

variable {σ : Type}

def step (L : Loggers σ) (r : Router σ) : Step → Router σ
  | .setup level => r.openStream.setup L level r.streams.length
  | .setLevel logger level =>
    { r with loggers := L.setLevel (canonicalName logger) level r.loggers }
  | .log event => r.log L event

def run (L : Loggers σ) (steps : List Step) : Router σ := steps.foldl (step L) ⟨L.initial, [], []⟩

end Router

end LeadSheet.Log
