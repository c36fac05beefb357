/-!
# Log records

What the library reports while it works is data: a list of records in the order in which they arise.
A record names the part of the program that speaks, how serious the matter is, and the text. Who reads
the records, and in which form, is decided by a `Log.Router`.
-/

namespace LeadSheet.Log

/-- How serious a record is; larger is more serious. -/
abbrev Level := Int

namespace Level

def debug : Level := 10
def info : Level := 20
def warning : Level := 30
def error : Level := 40
def critical : Level := 50

def name (level : Level) : String :=
  if level = debug then "DEBUG"
  else if level = info then "INFO"
  else if level = warning then "WARNING"
  else if level = error then "ERROR"
  else if level = critical then "CRITICAL"
  else s!"Level {level}"

end Level

/-- A report. `place` numbers the statement that makes it within its part of the program. -/
structure Record where
  level : Level
  logger : String
  place : Int
  message : String
  deriving DecidableEq

end LeadSheet.Log
