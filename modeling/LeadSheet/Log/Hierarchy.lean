import LeadSheet.Dictionary
import LeadSheet.Log.Record

/-!
# The hierarchy of loggers

A logger has a dotted name and comes into being when it is first used. It stands below the nearest
logger that is in use and whose name lies above its own, or else below the root, which is always there.
When a name comes into use that lies above names in use, the loggers of these that stood higher up are
moved below it.

* `above`: the names above a name, the nearest first;
* `Hierarchy.use`: brings a logger into being;
* `Hierarchy.lineage`: a logger and what it stands below, up to the root;
* `Hierarchy.ownLevel?`: the level of a lineage, which is the first one that is set.
-/

namespace LeadSheet.Log

/-! ## Names -/

/-- The name of the root of all loggers, which the empty name stands for too. -/
def rootName : String := "root"

/-- The name under which a logger is known. -/
def canonicalName (name : String) : String := if name.isEmpty then rootName else name

/-- The places of dots in a name, the last first. A dot at the head parts nothing. -/
def dots (name : List Char) : List Nat :=
  (List.range name.length).reverse.filter fun i => 0 < i && name[i]? == some '.'

/-- Of places in falling order, leaves out each one that comes right after a place that is kept. -/
def dropNeighbours : List Nat → List Nat
  | [] => []
  | [i] => [i]
  | i :: j :: rest => if j + 1 = i then i :: dropNeighbours rest else i :: dropNeighbours (j :: rest)

/-- The names above a name, the nearest first: what stands before its dots. Of dots side by side every
second one counts, from the right. -/
def above (name : String) : List String :=
  (dropNeighbours (dots name.toList)).map fun i => String.ofList (name.toList.take i)

/-! ## Loggers -/

/-- A logger in use. Level zero is none of its own, and a logger without a parent stands below the
root. -/
structure Logger where
  level : Level := 0
  parent : Option String := none
  deriving DecidableEq

namespace Logger

/-- The name of what a logger stands below. -/
def parentName (l : Logger) : String := l.parent.getD rootName

/-- Moves a logger below a name that comes into use, unless it stands below a name that begins with this
one. -/
def moveBelow (name : String) (l : Logger) : Logger :=
  if name.toList.isPrefixOf l.parentName.toList then l else { l with parent := some name }

end Logger

/-- The loggers in use, the root apart, and for names above them the loggers that came into being while
these names were not in use. -/
structure Hierarchy where
  loggers : List (String × Logger) := []
  waiting : List (String × List String) := []

namespace Hierarchy

def isUsed (h : Hierarchy) (name : String) : Bool := (h.loggers.lookup name).isSome

def waitingFor (h : Hierarchy) (name : String) : List String := (h.waiting.lookup name).getD []

/-- Brings a logger into being, if it is not yet in use. -/
def use (h : Hierarchy) (name : String) : Hierarchy :=
  if h.isUsed name then h
  else
    let below := h.waitingFor name
    let moved := h.loggers.map fun (n, l) => (n, if n ∈ below then l.moveBelow name else l)
    let unused := (above name).takeWhile fun n => !h.isUsed n
    { loggers := moved ++ [(name, { parent := (above name).find? h.isUsed })]
      waiting := unused.foldl (fun w n => Dictionary.put n ((w.lookup n).getD [] ++ [name]) w) h.waiting }

def setLevel (h : Hierarchy) (name : String) (level : Level) : Hierarchy :=
  match h.loggers.lookup name with
  | some l => { h with loggers := Dictionary.put name { l with level := level } h.loggers }
  | none => h

/-- A logger and what it stands below, without the root. A parent has a shorter name, so the length of
the name bounds the number of steps, which is the first argument. -/
def lineageFrom (h : Hierarchy) : Nat → String → List Logger
  | 0, _ => []
  | steps + 1, name =>
    match h.loggers.lookup name with
    | none => []
    | some l =>
      l :: match l.parent with
        | some parent => lineageFrom h steps parent
        | none => []

/-- A logger and what it stands below, the nearest first and without the root. -/
def lineage (h : Hierarchy) (name : String) : List Logger := h.lineageFrom (name.length + 1) name

/-- The level of a logger: its own, or that of the nearest logger above it that has one, the root
apart. -/
def ownLevel? (h : Hierarchy) (name : String) : Option Level :=
  ((h.lineage name).map Logger.level).find? (· != 0)

end Hierarchy

end LeadSheet.Log
