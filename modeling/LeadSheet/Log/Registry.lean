import LeadSheet.Log.Hierarchy

/-!
# Which records loggers let pass

A program gives levels to loggers by their names and asks them which levels they let pass. `Loggers` is what
is needed for this. A `Registry` keeps a tree of loggers, and each of them remembers what it has been asked
until some level is set.
-/

namespace LeadSheet.Log

/-- How levels are given to loggers, and how they are asked. A logger that is asked may come into being and
may remember its answer. -/
structure Loggers (σ : Type) where
  initial : σ
  rootLevel : σ → Level
  setLevel : (name : String) → Level → σ → σ
  ask : (name : String) → Level → σ → Bool × σ

/-- The level of the root, the other loggers, and the answers that loggers remember. -/
structure Registry where
  rootLevel : Level := .warning
  hierarchy : Hierarchy := {}
  answers : List ((String × Level) × Bool) := []

namespace Registry

def effectiveLevel (r : Registry) (logger : String) : Level :=
  (r.hierarchy.ownLevel? logger).getD r.rootLevel

/-- A level reaches that of a logger. No level of zero or less does. -/
def reaches (r : Registry) (logger : String) (level : Level) : Bool :=
  0 < level && r.effectiveLevel logger ≤ level

/-- What a logger says about a level: what it remembers, or else whether the level reaches its own. -/
def answer (r : Registry) (logger : String) (level : Level) : Bool :=
  (r.answers.lookup (logger, level)).getD (r.reaches logger level)

/-- Brings a logger into being. The root is always there. -/
def use (r : Registry) (logger : String) : Registry :=
  if logger = rootName then r else { r with hierarchy := r.hierarchy.use logger }

def remember (r : Registry) (logger : String) (level : Level) : Registry :=
  { r with answers := ((logger, level), r.answer logger level) :: r.answers }

/-- Sets the level of a logger, upon which all loggers forget their answers. -/
def setLevel (logger : String) (level : Level) (r : Registry) : Registry :=
  if logger = rootName then { r with rootLevel := level, answers := [] }
  else { r with hierarchy := (r.hierarchy.use logger).setLevel logger level, answers := [] }

def ask (logger : String) (level : Level) (r : Registry) : Bool × Registry :=
  let r := r.use logger
  (r.answer logger level, r.remember logger level)

def loggers : Loggers Registry := ⟨{}, rootLevel, setLevel, ask⟩

end Registry

end LeadSheet.Log
