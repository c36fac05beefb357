import LeadSheet.Command.SystemText
import LeadSheet.Text.Lines

/-!
# Paths

A path is a list of components between slashes. As a *name* it is taken without empty components and without single
dots, so that its last component is the file's own name; a double dot stays, because only the file system knows where it
leads. *Resolving* a path from a directory makes it absolute and takes every double dot back by one component.
-/

namespace LeadSheet.Command

def slash : SystemChar := .char '/'

def dot : SystemChar := .char '.'

/-- The component that stays where it is. -/
def here : SystemText := [dot]

/-- The component that leads to the directory above. -/
def up : SystemText := [dot, dot]

/-- The components of a path as written, empty ones included. -/
def components (path : SystemText) : List SystemText := Text.cutAt (· == slash) path

def isAbsolute (path : SystemText) : Bool := path.head? == some slash

/-- The absolute path of another path from a directory; `cwd` and the result are components from the root on. -/
def resolvePath (cwd : List SystemText) (path : SystemText) : List SystemText :=
  (components path).foldl
    (fun place part =>
      if part = [] ∨ part = here then place else if part = up then place.dropLast else place ++ [part])
    (if isAbsolute path then [] else cwd)

/-- A path as the name of a file. -/
structure PathName where
  /-- The slashes at the start: none, one, or exactly two. -/
  root : SystemText
  parts : List SystemText
  deriving DecidableEq

namespace PathName

def ofPath (path : SystemText) : PathName where
  root :=
    match (path.takeWhile (· == slash)).length with
    | 0 => []
    | 2 => [slash, slash]
    | _ => [slash]
  parts := (components path).filter fun part => part != [] && part != here

def path (p : PathName) : SystemText :=
  if p.root.isEmpty && p.parts.isEmpty then here else p.root ++ List.intercalate [slash] p.parts

def fileName (p : PathName) : SystemText := p.parts.getLast?.getD []

def withFileName (p : PathName) (name : SystemText) : PathName := { p with parts := p.parts.dropLast ++ [name] }

/-- The last component in two parts, before and from its last dot on. A dot at either end of the component does not
part it. -/
def splitSuffix (p : PathName) : SystemText × SystemText :=
  let name := p.fileName
  let suffix := (name.reverse.takeWhile (· != dot)).reverse
  let stem := name.take (name.length - suffix.length - 1)
  if stem.isEmpty || suffix.isEmpty then (name, []) else (stem, dot :: suffix)

/-- The last component without its suffix. -/
def stem (p : PathName) : SystemText := p.splitSuffix.1

def withSuffix (p : PathName) (suffix : String) : PathName := p.withFileName (p.stem ++ suffix)

end PathName

end LeadSheet.Command
