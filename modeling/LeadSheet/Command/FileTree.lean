import LeadSheet.Command.Path
import LeadSheet.Text.Utf8

/-!
# Files

A `FileTree` has directories and files, each with what may be done to it, and no links. What a path leads to is looked up
component by component; a write sets one file and leaves everything else as it is.
-/

namespace LeadSheet.Command

structure FileError where
  number : Nat
  reason : String
  deriving DecidableEq

namespace FileError

def notFound : FileError := ⟨2, "No such file or directory"⟩
def denied : FileError := ⟨13, "Permission denied"⟩
def notADirectory : FileError := ⟨20, "Not a directory"⟩
def isADirectory : FileError := ⟨21, "Is a directory"⟩
def nameTooLong : FileError := ⟨36, "File name too long"⟩

def message (e : FileError) (path : SystemText) : String := s!"[Errno {e.number}] {e.reason}: {path.quoted}"

end FileError

abbrev Bytes := List UInt8

/-- What may be done to a file or a directory. To enter a directory is to look up what is in it. -/
structure Access where
  read : Bool := true
  write : Bool := true
  enter : Bool := true
  deriving DecidableEq

inductive Node
  | file (access : Access) (contents : Bytes)
  | directory (access : Access)
  deriving DecidableEq

/-- Directories and files by their components from the root on, and the directory that relative paths start from. The
root is a directory. -/
structure FileTree where
  cwd : List SystemText
  nodes : List (List SystemText × Node)
  root : Access := {}

/-- What is seen of a file or a directory without opening it. -/
inductive Sight
  | file (readable : Bool)
  | directory
  deriving DecidableEq

namespace FileTree

/-- The longest name of a file in bytes. -/
def nameLimit : Nat := 255

/-- The longest path in bytes. -/
def pathLimit : Nat := 4095

def node? (t : FileTree) (place : List SystemText) : Option Node :=
  if place.isEmpty then some (.directory t.root) else t.nodes.lookup place

/-- Follows components from a directory on. Every component is looked up in a directory that may be entered; the last
one may be of either kind. -/
def walk (t : FileTree) (place : List SystemText) : List SystemText → Except FileError (List SystemText)
  | [] => if (t.node? place).isSome then .ok place else .error .notFound
  | part :: rest =>
    match t.node? place with
    | none => .error .notFound
    | some (.file _ _) => .error .notADirectory
    | some (.directory access) =>
      if part = [] then walk t place rest
      else if access.enter = false then .error .denied
      else if part = here then walk t place rest
      else if part = up then walk t place.dropLast rest
      else if nameLimit < part.byteSize then .error .nameTooLong
      else walk t (place ++ [part]) rest

def start (t : FileTree) (path : SystemText) : List SystemText := if isAbsolute path then [] else t.cwd

/-- The place that a path leads to. The empty path leads nowhere. -/
def locate (t : FileTree) (path : SystemText) : Except FileError (List SystemText) :=
  if path.isEmpty then .error .notFound
  else if pathLimit < path.byteSize then .error .nameTooLong
  else t.walk (t.start path) (components path)

def look (t : FileTree) (path : SystemText) : Option Sight :=
  match t.locate path with
  | .error _ => none
  | .ok place => (t.node? place).map fun
    | .file access _ => .file access.read
    | .directory _ => .directory

def read (t : FileTree) (path : SystemText) : Except FileError Bytes :=
  match t.locate path with
  | .error e => .error e
  | .ok place =>
    match t.node? place with
    | some (.file access contents) => if access.read then .ok contents else .error .denied
    | some (.directory access) => if access.read then .error .isADirectory else .error .denied
    | none => .error .notFound

/-- Replaces the node at a place, or adds it. -/
def setNode (place : List SystemText) (node : Node) : List (List SystemText × Node) → List (List SystemText × Node)
  | [] => [(place, node)]
  | (p, n) :: rest => if p = place then (p, node) :: rest else (p, n) :: setNode place node rest

/-- The access to a file at a place after it is written, if a file may be written there: that of the file that is there,
or that of a new one. -/
def writtenAccess (t : FileTree) (directory : Access) (place : List SystemText) : Except FileError Access :=
  match t.node? place with
  | some (.directory _) => .error .isADirectory
  | some (.file access _) => if access.write then .ok access else .error .denied
  | none => if directory.write then .ok {} else .error .denied

/-- The place that a file is written to, and the access to it afterwards. The directory must be there; a path that ends
in a slash or in dots names no file. -/
def target (t : FileTree) (path : SystemText) : Except FileError (List SystemText × Access) :=
  if path.isEmpty then .error .notFound
  else if pathLimit < path.byteSize then .error .nameTooLong
  else
    let parts := (components path).filter (· != [])
    match parts.getLast? with
    | none => .error .isADirectory
    | some name =>
      match t.walk (t.start path) parts.dropLast with
      | .error e => .error e
      | .ok place =>
        match t.node? place with
        | some (.directory access) =>
          if access.enter = false then .error .denied
          else if name = here ∨ name = up ∨ path.getLast? = some slash then .error .isADirectory
          else if nameLimit < SystemText.byteSize name then .error .nameTooLong
          else (t.writtenAccess access (place ++ [name])).map fun access => (place ++ [name], access)
        | _ => .error .notADirectory

def write (t : FileTree) (path : SystemText) (contents : Bytes) : Except FileError FileTree :=
  (t.target path).map fun written =>
    { t with nodes := setNode written.1 (.file written.2 contents) t.nodes }

end FileTree

/-! ## Texts in files -/

inductive ReadError
  | file (path : SystemText) (cause : FileError)
  | encoding (cause : Text.Utf8.Error)

def ReadError.message : ReadError → String
  | file path cause => cause.message path
  | encoding cause => cause.message

/-- A file's contents as text, with every line end written as LF. -/
def textOfBytes (contents : Bytes) : Except Text.Utf8.Error (List Char) :=
  (Text.Utf8.decode contents).map Text.unixLines

end LeadSheet.Command
