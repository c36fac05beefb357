import LeadSheet.Chord.Oracle
import LeadSheet.Diagram.Layout
import LeadSheet.Text.Digit

/-!
# Fretboard diagrams

A chart shows one fingering: a grid, and for each string a mark that says whether it is muted, open, or
held down at a fret. A chart has a fixed number of rows, so a high fret is drawn in the last one, while
its label keeps the true number. A symbol that means nothing leaves its string without a mark. For a
chord without a fingering there is a notice in place of the chart.

A grid needs both kinds of lines, because each runs from the first to the last of the other: a layout
with one kind only is refused. With neither there is nothing to draw, which is no error.
-/

namespace LeadSheet.Diagram

open Chord (Position)

structure GridLine where
  x₁ : Float
  y₁ : Float
  x₂ : Float
  y₂ : Float
  weight : Float

/-- What a string shows. A held string has a dot in a row, labelled with the fret. -/
inductive Mark
  | muted
  | opened
  | fretted (fret : Nat) (row : Int)
  deriving DecidableEq

/-- The mark of one string and its place. -/
structure Marker where
  string : Nat
  x : Float
  y : Float
  mark : Mark

/-- The grid and the markers of one fingering. -/
structure Chart where
  strings : List GridLine
  frets : List GridLine
  markers : List Marker

/-- What is shown for a chord: a chart, or a notice of two lines. -/
inductive Content
  | chart (chart : Chart)
  | notice (first second : String)

end Diagram

/-- A diagram under the name of its chord. -/
structure Diagram where
  name : String
  width : Int
  height : Int
  content : Diagram.Content

namespace Diagram

open Chord (Position)

/-- Why no diagram can be drawn. -/
inductive Error
  /-- The layout has strings but no fret lines, or fret lines but no strings. -/
  | halfGrid
  deriving DecidableEq

def Error.message : Error → String
  | halfGrid => "list index out of range"

/-! ## Grid -/

/-- The lines at the places `starts`, each drawn between the first and the last of `ends`. -/
def gridLines (line : (index : Nat) → (at' first last : Float) → GridLine) (starts ends : List Float) :
    Except Error (List GridLine) :=
  match starts, ends with
  | [], _ => .ok []
  | _ :: _, [] => .error .halfGrid
  | _ :: _, first :: rest =>
    .ok (starts.mapIdx fun i x => line i x first ((first :: rest).getLast (List.cons_ne_nil _ _)))

def stringLines (l : Layout) : Except Error (List GridLine) :=
  gridLines (fun _ x top bottom => ⟨x, top, x, bottom, l.stringWeight⟩) l.stringXs l.fretYs

/-- The horizontal lines, the nut first. -/
def fretLines (l : Layout) : Except Error (List GridLine) :=
  gridLines (fun i y left right => ⟨left, y, right, y, if i = 0 then l.nutWeight else l.fretWeight⟩)
    l.fretYs l.stringXs

/-! ## Marks -/

/-- The highest fret that a symbol stands for. -/
def maxFret : Nat := 15

/-- The fret that a symbol stands for. -/
def fret? (symbol : Char) : Option Nat :=
  (Text.hexValue? symbol).filter fun n => 1 ≤ n ∧ n ≤ maxFret

/-- The mark that a symbol stands for. -/
def mark? (l : Layout) (symbol : Char) : Option Mark :=
  if symbol = 'x' ∨ symbol = 'X' then some .muted
  else if symbol = '0' then some .opened
  else (fret? symbol).map fun n => .fretted n (min n l.visibleFrets)

def markY (l : Layout) : Mark → Float
  | .fretted _ row => l.rowY row
  | _ => l.aboveNut

/-- The markers of the strings at the places `xs`, the first of which has the number `index`. Symbols
without a string and strings without a symbol are passed over. -/
def markersFrom (l : Layout) (index : Nat) : (xs : List Float) → (symbols : List Char) → List Marker
  | x :: xs, symbol :: symbols =>
    let rest := markersFrom l (index + 1) xs symbols
    match mark? l symbol with
    | some mark => ⟨index, x, markY l mark, mark⟩ :: rest
    | none => rest
  | _, _ => []

/-! ## Diagrams -/

def chart (l : Layout) (position : Position) : Except Error Chart := do
  let strings ← stringLines l
  let frets ← fretLines l
  pure ⟨strings, frets, markersFrom l 0 l.stringXs position.frets.toList⟩

def notFound (l : Layout) (name : String) : Diagram :=
  ⟨name, l.width, l.height, .notice "Chord not found" "in database"⟩

def ofPosition (l : Layout) (name : String) : Option Position → Except Error Diagram
  | none => .ok (notFound l name)
  | some position => do
    let chart ← chart l position
    pure ⟨name, l.width, l.height, .chart chart⟩

/-- The diagram of a chord in its first fingering. -/
def ofName (l : Layout) (db : Chord.Database) (name : List Char) : Except Error Diagram :=
  ofPosition l (String.ofList name) ((db.findName? name).bind fun d => d.positions.head?)

end Diagram

end LeadSheet
