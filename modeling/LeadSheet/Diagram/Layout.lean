import LeadSheet.Numeric.Binary64

/-!
# The geometry of a fretboard diagram

A layout fixes where the grid of strings and fret lines lies. Strings are vertical and numbered from
the left; fret lines are horizontal, and line 0 is the nut. Counts may be zero or negative, in which
case there are no such lines.
-/

namespace LeadSheet

/-- The measures shared by all diagrams of a song. -/
structure Layout where
  width : Int := 120
  height : Int := 160
  stringCount : Int := 6
  visibleFrets : Int := 4
  stringSpacing : Float := 16
  fretSpacing : Float := 20
  startX : Float := 25
  startY : Float := 40
  stringWeight : Float := 1.5
  fretWeight : Float := 1
  nutWeight : Float := 3
  markerOffset : Float := 8

namespace Layout

/-- `count` coordinates from `start` on, `spacing` apart. -/
def coordinates (start spacing : Float) (count : Nat) : List Float :=
  (List.range count).map fun (i : Nat) => start + Numeric.floatOfInt i * spacing

def stringXs (l : Layout) : List Float := coordinates l.startX l.stringSpacing l.stringCount.toNat

/-- The vertical places of the fret lines, the nut first. -/
def fretYs (l : Layout) : List Float := coordinates l.startY l.fretSpacing (l.visibleFrets + 1).toNat

def aboveNut (l : Layout) : Float := l.startY - l.markerOffset

def rowY (l : Layout) (row : Int) : Float :=
  l.startY + (Numeric.floatOfInt row - 0.5) * l.fretSpacing

end Layout

end LeadSheet
