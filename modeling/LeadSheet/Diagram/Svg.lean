import LeadSheet.Diagram.Chart
import LeadSheet.Numeric.Decimal
import LeadSheet.Text.Escape

/-!
# Diagrams as SVG

A diagram becomes a picture, which is a list of shapes on a background, and a picture becomes an SVG
document with one shape a line. Only texts carry what a user wrote, and they are escaped, so the
structure of the document depends on the marks alone.
-/

namespace LeadSheet.Diagram

open Numeric (coordinate)

/-! ## Colours -/

namespace Colour

def background : String := "#1f2937"
def border : String := "#374151"
def label : String := "#f9fafb"
def faint : String := "#6b7280"
def grid : String := "#6b7280"
def nut : String := "#e5e7eb"
def muted : String := "#ef4444"
def opened : String := "#10b981"
def dot : String := "#3b82f6"

end Colour

/-! ## Shapes -/

inductive Shape
  | line (x₁ y₁ x₂ y₂ : Float) (stroke weight : String)
  | ring (x y : Float) (stroke : String)
  | disc (x y : Float) (fill : String)
  | text (x y : Float) (fill size : String) (bold : Bool) (content : String)

/-- A quoted attribute, after a space. -/
def attr (name value : String) : String := " " ++ name ++ "=\"" ++ value ++ "\""

def Shape.svg : Shape → String
  | line x₁ y₁ x₂ y₂ stroke weight =>
    "<line" ++ attr "x1" (coordinate x₁) ++ attr "y1" (coordinate y₁) ++
      attr "x2" (coordinate x₂) ++ attr "y2" (coordinate y₂) ++
      attr "stroke" stroke ++ attr "stroke-width" weight ++ "/>"
  | ring x y stroke =>
    "<circle" ++ attr "cx" (coordinate x) ++ attr "cy" (coordinate y) ++
      attr "r" "5" ++ attr "fill" "none" ++ attr "stroke" stroke ++
      attr "stroke-width" "2" ++ "/>"
  | disc x y fill =>
    "<circle" ++ attr "cx" (coordinate x) ++ attr "cy" (coordinate y) ++
      attr "r" "7" ++ attr "fill" fill ++ attr "stroke" fill ++ "/>"
  | text x y fill size bold content =>
    "<text" ++ attr "x" (coordinate x) ++ attr "y" (coordinate y) ++
      attr "text-anchor" "middle" ++ attr "fill" fill ++
      attr "font-family" "sans-serif" ++ attr "font-size" size ++
      (if bold then attr "font-weight" "600" else "") ++ ">" ++
      Text.escapeString content ++ "</text>"

/-! ## Pictures -/

def gridShape (stroke : String) (line : GridLine) : Shape :=
  .line line.x₁ line.y₁ line.x₂ line.y₂ stroke (coordinate line.weight)

/-- The shapes of a marker: a cross, a ring, or a disc with its fret. -/
def Marker.shapes (m : Marker) : List Shape :=
  match m.mark with
  | .muted =>
    [.line (m.x - 4) (m.y - 4) (m.x + 4) (m.y + 4) Colour.muted "2",
      .line (m.x + 4) (m.y - 4) (m.x - 4) (m.y + 4) Colour.muted "2"]
  | .opened => [.ring m.x m.y Colour.opened]
  | .fretted fret _ =>
    [.disc m.x m.y Colour.dot, .text m.x (m.y + 3) "white" "10" true (toString fret)]

def Chart.shapes (c : Chart) : List Shape :=
  c.strings.map (gridShape Colour.grid) ++
    c.frets.mapIdx (fun i line => gridShape (if i = 0 then Colour.nut else Colour.grid) line) ++
    c.markers.flatMap Marker.shapes

def shapes (d : Diagram) (axis : Float) : List Shape :=
  match d.content with
  | .chart c => .text axis 20 Colour.label "14" true d.name :: c.shapes
  | .notice first second =>
    [.text axis 40 Colour.label "16" true d.name,
      .text axis 80 Colour.faint "10" false first,
      .text axis 95 Colour.faint "10" false second]

def svgOpening (width height : Int) : String :=
  "<svg" ++ attr "width" (toString width) ++ attr "height" (toString height) ++
    attr "viewBox" s!"0 0 {width} {height}" ++
    attr "xmlns" "http://www.w3.org/2000/svg" ++ ">"

def svgBackground : String :=
  "<rect" ++ attr "width" "100%" ++ attr "height" "100%" ++
    attr "fill" Colour.background ++ attr "rx" "8" ++
    attr "stroke" Colour.border ++ attr "stroke-width" "1" ++ "/>"

/-- The document of a diagram around a vertical axis. -/
def document (d : Diagram) (axis : Float) : String :=
  String.intercalate "\n"
    (svgOpening d.width d.height :: svgBackground :: (d.shapes axis).map Shape.svg ++ ["</svg>"])

/-! ## Measures

A document needs the width and the height in digits, and half the width as a double. -/

/-- Why a diagram has no document. -/
inductive SvgError
  | widthTooLarge
  | tooManyDigits
  deriving DecidableEq

def SvgError.message : SvgError → String
  | widthTooLarge => "integer division result too large for a float"
  | tooManyDigits =>
    "Exceeds the limit (4300 digits) for integer string conversion; " ++
      "use sys.set_int_max_str_digits() to increase the limit"

def digitLimit : Nat := 4300

/-- The least width whose half is out of range for a double: the half lies midway between the greatest
double and the power of two above it. -/
def widthLimit : Nat := Nat.pow 2 1025 - Nat.pow 2 971

def checkDigits (measure : Int) : Except SvgError Unit :=
  if Numeric.digitCount measure.natAbs ≤ digitLimit then .ok () else .error .tooManyDigits

/-- The vertical axis of a diagram, which is at half its width. -/
def axis (d : Diagram) : Except SvgError Float :=
  if d.width.natAbs < widthLimit then .ok (Numeric.nearestFloat (d.width < 0) d.width.natAbs 2)
  else .error .widthTooLarge

/-- A diagram as an SVG document. The opening tag of a chart is written before its axis is sought; a
notice has its axis first. -/
def svg (d : Diagram) : Except SvgError String :=
  match d.content with
  | .chart _ => do
    checkDigits d.width
    checkDigits d.height
    return d.document (← d.axis)
  | .notice _ _ => do
    let axis ← d.axis
    checkDigits d.width
    checkDigits d.height
    return d.document axis

/-- The ending of a file that holds an SVG document. -/
def svgExtension : String := ".svg"

end LeadSheet.Diagram
