/-!
# The style sheet of a page

A rule gives properties to the elements that a selector names. It is written on one line or, when
`broken`, with one property a line; rules for a medium are written inside it. Roles of elements are the
class names that a rendered body carries.
-/

namespace LeadSheet.Page

structure StyleRule where
  selector : String
  properties : List (String × String)
  broken : Bool := true

/-- A part of a style sheet: a rule, or rules for one medium. -/
inductive StylePart
  | rule (rule : StyleRule)
  | medium (query : String) (rules : List StyleRule)

/-- A line that is indented by a number of spaces. -/
def indented (depth : Nat) (line : String) : String :=
  String.ofList (List.replicate depth ' ') ++ line

namespace StyleRule

def lines (depth : Nat) (r : StyleRule) : List String :=
  let properties := r.properties.map fun (name, value) => name ++ ": " ++ value ++ ";"
  if r.broken then
    indented depth (r.selector ++ " \x7b") :: properties.map (indented (depth + 2)) ++
      [indented depth "\x7d"]
  else [indented depth (r.selector ++ " \x7b " ++ String.intercalate " " properties ++ " \x7d")]

end StyleRule

namespace StylePart

def lines (depth : Nat) : StylePart → List String
  | rule r => r.lines depth
  | medium query rules =>
    indented depth ("@media " ++ query ++ " \x7b") :: rules.flatMap (StyleRule.lines (depth + 2)) ++
      [indented depth "\x7d"]

end StylePart

/-- The style sheet of a page: light text on a dark ground on screen, and dark on light in print. -/
def styleSheet : List StylePart :=
  [.rule ⟨"*, *::before, *::after", [("box-sizing", "border-box")], false⟩,
    .rule ⟨"body",
      [("font-family", "system-ui, sans-serif"), ("background", "#111827"), ("color", "#f9fafb"),
        ("margin", "0 auto"), ("max-width", "960px"), ("padding", "2rem"), ("line-height", "1.7")],
      true⟩,
    .rule ⟨"h1", [("font-size", "1.8rem"), ("margin-bottom", "0.5rem")], false⟩,
    .rule ⟨".metadata",
      [("display", "grid"), ("grid-template-columns", "max-content 1fr"), ("gap", "0.25rem 1rem"),
        ("color", "#9ca3af")],
      true⟩,
    .rule ⟨".metadata dd", [("margin", "0"), ("color", "#f9fafb")], false⟩,
    .rule ⟨".chord-gallery",
      [("display", "flex"), ("gap", "1rem"), ("overflow-x", "auto"), ("padding-bottom", "1rem")],
      true⟩,
    .rule ⟨".chord-diagram", [("flex-shrink", "0")], false⟩,
    .rule ⟨".chord-inline",
      [("color", "#3b82f6"), ("font-weight", "600"), ("background", "#1f2937"),
        ("padding", "2px 6px"), ("border-radius", "4px"), ("margin", "0 2px"), ("font-size", "0.9em")],
      true⟩,
    .rule ⟨".section-label",
      [("color", "#facc15"), ("font-weight", "600"), ("text-transform", "uppercase"),
        ("letter-spacing", "0.05em"), ("border-left", "4px solid #facc15"),
        ("padding-left", "0.75rem"), ("margin", "1.5rem 0 0.5rem")],
      true⟩,
    .rule ⟨".chord-ref-line", [("margin-bottom", "0.5rem")], false⟩,
    .rule ⟨".chord-ref-line .chord-name", [("color", "#60a5fa"), ("font-weight", "600")], false⟩,
    .rule ⟨".chord-ref-line .chord-frets", [("font-family", "monospace"), ("color", "#d1d5db")], false⟩,
    .rule ⟨".tab-table", [("border-collapse", "collapse")], false⟩,
    .rule ⟨".tab-table th, .tab-table td",
      [("border", "1px solid #374151"), ("padding", "0.25rem 0.75rem")], false⟩,
    .rule ⟨"pre", [("background", "#1f2937"), ("padding", "1rem"), ("overflow-x", "auto")], false⟩,
    .rule ⟨"blockquote",
      [("border-left", "4px solid #4b5563"), ("margin", "0"), ("padding-left", "1rem"),
        ("color", "#d1d5db")],
      false⟩,
    .medium "print"
      [⟨"body", [("background", "#fff"), ("color", "#000"), ("padding", "0")], true⟩,
        ⟨".metadata dd", [("color", "#000")], false⟩,
        ⟨".chord-gallery", [("flex-wrap", "wrap"), ("page-break-after", "always")], true⟩]]

def styleLines : List String := styleSheet.flatMap (StylePart.lines 4)

end LeadSheet.Page
