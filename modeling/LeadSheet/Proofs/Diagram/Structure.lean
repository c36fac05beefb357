import LeadSheet.Proofs.Diagram.Characters
import LeadSheet.Proofs.Diagram.Geometry
import LeadSheet.Proofs.Markup.Elements

/-!
# The structure of a diagram

The SVG document of a diagram has one root, with a background in it and an element or two for everything that is
drawn. Its only text besides that of the notice is the name of the chord and the frets. The name is escaped, so
whatever it is, it stands in one place and changes nothing else (`ofPosition_svg`).

* `IsSvg s lines circles texts` : the text is a document with so many lines and circles, and with these texts;
* `Shape.toList_svg` : a shape is an element with attributes, from which its tags and its text are read
  (`Shape.reads_svg`);
* `isSvg_document` : a diagram is the document of its shapes;
* `Marker.counts_shapes`, `Chart.counts_shapes` : how many lines and circles a marker and a chart have, and their texts;
* `exists_around_name` : what stands around the name does not depend on it.
-/

namespace LeadSheet.Diagram

open Chord (Position)
open Markup (tags tagName elements Reads Nested linesText linesText_append toList_intercalate_lines)

/-! ## Documents -/

def elementCount (name : String) (s : List Char) : Nat := (tags s).countP fun tag => tagName tag = name.toList

/-- The text is an SVG document: one element `svg` with properly nested tags in it, so many lines and circles, and text
elements that hold just these texts, in order. -/
structure IsSvg (s : List Char) (lines circles : Nat) (texts : List (List Char)) : Prop where
  begins : "<svg ".toList <+: s
  ends : "</svg>".toList <:+ s
  root : ∃ opening inner, tags s = opening :: (inner ++ ["/svg".toList]) ∧ tagName opening = "svg".toList ∧
    opening.getLast? ≠ some '/' ∧ Nested inner
  count_svg : elementCount "svg" s = 1
  count_line : elementCount "line" s = lines
  count_circle : elementCount "circle" s = circles
  count_text : elementCount "text" s = texts.length
  texts : elements ["text".toList] s = texts.map fun text => ("text".toList, text)

/-! ## Tags with attributes -/

/-- Some attributes as they are written. -/
def attrs (attributes : List (String × String)) : List Char := attributes.flatMap fun a => (attr a.1 a.2).toList

/-- An opening tag without its brackets. -/
def openingTag (name : String) (attributes : List (String × String)) : List Char := name.toList ++ attrs attributes

section Tags

variable {name : String} {attributes : List (String × String)}

theorem toList_attr (name value : String) :
    (attr name value).toList = ' ' :: (name.toList ++ '=' :: '"' :: (value.toList ++ ['"'])) := by
  simp [attr, String.toList_append]

/-- An attribute ends the name of a tag. -/
theorem tagName_openingTag (hname : ' ' ∉ name.toList) (hne : attributes ≠ []) (rest : List Char) :
    tagName (openingTag name attributes ++ rest) = name.toList := by
  obtain ⟨a, attributes, rfl⟩ := List.exists_cons_of_ne_nil hne
  have hspaceless : ∀ c ∈ name.toList, (c != ' ') = true := fun c hc => bne_iff_ne.mpr fun heq => hname (heq ▸ hc)
  rw [openingTag, attrs, List.flatMap_cons, toList_attr, tagName, List.append_assoc,
    List.takeWhile_append_of_pos hspaceless]
  simp

theorem not_mem_openingTag (hname : '>' ∉ name.toList)
    (h : ∀ a ∈ attributes, '>' ∉ a.1.toList ∧ '>' ∉ a.2.toList) : '>' ∉ openingTag name attributes := by
  rw [openingTag, List.mem_append, not_or]
  refine ⟨hname, fun hmem => ?_⟩
  obtain ⟨a, ha, hmem⟩ := List.mem_flatMap.mp hmem
  rw [toList_attr] at hmem
  obtain ⟨hleft, hright⟩ := h a ha
  simp [hleft, hright] at hmem

theorem getLast?_openingTag (hne : attributes ≠ []) : (openingTag name attributes).getLast? = some '"' := by
  obtain ⟨front, a, rfl⟩ := (List.eq_nil_or_concat attributes).resolve_left hne
  have hend : (attr a.1 a.2).toList = ' ' :: (a.1.toList ++ '=' :: '"' :: a.2.toList) ++ ['"'] := by
    rw [toList_attr]
    simp
  rw [openingTag, attrs, List.concat_eq_append, List.flatMap_append, List.flatMap_singleton, hend, ← List.append_assoc,
    ← List.append_assoc, List.getLast?_concat]

end Tags

theorem ne_of_isNumeral (c : Char) (hc : isNumeral c = true) : c ≠ '>' := by
  rintro rfl
  exact absurd hc (by decide)

theorem not_mem_coordinate (x : Float) : '>' ∉ (Numeric.coordinate x).toList :=
  fun hmem => inks_coordinate ne_of_isNumeral x '>' hmem rfl

theorem not_mem_int (n : Int) : '>' ∉ (toString n).toList :=
  fun hmem => inks_int ne_of_isNumeral n '>' hmem rfl

/-! ## Shapes as elements -/

namespace Shape

def element : Shape → String
  | line .. => "line"
  | ring .. | disc .. => "circle"
  | text .. => "text"

def attributes : Shape → List (String × String)
  | line x₁ y₁ x₂ y₂ stroke weight =>
    [("x1", Numeric.coordinate x₁), ("y1", Numeric.coordinate y₁), ("x2", Numeric.coordinate x₂),
      ("y2", Numeric.coordinate y₂), ("stroke", stroke), ("stroke-width", weight)]
  | ring x y stroke =>
    [("cx", Numeric.coordinate x), ("cy", Numeric.coordinate y), ("r", "5"), ("fill", "none"), ("stroke", stroke),
      ("stroke-width", "2")]
  | disc x y fill =>
    [("cx", Numeric.coordinate x), ("cy", Numeric.coordinate y), ("r", "7"), ("fill", fill), ("stroke", fill)]
  | text x y fill size bold _ =>
    [("x", Numeric.coordinate x), ("y", Numeric.coordinate y), ("text-anchor", "middle"), ("fill", fill),
      ("font-family", "sans-serif"), ("font-size", size)] ++ if bold then [("font-weight", "600")] else []

/-- What the element holds; a shape that shows no text holds nothing. -/
def content? : Shape → Option String
  | text _ _ _ _ _ content => some content
  | _ => none

def inside (shape : Shape) : List Char :=
  openingTag shape.element shape.attributes ++ if shape.content?.isSome then [] else ['/']

def tags (shape : Shape) : List (List Char) :=
  shape.inside :: if shape.content?.isSome then ['/' :: shape.element.toList] else []

/-- The text of the element, if it has one, as it stands in a document. -/
def contents (shape : Shape) : List (List Char) := shape.content?.toList.map fun content => Text.escape content.toList

/-- A shape is an element with its attributes. -/
theorem toList_svg (shape : Shape) :
    shape.svg.toList = '<' :: shape.inside ++ '>' :: shape.content?.elim [] fun content =>
      Text.escape content.toList ++ '<' :: '/' :: shape.element.toList ++ ['>'] := by
  unfold svg
  cases shape with
  | line => simp [inside, openingTag, element, attributes, attrs, content?, String.toList_append]
  | ring => simp [inside, openingTag, element, attributes, attrs, content?, String.toList_append]
  | disc => simp [inside, openingTag, element, attributes, attrs, content?, String.toList_append]
  | text x y fill size bold content =>
    cases bold with
    | false => simp [inside, openingTag, element, attributes, attrs, content?, String.toList_append, Text.escapeString]
    | true => simp [inside, openingTag, element, attributes, attrs, content?, String.toList_append, Text.escapeString]

theorem attributes_ne_nil (shape : Shape) : shape.attributes ≠ [] := by cases shape <;> simp [attributes]

theorem isSome_content?_iff {shape : Shape} : shape.content?.isSome = true ↔ shape.element = "text" := by
  cases shape <;> simp [content?, element]

theorem element_plain (shape : Shape) :
    ' ' ∉ shape.element.toList ∧ '>' ∉ shape.element.toList ∧ shape.element.toList.head?.any (· != '/') = true := by
  cases shape <;> simp [element]

theorem tagName_inside (shape : Shape) : tagName shape.inside = shape.element.toList :=
  tagName_openingTag shape.element_plain.1 shape.attributes_ne_nil _

/-- No value of an attribute ends the tag. -/
def Plain (shape : Shape) : Prop := ∀ a ∈ shape.attributes, '>' ∉ a.2.toList

theorem Plain.not_mem_inside {shape : Shape} (h : shape.Plain) : '>' ∉ shape.inside := by
  have hnames : ∀ a ∈ shape.attributes, '>' ∉ a.1.toList := by
    cases shape with
    | text x y fill size bold content => cases bold <;> simp [attributes]
    | _ => simp [attributes]
  rw [inside, List.mem_append, not_or]
  refine ⟨not_mem_openingTag shape.element_plain.2.1 fun a ha => ⟨hnames a ha, h a ha⟩, ?_⟩
  split <;> simp

/-- The tags and the text of a shape. -/
theorem reads_svg {shape : Shape} (h : shape.Plain) :
    Reads ["text".toList] shape.svg.toList shape.tags (shape.contents.map fun content => ("text".toList, content)) := by
  rw [toList_svg, tags, contents]
  cases hcontent : shape.content? with
  | none =>
      have hname : tagName shape.inside ∉ ["text".toList] := by
        rw [tagName_inside, List.mem_singleton, String.toList_inj, ← isSome_content?_iff, hcontent]
        simp
      exact .tag h.not_mem_inside hname
  | some content =>
      have hname : shape.element = "text" := isSome_content?_iff.mp (by rw [hcontent]; rfl)
      have htag : tagName shape.inside = "text".toList := by rw [tagName_inside, hname]
      have hreads := @Reads.element ["text".toList] shape.inside (Text.escape content.toList) h.not_mem_inside
        (by rw [htag]; exact List.mem_singleton_self _) (by rw [htag]; decide) (Markup.not_mem_escape content.toList)
      rw [htag] at hreads
      simpa [hname] using hreads

theorem nested_tags (shape : Shape) : Nested shape.tags := by
  have hhead : shape.inside.head? ≠ some '/' := by
    obtain ⟨c, hc, hne⟩ := (Option.any_eq_true _ _).mp shape.element_plain.2.2
    rw [inside, openingTag, List.append_assoc, List.head?_append, hc, Option.some_or]
    simpa using hne
  rw [tags]
  cases hcontent : shape.content? with
  | none =>
      refine .empty hhead ?_ .nil
      rw [inside, hcontent]
      exact List.getLast?_concat
  | some content =>
      have hlast : shape.inside.getLast? ≠ some '/' := by
        rw [inside, hcontent]
        simp [getLast?_openingTag shape.attributes_ne_nil]
      have hnested := Nested.element hhead hlast .nil .nil
      rwa [tagName_inside] at hnested

/-- A shape is one element. -/
theorem countP_tags (shape : Shape) {name : String} (hname : name.toList.head? ≠ some '/') :
    shape.tags.countP (fun tag => tagName tag = name.toList) = if shape.element = name then 1 else 0 := by
  have hclosing : tagName ('/' :: shape.element.toList) ≠ name.toList := by
    intro heq
    rw [← heq, tagName, List.takeWhile_cons, if_pos (by decide)] at hname
    exact hname rfl
  have hclosings : (if shape.content?.isSome then ['/' :: shape.element.toList] else []).countP
      (fun tag => tagName tag = name.toList) = 0 := by
    split
    · simp [hclosing]
    · rfl
  rw [tags, List.countP_cons, hclosings, tagName_inside, Nat.zero_add]
  simp only [String.toList_inj, decide_eq_true_eq]

theorem countP_flatMap_tags (shapes : List Shape) {name : String} (hname : name.toList.head? ≠ some '/') :
    (shapes.flatMap tags).countP (fun tag => tagName tag = name.toList) =
      shapes.countP fun shape => shape.element = name := by
  induction shapes with
  | nil => rfl
  | cons shape shapes ih =>
      rw [List.flatMap_cons, List.countP_append, shape.countP_tags hname, ih, List.countP_cons, Nat.add_comm]
      simp

end Shape

/-! ## Diagrams as documents -/

def rootTag (width height : Int) : List Char :=
  openingTag "svg" [("width", toString width), ("height", toString height),
    ("viewBox", s!"0 0 {width} {height}"), ("xmlns", "http://www.w3.org/2000/svg")]

def backgroundTag : List Char :=
  openingTag "rect" [("width", "100%"), ("height", "100%"), ("fill", Colour.background), ("rx", "8"),
    ("stroke", Colour.border), ("stroke-width", "1")] ++ ['/']

theorem toList_svgOpening (width height : Int) :
    (svgOpening width height).toList = '<' :: rootTag width height ++ ['>'] := by
  unfold svgOpening
  simp [rootTag, openingTag, attrs, String.toList_append]

theorem toList_svgBackground : svgBackground.toList = '<' :: backgroundTag ++ ['>'] := by
  unfold svgBackground
  simp [backgroundTag, openingTag, attrs, String.toList_append]

theorem tagName_rootTag (width height : Int) : tagName (rootTag width height) = "svg".toList := by
  rw [← List.append_nil (rootTag width height), rootTag, tagName_openingTag (by decide) (by simp)]

theorem not_mem_rootTag (width height : Int) : '>' ∉ rootTag width height := by
  have hviewBox : '>' ∉ ("0 0 " ++ toString width ++ " " ++ toString height).toList := by
    simp only [String.toList_append, List.mem_append, not_or]
    exact ⟨⟨⟨by decide, not_mem_int width⟩, by decide⟩, not_mem_int height⟩
  refine not_mem_openingTag (by decide) ?_
  simp only [List.forall_mem_cons]
  exact ⟨⟨by decide, not_mem_int width⟩, ⟨by decide, not_mem_int height⟩, ⟨by decide, hviewBox⟩,
    ⟨by decide, by decide⟩, List.forall_mem_nil _⟩

theorem not_mem_backgroundTag : '>' ∉ backgroundTag := by
  rw [backgroundTag, List.mem_append, not_or]
  exact ⟨not_mem_openingTag (by decide) (by decide), by decide⟩

theorem nested_backgroundTag : Nested [backgroundTag] := .empty (by decide) (by decide) .nil

section Documents

variable {d : Diagram} {axis : Float}

/-- The lines of the document one after the other. -/
theorem toList_document (d : Diagram) (axis : Float) :
    (d.document axis).toList = linesText [svgOpening d.width d.height] ++ linesText [svgBackground] ++
      linesText ((d.shapes axis).map Shape.svg) ++ "</svg>".toList := by
  rw [document, toList_intercalate_lines, ← linesText_append, ← linesText_append]
  rfl

/-- The tags and the texts of the document. -/
theorem reads_document (h : ∀ shape ∈ d.shapes axis, shape.Plain) :
    Reads ["text".toList] (d.document axis).toList
      (rootTag d.width d.height :: (backgroundTag :: (d.shapes axis).flatMap Shape.tags ++ ["/svg".toList]))
      (((d.shapes axis).flatMap Shape.contents).map fun content => ("text".toList, content)) := by
  have hroot : Reads ["text".toList] (svgOpening d.width d.height).toList [rootTag d.width d.height] [] := by
    have hname : tagName (rootTag d.width d.height) ∉ ["text".toList] := by
      rw [tagName_rootTag]
      decide
    rw [toList_svgOpening]
    exact .tag (not_mem_rootTag _ _) hname
  have hbackground : Reads ["text".toList] svgBackground.toList [backgroundTag] [] := by
    rw [toList_svgBackground]
    exact .tag not_mem_backgroundTag (by decide)
  have hshapes := Reads.lines fun shape hshape => Shape.reads_svg (h shape hshape)
  have hend : Reads ["text".toList] "</svg>".toList ["/svg".toList] [] :=
    @Reads.tag ["text".toList] "/svg".toList (by decide) (by decide)
  have hall := ((hroot.line.append hbackground.line).append hshapes).append hend
  rw [toList_document]
  simpa [List.map_flatMap] using hall

theorem Shape.element_ne_svg (shape : Shape) : shape.element ≠ "svg" := by cases shape <;> simp [element]

theorem Shape.length_contents (shapes : List Shape) :
    (shapes.flatMap contents).length = shapes.countP fun shape => shape.element = "text" := by
  induction shapes with
  | nil => rfl
  | cons shape shapes ih =>
      have hone : shape.contents.length = if shape.element = "text" then 1 else 0 := by
        cases shape <;> simp [contents, content?, element]
      rw [List.flatMap_cons, List.length_append, ih, hone, List.countP_cons, Nat.add_comm]
      simp only [decide_eq_true_eq]

/-- The root and the background come before the shapes, whose elements have other names. -/
theorem elementCount_document (h : ∀ shape ∈ d.shapes axis, shape.Plain) {name : String}
    (hname : name.toList.head? ≠ some '/') :
    elementCount name (d.document axis).toList = (if name = "svg" then 1 else 0) + (if name = "rect" then 1 else 0) +
      (d.shapes axis).countP fun shape => shape.element = name := by
  have hbackground : tagName backgroundTag = "rect".toList := by decide
  have hclosing : tagName "/svg".toList ≠ name.toList := by
    intro heq
    exact hname (heq ▸ rfl)
  rw [elementCount, (reads_document h).tags_eq, List.countP_cons, List.cons_append, List.countP_cons, List.countP_append,
    Shape.countP_flatMap_tags (d.shapes axis) hname, tagName_rootTag, hbackground]
  simp only [String.toList_inj, decide_eq_true_eq, List.countP_singleton, hclosing, if_false, @eq_comm _ name]
  omega

/-- A diagram is the document of its shapes. -/
theorem isSvg_document (h : ∀ shape ∈ d.shapes axis, shape.Plain) :
    IsSvg (d.document axis).toList ((d.shapes axis).countP fun shape => shape.element = "line")
      ((d.shapes axis).countP fun shape => shape.element = "circle") ((d.shapes axis).flatMap Shape.contents) where
  begins := by
    have hroot : "<svg ".toList <+: '<' :: rootTag d.width d.height := by
      rw [rootTag, openingTag, attrs, List.flatMap_cons, toList_attr]
      exact ⟨_, rfl⟩
    rw [toList_document, linesText, List.flatMap_singleton, toList_svgOpening]
    simp only [List.append_assoc]
    exact hroot.trans (List.prefix_append _ _)
  ends := by
    rw [toList_document]
    exact List.suffix_append _ _
  root := by
    refine ⟨_, _, (reads_document h).tags_eq, tagName_rootTag _ _, ?_, ?_⟩
    · rw [rootTag, getLast?_openingTag (by simp)]
      decide
    · rw [← List.singleton_append]
      exact nested_backgroundTag.append (.flatMap fun shape _ => shape.nested_tags)
  count_svg := by
    have hnone : (d.shapes axis).countP (fun shape => shape.element = "svg") = 0 :=
      List.countP_eq_zero.mpr fun shape _ => by simp [shape.element_ne_svg]
    rw [elementCount_document h (by decide), hnone]
    rfl
  count_line := by
    rw [elementCount_document h (by decide)]
    exact Nat.zero_add _
  count_circle := by
    rw [elementCount_document h (by decide)]
    exact Nat.zero_add _
  count_text := by
    rw [elementCount_document h (by decide), Shape.length_contents]
    exact Nat.zero_add _
  texts := (reads_document h).elements_eq

end Documents

/-! ## The shapes of a diagram -/

section Plain

variable {stroke weight fill size : String}

theorem Shape.plain_line (hstroke : '>' ∉ stroke.toList) (hweight : '>' ∉ weight.toList) (x₁ y₁ x₂ y₂ : Float) :
    (Shape.line x₁ y₁ x₂ y₂ stroke weight).Plain := by
  simp [Plain, attributes, not_mem_coordinate, hstroke, hweight]

theorem Shape.plain_ring (hstroke : '>' ∉ stroke.toList) (x y : Float) : (Shape.ring x y stroke).Plain := by
  simp [Plain, attributes, not_mem_coordinate, hstroke]

theorem Shape.plain_disc (hfill : '>' ∉ fill.toList) (x y : Float) : (Shape.disc x y fill).Plain := by
  simp [Plain, attributes, not_mem_coordinate, hfill]

theorem Shape.plain_text (hfill : '>' ∉ fill.toList) (hsize : '>' ∉ size.toList) (x y : Float) (bold : Bool)
    (content : String) : (Shape.text x y fill size bold content).Plain := by
  cases bold <;> simp [Plain, attributes, not_mem_coordinate, hfill, hsize]

theorem plain_gridShape (hstroke : '>' ∉ stroke.toList) (line : GridLine) : (gridShape stroke line).Plain :=
  Shape.plain_line hstroke (not_mem_coordinate _) _ _ _ _

end Plain

namespace Marker

def fret? (m : Marker) : Option Nat :=
  match m.mark with
  | .fretted fret _ => some fret
  | _ => none

theorem plain_shapes (m : Marker) : ∀ shape ∈ m.shapes, shape.Plain := by
  rw [shapes]
  split
  · exact List.forall_mem_cons.mpr ⟨Shape.plain_line (by decide) (by decide) _ _ _ _,
      List.forall_mem_singleton.mpr (Shape.plain_line (by decide) (by decide) _ _ _ _)⟩
  · exact List.forall_mem_singleton.mpr (Shape.plain_ring (by decide) _ _)
  · exact List.forall_mem_cons.mpr ⟨Shape.plain_disc (by decide) _ _,
      List.forall_mem_singleton.mpr (Shape.plain_text (by decide) (by decide) _ _ _ _)⟩

theorem escape_digits (n : Nat) : Text.escape (Nat.toDigits 10 n) = Nat.toDigits 10 n := by
  refine Text.escape_of_plain (List.all_eq_true.mpr fun c hc => ?_)
  exact Text.isPlain_of_class (p := Char.isDigit) (by decide) (Nat.isDigit_of_mem_toDigits (by decide) (by decide) hc)

/-- A muted string has two lines, any other a circle, and one that is held down has its fret in addition. -/
theorem counts_shapes (m : Marker) :
    m.shapes.countP (fun shape => shape.element = "line") = (if m.mark = .muted then 2 else 0) ∧
      m.shapes.countP (fun shape => shape.element = "circle") =
        (if m.mark = .opened then 1 else 0) + m.fret?.toList.length ∧
      m.shapes.flatMap Shape.contents = m.fret?.toList.map fun fret => (toString fret).toList := by
  cases hmark : m.mark with
  | muted => simp [shapes, fret?, hmark, Shape.element, Shape.contents, Shape.content?]
  | opened => simp [shapes, fret?, hmark, Shape.element, Shape.contents, Shape.content?]
  | fretted fret row => simp [shapes, fret?, hmark, Shape.element, Shape.contents, Shape.content?, escape_digits]

def frets (ms : List Marker) : List Nat := ms.filterMap fret?

theorem frets_cons (m : Marker) (ms : List Marker) : frets (m :: ms) = m.fret?.toList ++ frets ms := by
  rw [frets, List.filterMap_cons]
  cases m.fret? <;> rfl

theorem counts_flatMap_shapes (ms : List Marker) :
    (ms.flatMap shapes).countP (fun shape => shape.element = "line") = 2 * ms.countP (fun m => m.mark = .muted) ∧
      (ms.flatMap shapes).countP (fun shape => shape.element = "circle") =
        ms.countP (fun m => m.mark = .opened) + (frets ms).length ∧
      (ms.flatMap shapes).flatMap Shape.contents = (frets ms).map fun fret => (toString fret).toList := by
  induction ms with
  | nil => exact ⟨rfl, rfl, rfl⟩
  | cons m ms ih =>
      obtain ⟨hlines, hcircles, htexts⟩ := ih
      obtain ⟨hline, hcircle, htext⟩ := m.counts_shapes
      simp only [List.flatMap_cons, List.countP_append, List.flatMap_append, List.countP_cons, frets_cons,
        List.length_append, List.map_append, decide_eq_true_eq, hlines, hcircles, htexts, hline, hcircle, htext]
      refine ⟨?_, by omega, trivial⟩
      split <;> omega

end Marker

namespace Chart

variable (c : Chart)

/-- The grid is drawn as lines. -/
theorem exists_grid : ∃ grid, c.shapes = grid ++ c.markers.flatMap Marker.shapes ∧
    grid.length = c.strings.length + c.frets.length ∧
    ∀ shape ∈ grid, ∃ stroke line, '>' ∉ stroke.toList ∧ shape = gridShape stroke line := by
  refine ⟨_, rfl, by rw [List.length_append, List.length_map, List.length_mapIdx], fun shape hshape => ?_⟩
  rcases List.mem_append.mp hshape with hshape | hshape
  · obtain ⟨line, -, rfl⟩ := List.mem_map.mp hshape
    exact ⟨_, line, by decide, rfl⟩
  · obtain ⟨i, hi, rfl⟩ := List.mem_mapIdx.mp hshape
    refine ⟨_, _, ?_, rfl⟩
    split <;> decide

theorem plain_shapes : ∀ shape ∈ c.shapes, shape.Plain := by
  obtain ⟨grid, hshapes, -, hgrid⟩ := c.exists_grid
  rw [hshapes]
  refine List.forall_mem_append.mpr ⟨fun shape hshape => ?_, fun shape hshape => ?_⟩
  · obtain ⟨stroke, line, hstroke, rfl⟩ := hgrid shape hshape
    exact plain_gridShape hstroke line
  · obtain ⟨m, -, hshape⟩ := List.mem_flatMap.mp hshape
    exact m.plain_shapes shape hshape

/-- A chart has a line for each string and each fret line, and the shapes of its markers. -/
theorem counts_shapes :
    c.shapes.countP (fun shape => shape.element = "line") =
        c.strings.length + c.frets.length + 2 * c.markers.countP (fun m => m.mark = .muted) ∧
      c.shapes.countP (fun shape => shape.element = "circle") =
        c.markers.countP (fun m => m.mark = .opened) + (Marker.frets c.markers).length ∧
      c.shapes.flatMap Shape.contents = (Marker.frets c.markers).map fun fret => (toString fret).toList := by
  obtain ⟨hlines, hcircles, htexts⟩ := Marker.counts_flatMap_shapes c.markers
  obtain ⟨grid, hshapes, hlength, hgrid⟩ := c.exists_grid
  have hline : ∀ shape ∈ grid, shape.element = "line" ∧ shape.contents = [] := by
    intro shape hshape
    obtain ⟨stroke, line, -, rfl⟩ := hgrid shape hshape
    exact ⟨rfl, rfl⟩
  have hgridlines : grid.countP (fun shape => shape.element = "line") = grid.length :=
    List.countP_eq_length.mpr fun shape hshape => decide_eq_true (hline shape hshape).1
  have hgridcircles : grid.countP (fun shape => shape.element = "circle") = 0 :=
    List.countP_eq_zero.mpr fun shape hshape => by simp [(hline shape hshape).1]
  have hgridtexts : grid.flatMap Shape.contents = [] :=
    List.flatMap_eq_nil_iff.mpr fun shape hshape => (hline shape hshape).2
  rw [hshapes, List.countP_append, List.countP_append, List.flatMap_append, hlines, hcircles, htexts, hgridlines,
    hgridcircles, hgridtexts, hlength]
  exact ⟨rfl, Nat.zero_add _, rfl⟩

end Chart

/-- A diagram without a fingering is a document of three texts. -/
theorem isSvg_notFound (l : Layout) (name : String) (axis : Float) :
    IsSvg ((notFound l name).document axis).toList 0 0
      [Text.escape name.toList, "Chord not found".toList, "in database".toList] := by
  have hplain : ∀ shape ∈ (notFound l name).shapes axis, shape.Plain := by
    refine List.forall_mem_cons.mpr ⟨?_, List.forall_mem_cons.mpr ⟨?_, List.forall_mem_singleton.mpr ?_⟩⟩
    · exact Shape.plain_text (by decide) (by decide) _ _ _ _
    · exact Shape.plain_text (by decide) (by decide) _ _ _ _
    · exact Shape.plain_text (by decide) (by decide) _ _ _ _
  exact isSvg_document hplain

/-- A chart is a document of its grid and its markers. -/
theorem isSvg_chart (name : String) (width height : Int) (c : Chart) (axis : Float) :
    IsSvg ((Diagram.mk name width height (.chart c)).document axis).toList
      (c.strings.length + c.frets.length + 2 * c.markers.countP fun m => m.mark = .muted)
      ((c.markers.countP fun m => m.mark = .opened) + (Marker.frets c.markers).length)
      (Text.escape name.toList :: (Marker.frets c.markers).map fun fret => (toString fret).toList) := by
  have hplain : ∀ shape ∈ (Diagram.mk name width height (.chart c)).shapes axis, shape.Plain :=
    List.forall_mem_cons.mpr ⟨Shape.plain_text (by decide) (by decide) _ _ _ _, c.plain_shapes⟩
  obtain ⟨hlines, hcircles, htexts⟩ := c.counts_shapes
  rw [← hlines, ← hcircles, ← htexts]
  exact isSvg_document hplain

/-- The name of a diagram stands in one place, which is the same for every name. -/
theorem exists_around_name (d : Diagram) (axis : Float) :
    ∃ before after, ∀ name,
      ({ d with name } : Diagram).document axis = before ++ Text.escapeString name ++ after := by
  obtain ⟨y, fill, size, others, hshapes⟩ : ∃ y fill size others, ∀ name,
      ({ d with name } : Diagram).shapes axis = .text axis y fill size true name :: others := by
    unfold shapes
    cases d.content with
    | chart c => exact ⟨_, _, _, c.shapes, fun _ => rfl⟩
    | notice first second =>
        exact ⟨_, _, _, [.text axis 80 Colour.faint "10" false first, .text axis 95 Colour.faint "10" false second],
          fun _ => rfl⟩
  obtain ⟨opening, hopening⟩ : ∃ opening, ∀ name,
      (Shape.text axis y fill size true name).svg = opening ++ Text.escapeString name ++ "</text>" := ⟨_, fun _ => rfl⟩
  obtain ⟨next, more, hrest⟩ : ∃ next more, others.map Shape.svg ++ ["</svg>"] = next :: more :=
    List.exists_cons_of_ne_nil (by simp)
  refine ⟨svgOpening d.width d.height ++ "\n" ++ (svgBackground ++ "\n" ++ opening),
    "</text>" ++ "\n" ++ String.intercalate "\n" (next :: more), fun name => ?_⟩
  rw [document, hshapes, List.map_cons, hopening, List.cons_append, List.cons_append, List.cons_append, hrest,
    String.intercalate_cons_cons, String.intercalate_cons_cons, String.intercalate_cons_cons]
  simp only [String.append_assoc]

/-- The diagram of a chord is a document that the name changes in one place only, where it stands escaped. A chart
shows in addition the fret of each string that is held down, in the order of the strings; without a fingering there is
a notice. There is a document just when half the width is a double and the height has not too many digits. -/
theorem ofPosition_svg (l : Layout) :
    (Measured l.width l.height →
      (∃ before after, ∀ name, ∃ d s, ofPosition l name none = .ok d ∧ d.svg = .ok s ∧
        s = before ++ Text.escapeString name ++ after ∧
        IsSvg s.toList 0 0 [Text.escape name.toList, "Chord not found".toList, "in database".toList]) ∧
      ∀ position : Position, ¬ Xor (l.stringCount ≤ 0) (l.visibleFrets ≤ -1) →
        ∃ c before after, c.markers.Pairwise (fun m m' => m.string < m'.string) ∧
          ∀ name, ∃ d s, ofPosition l name (some position) = .ok d ∧ d.content = .chart c ∧ d.svg = .ok s ∧
            s = before ++ Text.escapeString name ++ after ∧
            IsSvg s.toList (c.strings.length + c.frets.length + 2 * c.markers.countP fun m => m.mark = .muted)
              ((c.markers.countP fun m => m.mark = .opened) + (Marker.frets c.markers).length)
              (Text.escape name.toList :: (Marker.frets c.markers).map fun fret => (toString fret).toList)) ∧
    (¬ Measured l.width l.height →
      ∀ name position d, ofPosition l name position = .ok d → ∃ e, d.svg = .error e) := by
  refine ⟨fun hmeasured => ⟨?_, ?_⟩, fun hmeasured name position d hd => ?_⟩
  · obtain ⟨before, after, haround⟩ := exists_around_name (notFound l "") (middle l.width)
    exact ⟨before, after, fun name => ⟨notFound l name, _, rfl, svg_of_measured hmeasured, haround name,
      isSvg_notFound l name _⟩⟩
  · intro position hgrid
    obtain ⟨c, hc⟩ := (@exists_chart_iff l position).mpr (hasGrid_iff.mpr hgrid)
    obtain ⟨before, after, haround⟩ := exists_around_name ⟨"", l.width, l.height, .chart c⟩ (middle l.width)
    obtain ⟨-, -, hmarkers⟩ := chart_eq_ok_iff.mp hc
    refine ⟨c, before, after, hmarkers ▸ pairwise_markersFrom l 0 l.stringXs position.frets.toList, fun name => ?_⟩
    exact ⟨_, _, ofPosition_some_eq_ok_iff.mpr ⟨c, hc, rfl⟩, rfl, svg_of_measured hmeasured, haround name,
      isSvg_chart name l.width l.height c _⟩
  · rcases ofPosition_eq_ok hd with ⟨-, rfl⟩ | ⟨position, c, -, -, rfl⟩
    · exact exists_error_of_not_measured hmeasured
    · exact exists_error_of_not_measured hmeasured

/-- A layout whose width has no half that is a double. -/
def wide : Layout := { width := Nat.pow 10 400 }

theorem not_measured_wide : ¬ Measured wide.width wide.height := by decide +kernel

theorem ofPosition_svg_muted :
    Measured ({} : Layout).width ({} : Layout).height ∧
      ¬ Xor (({} : Layout).stringCount ≤ 0) (({} : Layout).visibleFrets ≤ -1) ∧
      (∃ d s, ofPosition {} "<b>" (some ⟨"x3201f"⟩) = .ok d ∧ d.svg = .ok s ∧
        IsSvg s.toList 13 5 ["&lt;b&gt;".toList, "3".toList, "2".toList, "1".toList, "15".toList]) ∧
      ¬ Measured wide.width wide.height ∧ ∃ e, (notFound wide "C").svg = .error e := by
  have hgrid : ¬ Xor (({} : Layout).stringCount ≤ 0) (({} : Layout).visibleFrets ≤ -1) := by decide
  obtain ⟨c, before, after, -, hnames⟩ := ((ofPosition_svg {}).1 measured_default).2 ⟨"x3201f"⟩ hgrid
  obtain ⟨d, s, hd, hc, hs, -, hsvg⟩ := hnames "<b>"
  have hdrawn : ∃ c, d.content = .chart c ∧ c.strings.length = 6 ∧ c.frets.length = 5 ∧
      (c.markers.countP fun m => m.mark = .muted) = 1 ∧ (c.markers.countP fun m => m.mark = .opened) = 1 ∧
      Marker.frets c.markers = [3, 2, 1, 15] := by
    obtain rfl := Except.ok.inj hd
    exact ⟨_, rfl, by decide +kernel, by decide +kernel, by decide +kernel, by decide +kernel, by decide +kernel⟩
  obtain ⟨c', hc', hstrings, hfrets, hmuted, hopened, hheld⟩ := hdrawn
  obtain rfl : c' = c := Content.chart.inj (hc'.symm.trans hc)
  rw [hstrings, hfrets, hmuted, hopened, hheld] at hsvg
  exact ⟨measured_default, hgrid, ⟨d, s, hd, hs, hsvg⟩, not_measured_wide,
    (ofPosition_svg wide).2 not_measured_wide "C" none _ rfl⟩

/-- A diagram that is too wide has no document, whatever its grid. -/
theorem not_svg_of_wide :
    ¬ Xor (wide.stringCount ≤ 0) (wide.visibleFrets ≤ -1) ∧
      ∃ d, ofPosition wide "C" (some ⟨"x32010"⟩) = .ok d ∧ d.svg = .error .widthTooLarge := by
  have hgrid : ¬ Xor (wide.stringCount ≤ 0) (wide.visibleFrets ≤ -1) := by decide
  have hdigits : Numeric.digitCount wide.width.natAbs ≤ digitLimit ∧
      Numeric.digitCount wide.height.natAbs ≤ digitLimit := by decide +kernel
  obtain ⟨c, hc⟩ := (@exists_chart_iff wide ⟨"x32010"⟩).mpr (hasGrid_iff.mpr hgrid)
  refine ⟨hgrid, _, ofPosition_some_eq_ok_iff.mpr ⟨c, hc, rfl⟩, ?_⟩
  rw [svg_chart_eq_error rfl not_measured_wide, if_pos hdigits]

end LeadSheet.Diagram
