import LeadSheet.Proofs.Diagram.Measures
import LeadSheet.Proofs.Scan
import Mathlib.Tactic.Common

/-!
# The characters of a diagram

An SVG document consists of printable ASCII characters and line feeds, but for the texts that it carries. So what holds
of these characters and of the name of the chord holds of the whole document.

* `isInk` : a printable ASCII character or a line feed;
* `isNumeral` : a character of the text of a number;
* `Inks p s` : every character of a text has a property, which those have that are ink;
* `inks_coordinate` : the text of a number has no characters but its own;
* `inks_svg_of_ofName` : the diagram of a chord consists of ink and of the characters of its name;
* `name_infix_document` : the name stands in it, escaped.
-/

namespace LeadSheet.Diagram

/-! ## Ink -/

/-- A printable ASCII character or a line feed. -/
def isInk (c : Char) : Bool := c == '\n' || (' ' ≤ c && c ≤ '~')

theorem isInk_of_isDigit {c : Char} (h : c.isDigit = true) : isInk c = true := by
  rw [Char.isDigit, Bool.and_eq_true, decide_eq_true_eq, decide_eq_true_eq] at h
  rw [isInk, Bool.or_eq_true, Bool.and_eq_true, decide_eq_true_eq, decide_eq_true_eq]
  refine Or.inr ⟨?_, ?_⟩
  · exact Char.le_trans (by decide : ' ' ≤ '0') h.1
  · exact Char.le_trans h.2 (by decide : '9' ≤ '~')

/-- A character of the text of a number, be it infinite or none at all. -/
def isNumeral (c : Char) : Bool := c.isDigit || ['-', '+', '.', 'e', 'i', 'n', 'f', 'a'].contains c

theorem isInk_of_isNumeral {c : Char} (h : isNumeral c = true) : isInk c = true := by
  rw [isNumeral, Bool.or_eq_true, List.contains_iff_mem] at h
  rcases h with h | h
  · exact isInk_of_isDigit h
  · exact List.all_eq_true.mp (by decide : ['-', '+', '.', 'e', 'i', 'n', 'f', 'a'].all isInk = true) c h

def Inks (p : Char → Prop) (s : String) : Prop := ∀ c ∈ s.toList, p c

/-- A diagram is a notice that there is no fingering, or the chart of one. -/
theorem ofPosition_eq_ok {l : Layout} {name : String} {position? : Option Chord.Position} {d : Diagram}
    (h : ofPosition l name position? = .ok d) :
    (position? = none ∧ d = notFound l name) ∨
      ∃ position c, position? = some position ∧ chart l position = .ok c ∧
        d = ⟨name, l.width, l.height, .chart c⟩ := by
  cases position? with
  | none => exact Or.inl ⟨rfl, (Except.ok.inj h).symm⟩
  | some position =>
      rw [ofPosition] at h
      cases hchart : chart l position with
      | error e => rw [hchart] at h; exact absurd h (by simp [bind, Except.bind])
      | ok c =>
          rw [hchart] at h
          exact Or.inr ⟨position, c, rfl, hchart, (Except.ok.inj h).symm⟩

theorem name_of_ofName {l : Layout} {db : Chord.Database} {name : List Char} {d : Diagram}
    (h : ofName l db name = .ok d) : d.name = String.ofList name := by
  rcases ofPosition_eq_ok h with ⟨-, rfl⟩ | ⟨position, c, -, -, rfl⟩
  · rfl
  · rfl

section Texts

variable {p : Char → Prop} {s u : String}

theorem Inks.append (hs : Inks p s) (hu : Inks p u) : Inks p (s ++ u) := by
  intro c hc
  rw [String.toList_append, List.mem_append] at hc
  exact hc.elim (hs c) (hu c)

theorem inks_ofList {l : List Char} (h : ∀ c ∈ l, p c) : Inks p (String.ofList l) := by
  rwa [Inks, String.toList_ofList]

theorem inks_ite {q : Prop} [Decidable q] (hs : Inks p s) (hu : Inks p u) : Inks p (if q then s else u) := by
  split
  · exact hs
  · exact hu

theorem inks_intercalate (hs : Inks p s) {l : List String} (hl : ∀ u ∈ l, Inks p u) :
    Inks p (String.intercalate s l) := by
  induction l with
  | nil => exact fun c hc => absurd hc (by simp)
  | cons u l ih =>
      obtain ⟨hu, hl⟩ := List.forall_mem_cons.mp hl
      cases l with
      | nil => rwa [String.intercalate_singleton]
      | cons u' l =>
          rw [String.intercalate_cons_cons]
          exact (hu.append hs).append (ih hl)

/-! ## Numbers -/

section Numbers

variable (hn : ∀ c, isNumeral c = true → p c)

include hn

/-- A text of characters that numbers have. -/
theorem inks_of_isNumeral (h : s.toList.all isNumeral = true) : Inks p s :=
  fun c hc => hn c (List.all_eq_true.mp h c hc)

theorem toDigits_inks (n : Nat) : ∀ c ∈ Nat.toDigits 10 n, p c := fun c hc =>
  hn c (by simp [isNumeral, Nat.isDigit_of_mem_toDigits (by decide) (by decide) hc])

theorem inks_nat (n : Nat) : Inks p (toString n) := by
  intro c hc
  rw [Nat.toString_eq_repr, Nat.toList_repr] at hc
  exact toDigits_inks hn n c hc

theorem inks_int (n : Int) : Inks p (toString n) := by
  cases n with
  | ofNat m => exact inks_nat hn m
  | negSucc m => exact (inks_of_isNumeral hn (s := "-") (by decide)).append (inks_nat hn (m + 1))

theorem inks_exponentText (e : Int) : Inks p (Numeric.exponentText e) := by
  have hdigits := inks_nat hn e.natAbs
  have hsign : Inks p (if e < 0 then "e-" else "e+") :=
    inks_ite (inks_of_isNumeral hn (by decide)) (inks_of_isNumeral hn (by decide))
  exact hsign.append (inks_ite ((inks_of_isNumeral hn (by decide)).append hdigits) hdigits)

/-- However a number is laid out, it consists of digits, signs, points and the letter of an exponent. -/
theorem inks_layout {style : Numeric.Style} (hstyle : Inks p style.wholeEnding) (negative : Bool) (coefficient : Nat)
    (exponent : Int) : Inks p (style.layout negative coefficient exponent) := by
  have hdigits := toDigits_inks hn coefficient
  have htake : ∀ n, ∀ c ∈ (Nat.toDigits 10 coefficient).take n, p c :=
    fun n c hc => hdigits c (List.mem_of_mem_take hc)
  have hdrop : ∀ n, ∀ c ∈ (Nat.toDigits 10 coefficient).drop n, p c :=
    fun n c hc => hdigits c (List.mem_of_mem_drop hc)
  have hpoint : p '.' := hn '.' (by decide)
  have hzero : p '0' := hn '0' (by decide)
  have hzeros : ∀ n, ∀ c ∈ List.replicate n '0', p c := fun n c hc => List.eq_of_mem_replicate hc ▸ hzero
  have hfraction : ∀ l : List Char, (∀ c ∈ l, p c) → ∀ c ∈ (if l.isEmpty then [] else '.' :: l), p c := by
    intro l hl
    split
    · exact List.forall_mem_nil _
    · exact List.forall_mem_cons.mpr ⟨hpoint, hl⟩
  have hsigned : ∀ body, Inks p body → Inks p (if negative then "-" ++ body else body) := fun body hbody =>
    inks_ite ((inks_of_isNumeral hn (by decide)).append hbody) hbody
  refine hsigned _ (inks_ite ?_ (inks_ite ?_ (inks_ite ?_ ?_)))
  · exact (inks_ofList (List.forall_mem_append.mpr ⟨htake 1, hfraction _ (hdrop 1)⟩)).append (inks_exponentText hn _)
  · exact (inks_ofList (List.forall_mem_append.mpr ⟨hdigits, hzeros _⟩)).append hstyle
  · exact inks_ofList (List.forall_mem_append.mpr ⟨htake _, List.forall_mem_cons.mpr ⟨hpoint, hdrop _⟩⟩)
  · exact inks_ofList (List.forall_mem_append.mpr
      ⟨List.forall_mem_cons.mpr ⟨hzero, List.forall_mem_cons.mpr ⟨hpoint, hzeros _⟩⟩, hdigits⟩)

theorem inks_coordinate (x : Float) : Inks p (Numeric.coordinate x) := by
  rw [Numeric.coordinate, Numeric.textWith]
  split
  · exact inks_of_isNumeral hn (by decide)
  · exact inks_ite (inks_of_isNumeral hn (by decide)) (inks_of_isNumeral hn (by decide))
  · exact inks_layout hn (inks_of_isNumeral hn (by decide)) _ _ _

end Numbers

/-! ## Escaped texts -/

variable (hp : ∀ c, isInk c = true → p c)

include hp

theorem of_isNumeral : ∀ c, isNumeral c = true → p c := fun c hc => hp c (isInk_of_isNumeral hc)

/-- A text of ink. -/
theorem inks_of_isInk (h : s.toList.all isInk = true) : Inks p s := fun c hc => hp c (List.all_eq_true.mp h c hc)

theorem inks_escape (h : Inks p s) : Inks p (Text.escapeString s) := by
  refine inks_ofList fun c hc => ?_
  obtain ⟨d, hd, hc⟩ := List.mem_flatMap.mp hc
  unfold Text.escapeChar at hc
  split at hc
  · exact hp c (List.all_eq_true.mp (by decide : ['&', 'a', 'm', 'p', ';'].all isInk = true) c hc)
  · split at hc
    · exact hp c (List.all_eq_true.mp (by decide : ['&', 'l', 't', ';'].all isInk = true) c hc)
    · split at hc
      · exact hp c (List.all_eq_true.mp (by decide : ['&', 'g', 't', ';'].all isInk = true) c hc)
      · rw [List.mem_singleton.mp hc]
        exact h d hd

/-! ## Shapes -/

theorem inks_attr {name value : String} (hname : name.toList.all isInk = true) (hvalue : Inks p value) :
    Inks p (attr name value) :=
  ((((inks_of_isInk hp (by decide)).append (inks_of_isInk hp hname)).append (inks_of_isInk hp (by decide))).append
    hvalue).append (inks_of_isInk hp (by decide))

/-- The texts that a shape is given: its colours, its measures that are no coordinates, and what it shows. -/
def Shape.texts : Shape → List String
  | .line _ _ _ _ stroke weight => [stroke, weight]
  | .ring _ _ stroke => [stroke]
  | .disc _ _ fill => [fill]
  | .text _ _ fill size _ content => [fill, size, content]

theorem Shape.inks_svg {shape : Shape} (h : ∀ u ∈ shape.texts, Inks p u) : Inks p shape.svg := by
  have hink : ∀ {u : String}, u.toList.all isInk = true → Inks p u := inks_of_isInk hp
  have hattr : ∀ {name value : String}, name.toList.all isInk = true → Inks p value → Inks p (attr name value) :=
    inks_attr hp
  have hat : ∀ {name : String} (x : Float), name.toList.all isInk = true →
      Inks p (attr name (Numeric.coordinate x)) :=
    fun x hname => inks_attr hp hname (inks_coordinate (of_isNumeral hp) x)
  cases shape with
  | line x₁ y₁ x₂ y₂ stroke weight =>
      simp only [texts, List.forall_mem_cons] at h
      exact (((((((hink (by decide)).append (hat x₁ (by decide))).append (hat y₁ (by decide))).append
        (hat x₂ (by decide))).append (hat y₂ (by decide))).append (hattr (by decide) h.1)).append
        (hattr (by decide) h.2.1)).append (hink (by decide))
  | ring x y stroke =>
      simp only [texts, List.forall_mem_cons] at h
      exact (((((((hink (by decide)).append (hat x (by decide))).append (hat y (by decide))).append
        (hattr (by decide) (hink (by decide)))).append (hattr (by decide) (hink (by decide)))).append
        (hattr (by decide) h.1)).append (hattr (by decide) (hink (by decide)))).append (hink (by decide))
  | disc x y fill =>
      simp only [texts, List.forall_mem_cons] at h
      exact ((((((hink (by decide)).append (hat x (by decide))).append (hat y (by decide))).append
        (hattr (by decide) (hink (by decide)))).append (hattr (by decide) h.1)).append
        (hattr (by decide) h.1)).append (hink (by decide))
  | text x y fill size bold content =>
      simp only [texts, List.forall_mem_cons] at h
      have hweight : Inks p (if bold then attr "font-weight" "600" else "") :=
        inks_ite (hattr (by decide) (hink (by decide))) (hink (by decide))
      exact ((((((((((hink (by decide)).append (hat x (by decide))).append (hat y (by decide))).append
        (hattr (by decide) (hink (by decide)))).append (hattr (by decide) h.1)).append
        (hattr (by decide) (hink (by decide)))).append (hattr (by decide) h.2.1)).append hweight).append
        (hink (by decide))).append (inks_escape hp h.2.2.1)).append (hink (by decide))

/-! ## Documents -/

theorem gridShape_texts {stroke : String} (hstroke : stroke.toList.all isInk = true) (line : GridLine) :
    ∀ u ∈ (gridShape stroke line).texts, Inks p u := by
  simp only [gridShape, Shape.texts, List.forall_mem_cons]
  exact ⟨inks_of_isInk hp hstroke, inks_coordinate (of_isNumeral hp) _, List.forall_mem_nil _⟩

theorem Marker.shapes_texts (m : Marker) : ∀ shape ∈ m.shapes, ∀ u ∈ shape.texts, Inks p u := by
  have hink : ∀ {u : String}, u.toList.all isInk = true → Inks p u := inks_of_isInk hp
  rw [Marker.shapes]
  split
  · simp only [List.forall_mem_cons, Shape.texts]
    exact ⟨⟨hink (by decide), hink (by decide), List.forall_mem_nil _⟩,
      ⟨hink (by decide), hink (by decide), List.forall_mem_nil _⟩, List.forall_mem_nil _⟩
  · simp only [List.forall_mem_cons, Shape.texts]
    exact ⟨⟨hink (by decide), List.forall_mem_nil _⟩, List.forall_mem_nil _⟩
  · simp only [List.forall_mem_cons, Shape.texts]
    exact ⟨⟨hink (by decide), List.forall_mem_nil _⟩,
      ⟨hink (by decide), hink (by decide), inks_nat (of_isNumeral hp) _, List.forall_mem_nil _⟩, List.forall_mem_nil _⟩

theorem Chart.shapes_texts (c : Chart) : ∀ shape ∈ c.shapes, ∀ u ∈ shape.texts, Inks p u := by
  intro shape hshape
  rw [Chart.shapes, List.mem_append, List.mem_append] at hshape
  rcases hshape with (hshape | hshape) | hshape
  · obtain ⟨line, -, rfl⟩ := List.mem_map.mp hshape
    exact gridShape_texts hp (by decide) line
  · obtain ⟨i, hi, rfl⟩ := List.mem_mapIdx.mp hshape
    split
    · exact gridShape_texts hp (by decide) _
    · exact gridShape_texts hp (by decide) _
  · obtain ⟨m, -, hshape⟩ := List.mem_flatMap.mp hshape
    exact m.shapes_texts hp shape hshape

/-- A diagram consists of ink and of the characters of its name and its notice. -/
theorem inks_document {d : Diagram} (hname : Inks p d.name)
    (hnotice : ∀ first second, d.content = .notice first second → Inks p first ∧ Inks p second) (axis : Float) :
    Inks p (d.document axis) := by
  have hink : ∀ {u : String}, u.toList.all isInk = true → Inks p u := inks_of_isInk hp
  have hshapes : ∀ shape ∈ d.shapes axis, ∀ u ∈ shape.texts, Inks p u := by
    rw [shapes]
    split
    · rename_i c _
      refine List.forall_mem_cons.mpr ⟨?_, c.shapes_texts hp⟩
      simp only [Shape.texts, List.forall_mem_cons]
      exact ⟨hink (by decide), hink (by decide), hname, List.forall_mem_nil _⟩
    · rename_i first second hcontent
      obtain ⟨hfirst, hsecond⟩ := hnotice first second hcontent
      simp only [Shape.texts, List.forall_mem_cons]
      exact ⟨⟨hink (by decide), hink (by decide), hname, List.forall_mem_nil _⟩,
        ⟨hink (by decide), hink (by decide), hfirst, List.forall_mem_nil _⟩,
        ⟨hink (by decide), hink (by decide), hsecond, List.forall_mem_nil _⟩, List.forall_mem_nil _⟩
  have hnumber : ∀ n : Int, Inks p (toString n) := inks_int (of_isNumeral hp)
  have hviewBox : Inks p s!"0 0 {d.width} {d.height}" :=
    (((hink (by decide)).append (hnumber _)).append (hink (by decide))).append (hnumber _)
  have hopening : Inks p (svgOpening d.width d.height) :=
    (((((hink (by decide)).append (inks_attr hp (by decide) (hnumber _))).append
      (inks_attr hp (by decide) (hnumber _))).append (inks_attr hp (by decide) hviewBox)).append
      (hink (by decide))).append (hink (by decide))
  have hbackground : Inks p svgBackground := hink (by decide)
  refine inks_intercalate (hink (by decide)) fun u hu => ?_
  simp only [List.cons_append, List.mem_cons, List.mem_append, List.not_mem_nil, or_false] at hu
  rcases hu with rfl | rfl | hu | rfl
  · exact hopening
  · exact hbackground
  · obtain ⟨shape, hshape, rfl⟩ := List.mem_map.mp hu
    exact Shape.inks_svg hp (hshapes shape hshape)
  · exact hink (by decide)

/-- The diagram of a chord consists of ink and of the characters of its name. -/
theorem inks_svg_of_ofName {l : Layout} {db : Chord.Database} {name : List Char} {d : Diagram} {s : String}
    (h : ofName l db name = .ok d) (hsvg : d.svg = .ok s) (hname : ∀ c ∈ name, p c) : Inks p s := by
  obtain ⟨-, rfl⟩ := svg_eq_ok_iff.mp hsvg
  rcases ofPosition_eq_ok h with ⟨-, rfl⟩ | ⟨position, c, -, -, rfl⟩
  · refine inks_document hp (inks_ofList hname) (fun first second hnotice => ?_) _
    obtain ⟨rfl, rfl⟩ := Content.notice.inj hnotice
    exact ⟨inks_of_isInk hp (by decide), inks_of_isInk hp (by decide)⟩
  · exact inks_document hp (inks_ofList hname) (fun first second hnotice => absurd hnotice (by simp)) _

end Texts

/-! ## The name -/

/-- The name of a diagram stands in it, escaped. -/
theorem name_infix_document (d : Diagram) (axis : Float) :
    (Text.escapeString d.name).toList <:+: (d.document axis).toList := by
  have hshape : ∃ x y fill size, Shape.text x y fill size true d.name ∈ d.shapes axis := by
    rw [shapes]
    split
    · exact ⟨_, _, _, _, List.mem_cons_self⟩
    · exact ⟨_, _, _, _, List.mem_cons_self⟩
  obtain ⟨x, y, fill, size, hshape⟩ := hshape
  obtain ⟨before, hbefore⟩ : ∃ before, (Shape.text x y fill size true d.name).svg =
      before ++ Text.escapeString d.name ++ "</text>" := ⟨_, rfl⟩
  have hname : (Text.escapeString d.name).toList <:+: (Shape.text x y fill size true d.name).svg.toList := by
    rw [hbefore, String.toList_append, String.toList_append]
    exact List.infix_append _ _ _
  rw [document, String.toList_intercalate]
  refine hname.trans (Text.infix_intercalate (List.mem_map_of_mem ?_))
  simp only [List.cons_append, List.mem_cons, List.mem_append]
  exact Or.inr (Or.inr (Or.inl (List.mem_map_of_mem hshape)))

end LeadSheet.Diagram
