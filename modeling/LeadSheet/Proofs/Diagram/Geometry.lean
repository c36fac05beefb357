import LeadSheet.Proofs.Diagram.Grid

/-!
# Where the lines and the marks of a diagram lie

Any layout is admitted, and any text as the symbols of a fingering. The lines of either kind are drawn between the first
and the last place of the other kind, so a layout with lines of one kind only has no diagram. This is the only error.

* `gridLines_places`, `exists_ends_of_gridLines` : the places of drawn lines, and what they run between;
* `mem_markersFrom` : there is a marker for each symbol with a meaning, as long as there are strings;
* `IsGrid l strings frets`, `IsOnGrid strings symbols markers` : lines and markers lie where they should;
* `ofPosition_geometry` : so they do in the diagram of a fingering, and the error is raised just when they cannot.
-/

namespace LeadSheet.Diagram

open Chord (Position)

/-! ## Lines -/

section Lines

variable {line : Nat → Float → Float → Float → GridLine} {starts ends : List Float} {lines : List GridLine}

/-- The lines that are drawn, one for each place. -/
theorem gridLines_eq_mapIdx (h : gridLines line starts ends = .ok lines) (hne : starts ≠ []) :
    ∃ first last, ends.head? = some first ∧ ends.getLast? = some last ∧
      lines = starts.mapIdx fun i x => line i x first last := by
  obtain ⟨start, starts, rfl⟩ := List.exists_cons_of_ne_nil hne
  cases ends with
  | nil => exact absurd h (by simp [gridLines])
  | cons first rest => exact ⟨first, _, rfl, List.getLast?_eq_some_getLast (List.cons_ne_nil _ _), (Except.ok.inj h).symm⟩

theorem gridLines_places {place : GridLine → Float} (hplace : ∀ i x first last, place (line i x first last) = x)
    (h : gridLines line starts ends = .ok lines) : lines.map place = starts := by
  by_cases hne : starts = []
  · subst hne
    obtain rfl : [] = lines := Except.ok.inj h
    rfl
  · obtain ⟨first, last, -, -, rfl⟩ := gridLines_eq_mapIdx h hne
    apply List.ext_getElem?
    intro i
    rw [List.getElem?_map, List.getElem?_mapIdx, Option.map_map]
    simp only [Function.comp_def, hplace, Option.map_id_fun', id_eq]

/-- A line runs between the first and the last place of the other kind. -/
theorem exists_ends_of_gridLines (h : gridLines line starts ends = .ok lines) {i : Nat} {a : GridLine}
    (ha : lines[i]? = some a) :
    ∃ x first last, ends.head? = some first ∧ ends.getLast? = some last ∧ a = line i x first last := by
  by_cases hne : starts = []
  · subst hne
    obtain rfl : [] = lines := Except.ok.inj h
    simp at ha
  · obtain ⟨first, last, hfirst, hlast, rfl⟩ := gridLines_eq_mapIdx h hne
    rw [List.getElem?_mapIdx, Option.map_eq_some_iff] at ha
    obtain ⟨x, -, hx⟩ := ha
    exact ⟨x, first, last, hfirst, hlast, hx.symm⟩

end Lines

/-- The grid of a layout: as many strings and fret lines as it says and where it says. Each string is vertical, from the
first fret line to the last, and each fret line is horizontal, from the first string to the last. The first fret line is
the nut. -/
structure IsGrid (l : Layout) (strings frets : List GridLine) : Prop where
  length_strings : (strings.length : Int) = max 0 l.stringCount
  length_frets : (frets.length : Int) = max 0 (l.visibleFrets + 1)
  places_strings : strings.map GridLine.x₁ = l.stringXs
  places_frets : frets.map GridLine.y₁ = l.fretYs
  vertical : ∀ s ∈ strings, s.x₁ = s.x₂ ∧ (frets.map GridLine.y₁).head? = some s.y₁ ∧
    (frets.map GridLine.y₁).getLast? = some s.y₂
  horizontal : ∀ f ∈ frets, f.y₁ = f.y₂ ∧ (strings.map GridLine.x₁).head? = some f.x₁ ∧
    (strings.map GridLine.x₁).getLast? = some f.x₂
  weights : ∀ i f, frets[i]? = some f → f.weight = if i = 0 then l.nutWeight else l.fretWeight

theorem isGrid_of_lines {l : Layout} {strings frets : List GridLine} (hstrings : stringLines l = .ok strings)
    (hfrets : fretLines l = .ok frets) : IsGrid l strings frets := by
  have hxs : strings.map GridLine.x₁ = l.stringXs := gridLines_places (fun _ _ _ _ => rfl) hstrings
  have hys : frets.map GridLine.y₁ = l.fretYs := gridLines_places (fun _ _ _ _ => rfl) hfrets
  refine ⟨?_, ?_, hxs, hys, fun s hs => ?_, fun f hf => ?_, fun i f hf => ?_⟩
  · have hlength := congrArg List.length hxs
    rw [List.length_map, length_stringXs] at hlength
    omega
  · have hlength := congrArg List.length hys
    rw [List.length_map, length_fretYs] at hlength
    omega
  · obtain ⟨i, hi⟩ := List.mem_iff_getElem?.mp hs
    obtain ⟨x, top, bottom, htop, hbottom, rfl⟩ := exists_ends_of_gridLines hstrings hi
    exact ⟨rfl, hys ▸ htop, hys ▸ hbottom⟩
  · obtain ⟨i, hi⟩ := List.mem_iff_getElem?.mp hf
    obtain ⟨y, left, right, hleft, hright, rfl⟩ := exists_ends_of_gridLines hfrets hi
    exact ⟨rfl, hxs ▸ hleft, hxs ▸ hright⟩
  · obtain ⟨y, left, right, -, -, rfl⟩ := exists_ends_of_gridLines hfrets hf
    rfl

/-! ## Markers -/

section Markers

variable (l : Layout)

/-- There is a marker for each symbol that stands for a mark, if there is a string for it. -/
theorem mem_markersFrom {index : Nat} {xs : List Float} {symbols : List Char} {m : Marker} :
    m ∈ markersFrom l index xs symbols ↔ ∃ i x symbol mark, xs[i]? = some x ∧ symbols[i]? = some symbol ∧
      mark? l symbol = some mark ∧ m = ⟨index + i, x, markY l mark, mark⟩ := by
  -- strings and symbols are read side by side, and the number of the string grows with them
  induction xs generalizing index symbols with
  | nil => simp [markersFrom]
  | cons x xs ih =>
      cases symbols with
      | nil => simp [markersFrom]
      | cons symbol symbols =>
          have hrest : (∃ i x' symbol' mark, (x :: xs)[i + 1]? = some x' ∧ (symbol :: symbols)[i + 1]? = some symbol' ∧
              mark? l symbol' = some mark ∧ m = ⟨index + (i + 1), x', markY l mark, mark⟩) ↔
              m ∈ markersFrom l (index + 1) xs symbols := by
            rw [ih]
            simp only [List.getElem?_cons_succ, Nat.add_assoc, Nat.add_comm 1]
          constructor
          · intro h
            rw [markersFrom] at h
            cases hmark : mark? l symbol with
            | none =>
                simp only [hmark] at h
                obtain ⟨i, hi⟩ := hrest.mpr h
                exact ⟨i + 1, hi⟩
            | some mark =>
                simp only [hmark] at h
                rcases List.mem_cons.mp h with rfl | h
                · exact ⟨0, x, symbol, mark, rfl, rfl, hmark, rfl⟩
                · obtain ⟨i, hi⟩ := hrest.mpr h
                  exact ⟨i + 1, hi⟩
          · rintro ⟨i, hi⟩
            rw [markersFrom]
            cases i with
            | zero =>
                obtain ⟨x', symbol', mark, hx, hsymbol, hmark, rfl⟩ := hi
                obtain rfl : x = x' := Option.some.inj hx
                obtain rfl : symbol = symbol' := Option.some.inj hsymbol
                simp only [hmark]
                exact List.mem_cons_self
            | succ i =>
                have hmem := hrest.mp ⟨i, hi⟩
                cases mark? l symbol with
                | none => exact hmem
                | some mark => exact List.mem_cons_of_mem _ hmem

/-- The markers are in the order of their strings. -/
theorem pairwise_markersFrom (index : Nat) (xs : List Float) (symbols : List Char) :
    (markersFrom l index xs symbols).Pairwise fun m m' => m.string < m'.string := by
  fun_induction markersFrom l index xs symbols with
  | case1 index x xs symbol symbols _ mark hmark ih =>
      refine List.pairwise_cons.mpr ⟨fun m hm => ?_, ih⟩
      obtain ⟨i, x', symbol', mark', -, -, -, rfl⟩ := (mem_markersFrom l).mp hm
      show index < index + 1 + i
      omega
  | case2 index x xs symbol symbols _ hmark ih => exact ih
  | case3 => exact List.Pairwise.nil

end Markers

/-- The markers of a text of symbols: in the order of the strings, no two on one string, each on a string that is there
and has a symbol. -/
structure IsOnGrid (strings : List GridLine) (symbols : List Char) (markers : List Marker) : Prop where
  increasing : markers.Pairwise fun m m' => m.string < m'.string
  below : ∀ m ∈ markers, m.string < min strings.length symbols.length
  onString : ∀ m ∈ markers, (strings[m.string]?).map GridLine.x₁ = some m.x

theorem isOnGrid_markersFrom (l : Layout) {strings : List GridLine} (hxs : strings.map GridLine.x₁ = l.stringXs)
    (symbols : List Char) : IsOnGrid strings symbols (markersFrom l 0 l.stringXs symbols) := by
  refine ⟨pairwise_markersFrom l 0 l.stringXs symbols, fun m hm => ?_, fun m hm => ?_⟩
  · obtain ⟨i, x, symbol, mark, hx, hsymbol, -, rfl⟩ := (mem_markersFrom l).mp hm
    obtain ⟨hi, -⟩ := List.getElem?_eq_some_iff.mp hx
    obtain ⟨hi', -⟩ := List.getElem?_eq_some_iff.mp hsymbol
    rw [← hxs, List.length_map] at hi
    show 0 + i < min strings.length symbols.length
    omega
  · obtain ⟨i, x, symbol, mark, hx, -, -, rfl⟩ := (mem_markersFrom l).mp hm
    rw [← hxs, List.getElem?_map] at hx
    show (strings[0 + i]?).map GridLine.x₁ = some x
    rw [Nat.zero_add, hx]

/-! ## Diagrams -/

/-- The parts of a chart that is drawn. -/
theorem chart_eq_ok_iff {l : Layout} {position : Position} {c : Chart} :
    chart l position = .ok c ↔ stringLines l = .ok c.strings ∧ fretLines l = .ok c.frets ∧
      c.markers = markersFrom l 0 l.stringXs position.frets.toList := by
  constructor
  · intro h
    obtain ⟨strings, hstrings, h⟩ := Json.bind_eq_ok.mp h
    obtain ⟨frets, hfrets, h⟩ := Json.bind_eq_ok.mp h
    obtain rfl := Except.ok.inj h
    exact ⟨hstrings, hfrets, rfl⟩
  · rintro ⟨hstrings, hfrets, hmarkers⟩
    refine Json.bind_eq_ok.mpr ⟨_, hstrings, Json.bind_eq_ok.mpr ⟨_, hfrets, ?_⟩⟩
    rw [← hmarkers]
    rfl

/-- The diagram of a fingering fails just where its chart does. -/
theorem ofPosition_some_eq_ok_iff {l : Layout} {name : String} {position : Position} {d : Diagram} :
    ofPosition l name (some position) = .ok d ↔
      ∃ c, chart l position = .ok c ∧ d = ⟨name, l.width, l.height, .chart c⟩ := by
  constructor
  · intro h
    obtain ⟨c, hc, h⟩ := Json.bind_eq_ok.mp h
    exact ⟨c, hc, (Except.ok.inj h).symm⟩
  · rintro ⟨c, hc, rfl⟩
    exact Json.bind_eq_ok.mpr ⟨c, hc, rfl⟩

/-- A layout is without a grid if it has one kind of lines only. -/
theorem hasGrid_iff {l : Layout} : l.HasGrid ↔ ¬ Xor (l.stringCount ≤ 0) (l.visibleFrets ≤ -1) := by
  rw [Layout.HasGrid, xor_def]
  omega

/-- Without a fingering there is always a diagram. With one, there is an error just if the layout has one kind of lines
only. Any other layout has a diagram, whose lines are its grid and whose markers lie on that grid. -/
theorem ofPosition_geometry (l : Layout) (name : String) :
    (∃ d, ofPosition l name none = .ok d) ∧ ∀ position : Position,
      (ofPosition l name (some position) = .error .halfGrid ↔ Xor (l.stringCount ≤ 0) (l.visibleFrets ≤ -1)) ∧
        (¬ Xor (l.stringCount ≤ 0) (l.visibleFrets ≤ -1) →
          ∃ c, ofPosition l name (some position) = .ok ⟨name, l.width, l.height, .chart c⟩ ∧
            IsGrid l c.strings c.frets ∧ IsOnGrid c.strings position.frets.toList c.markers) := by
  refine ⟨⟨_, rfl⟩, fun position => ⟨?_, fun h => ?_⟩⟩
  · have hdrawn : (∃ d, ofPosition l name (some position) = .ok d) ↔ l.HasGrid := by
      rw [← @exists_chart_iff l position]
      simp only [ofPosition_some_eq_ok_iff]
      exact ⟨fun ⟨_, c, hc, _⟩ => ⟨c, hc⟩, fun ⟨c, hc⟩ => ⟨_, c, hc, rfl⟩⟩
    rw [← not_iff_not, ← hasGrid_iff, ← hdrawn]
    cases ofPosition l name (some position) with
    | error e => cases e; simp
    | ok d => simp
  · obtain ⟨c, hc⟩ := (@exists_chart_iff l position).mpr (hasGrid_iff.mpr h)
    obtain ⟨hstrings, hfrets, hmarkers⟩ := chart_eq_ok_iff.mp hc
    have hgrid := isGrid_of_lines hstrings hfrets
    refine ⟨c, ofPosition_some_eq_ok_iff.mpr ⟨c, hc, rfl⟩, hgrid, ?_⟩
    rw [hmarkers]
    exact isOnGrid_markersFrom l hgrid.places_strings position.frets.toList

end LeadSheet.Diagram
