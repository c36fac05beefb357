import LeadSheet.Diagram.Chart
import LeadSheet.Proofs.Chord.Loading

/-!
# From the frets of a record to the marks of a diagram

A database keeps a fingering as text, one symbol for each string. The symbols are written from the frets that a record
lists, and a diagram is drawn by reading them. So the two sides must agree on what a symbol says.

* `Shows l fret mark` : the mark says at which fret its string is held, if at any;
* `Draws l frets markers` : the markers show the six frets, string by string;
* `FirstFingering chords key suffix frets` : what the mapping lists first of the fingerings of a chord;
* `ofName_fingering` : the diagram of the chord draws these frets; lists of another kind are no fingerings.
-/

namespace LeadSheet.Diagram

open Chord (Database Definition Position FretSymbol HasSuffix HoldsMapping IsPosition IsPositionRecord IsDefinition
  Keeps LoadedFrom Token)

/-! ## Marks -/

/-- The mark shows the fret of its string. A high fret is drawn in the last row. -/
inductive Shows (l : Layout) : Int → Mark → Prop
  | muted {fret : Int} : fret < 0 → Shows l fret .muted
  | opened : Shows l 0 .opened
  | fretted {fret : Nat} : 1 ≤ fret → Shows l fret (.fretted fret (min fret l.visibleFrets))

/-- A digit reads as the fret that it is written for. -/
theorem fret?_digitChar : ∀ n ≤ 15, 1 ≤ n →
    fret? (Nat.digitChar n) = some n ∧ Nat.digitChar n ≠ 'x' ∧ Nat.digitChar n ≠ 'X' ∧ Nat.digitChar n ≠ '0' := by
  decide

theorem mark?_of_fretSymbol (l : Layout) {fret : Int} {symbol : Char} (h : FretSymbol fret symbol) :
    ∃ mark, mark? l symbol = some mark ∧ Shows l fret mark := by
  unfold mark?
  cases h with
  | muted hneg => exact ⟨.muted, if_pos (Or.inl rfl), .muted hneg⟩
  | @digit n _ hdigit =>
      obtain ⟨hn, rfl⟩ := Chord.getElem?_hexDigits.mp hdigit
      by_cases hpos : 1 ≤ n
      · obtain ⟨hfret, hx, hX, h0⟩ := fret?_digitChar n hn hpos
        have hmuted : ¬ (Nat.digitChar n = 'x' ∨ Nat.digitChar n = 'X') := not_or.mpr ⟨hx, hX⟩
        refine ⟨.fretted n (min n l.visibleFrets), ?_, .fretted hpos⟩
        rw [if_neg hmuted, if_neg h0, hfret, Option.map_some]
      · obtain rfl : n = 0 := by omega
        exact ⟨.opened, rfl, .opened⟩

/-- Every symbol of a fingering gets a marker on its string, as long as there are strings. -/
theorem markersFrom_spec (l : Layout) {frets : List Int} {symbols : List Char}
    (h : List.Forall₂ FretSymbol frets symbols) (index : Nat) {xs : List Float} (hxs : frets.length ≤ xs.length) :
    (markersFrom l index xs symbols).map Marker.string = List.range' index frets.length ∧
      List.Forall₂ (Shows l) frets ((markersFrom l index xs symbols).map Marker.mark) := by
  -- strings and symbols are read side by side, and the number of the string grows with them
  induction h generalizing index xs with
  | nil =>
      cases xs with
      | nil => exact ⟨rfl, .nil⟩
      | cons x xs => exact ⟨rfl, .nil⟩
  | @cons fret symbol frets symbols hsymbol _ ih =>
      cases xs with
      | nil => simp at hxs
      | cons x xs =>
          obtain ⟨mark, hmark, hshows⟩ := mark?_of_fretSymbol l hsymbol
          obtain ⟨hstrings, hmarks⟩ := ih (index + 1) (Nat.le_of_succ_le_succ hxs)
          rw [markersFrom]
          simp only [hmark, List.map_cons]
          refine ⟨?_, .cons hshows hmarks⟩
          rw [hstrings, List.length_cons, List.range'_succ]

/-- A dot lies in a row of the grid, and no further down than its fret. -/
theorem rows_of_shows {l : Layout} (hl : 1 ≤ l.visibleFrets) {frets : List Int} {marks : List Mark}
    (h : List.Forall₂ (Shows l) frets marks) :
    ∀ (n : Nat) (row : Int), Mark.fretted n row ∈ marks → 1 ≤ row ∧ row ≤ l.visibleFrets ∧ row ≤ n := by
  induction h with
  | nil => exact fun n row hmem => absurd hmem List.not_mem_nil
  | @cons _ mark _ _ hshows _ ih =>
      intro n row hmem
      rcases List.mem_cons.mp hmem with heq | hmem
      · subst heq
        cases hshows with
        | fretted hpos => omega
      · exact ih n row hmem

/-- The markers of six frets: one on each string, which shows the fret, with its dot on the grid. Only a mark of a held
string has a fret and a row at all. -/
structure Draws (l : Layout) (frets : List Int) (markers : List Marker) : Prop where
  strings : markers.map Marker.string = List.range 6
  marks : List.Forall₂ (Shows l) frets (markers.map Marker.mark)
  rows : ∀ (n : Nat) (row : Int), .fretted n row ∈ markers.map Marker.mark → 1 ≤ row ∧ row ≤ l.visibleFrets ∧ row ≤ n

theorem draws_markersFrom {l : Layout} (hstrings : 6 ≤ l.stringXs.length) (hrows : 1 ≤ l.visibleFrets)
    {frets : List Int} {symbols : List Char} (hlength : frets.length = 6)
    (h : List.Forall₂ FretSymbol frets symbols) : Draws l frets (markersFrom l 0 l.stringXs symbols) := by
  obtain ⟨hindices, hmarks⟩ := markersFrom_spec l h 0 (hlength ▸ hstrings)
  refine ⟨?_, hmarks, rows_of_shows hrows hmarks⟩
  rw [hindices, hlength, List.range_eq_range']

/-! ## Charts -/

theorem gridLines_eq_ok (line : Nat → Float → Float → Float → GridLine) (starts : List Float) {ends : List Float}
    (h : ends ≠ []) : ∃ lines, gridLines line starts ends = .ok lines := by
  cases starts with
  | nil => exact ⟨[], rfl⟩
  | cons start starts =>
      cases ends with
      | nil => exact absurd rfl h
      | cons first rest => exact ⟨_, rfl⟩

/-- With strings and fret lines there is a chart, with all markers of the fingering. -/
theorem chart_eq_ok {l : Layout} (hxs : l.stringXs ≠ []) (hys : l.fretYs ≠ []) (position : Position) :
    ∃ c, chart l position = .ok c ∧ c.markers = markersFrom l 0 l.stringXs position.frets.toList := by
  obtain ⟨strings, hstrings⟩ : ∃ lines, stringLines l = .ok lines := gridLines_eq_ok _ _ hys
  obtain ⟨frets, hfrets⟩ : ∃ lines, fretLines l = .ok lines := gridLines_eq_ok _ _ hxs
  refine ⟨⟨strings, frets, markersFrom l 0 l.stringXs position.frets.toList⟩, ?_, rfl⟩
  unfold chart
  rw [hstrings, hfrets]
  rfl

theorem length_stringXs (l : Layout) : l.stringXs.length = l.stringCount.toNat := by
  rw [Layout.stringXs, Layout.coordinates, List.length_map, List.length_range]

theorem length_fretYs (l : Layout) : l.fretYs.length = (l.visibleFrets + 1).toNat := by
  rw [Layout.fretYs, Layout.coordinates, List.length_map, List.length_range]

/-! ## The first fingering of a chord -/

/-- The mapping has an entry for the key and suffix, and these are the frets in the first of its fingerings that is
well formed. No earlier entry under the key has that suffix. -/
inductive FirstFingering (chords : List (String × Json)) (key suffix : String) (frets : Json) : Prop
  | intro {before after front back : List Json} {entry raw : Json} :
      (key, Json.array (before ++ entry :: after)) ∈ chords → key ≠ "" →
      (∀ earlier ∈ before, ¬ HasSuffix earlier suffix) →
      entry.field? "suffix" = some (.text suffix) → suffix ≠ "" →
      entry.field? "positions" = some (.array (front ++ raw :: back)) →
      (∀ malformed ∈ front, ¬ IsPositionRecord malformed) →
      raw.field? "frets" = some frets → FirstFingering chords key suffix frets

theorem FirstFingering.key_ne_empty {chords : List (String × Json)} {key suffix : String} {frets : Json}
    (h : FirstFingering chords key suffix frets) : key ≠ "" := by
  cases h with
  | intro _ hkey => exact hkey

/-- The first entry of a suffix states the first definition of the suffix. -/
theorem find?_definition {before after : List Json} {entry : Json} {suffix : String} {all : List Definition}
    (h : Keeps IsDefinition (before ++ entry :: after) all)
    (hbefore : ∀ earlier ∈ before, ¬ HasSuffix earlier suffix) (hentry : HasSuffix entry suffix) :
    ∃ d, all.find? (fun d => d.suffix == suffix) = some d ∧ IsDefinition entry d := by
  -- of the entries before, one that states a definition states one of another suffix
  induction before generalizing all with
  | nil =>
      obtain ⟨d, rest, rfl, hd⟩ := h.head (by simp) (Chord.isDefinitionRecord_iff.mpr ⟨suffix, hentry⟩)
      have hsuffix : d.suffix = suffix := by
        have hstated := hd.1.stated
        rw [hentry.stated] at hstated
        exact (Json.text.inj (Option.some.inj hstated)).symm
      exact ⟨d, List.find?_cons_of_pos (by simpa using hsuffix), hd⟩
  | cons earlier before ih =>
      obtain ⟨hearlier, hbefore⟩ := List.forall_mem_cons.mp hbefore
      cases h with
      | drop _ htail => exact ih htail hbefore
      | @keep _ d _ all hd htail =>
          have hne : d.suffix ≠ suffix := by
            rintro rfl
            exact hearlier hd.1
          rw [List.find?_cons_of_neg (by simpa using hne)]
          exact ih htail hbefore

/-- The chord is found in the database, and its first fingering is the one that the mapping lists first. -/
theorem FirstFingering.find? {chords : List (String × Json)} {key suffix : String} {frets : Json} {s : String}
    (h : FirstFingering chords key suffix frets) (hfrets : Chord.IsFrets frets s) {db : Database}
    (hdb : LoadedFrom chords db) :
    ∃ d, db.find? key suffix = some d ∧ d.positions.head? = some ⟨s⟩ := by
  cases h with
  | @intro before after front back entry raw hmem hkey hbefore hsuffix hne hpositions hfront hraw =>
      have hraws : Chord.rawPositions entry = front ++ raw :: back := by rw [Chord.rawPositions, hpositions]
      have hentry : HasSuffix entry suffix := ⟨hsuffix, hne, Or.inr (by rw [hraws, hpositions])⟩
      obtain ⟨all, hall, hdefinitions⟩ := hdb.definitions key _ hmem hkey
      obtain ⟨d, hfind, -, hkept⟩ := find?_definition hall hbefore hentry
      rw [hraws] at hkept
      have hposition : IsPosition raw ⟨s⟩ := ⟨frets, hraw, hfrets⟩
      obtain ⟨p, rest, hp, hpos⟩ := hkept.head (fun r hr p hp => hfront r hr ⟨p, hp⟩) ⟨_, hposition⟩
      refine ⟨d, ?_, ?_⟩
      · rw [Database.find?, hdefinitions, Chord.find?_firstOfEachSuffix, hfind]
      · obtain rfl : p = ⟨s⟩ := by
          rw [← Chord.readPosition_eq_ok_iff] at hpos hposition
          rw [hposition] at hpos
          exact (Except.ok.inj hpos).symm
        rw [hp, List.head?_cons]

/-! ## Diagrams -/

theorem findName?_eq {db : Database} {name : List Char} {key suffix : String} (hkey : (Token.ofText name).key = key)
    (hsuffix : (Token.ofText name).suffix = suffix) (hne : key ≠ "") : db.findName? name = db.find? key suffix := by
  unfold Database.findName?
  have hname : ¬ name.isEmpty = true := by
    intro hempty
    apply hne
    rw [← hkey, Token.ofText, if_pos hempty]
  rw [if_neg hname]
  show db.find? (Token.ofText name).key (Token.ofText name).suffix = db.find? key suffix
  rw [hkey, hsuffix]

/-- The list has another length, or it has an element that is no integer or a fret above the highest. -/
theorem not_isPositionRecord {raw : Json} {items : List Json} (hraw : raw.field? "frets" = some (.array items))
    (h : items.length ≠ 6 ∨ ∃ item ∈ items, ∀ fret : Int, item = .int fret → 15 < fret) : ¬ IsPositionRecord raw := by
  rintro ⟨p, frets, hfrets, hp⟩
  rw [hraw] at hfrets
  obtain rfl := Option.some.inj hfrets
  generalize p.frets = s at hp
  generalize hitems : Json.array items = frets at hp
  cases hp with
  | symbols => exact absurd hitems (by simp)
  | @numbers frets symbols hlength hsymbols =>
      obtain rfl := Json.array.inj hitems
      rcases h with h | ⟨item, hitem, h⟩
      · exact h (by rw [List.length_map, hlength])
      · obtain ⟨fret, hfret, rfl⟩ := List.mem_map.mp hitem
        have hmax := (Chord.forall₂_fretSymbol_iff.mp hsymbols).1 fret hfret
        have hhigh := h fret rfl
        omega

/-- The diagram of a chord draws the frets of its first fingering. -/
theorem ofName_of_firstFingering {chords : List (String × Json)} {key suffix : String} {frets : List Int}
    (hfirst : FirstFingering chords key suffix (.array (frets.map .int))) (hlength : frets.length = 6)
    (hmax : ∀ fret ∈ frets, fret ≤ 15) {db : Database} (hdb : LoadedFrom chords db) {l : Layout}
    (hstrings : 6 ≤ l.stringCount) (hrows : 1 ≤ l.visibleFrets) {name : List Char}
    (hkey : (Token.ofText name).key = key) (hsuffix : (Token.ofText name).suffix = suffix) :
    ∃ c, ofName l db name = .ok ⟨String.ofList name, l.width, l.height, .chart c⟩ ∧ Draws l frets c.markers := by
  have hsymbols : List.Forall₂ FretSymbol frets (frets.map Chord.fretSymbol) :=
    Chord.forall₂_fretSymbol_iff.mpr ⟨hmax, rfl⟩
  obtain ⟨d, hfind, hhead⟩ := hfirst.find? (.numbers hlength hsymbols) hdb
  have hxs : 6 ≤ l.stringXs.length := by
    rw [length_stringXs]
    omega
  have hys : 1 ≤ l.fretYs.length := by
    rw [length_fretYs]
    omega
  obtain ⟨c, hchart, hmarkers⟩ := chart_eq_ok (List.ne_nil_of_length_pos (by omega)) (List.ne_nil_of_length_pos hys)
    ⟨String.ofList (frets.map Chord.fretSymbol)⟩
  rw [String.toList_ofList] at hmarkers
  refine ⟨c, ?_, hmarkers ▸ draws_markersFrom hxs hrows hlength hsymbols⟩
  rw [ofName, findName?_eq hkey hsuffix hfirst.key_ne_empty, hfind, Option.bind_some, hhead, ofPosition, hchart]
  rfl

/-- Frets come out of a database as they went in: if data list six frets first of the fingerings of a chord, its diagram
draws them. A list of another length or with other elements is no fingering and does not load. -/
theorem ofName_fingering :
    (∀ (data : Json) (chords : List (String × Json)) (key suffix : String) (frets : List Int), data.DistinctKeys →
      HoldsMapping data chords → FirstFingering chords key suffix (.array (frets.map .int)) → frets.length = 6 →
      (∀ fret ∈ frets, fret ≤ 15) →
      ∃ db log, Database.ofJson data = .ok (db, log) ∧
        ∀ (l : Layout) (name : List Char), 6 ≤ l.stringCount → 1 ≤ l.visibleFrets →
          (Token.ofText name).key = key → (Token.ofText name).suffix = suffix →
          ∃ c, ofName l db name = .ok ⟨String.ofList name, l.width, l.height, .chart c⟩ ∧ Draws l frets c.markers) ∧
    ∀ (raw : Json) (items : List Json), raw.field? "frets" = some (.array items) →
      (items.length ≠ 6 ∨ ∃ item ∈ items, ∀ fret : Int, item = .int fret → 15 < fret) →
      ¬ IsPositionRecord raw ∧ ∀ key suffix, (Chord.loadPosition key suffix raw).1 = none := by
  constructor
  · intro data chords key suffix frets hdata hmapping hfirst hlength hmax
    refine ⟨_, _, Chord.ofJson_eq_ok_iff.mpr ⟨chords, hmapping, rfl⟩, ?_⟩
    intro l name hstrings hrows hkey hsuffix
    exact ofName_of_firstFingering hfirst hlength hmax (Chord.loadedFrom_ofFields (hmapping.nodup hdata)) hstrings
      hrows hkey hsuffix
  · intro raw items hraw h
    have hnot := not_isPositionRecord hraw h
    refine ⟨hnot, fun key suffix => ?_⟩
    rw [Option.eq_none_iff_forall_ne_some]
    exact fun p hp => hnot ⟨p, Chord.loadPosition_fst_iff.mp hp⟩

def fingering (frets : List Int) : Json := .object [("frets", .array (frets.map .int))]

/-- A chord whose first fingering has a fret too high, and whose second one has a fret of each kind. -/
def scale : Json :=
  .object [("suffix", .text "major"),
    ("positions", .array [fingering [0, 0, 1, 4, 5, 16], fingering [-1, 0, 1, 4, 5, 15]])]

theorem ofName_fingering_scale :
    (Json.object [("C", .array [scale])]).DistinctKeys ∧
      FirstFingering [("C", .array [scale])] "C" "major" (.array (([-1, 0, 1, 4, 5, 15] : List Int).map .int)) ∧
      (∃ db log c, Database.ofJson (.object [("C", .array [scale])]) = .ok (db, log) ∧
        ofName {} db ['c'] = .ok ⟨"c", 120, 160, .chart c⟩ ∧ Draws {} [-1, 0, 1, 4, 5, 15] c.markers) ∧
      ¬ IsPositionRecord (fingering [0, 0, 1, 4, 5, 16]) := by
  have hdata : (Json.object [("C", .array [scale])]).DistinctKeys := by simp [scale, fingering, Dictionary.keys]
  obtain ⟨hdiagram, hother⟩ := ofName_fingering
  have hhigh : ¬ IsPositionRecord (fingering [0, 0, 1, 4, 5, 16]) := by
    refine (hother _ _ rfl (Or.inr ⟨.int 16, by simp, fun fret hfret => ?_⟩)).1
    obtain rfl := Json.int.inj hfret
    decide
  have hfirst : FirstFingering [("C", .array [scale])] "C" "major"
      (.array (([-1, 0, 1, 4, 5, 15] : List Int).map .int)) :=
    @FirstFingering.intro _ _ _ _ [] [] [fingering [0, 0, 1, 4, 5, 16]] [] scale (fingering [-1, 0, 1, 4, 5, 15])
      List.mem_cons_self (by decide) (by simp) rfl (by decide) rfl (by simpa using hhigh) rfl
  obtain ⟨db, log, hload, hcharts⟩ := hdiagram (.object [("C", .array [scale])]) [("C", .array [scale])] "C" "major"
    [-1, 0, 1, 4, 5, 15] hdata (.bare rfl) hfirst rfl (by decide)
  obtain ⟨c, hname, hdraws⟩ := hcharts {} ['c'] (by decide) (by decide) (by decide +kernel) (by decide +kernel)
  exact ⟨hdata, hfirst, ⟨db, log, c, hload, hname, hdraws⟩, hhigh⟩

end LeadSheet.Diagram
