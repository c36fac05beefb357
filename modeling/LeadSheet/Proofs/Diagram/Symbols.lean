import LeadSheet.Proofs.Diagram.Geometry

/-!
# Which symbols are drawn

A symbol of a fingering means that its string is muted, open, or held at the fret that a hexadecimal digit gives. Any
other symbol means nothing. But a digit is read in any script, so there are symbols without a meaning that are drawn.

* `Means l symbol mark` : what a symbol means;
* `DrawsMeanings l symbols markers` : each string shows what its symbol means, and nothing if it means nothing;
* `mark?_eq_some_iff` : a symbol is drawn for what it means, and a digit of another script for its value;
* `drawsMeanings_iff` : so a diagram shows the meanings just if no string has a digit of another script, zeros aside.
-/

namespace LeadSheet.Diagram

open Chord (Position hexDigits)
open Text (digitValue? hexValue?)

/-! ## Digits -/

/-- The symbol is the hexadecimal digit of the given value, in small or capital letters. -/
def IsHexDigit (symbol : Char) (value : Nat) : Prop :=
  hexDigits[value]? = some symbol ∨ (hexDigits.map Char.toUpper)[value]? = some symbol

instance (symbol : Char) (value : Nat) : Decidable (IsHexDigit symbol value) := inferInstanceAs (Decidable (_ ∨ _))

/-- The symbol is a digit of the given value, in a script other than the Latin one. -/
def IsForeignDigit (symbol : Char) (value : Nat) : Prop := 128 ≤ symbol.toNat ∧ digitValue? symbol = some value

/-- The symbol is a digit of another script, but no zero. -/
def IsForeignFret (symbol : Char) : Prop := ∃ value, 1 ≤ value ∧ IsForeignDigit symbol value

theorem IsHexDigit.ascii {symbol : Char} {value : Nat} (h : IsHexDigit symbol value) :
    symbol.toNat < 128 ∧ value ≤ 15 := by
  have hall : (hexDigits ++ hexDigits.map Char.toUpper).all (fun c => decide (c.toNat < 128)) = true := by decide
  have hascii : ∀ c ∈ hexDigits ++ hexDigits.map Char.toUpper, c.toNat < 128 :=
    fun c hc => of_decide_eq_true (List.all_eq_true.mp hall c hc)
  have hlength : hexDigits.length = 16 := by decide
  rcases h with h | h
  · have hlt := (List.getElem?_eq_some_iff.mp h).1
    exact ⟨hascii symbol (List.mem_append_left _ (List.mem_of_getElem? h)), by omega⟩
  · have hlt := (List.getElem?_eq_some_iff.mp h).1
    rw [List.length_map] at hlt
    exact ⟨hascii symbol (List.mem_append_right _ (List.mem_of_getElem? h)), by omega⟩

/-- Among the ASCII characters, the hexadecimal digits are the symbols that are read as a number. -/
theorem hexValue?_of_ascii {symbol : Char} (hsymbol : symbol.toNat < 128) {value : Nat} (hvalue : value ≤ 15) :
    hexValue? symbol = some value ↔ IsHexDigit symbol value := by
  -- there are so few characters and values that each pair is checked
  have hall : ∀ code < 128, ∀ value ≤ 15,
      hexValue? (Char.ofNat code) = some value ↔ IsHexDigit (Char.ofNat code) value := by decide +kernel
  have h := hall symbol.toNat hsymbol value hvalue
  rwa [Char.ofNat_toNat] at h

theorem hexValue?_of_not_ascii {symbol : Char} (h : 128 ≤ symbol.toNat) : hexValue? symbol = digitValue? symbol := by
  have hhigh : ∀ c : Char, c.toNat < 128 → ¬ symbol ≤ c := by
    intro c hc hle
    have hcodes : symbol.toNat ≤ c.toNat := UInt32.le_iff_toNat_le.mp hle
    omega
  rw [hexValue?, if_neg fun hc => hhigh 'f' (by decide) hc.2, if_neg fun hc => hhigh 'F' (by decide) hc.2]

theorem digitValue?_lt {symbol : Char} {value : Nat} (h : digitValue? symbol = some value) : value < 10 := by
  obtain ⟨r, -, rfl⟩ := Option.map_eq_some_iff.mp h
  exact Nat.mod_lt _ (by decide)

/-! ## Meanings -/

/-- What a symbol means for its string. A high fret is drawn in the last row. -/
inductive Means (l : Layout) : Char → Mark → Prop
  | muted {symbol : Char} : symbol = 'x' ∨ symbol = 'X' → Means l symbol .muted
  | opened : Means l '0' .opened
  | fretted {symbol : Char} {fret : Nat} : 1 ≤ fret → IsHexDigit symbol fret →
      Means l symbol (.fretted fret (min fret l.visibleFrets))

theorem fret?_eq_some_iff {symbol : Char} {fret : Nat} :
    fret? symbol = some fret ↔ 1 ≤ fret ∧ (IsHexDigit symbol fret ∨ IsForeignDigit symbol fret) := by
  have hfret : fret? symbol = some fret ↔ hexValue? symbol = some fret ∧ 1 ≤ fret ∧ fret ≤ 15 := by
    rw [fret?, Option.filter_eq_some_iff, decide_eq_true_eq]
    rfl
  rw [hfret]
  -- an ASCII symbol can only be a hexadecimal digit, any other only a digit of its script
  by_cases hascii : symbol.toNat < 128
  · constructor
    · rintro ⟨hvalue, hpos, hmax⟩
      exact ⟨hpos, Or.inl ((hexValue?_of_ascii hascii hmax).mp hvalue)⟩
    · rintro ⟨hpos, hhex | ⟨hforeign, -⟩⟩
      · exact ⟨(hexValue?_of_ascii hascii hhex.ascii.2).mpr hhex, hpos, hhex.ascii.2⟩
      · omega
  · rw [hexValue?_of_not_ascii (by omega)]
    constructor
    · rintro ⟨hvalue, hpos, -⟩
      exact ⟨hpos, Or.inr ⟨by omega, hvalue⟩⟩
    · rintro ⟨hpos, hhex | ⟨-, hvalue⟩⟩
      · exact absurd hhex.ascii.1 hascii
      · have hlt := digitValue?_lt hvalue
        exact ⟨hvalue, hpos, by omega⟩

/-- A symbol for a fret is none of the other symbols. -/
theorem mark?_of_fret? {l : Layout} {symbol : Char} {fret : Nat} (h : fret? symbol = some fret) :
    mark? l symbol = some (.fretted fret (min fret l.visibleFrets)) := by
  have hnone : fret? 'x' = none ∧ fret? 'X' = none ∧ fret? '0' = none := by decide
  have hmuted : ¬ (symbol = 'x' ∨ symbol = 'X') := by
    rintro (rfl | rfl)
    · simp [hnone] at h
    · simp [hnone] at h
  have hopened : symbol ≠ '0' := by
    rintro rfl
    simp [hnone] at h
  rw [mark?, if_neg hmuted, if_neg hopened, h, Option.map_some]

/-- A symbol is drawn for what it means. A digit of another script is drawn too, for its value. -/
theorem mark?_eq_some_iff {l : Layout} {symbol : Char} {mark : Mark} :
    mark? l symbol = some mark ↔ Means l symbol mark ∨
      ∃ fret, 1 ≤ fret ∧ IsForeignDigit symbol fret ∧ mark = .fretted fret (min fret l.visibleFrets) := by
  constructor
  · intro h
    rw [mark?] at h
    split_ifs at h with hmuted hopened
    · obtain rfl := Option.some.inj h
      exact Or.inl (.muted hmuted)
    · obtain rfl := Option.some.inj h
      exact Or.inl (hopened ▸ .opened)
    · obtain ⟨fret, hfret, rfl⟩ := Option.map_eq_some_iff.mp h
      obtain ⟨hpos, hhex | hforeign⟩ := fret?_eq_some_iff.mp hfret
      · exact Or.inl (.fretted hpos hhex)
      · exact Or.inr ⟨fret, hpos, hforeign, rfl⟩
  · rintro (hmeans | ⟨fret, hpos, hforeign, rfl⟩)
    · cases hmeans with
      | muted hmuted => rw [mark?, if_pos hmuted]
      | opened => rfl
      | fretted hpos hhex => exact mark?_of_fret? (fret?_eq_some_iff.mpr ⟨hpos, Or.inl hhex⟩)
    · exact mark?_of_fret? (fret?_eq_some_iff.mpr ⟨hpos, Or.inr hforeign⟩)

/-- A digit of another script means nothing. -/
theorem not_means_of_foreign {l : Layout} {symbol : Char} {value : Nat} (h : IsForeignDigit symbol value) (mark : Mark) :
    ¬ Means l symbol mark := by
  have hhigh := h.1
  intro hmeans
  cases hmeans with
  | muted hmuted =>
      rcases hmuted with rfl | rfl
      · exact absurd hhigh (by decide)
      · exact absurd hhigh (by decide)
  | opened => exact absurd hhigh (by decide)
  | fretted _ hhex =>
      have hlow := hhex.ascii.1
      omega

/-! ## Diagrams -/

/-- There is a marker on string `i` that shows the mark. -/
def Shown (markers : List Marker) (i : Nat) (mark : Mark) : Prop := ∃ m ∈ markers, m.string = i ∧ m.mark = mark

/-- Each string that has a symbol shows what the symbol means, and nothing if it means nothing. -/
structure DrawsMeanings (l : Layout) (symbols : List Char) (markers : List Marker) : Prop where
  nodup : (markers.map Marker.string).Nodup
  shown_iff : ∀ i mark, Shown markers i mark ↔
    (i : Int) < l.stringCount ∧ ∃ symbol, symbols[i]? = some symbol ∧ Means l symbol mark

/-- What a string shows depends on its own symbol only. -/
theorem shown_markersFrom_iff (l : Layout) (symbols : List Char) (i : Nat) (mark : Mark) :
    Shown (markersFrom l 0 l.stringXs symbols) i mark ↔
      (i : Int) < l.stringCount ∧ ∃ symbol, symbols[i]? = some symbol ∧ mark? l symbol = some mark := by
  have hlength := length_stringXs l
  constructor
  · rintro ⟨m, hm, rfl, rfl⟩
    obtain ⟨i, x, symbol, mark, hx, hsymbol, hmark, rfl⟩ := (mem_markersFrom l).mp hm
    have hi := (List.getElem?_eq_some_iff.mp hx).1
    show ((0 + i : Nat) : Int) < l.stringCount ∧ ∃ symbol, symbols[0 + i]? = some symbol ∧ mark? l symbol = some mark
    rw [Nat.zero_add]
    exact ⟨by omega, symbol, hsymbol, hmark⟩
  · rintro ⟨hi, symbol, hsymbol, hmark⟩
    obtain ⟨x, hx⟩ : ∃ x, l.stringXs[i]? = some x := ⟨_, List.getElem?_eq_getElem (by omega)⟩
    exact ⟨_, (mem_markersFrom l).mpr ⟨i, x, symbol, mark, hx, hsymbol, hmark, rfl⟩, Nat.zero_add i, rfl⟩

theorem drawsMeanings_markersFrom_iff (l : Layout) (symbols : List Char) :
    DrawsMeanings l symbols (markersFrom l 0 l.stringXs symbols) ↔
      ∀ (i : Nat) (symbol : Char), (i : Int) < l.stringCount → symbols[i]? = some symbol → ¬ IsForeignFret symbol := by
  constructor
  · rintro h i symbol hi hsymbol ⟨fret, hpos, hforeign⟩
    have hmark : mark? l symbol = some (.fretted fret (min fret l.visibleFrets)) :=
      mark?_eq_some_iff.mpr (Or.inr ⟨fret, hpos, hforeign, rfl⟩)
    obtain ⟨-, symbol', hsymbol', hmeans⟩ :=
      (h.shown_iff i _).mp ((shown_markersFrom_iff l symbols i _).mpr ⟨hi, symbol, hsymbol, hmark⟩)
    obtain rfl : symbol = symbol' := Option.some.inj (hsymbol.symm.trans hsymbol')
    exact not_means_of_foreign hforeign _ hmeans
  · intro h
    refine ⟨List.pairwise_map.mpr ((pairwise_markersFrom l 0 l.stringXs symbols).imp Nat.ne_of_lt), fun i mark => ?_⟩
    rw [shown_markersFrom_iff]
    refine and_congr_right fun hi => exists_congr fun symbol => and_congr_right fun hsymbol => ?_
    rw [mark?_eq_some_iff, or_iff_left]
    rintro ⟨fret, hpos, hforeign, -⟩
    exact h i symbol hi hsymbol ⟨fret, hpos, hforeign⟩

/-- If a layout has a grid, the diagram of a fingering shows on each string what its symbol means, or the value of a digit
of another script. So it shows the meanings, and nothing else, just if there is no such digit but zeros. -/
theorem drawsMeanings_iff {l : Layout} (h : l.HasGrid) (name : String) (position : Position) :
    ∃ c, ofPosition l name (some position) = .ok ⟨name, l.width, l.height, .chart c⟩ ∧
      (DrawsMeanings l position.frets.toList c.markers ↔ ∀ (i : Nat) (symbol : Char), (i : Int) < l.stringCount →
        position.frets.toList[i]? = some symbol → ¬ IsForeignFret symbol) ∧
      ∀ i mark, Shown c.markers i mark ↔ (i : Int) < l.stringCount ∧
        ∃ symbol, position.frets.toList[i]? = some symbol ∧ (Means l symbol mark ∨
          ∃ fret, 1 ≤ fret ∧ IsForeignDigit symbol fret ∧ mark = .fretted fret (min fret l.visibleFrets)) := by
  obtain ⟨c, hc⟩ := (@exists_chart_iff l position).mpr h
  obtain ⟨-, -, hmarkers⟩ := chart_eq_ok_iff.mp hc
  refine ⟨c, ofPosition_some_eq_ok_iff.mpr ⟨c, hc, rfl⟩, ?_, fun i mark => ?_⟩
  · rw [hmarkers]
    exact drawsMeanings_markersFrom_iff l position.frets.toList
  · rw [hmarkers, shown_markersFrom_iff]
    simp only [mark?_eq_some_iff]

/-- Symbols with a meaning, one without, and a zero of another script. -/
theorem drawsMeanings_iff_foreignZero :
    Layout.HasGrid {} ∧ ∃ c, ofPosition {} "C" (some ⟨"X0?\u0660fA"⟩) = .ok ⟨"C", 120, 160, .chart c⟩ ∧
      DrawsMeanings {} "X0?\u0660fA".toList c.markers := by
  have hgrid : Layout.HasGrid {} := by decide
  obtain ⟨c, hc, hmeanings, -⟩ := drawsMeanings_iff hgrid "C" ⟨"X0?\u0660fA"⟩
  refine ⟨hgrid, c, hc, hmeanings.mpr fun i symbol _ hsymbol => ?_⟩
  have hzero : digitValue? '\u0660' = some 0 := by decide
  have hsymbols : ∀ c ∈ "X0?\u0660fA".toList, c.toNat < 128 ∨ digitValue? c = some 0 := by simp [hzero]
  rintro ⟨fret, hpos, hhigh, hvalue⟩
  rcases hsymbols symbol (List.mem_of_getElem? hsymbol) with hlow | hzero
  · omega
  · obtain rfl : 0 = fret := Option.some.inj (hzero.symm.trans hvalue)
    omega

/-- An Arabic digit between documented symbols is drawn as a fret. -/
theorem not_drawsMeanings_arabicThree :
    ∃ c, ofPosition {} "C" (some ⟨"x\u06632010"⟩) = .ok ⟨"C", 120, 160, .chart c⟩ ∧
      ¬ DrawsMeanings {} "x\u06632010".toList c.markers := by
  obtain ⟨c, hc⟩ := (@exists_chart_iff {} ⟨"x\u06632010"⟩).mpr (by decide)
  obtain ⟨-, -, hmarkers⟩ := chart_eq_ok_iff.mp hc
  refine ⟨c, ofPosition_some_eq_ok_iff.mpr ⟨c, hc, rfl⟩, fun h => ?_⟩
  rw [hmarkers, drawsMeanings_markersFrom_iff] at h
  exact h 1 '\u0663' (by decide) (by decide) ⟨3, by decide, by decide, by decide⟩

end LeadSheet.Diagram
