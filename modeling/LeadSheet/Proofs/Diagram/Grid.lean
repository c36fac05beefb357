import LeadSheet.Proofs.Diagram.Fingering

/-!
# Layouts with a grid

A line of the grid runs from the first to the last line across it, so a layout has a grid if it has both kinds of lines,
or neither. `exists_chart_iff` says that this decides whether a fingering can be drawn, whatever it is.
-/

namespace LeadSheet

/-- There are strings just if there are fret lines. -/
def Layout.HasGrid (l : Layout) : Prop := 0 < l.stringCount ↔ 0 ≤ l.visibleFrets

instance (l : Layout) : Decidable l.HasGrid := inferInstanceAs (Decidable (_ ↔ _))

namespace Diagram

theorem stringXs_eq_nil_iff {l : Layout} : l.stringXs = [] ↔ l.stringCount ≤ 0 := by
  rw [← List.length_eq_zero_iff, length_stringXs]
  omega

theorem fretYs_eq_nil_iff {l : Layout} : l.fretYs = [] ↔ l.visibleFrets < 0 := by
  rw [← List.length_eq_zero_iff, length_fretYs]
  omega

theorem exists_gridLines_iff {line : Nat → Float → Float → Float → GridLine} {starts ends : List Float} :
    (∃ lines, gridLines line starts ends = .ok lines) ↔ (ends = [] → starts = []) := by
  constructor
  · rintro ⟨lines, h⟩ rfl
    cases starts with
    | nil => rfl
    | cons start starts => exact absurd h (by simp [gridLines])
  · intro h
    by_cases hends : ends = []
    · rw [h hends]
      exact ⟨[], rfl⟩
    · exact gridLines_eq_ok line starts hends

/-- A fingering can be drawn just if the layout has a grid. -/
theorem exists_chart_iff {l : Layout} {position : Chord.Position} :
    (∃ c, chart l position = .ok c) ↔ l.HasGrid := by
  have hlines : (∃ c, chart l position = .ok c) ↔
      (∃ lines, stringLines l = .ok lines) ∧ ∃ lines, fretLines l = .ok lines := by
    constructor
    · rintro ⟨c, h⟩
      obtain ⟨strings, hstrings, h⟩ := Json.bind_eq_ok.mp h
      obtain ⟨frets, hfrets, -⟩ := Json.bind_eq_ok.mp h
      exact ⟨⟨strings, hstrings⟩, frets, hfrets⟩
    · rintro ⟨⟨strings, hstrings⟩, frets, hfrets⟩
      exact ⟨_, Json.bind_eq_ok.mpr ⟨strings, hstrings, Json.bind_eq_ok.mpr ⟨frets, hfrets, rfl⟩⟩⟩
  rw [hlines, stringLines, fretLines, exists_gridLines_iff, exists_gridLines_iff, stringXs_eq_nil_iff,
    fretYs_eq_nil_iff, Layout.HasGrid]
  omega

end Diagram

end LeadSheet
