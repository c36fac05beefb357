import LeadSheet.Diagram.Svg
import Mathlib.Data.Nat.Digits.Defs
import Mathlib.Tactic.Common

/-!
# Which diagrams have a document

A document is made up around an axis at half the width of its diagram, and it tells both measures in digits. So a
diagram has one just when half the width is in the range of a double and the height has not too many digits: a width in
that range never has (`svg_eq_ok_iff`). What is reported otherwise depends on what is written first (`svg_chart_eq_error`,
`svg_notice_eq_error`).
-/

namespace LeadSheet.Diagram

open Numeric (digitCount)

/-! ## Digits -/

/-- The digits of a width whose half is a double are few. -/
theorem digitCount_le_of_lt_widthLimit {n : Nat} (h : n < widthLimit) : digitCount n ≤ digitLimit := by
  have hpower : n < 10 ^ 309 := h.trans (by decide +kernel)
  have hlength : (Nat.toDigits 10 n).length ≤ 309 := Nat.toDigits_length 10 n 309 (by decide) hpower
  rw [digitCount]
  split
  · exact Nat.zero_le _
  · exact hlength.trans (by decide)

/-! ## Measures -/

/-- Half the width is in the range of a double, and the height has not too many digits. -/
structure Measured (width height : Int) : Prop where
  width : width.natAbs < widthLimit
  height : digitCount height.natAbs ≤ digitLimit

instance (width height : Int) : Decidable (Measured width height) :=
  decidable_of_iff (width.natAbs < widthLimit ∧ digitCount height.natAbs ≤ digitLimit)
    ⟨fun h => ⟨h.1, h.2⟩, fun h => ⟨h.width, h.height⟩⟩

/-- The place of the axis of a diagram of a width. -/
def middle (width : Int) : Float := Numeric.nearestFloat (width < 0) width.natAbs 2

theorem measured_default : Measured ({} : Layout).width ({} : Layout).height := by decide +kernel

section

variable {d : Diagram} {s : String}

theorem axis_of_lt (h : d.width.natAbs < widthLimit) : d.axis = .ok (middle d.width) := if_pos h

theorem axis_of_le (h : widthLimit ≤ d.width.natAbs) : d.axis = .error .widthTooLarge := if_neg (Nat.not_lt.mpr h)

theorem checkDigits_of_le {n : Int} (h : digitCount n.natAbs ≤ digitLimit) : checkDigits n = .ok () := if_pos h

theorem checkDigits_of_lt {n : Int} (h : digitLimit < digitCount n.natAbs) : checkDigits n = .error .tooManyDigits :=
  if_neg (Nat.not_le.mpr h)

theorem svg_of_measured (h : Measured d.width d.height) : d.svg = .ok (d.document (middle d.width)) := by
  rw [svg, axis_of_lt h.width, checkDigits_of_le (digitCount_le_of_lt_widthLimit h.width), checkDigits_of_le h.height]
  split <;> rfl

/-- A chart that cannot be written fails at the digits of a measure, and only then at its axis. -/
theorem svg_chart_eq_error {c : Chart} (hcontent : d.content = .chart c) (h : ¬ Measured d.width d.height) :
    d.svg = .error (if digitCount d.width.natAbs ≤ digitLimit ∧ digitCount d.height.natAbs ≤ digitLimit then
      .widthTooLarge else .tooManyDigits) := by
  rw [svg, hcontent]
  dsimp only
  rcases Nat.lt_or_ge digitLimit (digitCount d.width.natAbs) with hwidth | hwidth
  · rw [checkDigits_of_lt hwidth, if_neg fun hle => Nat.not_lt.mpr hle.1 hwidth]
    rfl
  rcases Nat.lt_or_ge digitLimit (digitCount d.height.natAbs) with hheight | hheight
  · rw [checkDigits_of_le hwidth, checkDigits_of_lt hheight, if_neg fun hle => Nat.not_lt.mpr hle.2 hheight]
    rfl
  · have hlarge : widthLimit ≤ d.width.natAbs := Nat.not_lt.mp fun hlt => h ⟨hlt, hheight⟩
    rw [checkDigits_of_le hwidth, checkDigits_of_le hheight, axis_of_le hlarge, if_pos ⟨hwidth, hheight⟩]
    rfl

/-- A notice that cannot be written fails at its axis, and only then at the digits of its height. -/
theorem svg_notice_eq_error {first second : String} (hcontent : d.content = .notice first second)
    (h : ¬ Measured d.width d.height) :
    d.svg = .error (if d.width.natAbs < widthLimit then .tooManyDigits else .widthTooLarge) := by
  rw [svg, hcontent]
  dsimp only
  rcases Nat.lt_or_ge d.width.natAbs widthLimit with hwidth | hwidth
  · have hheight : digitLimit < digitCount d.height.natAbs := Nat.not_le.mp fun hle => h ⟨hwidth, hle⟩
    rw [axis_of_lt hwidth, checkDigits_of_le (digitCount_le_of_lt_widthLimit hwidth), checkDigits_of_lt hheight,
      if_pos hwidth]
    rfl
  · rw [axis_of_le hwidth, if_neg (Nat.not_lt.mpr hwidth)]
    rfl

theorem exists_error_of_not_measured (h : ¬ Measured d.width d.height) : ∃ e, d.svg = .error e := by
  cases hcontent : d.content with
  | chart c => exact ⟨_, svg_chart_eq_error hcontent h⟩
  | notice first second => exact ⟨_, svg_notice_eq_error hcontent h⟩

/-- Just the diagrams whose measures can be written have a document. -/
theorem svg_eq_ok_iff : d.svg = .ok s ↔ Measured d.width d.height ∧ d.document (middle d.width) = s := by
  by_cases h : Measured d.width d.height
  · rw [svg_of_measured h, Except.ok.injEq, and_iff_right h]
  · obtain ⟨e, he⟩ := exists_error_of_not_measured h
    simp [he, h]

end

end LeadSheet.Diagram
