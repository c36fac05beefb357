import LeadSheet.Text.Escape

/-!
# Escaping

* `isPlain` : the characters that escaping leaves alone;
* `decode` : a text with its entities decoded once, which undoes escaping (`decode_escape`).
-/

namespace LeadSheet.Text

/-! ## Plain text -/

/-- A character without a meaning in the markup of a document. -/
def isPlain (c : Char) : Bool := c != '<' && c != '>' && c != '&'

theorem eq_of_not_isPlain {c : Char} (h : isPlain c = false) : c = '<' ∨ c = '>' ∨ c = '&' := by
  simp only [isPlain, Bool.and_eq_false_iff, bne_eq_false_iff_eq] at h
  rwa [or_assoc] at h

/-- A class of characters without the three special ones is plain. -/
theorem isPlain_of_class {p : Char → Bool} (hp : p '<' = false ∧ p '>' = false ∧ p '&' = false) {c : Char}
    (hc : p c = true) : isPlain c = true := by
  cases hplain : isPlain c with
  | true => rfl
  | false =>
      obtain ⟨hopen, hclose, hand⟩ := hp
      rcases eq_of_not_isPlain hplain with rfl | rfl | rfl
      · simp [hopen] at hc
      · simp [hclose] at hc
      · simp [hand] at hc

theorem escapeChar_of_isPlain {c : Char} (h : isPlain c = true) : escapeChar c = [c] := by
  simp only [isPlain, Bool.and_eq_true, bne_iff_ne, ne_eq] at h
  simp [escapeChar, h]

theorem escape_of_plain {s : List Char} (h : s.all isPlain = true) : escape s = s := by
  induction s with
  | nil => rfl
  | cons c s ih =>
      rw [List.all_cons, Bool.and_eq_true] at h
      rw [escape_cons, escapeChar_of_isPlain h.1, ih h.2, List.singleton_append]

/-- What looks plain once it is escaped was plain before. -/
theorem isPlain_of_escapeChar {c : Char} (h : (escapeChar c).all isPlain = true) : isPlain c = true := by
  cases hplain : isPlain c with
  | true => rfl
  | false =>
      rcases eq_of_not_isPlain hplain with rfl | rfl | rfl
      · exact absurd h (by decide)
      · exact absurd h (by decide)
      · exact absurd h (by decide)

theorem escapeAttribute_of_plain {s : List Char} (h : s.all isPlain = true) (hquote : '"' ∉ s) :
    escapeAttribute s = s := by
  induction s with
  | nil => rfl
  | cons c s ih =>
      simp only [List.all_cons, Bool.and_eq_true, isPlain, bne_iff_ne, ne_eq] at h
      rw [List.mem_cons, not_or] at hquote
      have hc : escapeAttributeChar c = [c] := by
        simp [escapeAttributeChar, escapeChar, h.1, Ne.symm hquote.1]
      rw [escapeAttribute, List.flatMap_cons, hc]
      exact congrArg (c :: ·) (ih h.2 hquote.2)

/-! ## Decoding -/

/-- The text with its entities decoded once. -/
def decode : List Char → List Char
  | [] => []
  | '&' :: 'a' :: 'm' :: 'p' :: ';' :: s => '&' :: decode s
  | '&' :: 'l' :: 't' :: ';' :: s => '<' :: decode s
  | '&' :: 'g' :: 't' :: ';' :: s => '>' :: decode s
  | '&' :: 'q' :: 'u' :: 'o' :: 't' :: ';' :: s => '"' :: decode s
  | c :: s => c :: decode s

theorem decode_escape (s : List Char) : decode (escape s) = s := by
  induction s with
  | nil => rfl
  | cons c s ih =>
      rw [escape_cons]
      unfold escapeChar
      split
      · rename_i hc
        rw [hc]
        exact congrArg ('&' :: ·) ih
      · split
        · rename_i hc
          rw [hc]
          exact congrArg ('<' :: ·) ih
        · split
          · rename_i hc
            rw [hc]
            exact congrArg ('>' :: ·) ih
          · rename_i hand _ _
            rw [List.singleton_append, decode, ih] <;> simp [hand]

end LeadSheet.Text
