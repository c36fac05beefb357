import LeadSheet.Text.Quoted

/-!
# Texts of the system

Arguments, paths and values of the environment are bytes to the system. They are read as UTF-8, and a byte that belongs
to no character is kept as it is, so that a path leads to its file whatever bytes it has. Such a *stray* byte can be
written neither to standard output nor into a file; standard error and messages show it by a number.
-/

namespace LeadSheet.Command

/-- A character, or a byte that belongs to none. -/
inductive SystemChar
  | char (c : Char)
  | stray (byte : UInt8)
  deriving DecidableEq

abbrev SystemText := List SystemChar

namespace SystemChar

/-- The number under which a stray byte is shown. -/
def escape (byte : UInt8) : List Char := ['\\', 'u', 'd', 'c'] ++ Text.hexNumber 2 byte.toNat

def shown : SystemChar → List Char
  | char c => [c]
  | stray byte => escape byte

def quote (mark : Char) : SystemChar → List Char
  | char c => Text.quoteChar mark c
  | stray byte => escape byte

def byteSize : SystemChar → Nat
  | char c => c.utf8Size
  | stray _ => 1

def isChar : SystemChar → Bool
  | char _ => true
  | stray _ => false

end SystemChar

namespace SystemText

def ofString (s : String) : SystemText := s.toList.map .char

instance : Coe String SystemText := ⟨ofString⟩

/-- The characters of a text that has no stray bytes. -/
def chars? : SystemText → Option (List Char)
  | [] => some []
  | .char c :: rest => (chars? rest).map (c :: ·)
  | .stray _ :: _ => none

/-- A text that has no stray bytes, as it is written. -/
def toString? (text : SystemText) : Option String := (chars? text).map String.ofList

/-- A text as standard error shows it. -/
def shown (text : SystemText) : String := String.ofList (text.flatMap SystemChar.shown)

def quoted (text : SystemText) : String :=
  let mark := if text.contains (.char '\'') && !text.contains (.char '"') then '"' else '\''
  String.ofList (mark :: text.flatMap (SystemChar.quote mark) ++ [mark])

def byteSize (text : SystemText) : Nat := text.foldr (fun c size => c.byteSize + size) 0

theorem chars?_eq_some_iff {text : SystemText} {s : List Char} : chars? text = some s ↔ text = s.map .char := by
  induction text generalizing s with
  | nil => simp [chars?, eq_comm]
  | cons c text ih =>
      cases c with
      | stray byte => cases s with
        | nil => simp [chars?]
        | cons d s => simp [chars?]
      | char c =>
          rw [chars?, Option.map_eq_some_iff]
          cases s with
          | nil => simp
          | cons d s =>
              rw [List.map_cons, List.cons.injEq, SystemChar.char.injEq]
              constructor
              · rintro ⟨rest, hrest, heq⟩
                obtain ⟨rfl, rfl⟩ := List.cons.inj heq
                exact ⟨rfl, ih.mp hrest⟩
              · rintro ⟨rfl, htext⟩
                exact ⟨s, ih.mpr htext, rfl⟩

theorem toString?_eq_some_iff {text : SystemText} {s : String} : toString? text = some s ↔ text = ofString s := by
  rw [toString?, Option.map_eq_some_iff, ofString]
  constructor
  · rintro ⟨chars, hchars, rfl⟩
    rw [chars?_eq_some_iff.mp hchars, String.toList_ofList]
  · intro h
    exact ⟨s.toList, chars?_eq_some_iff.mpr h, String.ofList_toList⟩

@[simp] theorem toString?_ofString (s : String) : toString? (ofString s) = some s := toString?_eq_some_iff.mpr rfl

/-- A text without stray bytes. -/
def IsText (text : SystemText) : Prop := ∀ c ∈ text, c.isChar = true

instance (text : SystemText) : Decidable (IsText text) := inferInstanceAs (Decidable (∀ c ∈ text, c.isChar = true))

theorem isText_ofString (s : String) : IsText (ofString s) := by
  intro c hc
  obtain ⟨d, -, rfl⟩ := List.mem_map.mp hc
  rfl

theorem exists_eq_ofString {text : SystemText} (h : IsText text) : ∃ s, text = ofString s := by
  induction text with
  | nil => exact ⟨"", rfl⟩
  | cons c text ih =>
      obtain ⟨hc, htext⟩ := List.forall_mem_cons.mp h
      obtain ⟨s, rfl⟩ := ih htext
      cases c with
      | stray byte => exact absurd hc Bool.false_ne_true
      | char c => exact ⟨String.ofList (c :: s.toList), by rw [ofString, ofString, String.toList_ofList, List.map_cons]⟩

theorem toString?_eq_none_iff {text : SystemText} : toString? text = none ↔ ¬ IsText text := by
  constructor
  · intro h htext
    obtain ⟨s, rfl⟩ := exists_eq_ofString htext
    rw [toString?_ofString] at h
    exact absurd h (by simp)
  · intro h
    cases hs : toString? text with
    | none => rfl
    | some s => exact absurd (toString?_eq_some_iff.mp hs ▸ isText_ofString s) h

theorem isText_append {s t : SystemText} : IsText (s ++ t) ↔ IsText s ∧ IsText t := List.forall_mem_append

theorem IsText.subset {s t : SystemText} (h : IsText t) (hsubset : s ⊆ t) : IsText s := fun c hc => h c (hsubset hc)

theorem ofString_append (s t : String) : ofString (s ++ t) = ofString s ++ ofString t := by
  rw [ofString, String.toList_append, List.map_append]
  rfl

theorem ofString_injective {s t : String} (h : ofString s = ofString t) : s = t :=
  Option.some.inj ((toString?_ofString s).symm.trans ((congrArg toString? h).trans (toString?_ofString t)))

end SystemText

end LeadSheet.Command
