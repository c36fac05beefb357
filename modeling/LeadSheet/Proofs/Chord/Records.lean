import LeadSheet.Chord.Record
import LeadSheet.Proofs.Json.Keys
import Mathlib.Data.List.Forall2

/-!
# Well-formed records

Which records of a database are well formed, said of the data alone, and that these are the ones that load.

* `IsPosition raw p` : the record states the fingering, as six symbols or as six numbers;
* `IsDefinition entry d` : the record states the definition, whose fingerings are those of its records that are well
  formed;
* `Keeps R as bs` : of the items `as` those that stand for something, each with what it stands for, in order;
* `loadPosition_fst_iff`, `loadDefinition_fst_iff`, `loadKey_fst_iff` : these are what loading keeps.
-/

namespace LeadSheet.Chord

/-! ## Keeping what is well formed -/

section Keeps

variable {α β : Type} {R : α → β → Prop}

/-- The second list has what the items of the first one stand for, in order. An item that stands for nothing is left
out. -/
inductive Keeps (R : α → β → Prop) : List α → List β → Prop
  | nil : Keeps R [] []
  | keep {a : α} {b : β} {as : List α} {bs : List β} : R a b → Keeps R as bs → Keeps R (a :: as) (b :: bs)
  | drop {a : α} {as : List α} {bs : List β} : (∀ b, ¬ R a b) → Keeps R as bs → Keeps R (a :: as) bs

theorem kept_cons {x : Reported β} {xs : List (Reported β)} : kept (x :: xs) = x.1.toList ++ kept xs := by
  obtain ⟨a, log⟩ := x
  cases a with
  | none => rfl
  | some a => rfl

theorem kept_append (xs ys : List (Reported β)) : kept (xs ++ ys) = kept xs ++ kept ys := List.filterMap_append

/-- Where loading an item gives what the item stands for, loading the items keeps what they stand for. -/
theorem keeps_iff {load : α → Reported β} (h : ∀ a b, (load a).1 = some b ↔ R a b) {as : List α} {bs : List β} :
    Keeps R as bs ↔ kept (as.map load) = bs := by
  constructor
  · intro hkeeps
    induction hkeeps with
    | nil => rfl
    | keep hab _ ih => rw [List.map_cons, kept_cons, (h _ _).mpr hab, ih]; rfl
    | @drop a as bs ha _ ih =>
        have hnone : (load a).1 = none := by
          rw [Option.eq_none_iff_forall_ne_some]
          exact fun b hb => ha b ((h a b).mp hb)
        rw [List.map_cons, kept_cons, hnone, ih]
        rfl
  · rintro rfl
    induction as with
    | nil => exact .nil
    | cons a as ih =>
        rw [List.map_cons, kept_cons]
        cases ha : (load a).1 with
        | none =>
            refine .drop (fun b hb => ?_) ih
            rw [(h a b).mpr hb] at ha
            exact absurd ha (Option.some_ne_none b)
        | some b => exact .keep ((h a b).mp ha) ih

theorem Keeps.of_mem {as : List α} {bs : List β} (h : Keeps R as bs) {b : β} (hb : b ∈ bs) : ∃ a ∈ as, R a b := by
  induction h with
  | nil => exact absurd hb List.not_mem_nil
  | @keep a _ as _ hab _ ih =>
      rcases List.mem_cons.mp hb with rfl | hb
      · exact ⟨a, List.mem_cons_self, hab⟩
      · obtain ⟨a', ha', hab'⟩ := ih hb
        exact ⟨a', List.mem_cons_of_mem a ha', hab'⟩
  | @drop a as _ _ _ ih =>
      obtain ⟨a', ha', hab'⟩ := ih hb
      exact ⟨a', List.mem_cons_of_mem a ha', hab'⟩

/-- The first item that stands for something gives the first item of what is kept. -/
theorem Keeps.head {front back : List α} {a : α} {bs : List β} (h : Keeps R (front ++ a :: back) bs)
    (hfront : ∀ x ∈ front, ∀ b, ¬ R x b) (ha : ∃ b, R a b) : ∃ b rest, bs = b :: rest ∧ R a b := by
  induction front with
  | nil =>
      cases h with
      | keep hb _ => exact ⟨_, _, rfl, hb⟩
      | drop hnone _ =>
          obtain ⟨b, hb⟩ := ha
          exact absurd hb (hnone b)
  | cons x front ih =>
      obtain ⟨hx, hfront⟩ := List.forall_mem_cons.mp hfront
      cases h with
      | keep hb _ => exact absurd hb (hx _)
      | drop _ htail => exact ih htail hfront

end Keeps

/-! ## Fingerings -/

def hexDigits : List Char := "0123456789abcdef".toList

/-- A fret and its symbol. There are no symbols for frets above 15. -/
inductive FretSymbol : Int → Char → Prop
  | muted {fret : Int} : fret < 0 → FretSymbol fret 'x'
  | digit {fret : Nat} {symbol : Char} : hexDigits[fret]? = some symbol → FretSymbol fret symbol

/-- The symbols that the frets of a record stand for. -/
inductive IsFrets : Json → String → Prop
  | symbols {s : String} : s.length = 6 → IsFrets (.text s) s
  | numbers {frets : List Int} {symbols : List Char} : frets.length = 6 → List.Forall₂ FretSymbol frets symbols →
      IsFrets (.array (frets.map .int)) (String.ofList symbols)

def IsPosition (raw : Json) (p : Position) : Prop := ∃ frets, raw.field? "frets" = some frets ∧ IsFrets frets p.frets

def IsPositionRecord (raw : Json) : Prop := ∃ p, IsPosition raw p

theorem IsFrets.length {frets : Json} {s : String} (h : IsFrets frets s) : s.length = 6 := by
  cases h with
  | symbols hlength => exact hlength
  | numbers hlength hsymbols => rw [String.length_ofList, ← hsymbols.length_eq, hlength]

theorem getElem?_hexDigits {n : Nat} {c : Char} : hexDigits[n]? = some c ↔ n ≤ 15 ∧ Nat.digitChar n = c := by
  have hdigits : ∀ n ≤ 15, hexDigits[n]? = some (Nat.digitChar n) := by decide
  constructor
  · intro h
    have hn : n ≤ 15 := by
      have := (List.getElem?_eq_some_iff.mp h).1
      rw [show hexDigits.length = 16 from rfl] at this
      omega
    rw [hdigits n hn] at h
    exact ⟨hn, Option.some.inj h⟩
  · rintro ⟨hn, rfl⟩
    exact hdigits n hn

theorem fretSymbol_iff {fret : Int} {c : Char} : FretSymbol fret c ↔ fret ≤ maxFret ∧ fretSymbol fret = c := by
  constructor
  · intro h
    cases h with
    | muted hneg => exact ⟨by unfold maxFret; omega, if_pos hneg⟩
    | digit hdigit =>
        rename_i n
        obtain ⟨hn, rfl⟩ := getElem?_hexDigits.mp hdigit
        have hneg : ¬ (n : Int) < 0 := by omega
        exact ⟨by unfold maxFret; omega, by rw [fretSymbol, if_neg hneg, Int.toNat_natCast]⟩
  · rintro ⟨hmax, rfl⟩
    by_cases hneg : fret < 0
    · rw [fretSymbol, if_pos hneg]
      exact .muted hneg
    · obtain ⟨n, rfl⟩ := Int.eq_ofNat_of_zero_le (Int.not_lt.mp hneg)
      rw [fretSymbol, if_neg hneg, Int.toNat_natCast]
      refine .digit (getElem?_hexDigits.mpr ⟨?_, rfl⟩)
      unfold maxFret at hmax
      omega

/-- The frets that have symbols are those up to the highest one. -/
theorem forall₂_fretSymbol_iff {frets : List Int} {symbols : List Char} :
    List.Forall₂ FretSymbol frets symbols ↔ (∀ fret ∈ frets, fret ≤ 15) ∧ symbols = frets.map fretSymbol := by
  constructor
  · intro h
    induction h with
    | nil => exact ⟨by simp, rfl⟩
    | @cons fret c frets symbols hfret _ ih =>
        obtain ⟨hmax, rfl⟩ := fretSymbol_iff.mp hfret
        obtain ⟨hmaxs, rfl⟩ := ih
        exact ⟨List.forall_mem_cons.mpr ⟨hmax, hmaxs⟩, rfl⟩
  · rintro ⟨hmax, rfl⟩
    rw [List.forall₂_map_right_iff, List.forall₂_same]
    exact fun fret hfret => fretSymbol_iff.mpr ⟨hmax fret hfret, rfl⟩

theorem readFret_eq_ok_iff {raw : Json} {c : Char} :
    readFret raw = .ok c ↔ ∃ fret : Int, raw = .int fret ∧ FretSymbol fret c := by
  cases raw with
  | int fret =>
      rw [readFret]
      split
      · rename_i hmax
        simp [fretSymbol_iff, Int.not_le.mpr hmax]
      · rename_i hmax
        simp [fretSymbol_iff, Int.not_lt.mp hmax]
  | _ => simp [readFret]

theorem mapM_readFret_eq_ok_iff {items : List Json} {symbols : List Char} :
    items.mapM readFret = .ok symbols ↔
      ∃ frets : List Int, items = frets.map .int ∧ List.Forall₂ FretSymbol frets symbols := by
  induction items generalizing symbols with
  | nil =>
      constructor
      · intro h
        obtain rfl := Except.ok.inj h
        exact ⟨[], rfl, .nil⟩
      · rintro ⟨frets, hfrets, hsymbols⟩
        obtain rfl := List.map_eq_nil_iff.mp hfrets.symm
        cases hsymbols
        rfl
  | cons item items ih =>
      rw [List.mapM_cons, Json.bind_eq_ok]
      constructor
      · rintro ⟨c, hc, h⟩
        obtain ⟨cs, hcs, h⟩ := Json.bind_eq_ok.mp h
        obtain rfl := Except.ok.inj h
        obtain ⟨fret, rfl, hfret⟩ := readFret_eq_ok_iff.mp hc
        obtain ⟨frets, rfl, hfrets⟩ := ih.mp hcs
        exact ⟨fret :: frets, rfl, .cons hfret hfrets⟩
      · rintro ⟨frets, hfrets, hsymbols⟩
        cases hsymbols with
        | nil => exact absurd hfrets (List.cons_ne_nil item items)
        | @cons fret c frets cs hfret hcs =>
            obtain ⟨rfl, rfl⟩ := List.cons.inj hfrets
            exact ⟨c, readFret_eq_ok_iff.mpr ⟨fret, rfl, hfret⟩, Json.bind_eq_ok.mpr ⟨cs, ih.mpr ⟨frets, rfl, hcs⟩, rfl⟩⟩

theorem readFrets_eq_ok_iff {frets : Json} {s : String} : readFrets frets = .ok s ↔ IsFrets frets s := by
  constructor
  · intro h
    unfold readFrets at h
    split at h
    · split at h
      · rename_i hlength
        obtain rfl := Except.ok.inj h
        exact .symbols hlength
      · simp at h
    · split at h
      · rename_i items hlength
        cases hm : items.mapM readFret with
        | error defect => simp [hm, Except.map] at h
        | ok symbols =>
            rw [hm] at h
            obtain rfl := Except.ok.inj h
            obtain ⟨frets, rfl, hsymbols⟩ := mapM_readFret_eq_ok_iff.mp hm
            rw [List.length_map] at hlength
            exact .numbers hlength hsymbols
      · simp at h
    · simp at h
  · intro h
    cases h with
    | symbols hlength => exact if_pos hlength
    | @numbers frets symbols hlength hsymbols =>
        have hm : (frets.map Json.int).mapM readFret = .ok symbols := mapM_readFret_eq_ok_iff.mpr ⟨frets, rfl, hsymbols⟩
        have hcount : (frets.map Json.int).length = stringCount := by rw [List.length_map, hlength]; rfl
        rw [readFrets, if_pos hcount, hm]
        rfl

theorem readPosition_eq_ok_iff {raw : Json} {p : Position} : readPosition raw = .ok p ↔ IsPosition raw p := by
  unfold readPosition IsPosition
  cases raw with
  | object fields =>
      simp only [Json.field?]
      cases fields.lookup "frets" with
      | none => simp
      | some frets =>
          simp only [Option.some.injEq, exists_eq_left', ← readFrets_eq_ok_iff]
          cases readFrets frets with
          | error defect => simp [Except.map]
          | ok s =>
              obtain ⟨s'⟩ := p
              simp [Except.map]
  | _ => simp [Json.field?]

theorem loadPosition_fst_iff {key suffix : String} {raw : Json} {p : Position} :
    (loadPosition key suffix raw).1 = some p ↔ IsPosition raw p := by
  rw [← readPosition_eq_ok_iff, loadPosition]
  cases readPosition raw with
  | error defect => simp
  | ok position => simp

/-! ## Definitions -/

/-- The records of fingerings in the record of a definition; none need be given. -/
def rawPositions (entry : Json) : List Json :=
  match entry.field? "positions" with
  | some (.array raw) => raw
  | _ => []

/-- The record is well formed, and this is its suffix. -/
structure HasSuffix (entry : Json) (suffix : String) : Prop where
  stated : entry.field? "suffix" = some (.text suffix)
  nonempty : suffix ≠ ""
  positions : entry.field? "positions" = none ∨ entry.field? "positions" = some (.array (rawPositions entry))

def IsDefinition (entry : Json) (d : Definition) : Prop :=
  HasSuffix entry d.suffix ∧ Keeps IsPosition (rawPositions entry) d.positions

def IsDefinitionRecord (entry : Json) : Prop := ∃ d, IsDefinition entry d

theorem readSuffix_eq_ok_iff {fields : List (String × Json)} {suffix : String} :
    readSuffix fields = .ok suffix ↔ fields.lookup "suffix" = some (.text suffix) ∧ suffix ≠ "" := by
  unfold readSuffix
  split
  · rename_i h
    simp [h]
  · rename_i s h
    rw [h]
    split
    · rename_i hempty
      rw [String.isEmpty_iff] at hempty
      subst hempty
      simp
    · rename_i hempty
      rw [String.isEmpty_iff] at hempty
      constructor
      · intro heq
        obtain rfl := Except.ok.inj heq
        exact ⟨rfl, hempty⟩
      · rintro ⟨heq, -⟩
        rw [Json.text.inj (Option.some.inj heq)]
  · rename_i value hno h
    rw [h]
    simp only [reduceCtorEq, Option.some.injEq, false_iff, not_and]
    rintro rfl
    exact absurd rfl (hno suffix)

theorem readRawPositions_eq_ok_iff {fields : List (String × Json)} {raw : List Json} :
    readRawPositions fields = .ok raw ↔
      raw = rawPositions (.object fields) ∧
        (fields.lookup "positions" = none ∨
          fields.lookup "positions" = some (.array (rawPositions (.object fields)))) := by
  unfold readRawPositions rawPositions
  simp only [Json.field?]
  split
  · rename_i h
    simp [h, eq_comm]
  · rename_i items h
    simp [h, eq_comm]
  · rename_i value hno h
    rw [h]
    cases value with
    | array items => exact absurd rfl (hno items)
    | _ => simp

theorem readRawDefinition_eq_ok_iff {entry : Json} {suffix : String} {raw : List Json} :
    readRawDefinition entry = .ok (suffix, raw) ↔ HasSuffix entry suffix ∧ raw = rawPositions entry := by
  cases entry with
  | object fields =>
      rw [readRawDefinition, Json.bind_eq_ok]
      constructor
      · rintro ⟨suffix', hsuffix, h⟩
        obtain ⟨raw', hraw, h⟩ := Json.bind_eq_ok.mp h
        obtain ⟨rfl, rfl⟩ := Prod.mk.inj (Except.ok.inj h)
        obtain ⟨hfield, hne⟩ := readSuffix_eq_ok_iff.mp hsuffix
        obtain ⟨hraw, hlisted⟩ := readRawPositions_eq_ok_iff.mp hraw
        exact ⟨⟨hfield, hne, hlisted⟩, hraw⟩
      · rintro ⟨⟨hfield, hne, hlisted⟩, hraw⟩
        exact ⟨suffix, readSuffix_eq_ok_iff.mpr ⟨hfield, hne⟩,
          Json.bind_eq_ok.mpr ⟨raw, readRawPositions_eq_ok_iff.mpr ⟨hraw, hlisted⟩, rfl⟩⟩
  | _ =>
      constructor
      · intro h
        simp [readRawDefinition] at h
      · rintro ⟨h, -⟩
        exact absurd h.stated (by simp [Json.field?])

theorem loadDefinition_of_hasSuffix {key : String} {entry : Json} {suffix : String} (h : HasSuffix entry suffix) :
    loadDefinition key entry =
      (some ⟨suffix, kept ((rawPositions entry).map (loadPosition key suffix))⟩,
        reports ((rawPositions entry).map (loadPosition key suffix))) := by
  rw [loadDefinition, readRawDefinition_eq_ok_iff.mpr ⟨h, rfl⟩]

theorem loadDefinition_of_malformed {key : String} {entry : Json} (h : ∀ suffix, ¬ HasSuffix entry suffix) :
    ∃ defect, loadDefinition key entry = (none, [definitionReport key defect]) := by
  rw [loadDefinition]
  cases hread : readRawDefinition entry with
  | error defect => exact ⟨defect, rfl⟩
  | ok record =>
      obtain ⟨suffix, raw⟩ := record
      exact absurd (readRawDefinition_eq_ok_iff.mp hread).1 (h suffix)

theorem isDefinitionRecord_iff {entry : Json} : IsDefinitionRecord entry ↔ ∃ suffix, HasSuffix entry suffix := by
  constructor
  · rintro ⟨d, hd, -⟩
    exact ⟨d.suffix, hd⟩
  · rintro ⟨suffix, h⟩
    exact ⟨⟨suffix, kept ((rawPositions entry).map (loadPosition "" suffix))⟩, h,
      (keeps_iff fun _ _ => loadPosition_fst_iff).mpr rfl⟩

theorem loadDefinition_fst_iff {key : String} {entry : Json} {d : Definition} :
    (loadDefinition key entry).1 = some d ↔ IsDefinition entry d := by
  constructor
  · intro h
    by_cases hentry : ∃ suffix, HasSuffix entry suffix
    · obtain ⟨suffix, hsuffix⟩ := hentry
      rw [loadDefinition_of_hasSuffix hsuffix] at h
      obtain rfl := Option.some.inj h
      exact ⟨hsuffix, (keeps_iff fun _ _ => loadPosition_fst_iff).mpr rfl⟩
    · obtain ⟨defect, hload⟩ := @loadDefinition_of_malformed key entry fun suffix hs => hentry ⟨suffix, hs⟩
      rw [hload] at h
      exact absurd h.symm (Option.some_ne_none d)
  · rintro ⟨hsuffix, hpositions⟩
    rw [loadDefinition_of_hasSuffix hsuffix, (keeps_iff fun _ _ => loadPosition_fst_iff).mp hpositions]

/-! ## Keys -/

/-- The key under which the entries of a field are loaded. -/
def IsKey (field : String × Json) (key : String) : Prop :=
  key = field.1 ∧ field.1 ≠ "" ∧ ∃ entries, field.2 = .array entries

/-- The entries of a field that is loaded; none where the key is empty or the value is not a list. -/
def entriesOf (field : String × Json) : List Json :=
  match field.2 with
  | .array entries => if field.1 = "" then [] else entries
  | _ => []

theorem entriesOf_of_malformed {field : String × Json} (h : ∀ key, ¬ IsKey field key) : entriesOf field = [] := by
  obtain ⟨name, value⟩ := field
  cases value with
  | array entries =>
      by_cases hname : name = ""
      · exact if_pos hname
      · exact absurd ⟨rfl, hname, entries, rfl⟩ (h name)
  | _ => rfl

theorem loadKey_of_isKey {field : String × Json} {key : String} (h : IsKey field key) :
    loadKey field.1 field.2 =
      (some (key, kept ((entriesOf field).map (loadDefinition key))),
        reports ((entriesOf field).map (loadDefinition key))) := by
  obtain ⟨name, value⟩ := field
  obtain ⟨rfl, hne, entries, rfl⟩ := h
  have hkey : key ≠ "" := hne
  have hempty : ¬ key.isEmpty = true := by rwa [String.isEmpty_iff]
  simp only [loadKey, entriesOf, if_neg hempty, if_neg hkey]

theorem loadKey_of_malformed {field : String × Json} (h : ∀ key, ¬ IsKey field key) :
    ∃ report, (report = emptyKeyReport field.1 ∨ report = notAListReport field.1) ∧
      loadKey field.1 field.2 = (none, [report]) := by
  obtain ⟨name, value⟩ := field
  by_cases hname : name = ""
  · subst hname
    exact ⟨emptyKeyReport "", Or.inl rfl, rfl⟩
  · have hempty : ¬ name.isEmpty = true := by rwa [String.isEmpty_iff]
    cases value with
    | array entries => exact absurd ⟨rfl, hname, entries, rfl⟩ (h name)
    | _ => exact ⟨notAListReport name, Or.inr rfl, by simp only [loadKey, if_neg hempty]⟩

theorem loadKey_fst_iff {field : String × Json} {key : String} {ds : List Definition} :
    (loadKey field.1 field.2).1 = some (key, ds) ↔ IsKey field key ∧ Keeps IsDefinition (entriesOf field) ds := by
  by_cases hfield : ∃ key, IsKey field key
  · obtain ⟨name, hname⟩ := hfield
    have hkey : IsKey field key ↔ name = key :=
      ⟨fun h => hname.1.trans h.1.symm, fun h => h ▸ hname⟩
    rw [loadKey_of_isKey hname, hkey, keeps_iff fun _ _ => @loadDefinition_fst_iff name _ _]
    simp
  · obtain ⟨report, -, hload⟩ := loadKey_of_malformed fun key h => hfield ⟨key, h⟩
    rw [hload]
    constructor
    · intro h
      exact absurd h.symm (Option.some_ne_none _)
    · rintro ⟨h, -⟩
      exact absurd ⟨key, h⟩ hfield

end LeadSheet.Chord
