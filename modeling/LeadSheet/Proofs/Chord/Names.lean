import LeadSheet.Chord.Oracle
import LeadSheet.Proofs.Escape

/-!
# The characters of chord names

`isChord_all` : where the keys and the qualities of a database have characters of one class only, so have the
chord names that it knows. The characters outside the class must be foreign to names: no case of a letter, no
pitch and no accidental, and in no spelling of a quality.

`isChord_plain` : so where no key and no quality has a character with a meaning in the markup, no chord name has
one. Such a name reads in a document as it reads in the song.
-/

namespace LeadSheet.Chord

open Text

/-- No key and no quality has a character with a meaning in the markup. -/
def Database.IsPlain (db : Database) : Prop :=
  ∀ entry ∈ db.entries,
    entry.1.toList.all isPlain = true ∧ ∀ d ∈ entry.2, d.suffix.toList.all isPlain = true

/-- The database that knows nothing but C major. -/
def Database.cMajor : Database := ⟨[("C", [⟨"major", []⟩])]⟩

instance (db : Database) : Decidable db.IsPlain :=
  inferInstanceAs (Decidable (∀ entry ∈ db.entries,
    entry.1.toList.all isPlain = true ∧ ∀ d ∈ entry.2, d.suffix.toList.all isPlain = true))

theorem find?_eq_some {db : Database} {key suffix : String} {d : Definition} (h : db.find? key suffix = some d) :
    ∃ ds, (key, ds) ∈ db.entries ∧ d ∈ ds ∧ d.suffix = suffix := by
  unfold Database.find? Database.definitions at h
  cases hkey : db.entries.lookup key with
  | none => simp [hkey] at h
  | some ds =>
      rw [hkey, Option.getD_some] at h
      obtain ⟨front, back, hentries, -⟩ := List.lookup_eq_some_iff.mp hkey
      refine ⟨ds, by simp [hentries], List.mem_of_find?_eq_some h, ?_⟩
      simpa using List.find?_some h

/-- The keys and the qualities have characters of the class only. -/
def Database.All (p : Char → Bool) (db : Database) : Prop :=
  ∀ entry ∈ db.entries, entry.1.toList.all p = true ∧ ∀ d ∈ entry.2, d.suffix.toList.all p = true

instance (p : Char → Bool) (db : Database) : Decidable (db.All p) :=
  inferInstanceAs (Decidable (∀ entry ∈ db.entries,
    entry.1.toList.all p = true ∧ ∀ d ∈ entry.2, d.suffix.toList.all p = true))

/-- The characters outside the class are foreign to names: lower case keeps them, and neither a pitch nor a
listed spelling of a quality has one. -/
structure Foreign (p : Char → Bool) : Prop where
  lower : ∀ c, p c = false → (c == 'Σ') = false ∧ lowerChar c = [c]
  pitch : ∀ c, isPitchLetter c = true → p c = true
  accidental : ∀ c, isAccidental c = true → p c = true
  spelling : ∀ s ∈ suffixSpellings, s.1.toList.all p = true

theorem Database.All.of_find? {p : Char → Bool} {db : Database} (hdb : db.All p) {key suffix : String}
    (h : (db.find? key suffix).isSome = true) : key.toList.all p = true ∧ suffix.toList.all p = true := by
  obtain ⟨d, hd⟩ := Option.isSome_iff_exists.mp h
  obtain ⟨ds, hentry, hmem, rfl⟩ := find?_eq_some hd
  exact ⟨(hdb _ hentry).1, (hdb _ hentry).2 d hmem⟩

namespace Foreign

variable {p : Char → Bool} (hp : Foreign p)

include hp

theorem all_of_lowerFrom {seen : Bool} {s : List Char} (h : (lowerFrom seen s).all p = true) :
    s.all p = true := by
  induction s generalizing seen with
  | nil => rfl
  | cons c s ih =>
      simp only [lowerFrom, List.all_append, Bool.and_eq_true] at h
      rw [List.all_cons, ih h.2, Bool.and_true]
      cases hc : p c with
      | true => rfl
      | false =>
          obtain ⟨hsigma, hlower⟩ := hp.lower c hc
          have hhere := h.1
          simp [hsigma, hlower, hc] at hhere

theorem all_of_normalizeSuffix {s : List Char} (h : (normalizeSuffix s).toList.all p = true) :
    s.all p = true := by
  refine @all_of_lowerFrom p hp false _ ?_
  simp only [normalizeSuffix] at h
  cases hlookup : suffixSpellings.lookup (String.ofList (Text.lower s)) with
  | none => rwa [hlookup, Option.getD_none, String.toList_ofList] at h
  | some spelling =>
      obtain ⟨front, back, hentries, -⟩ := List.lookup_eq_some_iff.mp hlookup
      have hlisted := hp.spelling (String.ofList (Text.lower s), spelling) (by simp [hentries])
      rwa [String.toList_ofList] at hlisted

theorem splitName?_eq_some {name key suffix : List Char} (h : splitName? name = some (key, suffix)) :
    name = key ++ suffix ∧ key.all p = true := by
  match name with
  | [] => simp [splitName?] at h
  | [letter] =>
      simp only [splitName?] at h
      split at h
      · rename_i hpitch
        simp only [Option.some.injEq, Prod.mk.injEq] at h
        obtain ⟨rfl, rfl⟩ := h
        exact ⟨rfl, by simp [hp.pitch _ hpitch]⟩
      · simp at h
  | letter :: accidental :: rest =>
      simp only [splitName?] at h
      split at h
      · rename_i hpitch
        split at h
        · rename_i hacc
          simp only [Option.some.injEq, Prod.mk.injEq] at h
          obtain ⟨rfl, rfl⟩ := h
          exact ⟨rfl, by simp [hp.pitch _ hpitch, hp.accidental _ hacc]⟩
        · simp only [Option.some.injEq, Prod.mk.injEq] at h
          obtain ⟨rfl, rfl⟩ := h
          exact ⟨rfl, by simp [hp.pitch _ hpitch]⟩
      · simp at h

end Foreign

/-- A chord of a database with characters of one class has no others in its name. -/
theorem isChord_all {p : Char → Bool} (hp : Foreign p) {db : Database} (hdb : db.All p) {name : List Char}
    (h : db.isChord name = true) : name.all p = true := by
  unfold Database.isChord Database.findName? at h
  split at h
  · simp at h
  · rename_i hne
    obtain ⟨hkey, hsuffix⟩ := hdb.of_find? h
    rw [Token.ofText, if_neg hne, Token.ofName] at hkey hsuffix
    cases hsplit : splitName? name with
    | none =>
        rw [hsplit] at hkey
        rwa [String.toList_ofList] at hkey
    | some parts =>
        obtain ⟨pitch, quality⟩ := parts
        obtain ⟨rfl, hpitch⟩ := hp.splitName?_eq_some hsplit
        rw [hsplit] at hsuffix
        rw [List.all_append, hpitch, hp.all_of_normalizeSuffix hsuffix, Bool.and_self]

theorem foreign_isPlain : Foreign isPlain where
  lower c hc := by
    rcases eq_of_not_isPlain hc with rfl | rfl | rfl
    · decide
    · decide
    · decide
  pitch _ := isPlain_of_class (by decide)
  accidental _ := isPlain_of_class (by decide)
  spelling := by decide

/-- A chord of a database without markup has none in its name. -/
theorem isChord_plain {db : Database} (hdb : db.IsPlain) {name : List Char} (h : db.isChord name = true) :
    name.all isPlain = true :=
  isChord_all foreign_isPlain hdb h

/-- The character is in no key and in no quality. -/
def Database.Lacks (c : Char) (db : Database) : Prop :=
  ∀ entry ∈ db.entries, c ∉ entry.1.toList ∧ ∀ d ∈ entry.2, c ∉ d.suffix.toList

instance (c : Char) (db : Database) : Decidable (db.Lacks c) :=
  inferInstanceAs (Decidable (∀ entry ∈ db.entries, c ∉ entry.1.toList ∧ ∀ d ∈ entry.2, c ∉ d.suffix.toList))

/-- A character that is foreign to names. -/
theorem foreign_ne {c : Char} (hlower : (c == 'Σ') = false ∧ lowerChar c = [c]) (hpitch : isPitchLetter c = false)
    (haccidental : isAccidental c = false) (hspelling : ∀ s ∈ suffixSpellings, s.1.toList.all (· != c) = true) :
    Foreign (· != c) where
  lower d hd := by
    obtain rfl : d = c := by simpa using hd
    exact hlower
  pitch d hd := by
    rw [bne_iff_ne]
    rintro rfl
    rw [hpitch] at hd
    exact Bool.false_ne_true hd
  accidental d hd := by
    rw [bne_iff_ne]
    rintro rfl
    rw [haccidental] at hd
    exact Bool.false_ne_true hd
  spelling := hspelling

theorem foreign_ne_open : Foreign (· != '<') :=
  foreign_ne (by decide) (by decide) (by decide) (by decide)

theorem foreign_ne_lf : Foreign (· != '\n') :=
  foreign_ne (by decide) (by decide) (by decide) (by decide)

/-- Where no key and no quality has a character that is foreign to names, no chord name has it. -/
theorem not_mem_of_isChord {c : Char} (hc : Foreign (· != c)) {db : Database} (hdb : db.Lacks c) {name : List Char}
    (h : db.isChord name = true) : c ∉ name := by
  have hall : ∀ {s : List Char}, c ∉ s → s.all (· != c) = true := by
    intro s hs
    rw [List.all_eq_true]
    exact fun d hd => bne_iff_ne.mpr fun heq => hs (heq ▸ hd)
  have hdb : db.All (· != c) :=
    fun entry hentry => ⟨hall (hdb entry hentry).1, fun d hd => hall ((hdb entry hentry).2 d hd)⟩
  have hname := List.all_eq_true.mp (isChord_all hc hdb h)
  intro hmem
  have := hname c hmem
  simp at this

end LeadSheet.Chord
