import LeadSheet.Chord.Oracle
import LeadSheet.Proofs.Chord.Loading

/-!
# The spellings of a chord

A pitch has several spellings: two for each black key, and each of them in any letter case. Whatever the spelling, the
same chord is found.

* `SameLetters s t` : the texts differ in the case of ASCII letters only; upper and lower case do not see the difference
  (`upper_congr`, `lower_congr`), so neither does a name's pitch and quality (`exists_split`);
* `Spells pitch suffix key` : the pitch is a spelling of the key, and the suffix does not change how it is read;
* `Spells.findName?_eq` : a chord is looked up under the key of its pitch;
* `exists_spelling` : each definition under one of the twelve keys has a name, unless its suffix is spelled in another
  way or would be taken for an accidental;
* `findName?_spelling` : all of this together.
-/

namespace LeadSheet

namespace Text

/-! ## Letter case -/

/-- The same character, or the same ASCII letter in another case. -/
def SameLetter (c d : Char) : Prop := c.toUpper = d.toUpper

instance (c d : Char) : Decidable (SameLetter c d) := inferInstanceAs (Decidable (c.toUpper = d.toUpper))

/-- The texts differ in the case of ASCII letters only. -/
def SameLetters : (s t : List Char) → Prop := List.Forall₂ SameLetter

instance (s t : List Char) : Decidable (SameLetters s t) := inferInstanceAs (Decidable (List.Forall₂ SameLetter s t))

theorem toNat_toUpper (c : Char) :
    c.toUpper.toNat = if 97 ≤ c.toNat ∧ c.toNat ≤ 122 then c.toNat - 32 else c.toNat := by
  have hlower : ('a'.val ≤ c.val ∧ c.val ≤ 'z'.val) ↔ 97 ≤ c.toNat ∧ c.toNat ≤ 122 := by
    simp [UInt32.le_iff_toNat_le]
  unfold Char.toUpper
  split
  · rename_i h
    have hrange := hlower.mp h
    have hshift : ('A'.val - 'a'.val).toNat = 2 ^ 32 - 32 := by decide
    have hsum : c.toNat + (2 ^ 32 - 32) = (c.toNat - 32) + 2 ^ 32 := by omega
    rw [if_pos hrange]
    show (c.val + ('A'.val - 'a'.val)).toNat = c.toNat - 32
    rw [UInt32.toNat_add, hshift, Char.toNat_val, hsum, Nat.add_mod_right, Nat.mod_eq_of_lt (by omega)]
  · rename_i h
    rw [if_neg (mt hlower.mpr h)]

/-- The capital letter with the number `n`, and the small one. -/
theorem SameLetter.eq_or {c d : Char} (h : SameLetter c d) :
    c = d ∨ ∃ n < 26, (c = Char.ofNat (65 + n) ∨ c = Char.ofNat (97 + n)) ∧
      (d = Char.ofNat (65 + n) ∨ d = Char.ofNat (97 + n)) := by
  have hnat := congrArg Char.toNat h
  have hletter : ∀ {c : Char} {k : Nat}, c.toNat = k → c = Char.ofNat k := by
    rintro c _ rfl
    exact (Char.ofNat_toNat c).symm
  rw [toNat_toUpper, toNat_toUpper] at hnat
  split at hnat
  · split at hnat
    · exact Or.inl (Char.toNat_inj.mp (by omega))
    · exact Or.inr ⟨c.toNat - 97, by omega, Or.inr (hletter (by omega)), Or.inl (hletter (by omega))⟩
  · split at hnat
    · exact Or.inr ⟨d.toNat - 97, by omega, Or.inl (hletter (by omega)), Or.inr (hletter (by omega))⟩
    · exact Or.inl (Char.toNat_inj.mp hnat)

/-- What does not tell a capital letter from a small one does not see letter case. -/
theorem SameLetter.congr {α : Type} {f : Char → α} (hf : ∀ n < 26, f (Char.ofNat (65 + n)) = f (Char.ofNat (97 + n)))
    {c d : Char} (h : SameLetter c d) : f c = f d := by
  rcases h.eq_or with rfl | ⟨n, hn, rfl | rfl, rfl | rfl⟩
  · rfl
  · rfl
  · exact hf n hn
  · exact (hf n hn).symm
  · rfl

theorem isCaseIgnorable_of_letter {c : Char} (h : 65 ≤ c.toNat ∧ c.toNat ≤ 90 ∨ 97 ≤ c.toNat ∧ c.toNat ≤ 122) :
    isCaseIgnorable c = false := by
  have hranges : ∀ r ∈ caseIgnorableRanges, (r.2 < 65 ∨ 90 < r.1) ∧ (r.2 < 97 ∨ 122 < r.1) := by decide +kernel
  rw [isCaseIgnorable, Bool.eq_false_iff, ne_eq, Ranges.contains_iff]
  rintro ⟨r, hr, hlow, hhigh⟩
  have hr := hranges r hr
  omega

theorem isCaseIgnorable_congr {c d : Char} (h : SameLetter c d) : isCaseIgnorable c = isCaseIgnorable d := by
  have hcode : ∀ n < 26, (Char.ofNat (65 + n)).toNat = 65 + n ∧ (Char.ofNat (97 + n)).toNat = 97 + n := by decide
  refine h.congr fun n hn => ?_
  obtain ⟨hcapital, hsmall⟩ := hcode n hn
  rw [isCaseIgnorable_of_letter (by omega), isCaseIgnorable_of_letter (by omega)]

theorem isCased_congr {c d : Char} (h : SameLetter c d) : isCased c = isCased d := h.congr (by decide +kernel)

theorem upper_congr {s t : List Char} (h : SameLetters s t) : upper s = upper t := by
  induction h with
  | nil => rfl
  | @cons c d s t hc _ ih =>
      have hchar : upperChar c = upperChar d := hc.congr (by decide +kernel)
      simp only [upper, List.flatMap_cons] at ih ⊢
      rw [hchar, ih]

theorem beforeLetter_congr {s t : List Char} (h : SameLetters s t) : beforeLetter s = beforeLetter t := by
  induction h with
  | nil => rfl
  | @cons c d s t hc _ ih =>
      unfold beforeLetter at ih ⊢
      rw [List.dropWhile_cons, List.dropWhile_cons, isCaseIgnorable_congr hc]
      cases isCaseIgnorable d with
      | true => exact ih
      | false => exact isCased_congr hc

theorem lowerFrom_congr {s t : List Char} (h : SameLetters s t) (seen : Bool) :
    lowerFrom seen s = lowerFrom seen t := by
  induction h generalizing seen with
  | nil => rfl
  | @cons c d s t hc hs ih =>
      have hchar : lowerChar c = lowerChar d := hc.congr (by decide +kernel)
      have hsigma : (c == 'Σ') = (d == 'Σ') := hc.congr (f := fun c => c == 'Σ') (by decide +kernel)
      have hafter : afterLetter seen c = afterLetter seen d := by
        rw [afterLetter, afterLetter, isCaseIgnorable_congr hc, isCased_congr hc]
      rw [lowerFrom, lowerFrom, hchar, hsigma, hafter, beforeLetter_congr hs, ih]

theorem lower_congr {s t : List Char} (h : SameLetters s t) : lower s = lower t := lowerFrom_congr h false

end Text

namespace Chord

open Text

/-! ## Names that differ in letter case -/

theorem normalizeKey_congr {s t : List Char} (h : SameLetters s t) : normalizeKey s = normalizeKey t := by
  rw [normalizeKey, normalizeKey, upper_congr h]

theorem normalizeSuffix_congr {s t : List Char} (h : SameLetters s t) : normalizeSuffix s = normalizeSuffix t := by
  rw [normalizeSuffix, normalizeSuffix, lower_congr h]

theorem isPitchLetter_congr {c d : Char} (h : SameLetter c d) : isPitchLetter c = isPitchLetter d :=
  h.congr (by decide +kernel)

theorem isAccidental_congr {c d : Char} (h : SameLetter c d) : isAccidental c = isAccidental d :=
  h.congr (by decide +kernel)

section Split

variable {letter : Char} (hletter : isPitchLetter letter = true)

include hletter

theorem splitName?_natural {suffix : List Char} (h : ∀ c ∈ suffix.head?, isAccidental c = false) :
    splitName? (letter :: suffix) = some ([letter], suffix) := by
  cases suffix with
  | nil => simp [splitName?, hletter]
  | cons c suffix => simp [splitName?, hletter, h c rfl]

theorem splitName?_accidental {accidental : Char} (h : isAccidental accidental = true) (suffix : List Char) :
    splitName? (letter :: accidental :: suffix) = some ([letter, accidental], suffix) := by
  simp [splitName?, hletter, h]

end Split

/-- Names that differ in letter case only are split at the same place. -/
theorem exists_split {name name' : List Char} (h : SameLetters name name')
    (hpitch : name.head?.any isPitchLetter = true) :
    ∃ pitch pitch' suffix suffix', splitName? name = some (pitch, suffix) ∧ splitName? name' = some (pitch', suffix') ∧
      SameLetters pitch pitch' ∧ SameLetters suffix suffix' := by
  cases h with
  | nil => simp at hpitch
  | @cons letter letter' rest rest' hl hrest =>
      have hletter : isPitchLetter letter = true := by simpa using hpitch
      have hletter' : isPitchLetter letter' = true := (isPitchLetter_congr hl).symm.trans hletter
      cases hrest with
      | nil => exact ⟨_, _, _, _, splitName?_natural hletter (by simp), splitName?_natural hletter' (by simp),
          .cons hl .nil, .nil⟩
      | @cons c c' rest rest' hc hrest =>
          have haccidental := isAccidental_congr hc
          cases hcase : isAccidental c with
          | true =>
              exact ⟨_, _, _, _, splitName?_accidental hletter hcase rest,
                splitName?_accidental hletter' (haccidental ▸ hcase) rest', .cons hl (.cons hc .nil), hrest⟩
          | false =>
              have hcase' : isAccidental c' = false := haccidental ▸ hcase
              exact ⟨_, _, _, _, splitName?_natural hletter (by simpa using hcase),
                splitName?_natural hletter' (by simpa using hcase'), .cons hl .nil, .cons hc hrest⟩

theorem findName?_of_split (db : Database) {name pitch suffix : List Char}
    (h : splitName? name = some (pitch, suffix)) :
    db.findName? name = db.find? (normalizeKey pitch) (normalizeSuffix suffix) := by
  have hne : name.isEmpty = false := by
    rw [List.isEmpty_eq_false_iff]
    rintro rfl
    simp [splitName?] at h
  simp only [Database.findName?, Token.ofText, hne, Bool.false_eq_true, if_false, Token.ofName, h]

theorem findName?_congr (db : Database) {name name' : List Char} (h : SameLetters name name')
    (hpitch : name.head?.any isPitchLetter = true) : db.findName? name = db.findName? name' := by
  obtain ⟨pitch, pitch', suffix, suffix', hsplit, hsplit', hp, hs⟩ := exists_split h hpitch
  rw [findName?_of_split db hsplit, findName?_of_split db hsplit', normalizeKey_congr hp, normalizeSuffix_congr hs]

/-! ## Spellings of a pitch -/

/-- The pitch is a spelling of the key, in any letter case. It has an accidental, or the suffix does not begin with a
character that would be taken for one. -/
structure Spells (pitch suffix : List Char) (key : String) : Prop where
  listed : ∃ spelling, (spelling, key) ∈ pitchSpellings ∧ SameLetters pitch spelling.toList
  separate : pitch.length = 2 ∨ ∀ c ∈ suffix.head?, c ≠ '#' ∧ c ≠ 'b' ∧ c ≠ 'B'

/-- A pitch letter, or one with an accidental. -/
def isPitch : List Char → Bool
  | [letter] => isPitchLetter letter
  | [letter, accidental] => isPitchLetter letter && isAccidental accidental
  | _ => false

theorem isPitch_congr {s t : List Char} (h : SameLetters s t) : isPitch s = isPitch t := by
  rcases h with _ | ⟨hc, _ | ⟨ha, _ | _⟩⟩
  · rfl
  · exact isPitchLetter_congr hc
  · rw [isPitch, isPitch, isPitchLetter_congr hc, isAccidental_congr ha]
  · rfl

theorem listed_spelling : ∀ entry ∈ pitchSpellings,
    isPitch entry.1.toList = true ∧ normalizeKey entry.1.toList = entry.2 ∧
      (entry.2.length = 1 ∨ entry.1.toList.length = 2) := by
  decide +kernel

theorem Spells.splitName?_eq {pitch suffix : List Char} {key : String} (h : Spells pitch suffix key) :
    splitName? (pitch ++ suffix) = some (pitch, suffix) := by
  obtain ⟨⟨spelling, hmem, hsame⟩, hseparate⟩ := h
  have hpitch : isPitch pitch = true := (isPitch_congr hsame).trans (listed_spelling _ hmem).1
  match pitch, hpitch with
  | [letter], hletter =>
      refine splitName?_natural hletter fun c hc => ?_
      have hne := hseparate.resolve_left (by simp) c hc
      simp [isAccidental, hne]
  | [letter, accidental], hpitch =>
      rw [isPitch, Bool.and_eq_true] at hpitch
      exact splitName?_accidental hpitch.1 hpitch.2 suffix

/-- A chord is looked up under the key of its pitch. -/
theorem Spells.findName?_eq {pitch suffix : List Char} {key : String} (h : Spells pitch suffix key) (db : Database) :
    db.findName? (pitch ++ suffix) = db.find? key (normalizeSuffix suffix) := by
  obtain ⟨spelling, hmem, hsame⟩ := h.listed
  rw [findName?_of_split db h.splitName?_eq, normalizeKey_congr hsame, (listed_spelling _ hmem).2.1]

/-! ## Names for what is stored -/

theorem nodup_suffixes_ofDefinitions (entries : List (String × List Definition)) (key : String) :
    (((Database.ofDefinitions entries).1.definitions key).map Definition.suffix).Nodup := by
  unfold Database.definitions
  cases hlookup : (Database.ofDefinitions entries).1.entries.lookup key with
  | none => exact List.nodup_nil
  | some ds =>
      obtain ⟨front, back, hsplit, -⟩ := List.lookup_eq_some_iff.mp hlookup
      have hmem : (key, ds) ∈ (Database.ofDefinitions entries).1.entries :=
        hsplit ▸ List.mem_append_right front List.mem_cons_self
      simp only [Database.ofDefinitions, List.map_map, List.mem_map] at hmem
      obtain ⟨entry, -, hentry⟩ := hmem
      obtain rfl := (Prod.mk.inj hentry).2
      exact (Database.splitDuplicates_nodup [] entry.2).1

/-- A suffix in the spelling of the database does not begin with a capital B. -/
theorem head?_of_normalizeSuffix {suffix : String} (h : normalizeSuffix suffix.toList = suffix) :
    suffix.toList.head? ≠ some 'B' := by
  intro hhead
  have hlisted : ∀ entry ∈ suffixSpellings, entry.2.toList.head? ≠ some 'B' := by decide
  rw [normalizeSuffix] at h
  cases hlookup : suffixSpellings.lookup (String.ofList (lower suffix.toList)) with
  | some spelling =>
      obtain ⟨front, back, hentries, -⟩ := List.lookup_eq_some_iff.mp hlookup
      have hmem : (String.ofList (lower suffix.toList), spelling) ∈ suffixSpellings := by simp [hentries]
      rw [hlookup, Option.getD_some] at h
      exact hlisted _ hmem (h ▸ hhead)
  | none =>
      rw [hlookup, Option.getD_none] at h
      obtain ⟨rest, hrest⟩ := List.head?_eq_some_iff.mp hhead
      have hlower : lower suffix.toList = suffix.toList := by
        rw [← String.toList_ofList (l := lower suffix.toList), h]
      rw [hrest, lower, lowerFrom] at hlower
      have hb : lowerChar 'B' = ['b'] := by decide +kernel
      simp [hb] at hlower

/-- Each definition under a key has a name, if its suffix is in the spelling of the database and would not be taken for
an accidental. -/
theorem exists_spelling {db : Database} {key : String} (hkey : key ∈ pitchSpellings.map Prod.snd)
    (hdb : ((db.definitions key).map Definition.suffix).Nodup) {d : Definition} (hd : d ∈ db.definitions key)
    (hsuffix : normalizeSuffix d.suffix.toList = d.suffix)
    (hnatural : key.length = 1 → ∀ c ∈ d.suffix.toList.head?, c ≠ '#' ∧ c ≠ 'b') :
    ∃ name, db.findName? name = some d := by
  obtain ⟨⟨spelling, key'⟩, hmem, rfl⟩ := List.mem_map.mp hkey
  have hspells : Spells spelling.toList d.suffix.toList key' := by
    refine ⟨⟨spelling, hmem, List.forall₂_same.mpr fun _ _ => rfl⟩, ?_⟩
    refine (listed_spelling _ hmem).2.2.symm.imp_right fun hlength c hc => ?_
    obtain ⟨hsharp, hflat⟩ := hnatural hlength c hc
    refine ⟨hsharp, hflat, ?_⟩
    rintro rfl
    exact head?_of_normalizeSuffix hsuffix hc
  refine ⟨spelling.toList ++ d.suffix.toList, ?_⟩
  rw [hspells.findName?_eq, hsuffix, find?_eq_some_iff hdb]
  exact ⟨hd, rfl⟩

/-- Chords are found whatever their spelling. A name that is written as a spelling of a key and a suffix stands for what
is stored under that key in the suffix's spelling; so two spellings of one key stand for the same, and likewise two
names that differ in letter case only. And each definition under one of the twelve keys can be named, if its suffix is in the
spelling of the database and, after a key without accidental, is not taken for one. -/
theorem findName?_spelling :
    (∀ (db : Database) (pitch suffix : List Char) (key : String), Spells pitch suffix key →
      db.findName? (pitch ++ suffix) = db.find? key (normalizeSuffix suffix)) ∧
    (∀ (db : Database) (pitch pitch' suffix : List Char) (key : String), Spells pitch suffix key →
      Spells pitch' suffix key → db.findName? (pitch ++ suffix) = db.findName? (pitch' ++ suffix)) ∧
    (∀ (db : Database) (name name' : List Char), name.head?.any isPitchLetter = true → SameLetters name name' →
      db.findName? name = db.findName? name') ∧
    ∀ (entries : List (String × List Definition)) (key : String) (d : Definition),
      key ∈ pitchSpellings.map Prod.snd → d ∈ (Database.ofDefinitions entries).1.definitions key →
      normalizeSuffix d.suffix.toList = d.suffix →
      (key.length = 1 → ∀ c ∈ d.suffix.toList.head?, c ≠ '#' ∧ c ≠ 'b') →
      ∃ name, (Database.ofDefinitions entries).1.findName? name = some d := by
  refine ⟨fun db _ _ _ h => h.findName?_eq db, fun db _ _ _ _ h h' => ?_, fun db _ _ hpitch h => ?_, ?_⟩
  · rw [h.findName?_eq, h'.findName?_eq]
  · exact findName?_congr db h hpitch
  · intro entries key d hkey hd hsuffix hnatural
    exact exists_spelling hkey (nodup_suffixes_ofDefinitions entries key) hd hsuffix hnatural

/-- The database that knows nothing but C sharp minor. -/
def Database.cSharpMinor : Database := (ofDefinitions [("Csharp", [⟨"minor", []⟩])]).1

/-- C sharp minor, spelled as D flat in mixed letter case, and as C sharp. -/
theorem findName?_spelling_cSharpMinor :
    Spells ['d', 'b'] "Min".toList "Csharp" ∧ Spells ['C', '#'] "Min".toList "Csharp" ∧
    SameLetters "dbMin".toList "DBmIN".toList ∧
    Database.cSharpMinor.findName? "dbMin".toList = Database.cSharpMinor.find? "Csharp" "minor" ∧
    Database.cSharpMinor.findName? "dbMin".toList = Database.cSharpMinor.findName? "C#Min".toList ∧
    Database.cSharpMinor.findName? "dbMin".toList = Database.cSharpMinor.findName? "DBmIN".toList ∧
    ∃ name, Database.cSharpMinor.findName? name = some ⟨"minor", []⟩ := by
  have hflat : Spells ['d', 'b'] "Min".toList "Csharp" := ⟨⟨"DB", by decide, by decide⟩, Or.inl rfl⟩
  have hsharp : Spells ['C', '#'] "Min".toList "Csharp" := ⟨⟨"C#", by decide, by decide⟩, Or.inl rfl⟩
  have hcase : SameLetters "dbMin".toList "DBmIN".toList := by decide
  have hsuffix : normalizeSuffix "Min".toList = "minor" := by decide +kernel
  obtain ⟨hfind, hspellings, hletters, hnamed⟩ := findName?_spelling
  exact ⟨hflat, hsharp, hcase, hsuffix ▸ hfind _ _ _ _ hflat, hspellings _ _ _ _ _ hflat hsharp,
    hletters _ _ _ (by decide) hcase,
    hnamed _ "Csharp" ⟨"minor", []⟩ (by decide) (by decide) (by decide +kernel) (by decide)⟩

end Chord

end LeadSheet
