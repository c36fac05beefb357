import LeadSheet.Proofs.Chord.Loading
import Mathlib.Data.List.Infix

/-!
# What loading a database reports

Loading drops what is malformed and what is a duplicate, and it reports each drop once. So the reports can be counted
on the data, and nothing is lost without one.

* `Refuses data cause` : the data are no object, or what they have under `chords` is none; such data are refused, and
  a refusal comes without reports;
* `malformedKeys`, `malformedDefinitions`, `malformedPositions`, `duplicates` : how much is dropped, and at which level;
* `Accounted chords db log` : the reports are those on what is malformed, one on the whole load, and those on what is a
  duplicate, as many as there is; under a key nothing is lost beside;
* `ofJson_accounted` : data are refused for one of the two causes, or else they load and the load is accounted for.
-/

namespace LeadSheet.Chord

/-! ## Counting what is malformed -/

instance (raw : Json) : Decidable (IsPositionRecord raw) :=
  decidable_of_iff ((loadPosition "" "" raw).1.isSome = true)
    (Option.isSome_iff_exists.trans (exists_congr fun _ => loadPosition_fst_iff))

instance (entry : Json) : Decidable (IsDefinitionRecord entry) :=
  decidable_of_iff ((loadDefinition "" entry).1.isSome = true)
    (Option.isSome_iff_exists.trans (exists_congr fun _ => loadDefinition_fst_iff))

theorem isSome_loadKey {field : String × Json} :
    (loadKey field.1 field.2).1.isSome = true ↔ ∃ key, IsKey field key := by
  rw [Option.isSome_iff_exists]
  constructor
  · rintro ⟨⟨key, ds⟩, h⟩
    exact ⟨key, (loadKey_fst_iff.mp h).1⟩
  · rintro ⟨key, h⟩
    exact ⟨_, congrArg Prod.fst (loadKey_of_isKey h)⟩

instance (field : String × Json) : Decidable (∃ key, IsKey field key) := decidable_of_iff _ isSome_loadKey

/-- How many of the fields have an empty key or no list. -/
def malformedKeys (chords : List (String × Json)) : Nat := chords.countP fun field => ¬ ∃ key, IsKey field key

/-- How many of the entries are malformed. -/
def malformedDefinitions (entries : List Json) : Nat := entries.countP fun entry => ¬ IsDefinitionRecord entry

/-- How many fingerings of the well-formed entries are malformed. -/
def malformedPositions (entries : List Json) : Nat :=
  ((entries.filter fun entry => IsDefinitionRecord entry).flatMap rawPositions).countP fun raw => ¬ IsPositionRecord raw

/-! ## Counting duplicates -/

def suffixes (entries : List Json) : List String :=
  (entries.filter fun entry => IsDefinitionRecord entry).filterMap fun entry =>
    match entry.field? "suffix" with
    | some (.text suffix) => some suffix
    | _ => none

/-- How many of the names occur earlier. -/
def repeats (names : List String) : Nat := (names.inits.zip names).countP fun p => p.1.contains p.2

def duplicates : List (String × Json) → Nat
  | [] => 0
  | field :: chords => repeats (suffixes (entriesOf field)) + duplicates chords

/-! ## Accounting -/

inductive Refuses : Json → LoadError → Prop
  | notAnObject {data : Json} : (∀ fields, data ≠ .object fields) → Refuses data .notAnObject
  | chordsNotAnObject {fields : List (String × Json)} {value : Json} : fields.lookup "chords" = some value →
      (∀ chords, value ≠ .object chords) → Refuses (.object fields) .chordsNotAnObject

/-- The reports on what is malformed. -/
inductive MalformedReport : Log.Record → Prop
  | emptyKey (key : String) : MalformedReport (emptyKeyReport key)
  | notAList (key : String) : MalformedReport (notAListReport key)
  | definition (key : String) (defect : DefinitionDefect) : MalformedReport (definitionReport key defect)
  | position (key suffix : String) (raw : Json) (defect : PositionDefect) :
      MalformedReport (positionReport key suffix raw defect)

inductive DuplicateReport : Log.Record → Prop
  | intro (key suffix : String) : DuplicateReport (Database.duplicateReport key suffix)

/-- First come the warnings about what is malformed, then a debug record, then the warnings about duplicates. There is
one for each item that is dropped. Under a key an entry is kept, malformed, or a duplicate. -/
structure Accounted (chords : List (String × Json)) (db : Database) (log : List Log.Record) : Prop where
  reports : ∃ before loaded after, log = before ++ loaded :: after ∧
    (∀ r ∈ before, r.level = .warning ∧ MalformedReport r) ∧
    loaded.level = .debug ∧
    (∀ r ∈ after, r.level = .warning ∧ DuplicateReport r) ∧
    before.length = malformedKeys chords + malformedDefinitions (chords.flatMap entriesOf) +
      malformedPositions (chords.flatMap entriesOf) ∧
    after.length = duplicates chords
  entries : ∀ key entries, (key, Json.array entries) ∈ chords → key ≠ "" →
    entries.length = (db.definitions key).length + malformedDefinitions entries + repeats (suffixes entries)

theorem MalformedReport.level {r : Log.Record} (h : MalformedReport r) : r.level = .warning := by
  cases h <;> rfl

/-! ## The reports on what is malformed -/

/-- There are so many records, and they are on what is malformed. -/
def Warns (log : List Log.Record) (count : Nat) : Prop := log.length = count ∧ ∀ r ∈ log, MalformedReport r

theorem Warns.nil : Warns [] 0 := ⟨rfl, by simp⟩

theorem Warns.single {r : Log.Record} (h : MalformedReport r) : Warns [r] 1 := ⟨rfl, by simpa using h⟩

theorem Warns.append {log log' : List Log.Record} {m n : Nat} (h : Warns log m) (h' : Warns log' n) :
    Warns (log ++ log') (m + n) := by
  refine ⟨by rw [List.length_append, h.1, h'.1], fun r hr => ?_⟩
  rcases List.mem_append.mp hr with hr | hr
  · exact h.2 r hr
  · exact h'.2 r hr

/-- What is counted item by item is reported item by item. -/
theorem warns_map {α β : Type} {load : α → Reported β} (count : List α → Nat) (hnil : count [] = 0)
    (happend : ∀ as as', count (as ++ as') = count as + count as') (h : ∀ a, Warns (load a).2 (count [a]))
    (as : List α) : Warns (reports (as.map load)) (count as) := by
  induction as with
  | nil =>
      rw [hnil]
      exact Warns.nil
  | cons a as ih =>
      rw [← List.singleton_append, happend]
      exact (h a).append ih

theorem malformedDefinitions_append (entries entries' : List Json) :
    malformedDefinitions (entries ++ entries') = malformedDefinitions entries + malformedDefinitions entries' :=
  List.countP_append

theorem malformedPositions_append (entries entries' : List Json) :
    malformedPositions (entries ++ entries') = malformedPositions entries + malformedPositions entries' := by
  unfold malformedPositions
  rw [List.filter_append, List.flatMap_append, List.countP_append]

theorem warns_loadPosition (key suffix : String) (raw : Json) :
    Warns (loadPosition key suffix raw).2 ([raw].countP fun raw => ¬ IsPositionRecord raw) := by
  rw [List.countP_singleton]
  unfold loadPosition
  cases hread : readPosition raw with
  | ok p =>
      have hraw : IsPositionRecord raw := ⟨p, readPosition_eq_ok_iff.mp hread⟩
      rw [if_neg (by simpa using hraw)]
      exact Warns.nil
  | error defect =>
      have hraw : ¬ IsPositionRecord raw := by
        rintro ⟨p, hp⟩
        rw [readPosition_eq_ok_iff.mpr hp] at hread
        exact absurd hread (by simp)
      rw [if_pos (by simpa using hraw)]
      exact Warns.single (.position key suffix raw defect)

/-- Of an entry it is reported that it is malformed, or else which of its fingerings are. -/
theorem warns_loadDefinition (key : String) (entry : Json) :
    Warns (loadDefinition key entry).2 (malformedDefinitions [entry] + malformedPositions [entry]) := by
  unfold malformedDefinitions malformedPositions
  rw [List.countP_singleton, List.filter_singleton]
  by_cases hentry : IsDefinitionRecord entry
  · obtain ⟨suffix, hsuffix⟩ := isDefinitionRecord_iff.mp hentry
    have hpositions := warns_map (fun raws => raws.countP fun raw => ¬ IsPositionRecord raw) List.countP_nil
      (fun _ _ => List.countP_append) (warns_loadPosition key suffix) (rawPositions entry)
    simpa [hentry, loadDefinition_of_hasSuffix hsuffix] using hpositions
  · obtain ⟨defect, hload⟩ := @loadDefinition_of_malformed key entry fun suffix hs =>
      hentry (isDefinitionRecord_iff.mpr ⟨suffix, hs⟩)
    simpa [hentry, hload] using Warns.single (.definition key defect)

theorem warns_loadKey (field : String × Json) :
    Warns (loadKey field.1 field.2).2 (malformedKeys [field] + malformedDefinitions (entriesOf field) +
      malformedPositions (entriesOf field)) := by
  unfold malformedKeys
  rw [List.countP_singleton]
  by_cases hfield : ∃ key, IsKey field key
  · obtain ⟨key, hkey⟩ := id hfield
    have hentries := warns_map (fun entries => malformedDefinitions entries + malformedPositions entries) rfl
      (fun entries entries' => by rw [malformedDefinitions_append, malformedPositions_append]; omega)
      (warns_loadDefinition key) (entriesOf field)
    rw [if_neg (by simpa using hfield), loadKey_of_isKey hkey, Nat.zero_add]
    exact hentries
  · obtain ⟨report, hreport, hload⟩ := loadKey_of_malformed fun key h => hfield ⟨key, h⟩
    rw [if_pos (by simpa using hfield), hload, entriesOf_of_malformed fun key h => hfield ⟨key, h⟩]
    apply Warns.single
    rcases hreport with rfl | rfl
    · exact .emptyKey field.1
    · exact .notAList field.1

/-- The reports before the database is built. -/
theorem warns_chords (chords : List (String × Json)) :
    Warns (reports (chords.map fun field => loadKey field.1 field.2))
      (malformedKeys chords + malformedDefinitions (chords.flatMap entriesOf) +
        malformedPositions (chords.flatMap entriesOf)) := by
  apply warns_map (fun chords : List (String × Json) => malformedKeys chords +
    malformedDefinitions (chords.flatMap entriesOf) + malformedPositions (chords.flatMap entriesOf)) rfl
  · intro chords chords'
    have hkeys : malformedKeys (chords ++ chords') = malformedKeys chords + malformedKeys chords' :=
      List.countP_append
    rw [List.flatMap_append, malformedDefinitions_append, malformedPositions_append, hkeys]
    omega
  · intro field
    rw [List.flatMap_singleton]
    exact warns_loadKey field

/-! ## The reports on duplicates -/

/-- What is dropped as a duplicate has a suffix that is taken or that occurs earlier. -/
theorem splitDuplicates_snd_length (taken : List String) (ds : List Definition) :
    (Database.splitDuplicates taken ds).2.length =
      ((ds.map Definition.suffix).inits.zip (ds.map Definition.suffix)).countP fun p =>
        taken.contains p.2 || p.1.contains p.2 := by
  -- the suffix of a definition that is kept is taken for the next ones, and it occurs before them
  induction ds generalizing taken with
  | nil => rfl
  | cons d ds ih =>
      rw [List.map_cons, List.inits_cons, List.zip_cons_cons, List.countP_cons, List.zip_map_left, List.countP_map,
        Database.splitDuplicates]
      simp only [List.contains_nil, Bool.or_false]
      split
      · rename_i htaken
        rw [List.length_cons, ih taken]
        refine congrArg (· + 1) (List.countP_congr fun p _ => ?_)
        have hsuffix : p.2 = d.suffix → p.2 ∈ taken := by
          rintro heq
          simpa [heq] using htaken
        simp only [Function.comp_apply, Prod.map_fst, Prod.map_snd, id_eq, Bool.or_eq_true, List.contains_iff_mem,
          List.mem_cons]
        tauto
      · rw [ih (d.suffix :: taken), Nat.add_zero]
        refine List.countP_congr fun p _ => ?_
        simp only [Function.comp_apply, Prod.map_fst, Prod.map_snd, id_eq, Bool.or_eq_true, List.contains_iff_mem,
          List.mem_cons]
        tauto

theorem splitDuplicates_snd_length_nil (ds : List Definition) :
    (Database.splitDuplicates [] ds).2.length = repeats (ds.map Definition.suffix) := by
  rw [splitDuplicates_snd_length]
  exact List.countP_congr fun p _ => by simp

/-- Every definition is the first of its suffix or a duplicate. -/
theorem splitDuplicates_length (taken : List String) (ds : List Definition) :
    ds.length = (Database.splitDuplicates taken ds).1.length + (Database.splitDuplicates taken ds).2.length := by
  induction ds generalizing taken with
  | nil => rfl
  | cons d ds ih =>
      rw [Database.splitDuplicates]
      split
      · simp only [List.length_cons, ih taken]
        omega
      · simp only [List.length_cons, ih (d.suffix :: taken)]
        omega

theorem length_firstOfEachSuffix (ds : List Definition) :
    ds.length = (firstOfEachSuffix ds).length + repeats (ds.map Definition.suffix) := by
  rw [← splitDuplicates_snd_length_nil, ← Database.splitDuplicates_nil]
  exact splitDuplicates_length [] ds

theorem suffixes_cons_of_hasSuffix {entry : Json} {suffix : String} (h : HasSuffix entry suffix)
    (entries : List Json) : suffixes (entry :: entries) = suffix :: suffixes entries := by
  have hentry : IsDefinitionRecord entry := isDefinitionRecord_iff.mpr ⟨suffix, h⟩
  unfold suffixes
  rw [List.filter_cons_of_pos (by simpa using hentry), List.filterMap_cons, h.stated]

theorem suffixes_cons_of_malformed {entry : Json} (h : ¬ IsDefinitionRecord entry) (entries : List Json) :
    suffixes (entry :: entries) = suffixes entries := by
  unfold suffixes
  rw [List.filter_cons_of_neg (by simpa using h)]

/-- The definitions that entries state have their suffixes, and the other entries are malformed. -/
theorem keeps_definitions {entries : List Json} {all : List Definition} (h : Keeps IsDefinition entries all) :
    suffixes entries = all.map Definition.suffix ∧ entries.length = all.length + malformedDefinitions entries := by
  induction h with
  | nil => exact ⟨rfl, rfl⟩
  | @keep entry d entries all hentry _ ih =>
      obtain ⟨hsuffixes, hlength⟩ := ih
      have hrecord : IsDefinitionRecord entry := ⟨d, hentry⟩
      have hwell : malformedDefinitions [entry] = 0 := by simp [malformedDefinitions, hrecord]
      have hcount := malformedDefinitions_append [entry] entries
      rw [List.singleton_append, hwell] at hcount
      refine ⟨by rw [suffixes_cons_of_hasSuffix hentry.1, hsuffixes, List.map_cons], ?_⟩
      rw [List.length_cons, List.length_cons, hcount, hlength]
      omega
  | @drop entry entries all hentry _ ih =>
      obtain ⟨hsuffixes, hlength⟩ := ih
      have hnot : ¬ IsDefinitionRecord entry := by
        rintro ⟨d, hd⟩
        exact hentry d hd
      have hmalformed : malformedDefinitions [entry] = 1 := by simp [malformedDefinitions, hnot]
      have hcount := malformedDefinitions_append [entry] entries
      rw [List.singleton_append, hmalformed] at hcount
      refine ⟨by rw [suffixes_cons_of_malformed hnot, hsuffixes], ?_⟩
      rw [List.length_cons, hcount, hlength]
      omega

/-! ## The reports of a load -/

theorem length_duplicates (chords : List (String × Json)) :
    ((kept (chords.map fun field => loadKey field.1 field.2)).flatMap fun part =>
      (Database.splitDuplicates [] part.2).2).length = duplicates chords := by
  induction chords with
  | nil => rfl
  | cons field chords ih =>
      rw [List.map_cons, kept_cons, List.flatMap_append, List.length_append, ih, duplicates]
      by_cases hfield : ∃ key, IsKey field key
      · obtain ⟨key, hkey⟩ := hfield
        have hall : Keeps IsDefinition (entriesOf field) (kept ((entriesOf field).map (loadDefinition key))) :=
          (keeps_iff fun _ _ => @loadDefinition_fst_iff key _ _).mpr rfl
        rw [loadKey_of_isKey hkey, Option.toList_some, List.flatMap_singleton, splitDuplicates_snd_length_nil,
          (keeps_definitions hall).1]
      · obtain ⟨report, -, hload⟩ := loadKey_of_malformed fun key h => hfield ⟨key, h⟩
        rw [hload, entriesOf_of_malformed fun key h => hfield ⟨key, h⟩]
        rfl

theorem ofFields_snd (chords : List (String × Json)) :
    (Database.ofFields chords).2 =
      reports (chords.map fun field => loadKey field.1 field.2) ++
        loadedReport (Database.ofFields chords).1.size ::
          (kept (chords.map fun field => loadKey field.1 field.2)).flatMap fun part =>
            (Database.splitDuplicates [] part.2).2.map fun d => Database.duplicateReport part.1 d.suffix := by
  simp only [Database.ofFields, Database.ofDefinitions, List.flatMap_map]

theorem accounted_ofFields {chords : List (String × Json)} (hkeys : (Dictionary.keys chords).Nodup) :
    Accounted chords (Database.ofFields chords).1 (Database.ofFields chords).2 := by
  have hloaded := loadedFrom_ofFields hkeys
  refine ⟨⟨_, _, _, ofFields_snd chords, ?_, rfl, ?_, (warns_chords chords).1, ?_⟩, ?_⟩
  · intro r hr
    have hreport := (warns_chords chords).2 r hr
    exact ⟨hreport.level, hreport⟩
  · intro r hr
    obtain ⟨part, -, hr⟩ := List.mem_flatMap.mp hr
    obtain ⟨d, -, rfl⟩ := List.mem_map.mp hr
    exact ⟨rfl, .intro part.1 d.suffix⟩
  · rw [← length_duplicates, List.length_flatMap, List.length_flatMap]
    simp only [List.length_map]
  · intro key entries hmem hne
    obtain ⟨all, hall, hdefinitions⟩ := hloaded.definitions key entries hmem hne
    obtain ⟨hsuffixes, hlength⟩ := keeps_definitions hall
    rw [hlength, hdefinitions, hsuffixes, length_firstOfEachSuffix all]
    omega

/-- Data are refused for one of two causes, and a refusal is all that comes of them. Otherwise they load, and the load
is accounted for. Data that were decoded have distinct keys, by `Json.decode_distinctKeys`. -/
theorem ofJson_accounted {data : Json} (hdata : data.DistinctKeys) :
    (∀ cause, Database.ofJson data = .error cause ↔ Refuses data cause) ∧
      ∀ db log, Database.ofJson data = .ok (db, log) → ∃ chords, HoldsMapping data chords ∧ Accounted chords db log := by
  constructor
  · intro cause
    constructor
    · intro h
      unfold Database.ofJson at h
      split at h
      · rename_i fields
        split at h
        · simp at h
        · simp at h
        · rename_i value hnot hlookup
          obtain rfl := Except.error.inj h
          exact .chordsNotAnObject hlookup hnot
      · rename_i hnot
        obtain rfl := Except.error.inj h
        exact .notAnObject hnot
    · intro h
      cases h with
      | notAnObject hnot =>
          cases data with
          | object fields => exact absurd rfl (hnot fields)
          | _ => rfl
      | chordsNotAnObject hlookup hnot => simp only [Database.ofJson, hlookup]
  · intro db log h
    obtain ⟨chords, hmapping, hload⟩ := ofJson_eq_ok_iff.mp h
    refine ⟨chords, hmapping, ?_⟩
    obtain ⟨rfl, rfl⟩ := Prod.mk.inj hload
    exact accounted_ofFields (hmapping.nodup hdata)

/-- Of the mixed data two keys, one definition, two fingerings and one duplicate are dropped. -/
theorem ofJson_accounted_mixed :
    mixedData.DistinctKeys ∧ malformedKeys mixedChords = 2 ∧
      malformedDefinitions (mixedChords.flatMap entriesOf) = 1 ∧
      malformedPositions (mixedChords.flatMap entriesOf) = 2 ∧ duplicates mixedChords = 1 ∧
      ∃ db log, Database.ofJson mixedData = .ok (db, log) ∧ Accounted mixedChords db log ∧ log.length = 7 := by
  have hdata : mixedData.DistinctKeys := by simp [mixedData, mixedChords, Dictionary.keys]
  have hkeys : malformedKeys mixedChords = 2 := by decide +kernel
  have hdefinitions : malformedDefinitions (mixedChords.flatMap entriesOf) = 1 := by decide +kernel
  have hpositions : malformedPositions (mixedChords.flatMap entriesOf) = 2 := by decide +kernel
  have hduplicates : duplicates mixedChords = 1 := by decide +kernel
  refine ⟨hdata, hkeys, hdefinitions, hpositions, hduplicates, (Database.ofFields mixedChords).1,
    (Database.ofFields mixedChords).2, rfl, ?_⟩
  obtain ⟨chords, hmapping, haccounted⟩ :=
    (ofJson_accounted hdata).2 (Database.ofFields mixedChords).1 (Database.ofFields mixedChords).2 rfl
  have hchords : chords = mixedChords := by
    cases hmapping with
    | bare hlookup => exact absurd hlookup (Option.some_ne_none _)
    | wrapped hlookup => exact (Json.object.inj (Option.some.inj hlookup)).symm
  subst hchords
  refine ⟨haccounted, ?_⟩
  obtain ⟨before, loaded, after, hlog, -, -, -, hbefore, hafter⟩ := haccounted.reports
  rw [hlog, List.length_append, List.length_cons, hbefore, hafter, hkeys, hdefinitions, hpositions, hduplicates]

end LeadSheet.Chord
