import LeadSheet.Proofs.Chord.Records
import Mathlib.Data.List.Nodup

/-!
# What a database holds once it is loaded

* `HoldsMapping data chords` : the data hold the mapping from keys to definitions, under `chords` or by themselves;
* `firstOfEachSuffix` : definitions without those whose suffix occurs earlier;
* `LoadedFrom chords db` : the database has the keys of the mapping that are well formed, and under each of them the
  first definition of each suffix, all in order;
* `Drops chords chords'` : the second mapping is the first one without a malformed record;
* `ofJson_loadedFrom` : data that hold a mapping load, and to such a database; without a malformed record they load to
  the same one.
-/

namespace LeadSheet.Chord

/-! ## The first definition of each suffix -/

/-- The definitions without those whose suffix occurs earlier. -/
def firstOfEachSuffix (ds : List Definition) : List Definition := ds.eraseDupsBy fun d e => d.suffix == e.suffix

namespace Database

theorem splitDuplicates_fst (taken : List String) (ds : List Definition) :
    (splitDuplicates taken ds).1 = firstOfEachSuffix (ds.filter fun d => !taken.contains d.suffix) := by
  induction ds generalizing taken with
  | nil => rfl
  | cons d ds ih =>
      rw [splitDuplicates]
      split
      · rename_i htaken
        rw [List.filter_cons_of_neg (by simpa using htaken), ← ih]
      · rename_i htaken
        rw [List.filter_cons_of_pos (by simpa using htaken), firstOfEachSuffix, List.eraseDupsBy_cons]
        simp only [ih, firstOfEachSuffix, List.filter_filter]
        refine congrArg (fun es => d :: List.eraseDupsBy _ es) (List.filter_congr fun e _ => ?_)
        simp only [List.contains_cons, Bool.not_or]
        cases e.suffix == d.suffix <;> rfl

theorem splitDuplicates_nil (ds : List Definition) : (splitDuplicates [] ds).1 = firstOfEachSuffix ds := by
  rw [splitDuplicates_fst]
  exact congrArg firstOfEachSuffix (List.filter_eq_self.mpr fun _ _ => rfl)

theorem splitDuplicates_sublist (taken : List String) (ds : List Definition) :
    (splitDuplicates taken ds).1.Sublist ds := by
  induction ds generalizing taken with
  | nil => exact List.Sublist.refl _
  | cons d ds ih =>
      rw [splitDuplicates]
      split
      · exact (ih taken).cons d
      · exact (ih (d.suffix :: taken)).cons_cons d

theorem splitDuplicates_nodup (taken : List String) (ds : List Definition) :
    (((splitDuplicates taken ds).1).map Definition.suffix).Nodup ∧
      ∀ d ∈ (splitDuplicates taken ds).1, d.suffix ∉ taken := by
  induction ds generalizing taken with
  | nil => exact ⟨List.nodup_nil, fun d hd => absurd hd List.not_mem_nil⟩
  | cons d ds ih =>
      rw [splitDuplicates]
      split
      · exact ih taken
      · rename_i htaken
        obtain ⟨hnodup, hnew⟩ := ih (d.suffix :: taken)
        refine ⟨List.nodup_cons.mpr ⟨fun hmem => ?_, hnodup⟩, List.forall_mem_cons.mpr ⟨by simpa using htaken, ?_⟩⟩
        · obtain ⟨e, he, heq⟩ := List.mem_map.mp hmem
          exact hnew e he (heq ▸ List.mem_cons_self)
        · exact fun e he hmem => hnew e he (List.mem_cons_of_mem _ hmem)

theorem find?_splitDuplicates {taken : List String} {suffix : String} (h : suffix ∉ taken) (ds : List Definition) :
    (splitDuplicates taken ds).1.find? (fun d => d.suffix == suffix) = ds.find? fun d => d.suffix == suffix := by
  induction ds generalizing taken with
  | nil => rfl
  | cons d ds ih =>
      rw [splitDuplicates]
      by_cases hd : d.suffix = suffix
      · have htaken : ¬ taken.contains d.suffix = true := by simpa [hd] using h
        rw [if_neg htaken, List.find?_cons_of_pos (by simpa using hd), List.find?_cons_of_pos (by simpa using hd)]
      · rw [List.find?_cons_of_neg (by simpa using hd)]
        split
        · exact ih h
        · rw [List.find?_cons_of_neg (by simpa using hd)]
          apply ih
          intro hmem
          rcases List.mem_cons.mp hmem with heq | hmem
          · exact hd heq.symm
          · exact h hmem

end Database

/-- A suffix has the same first definition. -/
theorem find?_firstOfEachSuffix (suffix : String) (ds : List Definition) :
    (firstOfEachSuffix ds).find? (fun d => d.suffix == suffix) = ds.find? fun d => d.suffix == suffix := by
  rw [← Database.splitDuplicates_nil]
  exact Database.find?_splitDuplicates List.not_mem_nil ds

theorem firstOfEachSuffix_nodup (ds : List Definition) : ((firstOfEachSuffix ds).map Definition.suffix).Nodup := by
  rw [← Database.splitDuplicates_nil]
  exact (Database.splitDuplicates_nodup [] ds).1

theorem mem_of_mem_firstOfEachSuffix {ds : List Definition} {d : Definition} (h : d ∈ firstOfEachSuffix ds) : d ∈ ds := by
  rw [← Database.splitDuplicates_nil] at h
  exact (Database.splitDuplicates_sublist [] ds).subset h

/-! ## Mappings -/

/-- The data hold the mapping: under `chords`, or they are the mapping themselves. -/
inductive HoldsMapping : Json → List (String × Json) → Prop
  | bare {fields : List (String × Json)} : fields.lookup "chords" = none → HoldsMapping (.object fields) fields
  | wrapped {fields chords : List (String × Json)} : fields.lookup "chords" = some (.object chords) →
      HoldsMapping (.object fields) chords

theorem ofJson_eq_ok_iff {data : Json} {loaded : Database × List Log.Record} :
    Database.ofJson data = .ok loaded ↔ ∃ chords, HoldsMapping data chords ∧ loaded = Database.ofFields chords := by
  constructor
  · intro h
    unfold Database.ofJson at h
    split at h
    · rename_i fields
      split at h
      · rename_i hlookup
        exact ⟨fields, .bare hlookup, (Except.ok.inj h).symm⟩
      · rename_i chords hlookup
        exact ⟨chords, .wrapped hlookup, (Except.ok.inj h).symm⟩
      · simp at h
    · simp at h
  · rintro ⟨chords, hmapping, rfl⟩
    cases hmapping with
    | bare hlookup => simp only [Database.ofJson, hlookup]
    | wrapped hlookup => simp only [Database.ofJson, hlookup]

theorem HoldsMapping.nodup {data : Json} {chords : List (String × Json)} (h : HoldsMapping data chords)
    (hdata : data.DistinctKeys) : (Dictionary.keys chords).Nodup := by
  cases h with
  | bare _ => exact (Json.distinctKeys_object_iff.mp hdata).1
  | @wrapped fields _ hlookup =>
      obtain ⟨front, back, hsplit, -⟩ := List.lookup_eq_some_iff.mp hlookup
      have hmem : ("chords", Json.object chords) ∈ fields := by
        rw [hsplit]
        exact List.mem_append_right front List.mem_cons_self
      exact (Json.distinctKeys_object_iff.mp ((Json.distinctKeys_object_iff.mp hdata).2 _ hmem)).1

/-- The entry of a database that a field of the mapping stands for. -/
def IsEntry (field : String × Json) (entry : String × List Definition) : Prop :=
  IsKey field entry.1 ∧ ∃ all, Keeps IsDefinition (entriesOf field) all ∧ entry.2 = firstOfEachSuffix all

theorem ofFields_entries (chords : List (String × Json)) :
    (Database.ofFields chords).1.entries =
      (kept (chords.map fun field => loadKey field.1 field.2)).map fun part => (part.1, firstOfEachSuffix part.2) := by
  simp only [Database.ofFields, Database.ofDefinitions, List.map_map]
  refine List.map_congr_left fun part _ => ?_
  rw [Function.comp_apply, ← Database.splitDuplicates_nil]

theorem keeps_entries (chords : List (String × Json)) : Keeps IsEntry chords (Database.ofFields chords).1.entries := by
  have hkeeps : Keeps (fun field part => IsKey field part.1 ∧ Keeps IsDefinition (entriesOf field) part.2) chords
      (kept (chords.map fun field => loadKey field.1 field.2)) := (keeps_iff fun _ _ => loadKey_fst_iff).mpr rfl
  rw [ofFields_entries]
  generalize kept (chords.map fun field => loadKey field.1 field.2) = parts at hkeeps
  induction hkeeps with
  | nil => exact .nil
  | keep h _ ih => exact .keep ⟨h.1, _, h.2, rfl⟩ ih
  | drop h _ ih =>
      refine .drop (fun entry hentry => ?_) ih
      obtain ⟨hkey, all, hall, -⟩ := hentry
      exact h (entry.1, all) ⟨hkey, hall⟩

/-! ## The database of a mapping -/

/-- The keys of the database are those that are well formed, in order. Under a key stand the first definitions of each
suffix among those of its entries that are well formed, in order; under no other key is there any. -/
structure LoadedFrom (chords : List (String × Json)) (db : Database) : Prop where
  keys : Keeps IsKey chords db.keys
  definitions : ∀ key entries, (key, Json.array entries) ∈ chords → key ≠ "" →
    ∃ all, Keeps IsDefinition entries all ∧ db.definitions key = firstOfEachSuffix all
  unknown : ∀ key, key ∉ db.keys → db.definitions key = []
  suffixes : ∀ key, ((db.definitions key).map Definition.suffix).Nodup
  frets : ∀ key, ∀ d ∈ db.definitions key, ∀ p ∈ d.positions, p.frets.length = 6
  find : ∀ key suffix d, db.find? key suffix = some d ↔ d ∈ db.definitions key ∧ d.suffix = suffix

theorem lookup_entries {chords : List (String × Json)} {es : List (String × List Definition)}
    (h : Keeps IsEntry chords es) (hkeys : (Dictionary.keys chords).Nodup) {field : String × Json}
    {entry : String × List Definition} (hmem : field ∈ chords) (hentry : IsEntry field entry) :
    ∃ all, Keeps IsDefinition (entriesOf field) all ∧ es.lookup entry.1 = some (firstOfEachSuffix all) := by
  -- the fields before have other keys, so the entries before them do not hide the one looked for
  induction h with
  | nil => exact absurd hmem List.not_mem_nil
  | @keep first e _ es hfirst _ ih =>
      obtain ⟨hnew, hkeys⟩ := List.nodup_cons.mp hkeys
      obtain ⟨name, ds⟩ := e
      obtain ⟨⟨hname, -⟩, all, hall, hds⟩ := hfirst
      simp only at hname hds
      rcases List.mem_cons.mp hmem with rfl | hmem
      · refine ⟨all, hall, ?_⟩
        rw [List.lookup_cons, hname, hentry.1.1, beq_self_eq_true, hds]
      · have hne : (entry.1 == name) = false := by
          rw [beq_eq_false_iff_ne, hname, hentry.1.1]
          exact fun heq => hnew (heq ▸ List.mem_map_of_mem hmem)
        rw [List.lookup_cons, hne]
        exact ih hkeys hmem
  | drop hfirst _ ih =>
      rcases List.mem_cons.mp hmem with rfl | hmem
      · exact absurd hentry (hfirst entry)
      · exact ih (List.nodup_cons.mp hkeys).2 hmem

theorem keeps_keys {chords : List (String × Json)} {es : List (String × List Definition)}
    (h : Keeps IsEntry chords es) : Keeps IsKey chords (es.map Prod.fst) := by
  induction h with
  | nil => exact .nil
  | keep h _ ih => exact .keep h.1 ih
  | drop h _ ih =>
      refine .drop (fun key hkey => ?_) ih
      apply h (key, firstOfEachSuffix _)
      exact ⟨hkey, _, (keeps_iff fun _ _ => @loadDefinition_fst_iff key _ _).mpr rfl, rfl⟩

section Entries

variable {chords : List (String × Json)} {db : Database}

/-- What stands under a key comes from a field. -/
theorem definitions_eq (h : Keeps IsEntry chords db.entries) (key : String) :
    db.definitions key = [] ∨
      ∃ field all, Keeps IsDefinition (entriesOf field) all ∧ db.definitions key = firstOfEachSuffix all := by
  unfold Database.definitions
  cases hlookup : db.entries.lookup key with
  | none => exact Or.inl rfl
  | some ds =>
      obtain ⟨front, back, hsplit, -⟩ := List.lookup_eq_some_iff.mp hlookup
      have hmem : (key, ds) ∈ db.entries := hsplit ▸ List.mem_append_right front List.mem_cons_self
      obtain ⟨field, -, -, all, hall, hds⟩ := h.of_mem hmem
      exact Or.inr ⟨field, all, hall, hds⟩

theorem nodup_suffixes (h : Keeps IsEntry chords db.entries) (key : String) :
    ((db.definitions key).map Definition.suffix).Nodup := by
  rcases definitions_eq h key with heq | ⟨_, all, -, heq⟩
  · rw [heq]
    exact List.nodup_nil
  · rw [heq]
    exact firstOfEachSuffix_nodup all

theorem length_frets (h : Keeps IsEntry chords db.entries) {key : String} {d : Definition}
    (hd : d ∈ db.definitions key) {p : Position} (hp : p ∈ d.positions) : p.frets.length = 6 := by
  rcases definitions_eq h key with heq | ⟨_, all, hall, heq⟩
  · rw [heq] at hd
    exact absurd hd List.not_mem_nil
  · rw [heq] at hd
    obtain ⟨entry, -, -, hpositions⟩ := hall.of_mem (mem_of_mem_firstOfEachSuffix hd)
    obtain ⟨raw, -, frets, -, hfrets⟩ := hpositions.of_mem hp
    exact hfrets.length

/-- Every fingering of a database that is loaded from a text has a symbol for each string. -/
theorem length_frets_of_ofText {text : List Char} {log : List Log.Record} (h : Database.ofText text = .ok (db, log))
    {key : String} {d : Definition} (hd : d ∈ db.definitions key) {p : Position} (hp : p ∈ d.positions) :
    p.frets.length = 6 := by
  rw [Database.ofText] at h
  cases hdecode : Json.decode text with
  | error cause => rw [hdecode] at h; exact absurd h (by simp)
  | ok data =>
      rw [hdecode] at h
      obtain ⟨chords, -, hloaded⟩ := ofJson_eq_ok_iff.mp h
      have hkeeps : Keeps IsEntry chords db.entries := (Prod.mk.inj hloaded).1 ▸ keeps_entries chords
      exact length_frets hkeeps hd hp

theorem definitions_unknown {key : String} (h : key ∉ db.keys) : db.definitions key = [] := by
  have hlookup : db.entries.lookup key = none := by
    rw [List.lookup_eq_none_iff]
    intro entry hentry
    rw [bne_iff_ne]
    rintro rfl
    exact h (List.mem_map_of_mem hentry)
  rw [Database.definitions, hlookup, Option.getD_none]

/-- Where suffixes are distinct, the first definition with a suffix is the only one. -/
theorem find?_eq_some_iff {key : String} (h : ((db.definitions key).map Definition.suffix).Nodup) {suffix : String}
    {d : Definition} : db.find? key suffix = some d ↔ d ∈ db.definitions key ∧ d.suffix = suffix := by
  unfold Database.find?
  constructor
  · intro hfind
    exact ⟨List.mem_of_find?_eq_some hfind, by simpa using List.find?_some hfind⟩
  · rintro ⟨hmem, rfl⟩
    obtain ⟨e, he⟩ : ∃ e, (db.definitions key).find? (fun e => e.suffix == d.suffix) = some e :=
      Option.isSome_iff_exists.mp (List.find?_isSome.mpr ⟨d, hmem, beq_self_eq_true _⟩)
    have heq : e.suffix = d.suffix := by simpa using List.find?_some he
    rw [he, List.inj_on_of_nodup_map h (List.mem_of_find?_eq_some he) hmem heq]

/-- The entries of a key are those of its one field. -/
theorem definitions_of_mem (h : Keeps IsEntry chords db.entries) (hkeys : (Dictionary.keys chords).Nodup)
    {key : String} {entries : List Json} (hmem : (key, Json.array entries) ∈ chords) (hne : key ≠ "") :
    ∃ all, Keeps IsDefinition entries all ∧ db.definitions key = firstOfEachSuffix all := by
  have hof : entriesOf (key, Json.array entries) = entries := if_neg hne
  have hkept : Keeps IsDefinition entries (kept (entries.map (loadDefinition key))) :=
    (keeps_iff fun _ _ => @loadDefinition_fst_iff key _ _).mpr rfl
  have hentry : IsEntry (key, Json.array entries) (key, firstOfEachSuffix (kept (entries.map (loadDefinition key)))) :=
    ⟨⟨rfl, hne, entries, rfl⟩, _, hof.symm ▸ hkept, rfl⟩
  obtain ⟨all, hall, hlookup⟩ := lookup_entries h hkeys hmem hentry
  refine ⟨all, hof ▸ hall, ?_⟩
  rw [Database.definitions, hlookup, Option.getD_some]

end Entries

theorem loadedFrom_ofFields {chords : List (String × Json)} (hkeys : (Dictionary.keys chords).Nodup) :
    LoadedFrom chords (Database.ofFields chords).1 where
  keys := keeps_keys (keeps_entries chords)
  definitions := fun _ _ hmem hne => definitions_of_mem (keeps_entries chords) hkeys hmem hne
  unknown := fun _ hkey => definitions_unknown hkey
  suffixes := nodup_suffixes (keeps_entries chords)
  frets := fun _ _ hd _ hp => length_frets (keeps_entries chords) hd hp
  find := fun key _ _ => find?_eq_some_iff (nodup_suffixes (keeps_entries chords) key)

/-! ## Malformed records -/

/-- The second mapping is the first one without one malformed record: a field, the record of a definition, or the
record of a fingering. -/
inductive Drops : List (String × Json) → List (String × Json) → Prop
  | key {before after : List (String × Json)} {field : String × Json} : (∀ key, ¬ IsKey field key) →
      Drops (before ++ field :: after) (before ++ after)
  | definition {before after : List (String × Json)} {key : String} {front back : List Json} {entry : Json} :
      ¬ IsDefinitionRecord entry →
      Drops (before ++ (key, .array (front ++ entry :: back)) :: after)
        (before ++ (key, .array (front ++ back)) :: after)
  | position {before after : List (String × Json)} {key : String} {front back : List Json} {entry entry' raw : Json}
      {raws raws' : List Json} : ¬ IsPositionRecord raw →
      (∀ name, name ≠ "positions" → entry'.field? name = entry.field? name) →
      entry.field? "positions" = some (.array (raws ++ raw :: raws')) →
      entry'.field? "positions" = some (.array (raws ++ raws')) →
      Drops (before ++ (key, .array (front ++ entry :: back)) :: after)
        (before ++ (key, .array (front ++ entry' :: back)) :: after)

section Drops

theorem kept_drop {α : Type} {x : Reported α} (hx : x.1 = none) (xs ys : List (Reported α)) :
    kept (xs ++ x :: ys) = kept (xs ++ ys) := by
  rw [kept_append, kept_cons, hx, kept_append]
  rfl

theorem kept_replace {α : Type} {x y : Reported α} (h : x.1 = y.1) (xs ys : List (Reported α)) :
    kept (xs ++ x :: ys) = kept (xs ++ y :: ys) := by
  rw [kept_append, kept_cons, h, kept_append, kept_cons]

theorem loadKey_fst_congr {key : String} {entries entries' : List Json}
    (h : kept (entries.map (loadDefinition key)) = kept (entries'.map (loadDefinition key))) :
    (loadKey key (.array entries)).1 = (loadKey key (.array entries')).1 := by
  unfold loadKey
  split
  · rfl
  · exact congrArg (fun ds => some (key, ds)) h

/-- A malformed fingering has no part in its definition. -/
theorem isDefinition_drop {entry entry' raw : Json} {raws raws' : List Json} (hraw : ¬ IsPositionRecord raw)
    (hother : ∀ name, name ≠ "positions" → entry'.field? name = entry.field? name)
    (hentry : entry.field? "positions" = some (.array (raws ++ raw :: raws')))
    (hentry' : entry'.field? "positions" = some (.array (raws ++ raws'))) (d : Definition) :
    IsDefinition entry d ↔ IsDefinition entry' d := by
  have hraws : rawPositions entry = raws ++ raw :: raws' := by rw [rawPositions, hentry]
  have hraws' : rawPositions entry' = raws ++ raws' := by rw [rawPositions, hentry']
  have hsuffix : entry'.field? "suffix" = entry.field? "suffix" := hother "suffix" (by decide)
  have hnone : (loadPosition "" "" raw).1 = none := by
    rw [Option.eq_none_iff_forall_ne_some]
    exact fun p hp => hraw ⟨p, loadPosition_fst_iff.mp hp⟩
  have hkeeps : Keeps IsPosition (raws ++ raw :: raws') d.positions ↔ Keeps IsPosition (raws ++ raws') d.positions := by
    have hload : ∀ raw p, (loadPosition "" "" raw).1 = some p ↔ IsPosition raw p := fun _ _ => loadPosition_fst_iff
    rw [keeps_iff hload, keeps_iff hload, List.map_append, List.map_cons, kept_drop hnone, List.map_append]
  unfold IsDefinition
  rw [hraws, hraws', hkeeps]
  refine and_congr_left fun _ => ⟨fun h => ?_, fun h => ?_⟩
  · exact ⟨hsuffix.trans h.stated, h.nonempty, Or.inr (by rw [hraws', hentry'])⟩
  · exact ⟨hsuffix.symm.trans h.stated, h.nonempty, Or.inr (by rw [hraws, hentry])⟩

/-- A malformed record has no part in the database. -/
theorem Drops.ofFields_fst {chords chords' : List (String × Json)} (h : Drops chords chords') :
    (Database.ofFields chords').1 = (Database.ofFields chords).1 := by
  suffices hkept : kept (chords'.map fun field => loadKey field.1 field.2) =
      kept (chords.map fun field => loadKey field.1 field.2) by
    have hentries := (ofFields_entries chords').trans (hkept ▸ (ofFields_entries chords).symm)
    cases hdb : (Database.ofFields chords).1
    cases hdb' : (Database.ofFields chords').1
    rw [hdb, hdb'] at hentries
    exact congrArg Database.mk hentries
  cases h with
  | @key before after field hfield =>
      obtain ⟨report, -, hload⟩ := loadKey_of_malformed hfield
      have hnone : (loadKey field.1 field.2).1 = none := by rw [hload]
      rw [List.map_append, List.map_append, List.map_cons, kept_drop hnone]
  | @definition before after key front back entry hentry =>
      have hnone : (loadDefinition key entry).1 = none := by
        rw [Option.eq_none_iff_forall_ne_some]
        exact fun d hd => hentry ⟨d, loadDefinition_fst_iff.mp hd⟩
      have hload : (loadKey key (.array (front ++ back))).1 = (loadKey key (.array (front ++ entry :: back))).1 := by
        apply loadKey_fst_congr
        rw [List.map_append, List.map_append, List.map_cons, kept_drop hnone]
      simp only [List.map_append, List.map_cons]
      exact kept_replace hload _ _
  | @position before after key front back entry entry' raw raws raws' hraw hother hentry hentry' =>
      have hsame : (loadDefinition key entry').1 = (loadDefinition key entry).1 := by
        apply Option.ext
        intro d
        rw [loadDefinition_fst_iff, loadDefinition_fst_iff]
        exact (isDefinition_drop hraw hother hentry hentry' d).symm
      have hload :
          (loadKey key (.array (front ++ entry' :: back))).1 = (loadKey key (.array (front ++ entry :: back))).1 := by
        apply loadKey_fst_congr
        rw [List.map_append, List.map_append, List.map_cons, List.map_cons, kept_replace hsame]
      simp only [List.map_append, List.map_cons]
      exact kept_replace hload _ _

end Drops

/-- Data that hold a mapping load to the database of its well-formed records. If a malformed record is taken from the
mapping, the data load to the same database. -/
theorem ofJson_loadedFrom {data : Json} {chords : List (String × Json)} (hdata : data.DistinctKeys)
    (h : HoldsMapping data chords) :
    ∃ db log, Database.ofJson data = .ok (db, log) ∧ LoadedFrom chords db ∧
      ∀ data' chords', HoldsMapping data' chords' → Drops chords chords' →
        ∃ log', Database.ofJson data' = .ok (db, log') := by
  refine ⟨(Database.ofFields chords).1, (Database.ofFields chords).2, ofJson_eq_ok_iff.mpr ⟨chords, h, rfl⟩,
    loadedFrom_ofFields (h.nodup hdata), ?_⟩
  intro data' chords' h' hdrops
  exact ⟨(Database.ofFields chords').2, ofJson_eq_ok_iff.mpr ⟨chords', h', by rw [← hdrops.ofFields_fst]⟩⟩

/-- A mapping with something malformed at each level, and with a suffix given twice. -/
def mixedChords : List (String × Json) :=
  [("", .array []),
    ("C", .array
      [.object [("suffix", .text "major"), ("positions", .array
          [.object [("frets", .array [.int (-1), .int 3, .int 2, .int 0, .int 1, .int 0])],
            .object [("frets", .array [.int 16, .int 0, .int 0, .int 0, .int 0, .int 0])],
            .object [("frets", .text "x32013")]])],
        .object [("suffix", .text "")],
        .object [("suffix", .text "minor")],
        .object [("suffix", .text "major"), ("positions", .array [.object [("frets", .text "x")]])]]),
    ("D", .null)]

/-- The mapping, with other data beside it. -/
def mixedData : Json := .object [("main", .object []), ("chords", .object mixedChords)]

/-- The empty key may as well be left out. -/
theorem ofJson_loadedFrom_mixed :
    mixedData.DistinctKeys ∧ HoldsMapping mixedData mixedChords ∧ Drops mixedChords mixedChords.tail ∧
      ∃ db log log', Database.ofJson mixedData = .ok (db, log) ∧ LoadedFrom mixedChords db ∧
        Database.ofJson (.object mixedChords.tail) = .ok (db, log') := by
  have hdata : mixedData.DistinctKeys := by simp [mixedData, mixedChords, Dictionary.keys]
  have hmapping : HoldsMapping mixedData mixedChords := .wrapped rfl
  have hempty : ∀ key, ¬ IsKey ("", Json.array []) key := fun _ hkey => hkey.2.1 rfl
  have hdrops : Drops mixedChords mixedChords.tail := @Drops.key [] mixedChords.tail _ hempty
  obtain ⟨db, log, hload, hloaded, hdropped⟩ := ofJson_loadedFrom hdata hmapping
  obtain ⟨log', hload'⟩ := hdropped (.object mixedChords.tail) mixedChords.tail (.bare rfl) hdrops
  exact ⟨hdata, hmapping, hdrops, db, log, log', hload, hloaded, hload'⟩

end LeadSheet.Chord
