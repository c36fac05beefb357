import LeadSheet.Command.Run
import LeadSheet.Proofs.Scan
import Mathlib.Tactic.Common

/-!
# Where paths lead

The file that a path leads to, the place that it is written to and its absolute path are found in three ways: the first
two look up every component, the last one only takes the components as they stand. Where the first two lead somewhere,
they lead to the absolute path. So comparing absolute paths tells whether two paths lead to one file, however they are
spelled.

* `follow place parts` : where components lead from a place, taken as they stand;
* `FileTree.locate_eq`, `FileTree.target_eq` : a path leads to its absolute path;
* `FileTree.sets_of_write` : a write sets the file at one place only, so that other files read the same afterwards
  (`FileTree.Sets.read`) and the file holds what was written (`FileTree.Sets.holds`);
* `PathName.resolvePath_path` : the name of a file leads where the path does that it was read from;
* `PathName.exists_defaultOutput` : a song is rendered beside it, to a file of another name
  (`PathName.resolvePath_defaultOutput_ne`, `FileTree.WellFormed.defaultOutput_beside`).
-/

namespace LeadSheet.Command

/-! ## Components -/

/-- A component that stays where it is. -/
def IsIdle (part : SystemText) : Prop := part = [] ∨ part = here

instance (part : SystemText) : Decidable (IsIdle part) := inferInstanceAs (Decidable (_ ∨ _))

/-- A component that leads into what has its name. -/
def IsFileName (name : SystemText) : Prop := ¬ IsIdle name ∧ name ≠ up

/-- Where a component leads from a place, taken as it stands. -/
def enter (place : List SystemText) (part : SystemText) : List SystemText :=
  if IsIdle part then place else if part = up then place.dropLast else place ++ [part]

/-- Where components lead from a place, taken as they stand. -/
def follow (place : List SystemText) (parts : List SystemText) : List SystemText := parts.foldl enter place

/-- A long component is the name of a file. -/
theorem isFileName_of_length {name : SystemText} (h : 2 < name.length) : IsFileName name := by
  constructor
  · rintro (rfl | rfl)
    · exact absurd h (by decide)
    · exact absurd h (by decide)
  · rintro rfl
    exact absurd h (by decide)

section Follow

variable {place parts : List SystemText} {part name : SystemText}

theorem follow_append (place front back : List SystemText) :
    follow place (front ++ back) = follow (follow place front) back :=
  List.foldl_append

theorem follow_cons_of_idle (h : IsIdle part) (place parts : List SystemText) :
    follow place (part :: parts) = follow place parts := by
  rw [follow, List.foldl_cons, enter, if_pos h, follow]

theorem follow_append_name (h : IsFileName name) (place parts : List SystemText) :
    follow place (parts ++ [name]) = follow place parts ++ [name] := by
  rw [follow_append, follow, List.foldl_cons, List.foldl_nil, enter, if_neg h.1, if_neg h.2]

theorem follow_append_up (place parts : List SystemText) :
    follow place (parts ++ [up]) = (follow place parts).dropLast := by
  rw [follow_append]
  rfl

/-- Components that stay may be left out. -/
theorem follow_filter {p : SystemText → Bool} (hp : ∀ part ∈ parts, p part = false → IsIdle part)
    (place : List SystemText) : follow place (parts.filter p) = follow place parts := by
  induction parts generalizing place with
  | nil => rfl
  | cons part parts ih =>
      obtain ⟨hpart, hparts⟩ := List.forall_mem_cons.mp hp
      cases hkept : p part with
      | true =>
          rw [List.filter_cons_of_pos hkept]
          exact ih hparts _
      | false =>
          rw [List.filter_cons_of_neg (by simp [hkept]), follow_cons_of_idle (hpart hkept)]
          exact ih hparts place

end Follow

theorem resolvePath_eq (cwd : List SystemText) (path : SystemText) :
    resolvePath cwd path = follow (if isAbsolute path then [] else cwd) (components path) :=
  rfl

/-! ## Places in a tree -/

namespace FileTree

variable {t t' : FileTree} {place place' : List SystemText} {parts : List SystemText} {path : SystemText}

def IsDirectory (t : FileTree) (place : List SystemText) : Prop := ∃ access, t.node? place = some (.directory access)

/-- A component is looked up in a directory, which may be entered, and what has its name must have a name that is not too
long. -/
theorem walk_cons_eq_ok_iff {part : SystemText} :
    t.walk place (part :: parts) = .ok place' ↔
      ∃ access, t.node? place = some (.directory access) ∧ (part ≠ [] → access.enter = true) ∧
        (IsFileName part → part.byteSize ≤ nameLimit) ∧ t.walk (enter place part) parts = .ok place' := by
  rw [walk]
  cases hnode : t.node? place with
  | none => simp
  | some node =>
      cases node with
      | file access contents => simp
      | directory access =>
          have hname : here ≠ [] ∧ up ≠ [] ∧ up ≠ here := by decide
          simp only [enter, IsFileName, IsIdle]
          by_cases hempty : part = []
          · simp [hempty]
          · rw [if_neg hempty]
            by_cases hclosed : access.enter = false
            · simp [hclosed, hempty]
            · rw [if_neg hclosed]
              have hopen : access.enter = true := by simpa using hclosed
              by_cases hhere : part = here
              · simp [hhere, hname, hopen]
              · rw [if_neg hhere]
                by_cases hup : part = up
                · simp [hup, hname, hopen]
                · rw [if_neg hup]
                  by_cases hlimit : nameLimit < part.byteSize
                  · simp [hempty, hhere, hup, hlimit, Nat.not_le_of_lt hlimit]
                  · rw [if_neg hlimit]
                    simp [hempty, hhere, hup, hopen, Nat.le_of_not_lt hlimit]

/-- Looking up every component leads to where the components lead as they stand. -/
theorem walk_eq (h : t.walk place parts = .ok place') : place' = follow place parts := by
  induction parts generalizing place with
  | nil =>
      rw [walk] at h
      split at h
      · exact (Except.ok.inj h).symm
      · exact absurd h (by simp)
  | cons part parts ih =>
      obtain ⟨-, -, -, -, hrest⟩ := walk_cons_eq_ok_iff.mp h
      exact ih hrest

theorem locate_eq_ok_iff :
    t.locate path = .ok place ↔
      path.isEmpty = false ∧ path.byteSize ≤ pathLimit ∧ t.walk (t.start path) (components path) = .ok place := by
  rw [locate]
  cases path.isEmpty with
  | true => simp
  | false =>
      rw [if_neg Bool.false_ne_true]
      by_cases hlimit : pathLimit < path.byteSize
      · simp [hlimit, Nat.not_le_of_lt hlimit]
      · simp [hlimit, Nat.le_of_not_lt hlimit]

/-- A path leads to its absolute path, if it leads anywhere. -/
theorem locate_eq (h : t.locate path = .ok place) : place = resolvePath t.cwd path :=
  walk_eq (locate_eq_ok_iff.mp h).2.2

def Holds (t : FileTree) (path : SystemText) (contents : Bytes) : Prop :=
  ∃ place access, t.locate path = .ok place ∧ t.node? place = some (.file access contents)

theorem look_eq_file_iff {readable : Bool} :
    t.look path = some (.file readable) ↔
      ∃ place access contents, t.locate path = .ok place ∧ t.node? place = some (.file access contents) ∧
        access.read = readable := by
  rw [look]
  cases t.locate path with
  | error e => simp
  | ok place =>
      cases hnode : t.node? place with
      | none => simp [hnode]
      | some node =>
          cases node with
          | file access contents => simp [hnode]
          | directory access => simp [hnode]

theorem read_eq_ok_iff {contents : Bytes} :
    t.read path = .ok contents ↔
      ∃ place access, t.locate path = .ok place ∧ t.node? place = some (.file access contents) ∧ access.read = true := by
  rw [read]
  cases t.locate path with
  | error e => simp
  | ok place =>
      cases hnode : t.node? place with
      | none => simp [hnode]
      | some node =>
          cases node with
          | file access contents =>
              cases hread : access.read with
              | true => simp [hnode, hread]
              | false => simp [hnode, hread]
          | directory access =>
              cases hread : access.read with
              | true => simp [hnode, hread]
              | false => simp [hnode, hread]

/-- A file is to be written into a directory, which the components before the last one lead to, under a name that no
directory has. -/
structure Targets (t : FileTree) (path : SystemText) (directory : List SystemText) (name : SystemText) : Prop where
  nonempty : path.isEmpty = false
  short : path.byteSize ≤ pathLimit
  parts : ∃ front, (components path).filter (· != []) = front ++ [name] ∧ t.walk (t.start path) front = .ok directory
  is_directory : ∃ access, t.node? directory = some (.directory access) ∧ access.enter = true
  isFileName : IsFileName name
  no_slash : path.getLast? ≠ some slash
  name_short : name.byteSize ≤ nameLimit
  free : ¬ t.IsDirectory (directory ++ [name])

/-- What succeeds has not met the condition of a failure. -/
theorem of_ite_error {ε α : Type} {c : Prop} [Decidable c] {e : ε} {x : Except ε α} {a : α}
    (h : (if c then .error e else x) = .ok a) : ¬ c ∧ x = .ok a := by
  split at h
  · exact absurd h (by simp)
  · rename_i hc
    exact ⟨hc, h⟩

theorem not_isDirectory_of_writtenAccess {directory access : Access} (h : t.writtenAccess directory place = .ok access) :
    ¬ t.IsDirectory place := by
  rintro ⟨found, hfound⟩
  rw [writtenAccess, hfound] at h
  exact absurd h (by simp)

theorem exists_targets {access : Access} (h : t.target path = .ok (place, access)) :
    ∃ directory name, place = directory ++ [name] ∧ t.Targets path directory name := by
  rw [target] at h
  obtain ⟨hempty, h⟩ := of_ite_error h
  obtain ⟨hlimit, h⟩ := of_ite_error h
  dsimp only at h
  split at h
  · exact absurd h (by simp)
  · rename_i name hname
    split at h
    · exact absurd h (by simp)
    · rename_i directory hwalk
      split at h
      · rename_i found hdirectory
        obtain ⟨hopen, h⟩ := of_ite_error h
        obtain ⟨hdots, h⟩ := of_ite_error h
        obtain ⟨hshort, h⟩ := of_ite_error h
        cases hwritten : t.writtenAccess found (directory ++ [name]) with
        | error e => rw [hwritten] at h; exact absurd h (by simp [Except.map])
        | ok written =>
            rw [hwritten] at h
            obtain ⟨hplace, -⟩ := Prod.mk.inj (Except.ok.inj h)
            push Not at hdots
            obtain ⟨front, hfront⟩ := List.getLast?_eq_some_iff.mp hname
            rw [hfront, List.dropLast_concat] at hwalk
            have hne : name ≠ [] := by
              have hmem := List.mem_of_mem_getLast? hname
              rw [List.mem_filter, bne_iff_ne] at hmem
              exact hmem.2
            refine ⟨directory, name, hplace.symm, ?_⟩
            exact
              { nonempty := by simpa using hempty
                short := Nat.le_of_not_lt hlimit
                parts := ⟨front, hfront, hwalk⟩
                is_directory := ⟨found, hdirectory, by simpa using hopen⟩
                isFileName := ⟨not_or.mpr ⟨hne, hdots.1⟩, hdots.2.1⟩
                no_slash := hdots.2.2
                name_short := Nat.le_of_not_lt hshort
                free := not_isDirectory_of_writtenAccess hwritten }
      · exact absurd h (by simp)

/-- A file is written to the absolute path of its path, where no directory stands. -/
theorem target_eq {access : Access} (h : t.target path = .ok (place, access)) :
    place = resolvePath t.cwd path ∧ place ≠ [] ∧ ¬ t.IsDirectory place := by
  obtain ⟨directory, name, rfl, htargets⟩ := exists_targets h
  refine ⟨?_, by simp, htargets.free⟩
  obtain ⟨front, hparts, hwalk⟩ := htargets.parts
  have hidle : ∀ part ∈ components path, (part != []) = false → IsIdle part :=
    fun part _ hpart => Or.inl (by simpa using hpart)
  rw [resolvePath_eq, ← follow_filter hidle, hparts, follow_append_name htargets.isFileName, walk_eq hwalk, start]

/-! ### Writing -/

theorem lookup_setNode (place : List SystemText) (node : Node) (nodes : List (List SystemText × Node))
    (other : List SystemText) :
    (setNode place node nodes).lookup other = if other = place then some node else nodes.lookup other := by
  induction nodes with
  | nil =>
      by_cases h : other = place
      · simp [setNode, h]
      · simp [setNode, h]
  | cons entry nodes ih =>
      obtain ⟨p, n⟩ := entry
      rw [setNode]
      split
      · rename_i hp
        subst hp
        by_cases h : other = p
        · simp [h]
        · simp [h, List.lookup_cons, beq_eq_false_iff_ne.mpr h]
      · rename_i hp
        rw [List.lookup_cons, List.lookup_cons, ih]
        by_cases h : other = p
        · subst h
          simp [hp]
        · simp [beq_eq_false_iff_ne.mpr h]

/-- A write sets the node at one place, where no directory stood, and leaves the others as they are. -/
structure Sets (t : FileTree) (place : List SystemText) (contents : Bytes) (t' : FileTree) : Prop where
  cwd : t'.cwd = t.cwd
  node : ∃ access, t'.node? place = some (.file access contents)
  others : ∀ other, other ≠ place → t'.node? other = t.node? other
  not_directory : ¬ t.IsDirectory place

theorem sets_of_write {contents : Bytes} (h : t.write path contents = .ok t') :
    ∃ place access, t.target path = .ok (place, access) ∧ Sets t place contents t' := by
  rw [write] at h
  cases htarget : t.target path with
  | error e => rw [htarget] at h; exact absurd h (by simp [Except.map])
  | ok written =>
      obtain ⟨place, access⟩ := written
      rw [htarget] at h
      obtain rfl := Except.ok.inj h
      obtain ⟨-, hne, hdirectory⟩ := target_eq htarget
      refine ⟨place, access, rfl, rfl, ⟨access, ?_⟩, fun other hother => ?_, hdirectory⟩
      · rw [node?, if_neg (by simpa using hne), lookup_setNode, if_pos rfl]
      · rw [node?, node?, lookup_setNode, if_neg hother]

theorem target_of_write {contents : Bytes} {cause : FileError} (h : t.write path contents = .error cause) :
    t.target path = .error cause := by
  rw [write] at h
  cases htarget : t.target path with
  | error e => rw [htarget] at h; exact congrArg Except.error (Except.error.inj h)
  | ok written => rw [htarget] at h; exact absurd h (by simp [Except.map])

/-- What leads to another place before a write leads there after it. -/
theorem Sets.walk {contents : Bytes} {written : List SystemText} (h : Sets t written contents t')
    (hwalk : t.walk place parts = .ok place') (hne : place' ≠ written) : t'.walk place parts = .ok place' := by
  induction parts generalizing place with
  | nil =>
      rw [FileTree.walk] at hwalk ⊢
      split at hwalk
      · rename_i hsome
        obtain rfl := Except.ok.inj hwalk
        rw [h.others _ hne, if_pos hsome]
      · exact absurd hwalk (by simp)
  | cons part parts ih =>
      obtain ⟨access, hnode, hopen, hlimit, hrest⟩ := walk_cons_eq_ok_iff.mp hwalk
      have hplace : place ≠ written := fun heq => h.not_directory (heq ▸ ⟨access, hnode⟩)
      exact walk_cons_eq_ok_iff.mpr ⟨access, (h.others place hplace).trans hnode, hopen, hlimit, ih hrest⟩

theorem Sets.locate {contents : Bytes} {written : List SystemText} (h : Sets t written contents t')
    (hlocate : t.locate path = .ok place) (hne : place ≠ written) : t'.locate path = .ok place := by
  obtain ⟨hempty, hlimit, hwalk⟩ := locate_eq_ok_iff.mp hlocate
  have hstart : t'.start path = t.start path := by rw [start, start, h.cwd]
  exact locate_eq_ok_iff.mpr ⟨hempty, hlimit, hstart ▸ h.walk hwalk hne⟩

/-- A file with another absolute path reads the same after a write. -/
theorem Sets.read {contents : Bytes} {written : List SystemText} (h : Sets t written contents t') {found : Bytes}
    (hread : t.read path = .ok found) (hne : resolvePath t.cwd path ≠ written) : t'.read path = .ok found := by
  obtain ⟨place, access, hlocate, hnode, haccess⟩ := read_eq_ok_iff.mp hread
  have hplace : place ≠ written := locate_eq hlocate ▸ hne
  exact read_eq_ok_iff.mpr ⟨place, access, h.locate hlocate hplace, (h.others place hplace).trans hnode, haccess⟩

theorem walk_append {front back : List SystemText} {middle : List SystemText} (h : t.walk place front = .ok middle)
    (hback : t.walk middle back = .ok place') : t.walk place (front ++ back) = .ok place' := by
  induction front generalizing place with
  | nil =>
      obtain rfl := walk_eq h
      exact hback
  | cons part front ih =>
      obtain ⟨access, hnode, hopen, hlimit, hrest⟩ := walk_cons_eq_ok_iff.mp h
      exact walk_cons_eq_ok_iff.mpr ⟨access, hnode, hopen, hlimit, ih hrest⟩

/-- Empty components do not matter on the way to a directory. -/
theorem walk_of_walk_filter (h : t.walk place (parts.filter (· != [])) = .ok place') (hdirectory : t.IsDirectory place') :
    t.walk place parts = .ok place' := by
  induction parts generalizing place with
  | nil => exact h
  | cons part parts ih =>
      by_cases hpart : part = []
      · subst hpart
        rw [List.filter_cons_of_neg (by decide)] at h
        have hplace : t.IsDirectory place := by
          cases hparts : parts.filter (· != []) with
          | nil =>
              rw [hparts] at h
              obtain rfl := walk_eq h
              exact hdirectory
          | cons first rest =>
              rw [hparts] at h
              obtain ⟨access, hnode, -⟩ := walk_cons_eq_ok_iff.mp h
              exact ⟨access, hnode⟩
        obtain ⟨access, hnode⟩ := hplace
        exact walk_cons_eq_ok_iff.mpr
          ⟨access, hnode, fun hne => absurd rfl hne, fun hname => absurd (Or.inl rfl) hname.1, ih h⟩
      · have hkept : (part != []) = true := bne_iff_ne.mpr hpart
        rw [List.filter_cons_of_pos (p := (· != [])) hkept] at h
        obtain ⟨access, hnode, hopen, hlimit, hrest⟩ := walk_cons_eq_ok_iff.mp h
        exact walk_cons_eq_ok_iff.mpr ⟨access, hnode, hopen, hlimit, ih hrest⟩

/-- A path that does not end in a slash ends in a component. -/
theorem exists_components_eq (hne : path.isEmpty = false) (hslash : path.getLast? ≠ some slash) :
    ∃ front name, components path = front ++ [name] ∧ name ≠ [] := by
  rcases List.eq_nil_or_concat path with rfl | ⟨front, c, rfl⟩
  · exact absurd hne (by simp)
  · rw [List.concat_eq_append] at hslash ⊢
    have hc : (c == slash) = false := by
      rw [List.getLast?_concat, Ne, Option.some.injEq] at hslash
      exact beq_eq_false_iff_ne.mpr hslash
    have hlast := Text.getLast?_cutAt_ne (p := (· == slash)) hc front
    rcases List.eq_nil_or_concat (components (front ++ [c])) with hnil | ⟨parts, part, hparts⟩
    · exact absurd hnil (Text.cutAt_ne_nil _ _)
    · rw [List.concat_eq_append] at hparts
      rw [components] at hparts ⊢
      rw [hparts, List.getLast?_concat, Ne, Option.some.injEq] at hlast
      exact ⟨parts, part, hparts, hlast⟩

/-- A file that has been written holds what was written. -/
theorem Sets.holds {contents : Bytes} {access : Access} (h : Sets t place contents t')
    (htarget : t.target path = .ok (place, access)) : t'.Holds path contents := by
  obtain ⟨directory, name, rfl, htargets⟩ := exists_targets htarget
  obtain ⟨front, last, hcomponents, hlast⟩ := exists_components_eq htargets.nonempty htargets.no_slash
  obtain ⟨front', hparts, hwalk⟩ := htargets.parts
  obtain ⟨found, hfound, hopen⟩ := htargets.is_directory
  have hkept : (last != []) = true := bne_iff_ne.mpr hlast
  rw [hcomponents, List.filter_append, List.filter_cons_of_pos (p := (· != [])) hkept, List.filter_nil] at hparts
  obtain ⟨rfl, hname⟩ := List.append_inj' hparts rfl
  obtain rfl := List.singleton_inj.mp hname
  have hdirectory : directory ≠ directory ++ [last] := fun heq => htargets.free (heq ▸ ⟨found, hfound⟩)
  have hfront : t'.walk (t'.start path) front = .ok directory := by
    rw [start, h.cwd]
    exact h.walk (walk_of_walk_filter hwalk ⟨found, hfound⟩) hdirectory
  have henter : enter directory last = directory ++ [last] := by
    rw [enter, if_neg htargets.isFileName.1, if_neg htargets.isFileName.2]
  obtain ⟨written, hwritten⟩ := h.node
  have hstep : t'.walk directory [last] = .ok (directory ++ [last]) := by
    have hnode : t'.node? directory = some (.directory found) := (h.others _ hdirectory).trans hfound
    refine walk_cons_eq_ok_iff.mpr ⟨found, hnode, fun _ => hopen, fun _ => htargets.name_short, ?_⟩
    rw [henter, FileTree.walk, hwritten]
    rfl
  exact ⟨directory ++ [last], written,
    locate_eq_ok_iff.mpr ⟨htargets.nonempty, htargets.short, hcomponents ▸ walk_append hfront hstep⟩, hwritten⟩

end FileTree

/-! ## Names of files -/

namespace PathName

variable {p : PathName} {cwd : List SystemText} {name path : SystemText}

def base (cwd : List SystemText) (p : PathName) : List SystemText := if p.root = [] then cwd else []

def resolve (cwd : List SystemText) (p : PathName) : List SystemText := follow (p.base cwd) p.parts

/-- The name can be written as a path: it has at most two slashes at its start, and components between slashes. -/
structure Written (p : PathName) : Prop where
  root : p.root = [] ∨ p.root = [slash] ∨ p.root = [slash, slash]
  parts : ∀ part ∈ p.parts, ¬ IsIdle part ∧ slash ∉ part

theorem isAbsolute_iff (path : SystemText) : isAbsolute path = true ↔ (ofPath path).root ≠ [] := by
  rw [isAbsolute, ofPath]
  cases path with
  | nil => simp
  | cons c rest =>
      by_cases hc : c = slash
      · subst hc
        simp only [List.head?_cons, beq_self_eq_true, List.takeWhile_cons, if_true, List.length_cons, true_iff]
        split
        · exact absurd (by assumption) (Nat.succ_ne_zero _)
        · exact List.cons_ne_nil _ _
        · exact List.cons_ne_nil _ _
      · simp [hc]

theorem ofPath_written (path : SystemText) : (ofPath path).Written where
  root := by
    rw [ofPath]
    dsimp only
    split
    · exact Or.inl rfl
    · exact Or.inr (Or.inr rfl)
    · exact Or.inr (Or.inl rfl)
  parts part hpart := by
    rw [ofPath, List.mem_filter, Bool.and_eq_true, bne_iff_ne, bne_iff_ne] at hpart
    obtain ⟨hmem, hempty, hhere⟩ := hpart
    exact ⟨not_or.mpr ⟨hempty, hhere⟩, fun hslash =>
      absurd (Text.not_mem_of_mem_cutAt hmem _ hslash) (by simp)⟩

/-- A path leads where its name does. -/
theorem resolvePath_eq_resolve (cwd : List SystemText) (path : SystemText) :
    resolvePath cwd path = (ofPath path).resolve cwd := by
  have hbase : (if isAbsolute path then [] else cwd) = (ofPath path).base cwd := by
    rw [base]
    by_cases habsolute : isAbsolute path = true
    · rw [if_pos habsolute, if_neg ((isAbsolute_iff path).mp habsolute)]
    · rw [if_neg habsolute, if_pos (not_not.mp (mt (isAbsolute_iff path).mpr habsolute))]
  have hidle : ∀ part ∈ components path, (part != [] && part != here) = false → IsIdle part := by
    intro part _ hpart
    rw [Bool.and_eq_false_iff, bne_eq_false_iff_eq, bne_eq_false_iff_eq] at hpart
    exact hpart
  rw [resolvePath_eq, hbase, resolve, ← follow_filter hidle]
  rfl

theorem components_slash (path : SystemText) : components (slash :: path) = [] :: components path :=
  Text.cutAt_mark (by simp) path

theorem components_intercalate {parts : List SystemText} (hne : parts ≠ []) (h : ∀ part ∈ parts, slash ∉ part) :
    components (List.intercalate [slash] parts) = parts :=
  Text.cutAt_intercalate (by simp) hne fun part hpart c hc =>
    beq_eq_false_iff_ne.mpr fun heq => h part hpart (heq ▸ hc)

theorem follow_intercalate {parts : List SystemText} (h : ∀ part ∈ parts, slash ∉ part) (place : List SystemText) :
    follow place (components (List.intercalate [slash] parts)) = follow place parts := by
  cases parts with
  | nil => exact follow_cons_of_idle (Or.inl rfl) place []
  | cons part parts => rw [components_intercalate (List.cons_ne_nil _ _) h]

/-- A name leads to one place as it is and when it is written as a path. -/
theorem Written.resolvePath_path (h : p.Written) (cwd : List SystemText) : resolvePath cwd p.path = p.resolve cwd := by
  obtain ⟨root, parts⟩ := p
  have hslash : ∀ part ∈ parts, slash ∉ part := fun part hpart => (h.parts part hpart).2
  have habsolute : ∀ path, isAbsolute (slash :: path) = true := by
    intro path
    rw [isAbsolute, List.head?_cons, beq_self_eq_true]
  rw [resolvePath_eq, resolve, base, PathName.path]
  rcases h.root with hroot | hroot | hroot
  · obtain rfl : root = [] := hroot
    cases parts with
    | nil => rfl
    | cons part parts =>
        have hrelative : ¬ isAbsolute (List.intercalate [slash] (part :: parts)) = true := by
          intro hstart
          rw [isAbsolute, beq_iff_eq] at hstart
          obtain ⟨rest, hrest⟩ := List.head?_eq_some_iff.mp hstart
          have hcomponents := components_intercalate (List.cons_ne_nil part parts) hslash
          rw [hrest, components_slash] at hcomponents
          obtain ⟨rfl, -⟩ := List.cons.inj hcomponents
          exact (h.parts _ List.mem_cons_self).1 (Or.inl rfl)
        show follow (if isAbsolute ([] ++ _) then _ else _) (components ([] ++ _)) = _
        rw [List.nil_append, if_neg hrelative, follow_intercalate hslash]
        rfl
  · obtain rfl : root = [slash] := hroot
    show follow (if isAbsolute (slash :: List.intercalate [slash] parts) then _ else _)
      (components (slash :: List.intercalate [slash] parts)) = _
    rw [if_pos (habsolute _), components_slash, follow_cons_of_idle (Or.inl rfl), follow_intercalate hslash]
    rfl
  · obtain rfl : root = [slash, slash] := hroot
    show follow (if isAbsolute (slash :: slash :: List.intercalate [slash] parts) then _ else _)
      (components (slash :: slash :: List.intercalate [slash] parts)) = _
    rw [if_pos (habsolute _), components_slash, components_slash, follow_cons_of_idle (Or.inl rfl),
      follow_cons_of_idle (Or.inl rfl), follow_intercalate hslash]
    rfl

/-! ### Beside a file -/

theorem Written.withFileName (h : p.Written) (hname : ¬ IsIdle name) (hslash : slash ∉ name) :
    (p.withFileName name).Written where
  root := h.root
  parts part hpart := by
    rcases List.mem_append.mp hpart with hpart | hpart
    · exact h.parts part ((List.dropLast_sublist _).subset hpart)
    · rw [List.mem_singleton.mp hpart]
      exact ⟨hname, hslash⟩

theorem resolve_withFileName (hname : IsFileName name) (p : PathName) (cwd : List SystemText) :
    (p.withFileName name).resolve cwd = follow (p.base cwd) p.parts.dropLast ++ [name] :=
  follow_append_name hname _ _

theorem withFileName_fileName (h : p.parts ≠ []) : p.withFileName p.fileName = p := by
  obtain ⟨root, parts⟩ := p
  rw [withFileName, fileName, List.getLast?_eq_some_getLast h, Option.getD_some, List.dropLast_concat_getLast h]

/-- A file beside another one, with another name, has another absolute path. -/
theorem resolve_withFileName_ne (h : p.Written) (hname : IsFileName name) (hne : name ≠ p.fileName)
    (cwd : List SystemText) : (p.withFileName name).resolve cwd ≠ p.resolve cwd := by
  rw [resolve_withFileName hname]
  by_cases hparts : p.parts = []
  · rw [resolve, hparts]
    exact fun heq => absurd (congrArg List.length heq) (by simp [follow])
  · have hlast : p.parts = p.parts.dropLast ++ [p.fileName] := by
      conv_lhs => rw [← withFileName_fileName hparts]
      rfl
    have hmem : p.fileName ∈ p.parts := hlast ▸ List.mem_append_right _ List.mem_cons_self
    rw [resolve]
    conv_rhs => rw [hlast]
    by_cases hup : p.fileName = up
    · rw [hup, follow_append_up]
      intro heq
      have hlength := congrArg List.length heq
      rw [List.length_append, List.length_singleton, List.length_dropLast] at hlength
      omega
    · rw [follow_append_name ⟨(h.parts _ hmem).1, hup⟩]
      intro heq
      exact hne (List.cons.inj (List.append_cancel_left heq)).1

theorem stem_prefix (p : PathName) : p.stem <+: p.fileName := by
  rw [stem, splitSuffix]
  split
  · exact List.prefix_rfl
  · exact List.take_prefix _ _

theorem Written.slash_not_mem_fileName (h : p.Written) : slash ∉ p.fileName := by
  rw [fileName]
  cases hlast : p.parts.getLast? with
  | none => exact List.not_mem_nil
  | some part => exact (h.parts part (List.mem_of_mem_getLast? hlast)).2

theorem length_ofString (s : String) : (SystemText.ofString s).length = s.length := by
  rw [SystemText.ofString, List.length_map, String.length_toList]

theorem slash_not_mem_ofString {s : String} (h : '/' ∉ s.toList) : slash ∉ SystemText.ofString s := by
  rw [SystemText.ofString, List.mem_map]
  rintro ⟨c, hc, heq⟩
  exact h (SystemChar.char.inj heq ▸ hc)

/-- A song is rendered to a file beside it, whose name is another one. -/
theorem exists_defaultOutput {song : PathName} (h : song.Written) :
    ∃ name, IsFileName name ∧ slash ∉ name ∧ name ≠ song.fileName ∧ defaultOutput song = song.withFileName name := by
  have hstem : slash ∉ song.stem := fun hmem => h.slash_not_mem_fileName (song.stem_prefix.subset hmem)
  have hextension : ".html".length = 5 := rfl
  have hrendered : ".rendered.html".length = 14 := rfl
  rw [defaultOutput]
  by_cases hsame : song.withSuffix SheetFormat.page.fileExtension = song
  · have hname : song.fileName = song.stem ++ SystemText.ofString ".html" := by
      conv_lhs => rw [← hsame]
      rw [withSuffix, withFileName, fileName, List.getLast?_concat, Option.getD_some]
      rfl
    refine ⟨song.stem ++ SystemText.ofString ".rendered.html", isFileName_of_length ?_, ?_, ?_, if_pos hsame⟩
    · rw [List.length_append, length_ofString]
      omega
    · rw [List.mem_append, not_or]
      exact ⟨hstem, slash_not_mem_ofString (by decide)⟩
    · rw [hname]
      intro heq
      have hlength := congrArg List.length heq
      rw [List.length_append, List.length_append, length_ofString, length_ofString] at hlength
      omega
  · refine ⟨song.stem ++ SystemText.ofString ".html", isFileName_of_length ?_, ?_, ?_, if_neg hsame⟩
    · rw [List.length_append, length_ofString]
      omega
    · rw [List.mem_append, not_or]
      exact ⟨hstem, slash_not_mem_ofString (by decide)⟩
    · intro hname
      refine hsame ((congrArg song.withFileName hname).trans (withFileName_fileName fun hnil => ?_))
      rw [fileName, hnil] at hname
      have hlength := congrArg List.length hname
      rw [List.length_append, length_ofString, List.getLast?_nil, Option.getD_none, List.length_nil] at hlength
      omega

/-- The file that a song is rendered to when none is named has another absolute path than the song. -/
theorem resolvePath_defaultOutput_ne (cwd : List SystemText) (song : SystemText) :
    resolvePath cwd (defaultOutput (ofPath song)).path ≠ resolvePath cwd song := by
  have hwritten := ofPath_written song
  obtain ⟨name, hfile, hslash, hne, heq⟩ := exists_defaultOutput hwritten
  rw [heq, (hwritten.withFileName hfile.1 hslash).resolvePath_path, resolvePath_eq_resolve]
  exact resolve_withFileName_ne hwritten hfile hne cwd

end PathName

/-! ## In a tree of files -/

namespace FileTree

variable {t : FileTree}

/-- What is in the tree is in a directory. -/
def WellFormed (t : FileTree) : Prop := ∀ place node, t.nodes.lookup place = some node → t.IsDirectory place.dropLast

theorem WellFormed.dropLast (h : t.WellFormed) {place : List SystemText} {node : Node} (hnode : t.node? place = some node) :
    t.IsDirectory place.dropLast := by
  rw [node?] at hnode
  split at hnode
  · rename_i hempty
    rw [List.isEmpty_iff.mp hempty]
    exact ⟨t.root, rfl⟩
  · exact h place node hnode

/-- A way to a file ends with the name of the file, if it does not start there. -/
theorem WellFormed.exists_name_of_walk (h : t.WellFormed) {place parts place' : List SystemText} {access : Access}
    {contents : Bytes} (hwalk : t.walk place parts = .ok place') (hfile : t.node? place' = some (.file access contents)) :
    place = place' ∧ parts = [] ∨ ∃ front name, IsFileName name ∧ parts = front ++ [name] := by
  induction parts generalizing place with
  | nil => exact Or.inl ⟨(walk_eq hwalk).symm, rfl⟩
  | cons part parts ih =>
      obtain ⟨found, hnode, -, -, hrest⟩ := walk_cons_eq_ok_iff.mp hwalk
      right
      rcases ih hrest with ⟨heq, rfl⟩ | ⟨front, name, hname, rfl⟩
      · refine ⟨[], part, ⟨fun hidle => ?_, fun hup => ?_⟩, rfl⟩
        · rw [← heq, enter, if_pos hidle, hnode] at hfile
          exact absurd hfile (by simp)
        · obtain ⟨above, habove⟩ := h.dropLast hnode
          rw [← heq, hup, enter, if_neg (by decide), if_pos rfl, habove] at hfile
          exact absurd hfile (by simp)
      · exact ⟨part :: front, name, hname, rfl⟩

/-- The file that a song is rendered to when none is named is in the directory of the song. -/
theorem WellFormed.defaultOutput_beside (h : t.WellFormed) {song : SystemText} {readable : Bool}
    (hsong : t.look song = some (.file readable)) :
    ∃ directory name name', name' ≠ name ∧ t.locate song = .ok (directory ++ [name]) ∧
      resolvePath t.cwd (defaultOutput (PathName.ofPath song)).path = directory ++ [name'] := by
  obtain ⟨place, access, contents, hlocate, hcontents, -⟩ := look_eq_file_iff.mp hsong
  have hplace := locate_eq hlocate
  have hwritten := PathName.ofPath_written song
  obtain ⟨name', hfile', hslash, hne, heq⟩ := PathName.exists_defaultOutput hwritten
  obtain ⟨-, hnil⟩ | ⟨front, name, hfile, hsplit⟩ := h.exists_name_of_walk (locate_eq_ok_iff.mp hlocate).2.2 hcontents
  · exact absurd hnil (Text.cutAt_ne_nil _ _)
  · have hkept : [name].filter (fun part => part != [] && part != here) = [name] := by
      have hidle := hfile.1
      rw [IsIdle, not_or] at hidle
      simp [hidle]
    have hparts : (PathName.ofPath song).parts = front.filter (fun part => part != [] && part != here) ++ [name] := by
      rw [PathName.ofPath, hsplit, List.filter_append, hkept]
    refine ⟨follow ((PathName.ofPath song).base t.cwd) (PathName.ofPath song).parts.dropLast, name, name', ?_, ?_, ?_⟩
    · rw [PathName.fileName, hparts, List.getLast?_concat] at hne
      exact hne
    · rw [hlocate, hplace, PathName.resolvePath_eq_resolve, PathName.resolve, hparts, List.dropLast_concat,
        follow_append_name hfile]
    · rw [heq, (hwritten.withFileName hfile'.1 hslash).resolvePath_path, PathName.resolve_withFileName hfile']

end FileTree

end LeadSheet.Command
