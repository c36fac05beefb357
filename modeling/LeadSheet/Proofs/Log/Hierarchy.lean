import LeadSheet.Log.Hierarchy
import LeadSheet.Proofs.Scan
import Mathlib.Data.List.Infix
import Mathlib.Order.Basic

/-!
# The level of a logger

Names come into use in any order, and a hierarchy keeps for each logger only the one that it stands below. The level of
a logger can also be told from names and levels alone: it is that of the nearest name at or above it that has one. The
two agree as long as each logger stands below the nearest name above it that is in use.

* `IsAbove a n` : the name `a` is what stands before a dot of `n`;
* `topOf n` : the name up to its first dot, which is the same for all names above and below;
* `Regular n` : a name whose dots are apart, and with which the name of the root does not begin;
* `HasLevel levels root n level` : the level of a name, told from names and levels alone;
* `Placed top h` : each logger below `top` stands where its name says, and it waits for all names between;
* `Placed.use` : this stays so when a name comes into use, which must be regular if it is below `top`;
* `Placed.hasLevel` : then a logger has the level that its name tells.
-/

namespace LeadSheet.Log

/-! ## Names -/

/-- The first name is what stands before a dot of the second. -/
def IsAbove (a n : String) : Prop := a ≠ "" ∧ ∃ rest, n.toList = a.toList ++ '.' :: rest

/-- The first name is the second, or lies above it. -/
def IsAtOrAbove (a n : String) : Prop := a = n ∨ IsAbove a n

/-- The part of a name before its first dot. -/
def topOf (n : String) : List Char := n.toList.takeWhile (· != '.')

/-- A name with its dots apart. The name of the root does not begin with it, unless it is this name. -/
structure Regular (n : String) : Prop where
  apart : ¬ ['.', '.'] <:+: n.toList
  not_start : n ∉ ["r", "ro", "roo"]

section Names

variable {a b n : String}

theorem IsAbove.length_lt (h : IsAbove a n) : a.length < n.length := by
  obtain ⟨-, rest, hn⟩ := h
  have hlength := congrArg List.length hn
  simp only [List.length_append, List.length_cons, String.length_toList] at hlength
  omega

theorem IsAbove.trans (hab : IsAbove a b) (hbn : IsAbove b n) : IsAbove a n := by
  obtain ⟨hne, rest, hb⟩ := hab
  obtain ⟨-, rest', hn⟩ := hbn
  exact ⟨hne, rest ++ '.' :: rest', by rw [hn, hb, List.append_assoc, List.cons_append]⟩

/-- Of two names above a third, the shorter one lies above the longer one. -/
theorem IsAbove.of_length_lt (ha : IsAbove a n) (hb : IsAbove b n) (h : a.length < b.length) : IsAbove a b := by
  obtain ⟨hne, rest, hn⟩ := ha
  obtain ⟨-, rest', hn'⟩ := hb
  rw [← String.length_toList, ← String.length_toList] at h
  rcases List.append_eq_append_iff.mp (hn.symm.trans hn') with ⟨middle, hmiddle, hrest⟩ | ⟨middle, hmiddle, -⟩
  · cases middle with
    | nil =>
        rw [hmiddle, List.append_nil] at h
        exact absurd h (lt_irrefl _)
    | cons c middle =>
        obtain ⟨rfl, -⟩ := List.cons.inj hrest
        exact ⟨hne, middle, hmiddle⟩
  · rw [hmiddle, List.length_append] at h
    omega

theorem IsAbove.eq_of_length_eq (ha : IsAbove a n) (hb : IsAbove b n) (h : a.length = b.length) : a = b := by
  obtain ⟨-, rest, hn⟩ := ha
  obtain ⟨-, rest', hn'⟩ := hb
  rw [← String.length_toList, ← String.length_toList] at h
  exact String.toList_inj.mp (List.append_inj_left (hn.symm.trans hn') h)

theorem IsAtOrAbove.length_le (h : IsAtOrAbove a n) : a.length ≤ n.length := by
  rcases h with rfl | h
  · exact le_rfl
  · exact h.length_lt.le

theorem IsAtOrAbove.eq_of_length_eq (ha : IsAtOrAbove a n) (hb : IsAtOrAbove b n) (h : a.length = b.length) :
    a = b := by
  rcases ha with rfl | ha
  · rcases hb with rfl | hb
    · rfl
    · exact absurd h hb.length_lt.ne'
  · rcases hb with rfl | hb
    · exact absurd h ha.length_lt.ne
    · exact ha.eq_of_length_eq hb h

theorem IsAbove.topOf_eq (h : IsAbove a n) : topOf a = topOf n := by
  obtain ⟨-, rest, hn⟩ := h
  rw [topOf, topOf, hn, Text.takeWhile_append_mark (by decide)]

/-- The name of the root has no dot. -/
theorem not_isAbove_rootName (a : String) : ¬ IsAbove a rootName := by
  rintro ⟨-, rest, h⟩
  have hdot : '.' ∈ rootName.toList := h ▸ List.mem_append_right _ List.mem_cons_self
  exact absurd hdot (by decide)

/-- The name of the root does not begin with another regular name. -/
theorem Regular.not_prefix_rootName (h : Regular n) (hroot : n ≠ rootName) (hne : n ≠ "") :
    ¬ n.toList <+: rootName.toList := by
  intro hprefix
  have hinits : n.toList ∈ [[], ['r'], ['r', 'o'], ['r', 'o', 'o'], ['r', 'o', 'o', 't']] :=
    (List.mem_inits _ _).mpr hprefix
  have hname : ∀ s : String, n.toList = s.toList → n = s := fun _ => String.toList_inj.mp
  have hstart := h.not_start
  simp only [List.mem_cons, List.not_mem_nil, or_false, not_or] at hinits hstart
  rcases hinits with h | h | h | h | h
  · exact hne (hname "" h)
  · exact hstart.1 (hname "r" h)
  · exact hstart.2.1 (hname "ro" h)
  · exact hstart.2.2 (hname "roo" h)
  · exact hroot (hname "root" h)

end Names

/-! ## The names above a name -/

theorem mem_dots {i : Nat} {s : List Char} : i ∈ dots s ↔ 0 < i ∧ s[i]? = some '.' := by
  have hlt : s[i]? = some '.' → i < s.length := fun h => (List.getElem?_eq_some_iff.mp h).1
  simp only [dots, List.mem_filter, List.mem_reverse, List.mem_range, Bool.and_eq_true, decide_eq_true_eq,
    beq_iff_eq]
  exact ⟨fun h => h.2, fun h => ⟨hlt h.2, h⟩⟩

theorem pairwise_dots (s : List Char) : (dots s).Pairwise (· > ·) :=
  List.Pairwise.filter _ (List.pairwise_reverse.mpr List.pairwise_lt_range)

theorem dropNeighbours_of_apart {l : List Nat} (h : ∀ i ∈ l, ∀ j ∈ l, j + 1 ≠ i) : dropNeighbours l = l := by
  fun_induction dropNeighbours l with
  | case1 => rfl
  | case2 => rfl
  | case3 j rest _ => exact absurd rfl (h (j + 1) (by simp) j (by simp))
  | case4 i j rest _ ih => rw [ih fun i hi j hj => h i (List.mem_cons_of_mem _ hi) j (List.mem_cons_of_mem _ hj)]

theorem dropNeighbours_sublist (l : List Nat) : (dropNeighbours l).Sublist l := by
  fun_induction dropNeighbours l with
  | case1 => exact List.Sublist.slnil
  | case2 => exact List.Sublist.refl _
  | case3 j rest ih => exact (ih.trans (List.sublist_cons_self _ _)).cons_cons _
  | case4 i j rest _ ih => exact ih.cons_cons _

/-- What is cut off at a dot lies above. -/
theorem isAbove_of_mem_dots {n : String} {i : Nat} (hi : i ∈ dots n.toList) :
    IsAbove (String.ofList (n.toList.take i)) n := by
  obtain ⟨hpos, hdot⟩ := mem_dots.mp hi
  obtain ⟨hlt, hdot⟩ := List.getElem?_eq_some_iff.mp hdot
  have hsplit : n.toList = n.toList.take i ++ '.' :: n.toList.drop (i + 1) := by
    rw [← hdot, ← List.drop_eq_getElem_cons hlt, List.take_append_drop]
  refine ⟨fun hempty => ?_, _, by rw [String.toList_ofList]; exact hsplit⟩
  have hlength := congrArg String.length hempty
  rw [String.length_ofList, List.length_take, String.length_empty] at hlength
  omega

theorem isAbove_of_mem_above {a n : String} (h : a ∈ above n) : IsAbove a n := by
  obtain ⟨i, hi, rfl⟩ := List.mem_map.mp h
  exact isAbove_of_mem_dots ((dropNeighbours_sublist _).subset hi)

/-- Where dots are apart, every one of them cuts off a name. -/
theorem above_eq {n : String} (h : Regular n) :
    above n = (dots n.toList).map fun i => String.ofList (n.toList.take i) := by
  have hapart : ∀ i ∈ dots n.toList, ∀ j ∈ dots n.toList, j + 1 ≠ i := by
    rintro i hi j hj rfl
    obtain ⟨hlt, hdot⟩ := List.getElem?_eq_some_iff.mp (mem_dots.mp hj).2
    obtain ⟨hlt', hdot'⟩ := List.getElem?_eq_some_iff.mp (mem_dots.mp hi).2
    refine h.apart ⟨n.toList.take j, n.toList.drop (j + 1 + 1), ?_⟩
    have hsplit : n.toList.drop j = '.' :: '.' :: n.toList.drop (j + 1 + 1) := by
      rw [List.drop_eq_getElem_cons hlt, hdot, List.drop_eq_getElem_cons hlt', hdot']
    rw [List.append_assoc, List.cons_append, List.singleton_append, ← hsplit, List.take_append_drop]
  rw [above, dropNeighbours_of_apart hapart]

theorem mem_above {a n : String} (h : Regular n) : a ∈ above n ↔ IsAbove a n := by
  refine ⟨isAbove_of_mem_above, ?_⟩
  rintro ⟨hne, rest, hn⟩
  rw [above_eq h, List.mem_map]
  refine ⟨a.toList.length, mem_dots.mpr ⟨?_, ?_⟩, ?_⟩
  · exact List.length_pos_of_ne_nil fun hnil => hne (String.toList_inj.mp hnil)
  · rw [hn, List.getElem?_append_right le_rfl, Nat.sub_self, List.getElem?_cons_zero]
  · rw [hn, List.take_left, String.ofList_toList]

/-- The nearest of the names above a name come first. -/
theorem pairwise_above {n : String} (h : Regular n) : (above n).Pairwise fun a b => b.length < a.length := by
  rw [above_eq h, List.pairwise_map]
  refine (pairwise_dots n.toList).imp_of_mem fun {i j} hi hj hij => ?_
  obtain ⟨hlt, -⟩ := List.getElem?_eq_some_iff.mp (mem_dots.mp hi).2
  rw [String.length_ofList, String.length_ofList, List.length_take, List.length_take]
  omega

/-! ## Levels by name -/

/-- The level of a name: that of the nearest name at or above it that has one, or else that of the root. Level zero is
none. -/
inductive HasLevel (levels : String → Level) (root : Level) (n : String) : Level → Prop
  | nearest {a : String} : IsAtOrAbove a n → levels a ≠ 0 →
      (∀ b, IsAtOrAbove b n → levels b ≠ 0 → b.length ≤ a.length) → HasLevel levels root n (levels a)
  | root : (∀ a, IsAtOrAbove a n → levels a = 0) → HasLevel levels root n root

section Levels

variable {levels : String → Level} {root level level' : Level} {n : String}

theorem HasLevel.unique (h : HasLevel levels root n level) (h' : HasLevel levels root n level') : level = level' := by
  cases h with
  | nearest ha hlevel hnearest =>
      cases h' with
      | nearest ha' hlevel' hnearest' =>
          have hlength := le_antisymm (hnearest' _ ha hlevel) (hnearest _ ha' hlevel')
          rw [ha.eq_of_length_eq ha' hlength]
      | root hzero => exact absurd (hzero _ ha) hlevel
  | root hzero =>
      cases h' with
      | nearest ha' hlevel' _ => exact absurd (hzero _ ha') hlevel'
      | root _ => rfl

/-- A name without a level of its own has the level of the next name above it that may have one. -/
theorem HasLevel.of_above {p : String} (h : HasLevel levels root p level) (hp : IsAbove p n) (hn : levels n = 0)
    (hnext : ∀ a, IsAbove a n → levels a ≠ 0 → a.length ≤ p.length) : HasLevel levels root n level := by
  have hfrom : ∀ a, IsAtOrAbove a n → levels a ≠ 0 → IsAtOrAbove a p := by
    rintro a (rfl | ha) hlevel
    · exact absurd hn hlevel
    · rcases (hnext a ha hlevel).lt_or_eq with hlt | heq
      · exact Or.inr (ha.of_length_lt hp hlt)
      · exact Or.inl (ha.eq_of_length_eq hp heq)
  cases h with
  | nearest ha hlevel hnearest =>
      refine .nearest (Or.inr ?_) hlevel fun b hb hb' => hnearest b (hfrom b hb hb') hb'
      rcases ha with rfl | ha
      · exact hp
      · exact ha.trans hp
  | root hzero => exact .root fun a ha => by_contra fun hlevel => hlevel (hzero a (hfrom a ha hlevel))

end Levels

/-! ## Bringing a logger into being -/

namespace Hierarchy

variable {h : Hierarchy} {name : String}

theorem lookup_map_snd {α : Type} (f : String → α → α) (l : List (String × α)) (n : String) :
    (l.map fun (k, a) => (k, f k a)).lookup n = (l.lookup n).map (f n) := by
  induction l with
  | nil => rfl
  | cons entry l ih =>
      obtain ⟨k, a⟩ := entry
      rw [List.map_cons, List.lookup_cons, List.lookup_cons, ih]
      by_cases hk : n = k
      · subst hk
        simp
      · simp [beq_eq_false_iff_ne.mpr hk]

theorem isUsed_iff {n : String} : h.isUsed n = true ↔ ∃ l, h.loggers.lookup n = some l := by
  rw [isUsed, Option.isSome_iff_exists]

theorem use_of_isUsed (hname : h.isUsed name = true) : h.use name = h := by
  rw [use, if_pos hname]

/-- The other loggers stay as they are, but that those that wait for the name move below it. -/
theorem lookup_use (hname : h.isUsed name = false) (n : String) :
    (h.use name).loggers.lookup n =
      if n = name then some { parent := (above name).find? h.isUsed }
      else (h.loggers.lookup n).map fun l => if n ∈ h.waitingFor name then l.moveBelow name else l := by
  have hnone : h.loggers.lookup name = none := by
    rw [isUsed, Option.isSome_eq_false_iff, Option.isNone_iff_eq_none] at hname
    exact hname
  have hmoved := lookup_map_snd (fun n l => if n ∈ h.waitingFor name then Logger.moveBelow name l else l) h.loggers n
  have hlast : [(name, ({ parent := (above name).find? h.isUsed } : Logger))].lookup n =
      if n = name then some { parent := (above name).find? h.isUsed } else none := by
    by_cases hn : n = name
    · simp [hn]
    · simp [hn]
  rw [use, if_neg (by rw [hname]; exact Bool.false_ne_true)]
  refine List.lookup_append.trans ?_
  rw [hlast]
  by_cases hn : n = name
  · rw [if_pos hn, if_pos hn, hmoved, hn, hnone, Option.map_none, Option.none_or]
  · rw [if_neg hn, if_neg hn, hmoved, Option.or_none]

theorem isUsed_use (n : String) : (h.use name).isUsed n = true ↔ n = name ∨ h.isUsed n = true := by
  cases hname : h.isUsed name with
  | true =>
      rw [use_of_isUsed hname]
      exact ⟨Or.inr, fun hn => hn.elim (fun heq => heq ▸ hname) id⟩
  | false =>
      rw [isUsed, lookup_use hname, isUsed]
      by_cases hn : n = name
      · simp [hn]
      · simp [hn]

theorem isUsed_eq_false_of_use {n : String} (hn : (h.use name).isUsed n = false) : h.isUsed n = false := by
  rw [Bool.eq_false_iff] at hn ⊢
  exact fun hused => hn ((isUsed_use n).mpr (Or.inr hused))

/-- A name that is written down for several others waits for each of them. -/
theorem mem_waiting_foldl (name : String) (names : List String) (w : List (String × List String)) (a n : String) :
    n ∈ ((names.foldl (fun w n => Dictionary.put n ((w.lookup n).getD [] ++ [name]) w) w).lookup a).getD [] ↔
      n ∈ (w.lookup a).getD [] ∨ n = name ∧ a ∈ names := by
  induction names generalizing w with
  | nil => simp
  | cons m names ih =>
      rw [List.foldl_cons, ih, Dictionary.lookup_put]
      by_cases ha : a = m
      · subst ha
        simp only [if_true, Option.getD_some, List.mem_append, List.mem_cons, List.not_mem_nil, or_false, true_or,
          and_true]
        tauto
      · simp [ha]

theorem mem_waitingFor_use (hname : h.isUsed name = false) (a n : String) :
    n ∈ (h.use name).waitingFor a ↔
      n ∈ h.waitingFor a ∨ n = name ∧ a ∈ (above name).takeWhile fun m => !h.isUsed m := by
  rw [use, if_neg (by rw [hname]; exact Bool.false_ne_true), waitingFor]
  exact mem_waiting_foldl name _ _ a n

/-! ### Where loggers stand -/

/-- What a name stands below: the nearest of the names above it that are in use, if there is one. -/
def IsParent (used : String → Bool) (n : String) : Option String → Prop
  | none => ∀ a, IsAbove a n → used a = false
  | some p => IsAbove p n ∧ used p = true ∧ ∀ a, IsAbove a n → used a = true → a.length ≤ p.length

theorem isParent_find? (used : String → Bool) {n : String} (hn : Regular n) :
    IsParent used n ((above n).find? used) := by
  cases hfind : (above n).find? used with
  | none =>
      intro a ha
      have hunused := List.find?_eq_none.mp hfind a ((mem_above hn).mpr ha)
      rwa [Bool.not_eq_true] at hunused
  | some p =>
      obtain ⟨hused, nearer, further, hsplit, hnearer⟩ := List.find?_eq_some_iff_append.mp hfind
      refine ⟨(mem_above hn).mp (hsplit ▸ by simp), hused, fun a ha haused => ?_⟩
      have hmem : a ∈ nearer ++ p :: further := hsplit ▸ (mem_above hn).mpr ha
      rcases List.mem_append.mp hmem with hmem | hmem
      · have hunused := hnearer a hmem
        rw [haused] at hunused
        exact absurd hunused (by decide)
      · rcases List.mem_cons.mp hmem with rfl | hmem
        · exact le_rfl
        · have hsorted := hsplit ▸ pairwise_above hn
          exact (List.rel_of_pairwise_cons (List.pairwise_append.mp hsorted).2.1 hmem).le

/-- A name that comes into use below the parent of a logger, or not above it at all, leaves the parent as it is. -/
theorem IsParent.use_of_nearer {n : String} {parent : Option String} (hparent : IsParent h.isUsed n parent)
    (hnearer : IsAbove name n → ∃ b, IsAbove b n ∧ h.isUsed b = true ∧ name.length ≤ b.length) :
    IsParent (h.use name).isUsed n parent := by
  cases parent with
  | none =>
      intro a ha
      rw [Bool.eq_false_iff]
      intro hused
      rcases (isUsed_use a).mp hused with rfl | hused
      · obtain ⟨b, hb, hbused, -⟩ := hnearer ha
        rw [hparent b hb] at hbused
        exact absurd hbused (by decide)
      · rw [hparent a ha] at hused
        exact absurd hused (by decide)
  | some p =>
      obtain ⟨hp, hpused, hnearest⟩ := hparent
      refine ⟨hp, (isUsed_use p).mpr (Or.inr hpused), fun a ha hused => ?_⟩
      rcases (isUsed_use a).mp hused with rfl | hused
      · obtain ⟨b, hb, hbused, hle⟩ := hnearer ha
        exact hle.trans (hnearest b hb hbused)
      · exact hnearest a ha hused

/-- The loggers below a top stand where their names say. Such a logger waits for each name above it that comes
before all names in use; no logger waits for another name than those above it. -/
structure Placed (top : List Char) (h : Hierarchy) : Prop where
  root_unused : h.isUsed rootName = false
  regular : ∀ n, topOf n = top → h.isUsed n = true → Regular n
  parent : ∀ n l, topOf n = top → h.loggers.lookup n = some l → IsParent h.isUsed n l.parent
  waits : ∀ n a, topOf n = top → h.isUsed n = true → IsAbove a n → h.isUsed a = false →
    (∀ b, IsAbove b n → h.isUsed b = true → b.length < a.length) → n ∈ h.waitingFor a
  above : ∀ n a, n ∈ h.waitingFor a → IsAbove a n

theorem placed_empty (top : List Char) : Placed top {} where
  root_unused := rfl
  regular n _ hn := by simp [isUsed] at hn
  parent n l _ hl := by simp at hl
  waits n a _ hn := by simp [isUsed] at hn
  above n a hn := by simp [waitingFor] at hn

/-- A logger that waits for a name moves below it exactly when no name in use stands between the two. -/
theorem Placed.moved {top : List Char} (hh : Placed top h) (hname : topOf name = top → Regular name)
    (hroot : name ≠ rootName) (hne : name ≠ "") (hunused : h.isUsed name = false) {n : String} (hn : topOf n = top)
    {l : Logger} (hl : h.loggers.lookup n = some l) :
    IsParent (h.use name).isUsed n (if n ∈ h.waitingFor name then l.moveBelow name else l).parent := by
  have hparent := hh.parent n l hn hl
  by_cases hbetween : IsAbove name n ∧ ∀ b, IsAbove b n → h.isUsed b = true → b.length < name.length
  · obtain ⟨habove, hfurther⟩ := hbetween
    have hregular := hname (habove.topOf_eq.trans hn)
    have hwaits := hh.waits n name hn (isUsed_iff.mpr ⟨l, hl⟩) habove hunused hfurther
    have hprefix : ¬ name.toList.isPrefixOf l.parentName.toList = true := by
      rw [List.isPrefixOf_iff_prefix, Logger.parentName]
      cases hp : l.parent with
      | none => exact hregular.not_prefix_rootName hroot hne
      | some p =>
          rw [hp] at hparent
          have hlt := hfurther p hparent.1 hparent.2.1
          intro hle
          have := hle.length_le
          rw [Option.getD_some, String.length_toList, String.length_toList] at this
          omega
    rw [if_pos hwaits, Logger.moveBelow, if_neg hprefix]
    refine ⟨habove, (isUsed_use name).mpr (Or.inl rfl), fun a ha hused => ?_⟩
    rcases (isUsed_use a).mp hused with rfl | hused
    · exact le_rfl
    · exact (hfurther a ha hused).le
  · have hnearer : IsAbove name n → ∃ b, IsAbove b n ∧ h.isUsed b = true ∧ name.length ≤ b.length := by
      intro habove
      by_contra hnone
      refine hbetween ⟨habove, fun b hb hused => ?_⟩
      by_contra hle
      exact hnone ⟨b, hb, hused, Nat.le_of_not_lt hle⟩
    have hstays : (if n ∈ h.waitingFor name then l.moveBelow name else l) = l := by
      split
      · rename_i hwaits
        have habove := hh.above n name hwaits
        obtain ⟨b, hb, hbused, hle⟩ := hnearer habove
        cases hp : l.parent with
        | none =>
            rw [hp] at hparent
            rw [hparent b hb] at hbused
            exact absurd hbused (by decide)
        | some p =>
            rw [hp] at hparent
            have hpname : name ≠ p := by
              rintro rfl
              rw [hparent.2.1] at hunused
              exact absurd hunused (by decide)
            have hlength : name.length ≠ p.length := fun heq => hpname (habove.eq_of_length_eq hparent.1 heq)
            have hlt : name.length < p.length :=
              lt_of_le_of_ne (hle.trans (hparent.2.2 b hb hbused)) hlength
            obtain ⟨-, rest, hrest⟩ := habove.of_length_lt hparent.1 hlt
            have hprefix : name.toList.isPrefixOf l.parentName.toList = true := by
              rw [List.isPrefixOf_iff_prefix, Logger.parentName, hp, Option.getD_some, hrest]
              exact List.prefix_append _ _
            rw [Logger.moveBelow, if_pos hprefix]
      · rfl
    rw [hstays]
    exact hparent.use_of_nearer hnearer

/-- In a list of names that get shorter, a reader that passes over all longer names comes to a name. -/
theorem mem_takeWhile_of_pairwise {p : String → Bool} {names : List String} {a : String}
    (hsorted : names.Pairwise fun a b => b.length < a.length) (ha : a ∈ names)
    (hp : ∀ b ∈ names, a.length ≤ b.length → p b = true) : a ∈ names.takeWhile p := by
  induction names with
  | nil => exact absurd ha List.not_mem_nil
  | cons b names ih =>
      obtain ⟨hshorter, hsorted⟩ := List.pairwise_cons.mp hsorted
      rcases List.mem_cons.mp ha with rfl | ha
      · rw [List.takeWhile_cons_of_pos (hp a List.mem_cons_self le_rfl)]
        exact List.mem_cons_self
      · rw [List.takeWhile_cons_of_pos (hp b List.mem_cons_self (hshorter a ha).le)]
        exact List.mem_cons_of_mem _ (ih hsorted ha fun c hc => hp c (List.mem_cons_of_mem _ hc))

/-- The loggers stay in their places when a name comes into use. -/
theorem Placed.use {top : List Char} (hh : Placed top h) (hname : topOf name = top → Regular name)
    (hroot : name ≠ rootName) (hne : name ≠ "") : Placed top (h.use name) := by
  cases hunused : h.isUsed name with
  | true =>
      rw [use_of_isUsed hunused]
      exact hh
  | false =>
      constructor
      case root_unused =>
        rw [Bool.eq_false_iff]
        intro hused
        rcases (isUsed_use rootName).mp hused with heq | hused
        · exact hroot heq.symm
        · rw [hh.root_unused] at hused
          exact absurd hused (by decide)
      case regular =>
        intro n htop hn
        rcases (isUsed_use n).mp hn with rfl | hn
        · exact hname htop
        · exact hh.regular n htop hn
      case parent =>
        intro n l htop hl
        rw [lookup_use hunused] at hl
        split at hl
        · rename_i heq
          obtain rfl := Option.some.inj hl
          subst heq
          exact (isParent_find? h.isUsed (hname htop)).use_of_nearer fun habove =>
            absurd habove.length_lt (lt_irrefl _)
        · obtain ⟨l₀, hl₀, rfl⟩ := Option.map_eq_some_iff.mp hl
          exact hh.moved hname hroot hne hunused htop hl₀
      case waits =>
        intro n a htop hn ha haused hfurther'
        have haunused := isUsed_eq_false_of_use haused
        have hfurther : ∀ b, IsAbove b n → h.isUsed b = true → b.length < a.length :=
          fun b hb hused => hfurther' b hb ((isUsed_use b).mpr (Or.inr hused))
        rw [mem_waitingFor_use hunused]
        rcases (isUsed_use n).mp hn with rfl | hn
        · have hregular := hname htop
          refine Or.inr ⟨rfl, mem_takeWhile_of_pairwise (pairwise_above hregular) ((mem_above hregular).mpr ha) ?_⟩
          intro b hb hle
          rw [Bool.not_eq_true']
          exact Bool.eq_false_iff.mpr fun hused =>
            absurd (hfurther b (isAbove_of_mem_above hb) hused) (Nat.not_lt_of_le hle)
        · exact Or.inl (hh.waits n a htop hn ha haunused hfurther)
      case above =>
        intro n a hmem
        rcases (mem_waitingFor_use hunused a n).mp hmem with hmem | ⟨rfl, hmem⟩
        · exact hh.above n a hmem
        · exact isAbove_of_mem_above ((List.takeWhile_prefix _).subset hmem)

/-! ### Levels -/

def levelAt (h : Hierarchy) (n : String) : Level := ((h.loggers.lookup n).map Logger.level).getD 0

theorem levelAt_of_unused {n : String} (hn : h.isUsed n = false) : h.levelAt n = 0 := by
  rw [isUsed, Option.isSome_eq_false_iff, Option.isNone_iff_eq_none] at hn
  rw [levelAt, hn]
  rfl

/-- No level changes when a name comes into use. -/
theorem levelAt_use (n : String) : (h.use name).levelAt n = h.levelAt n := by
  cases hname : h.isUsed name with
  | true => rw [use_of_isUsed hname]
  | false =>
      rw [levelAt, lookup_use hname]
      by_cases hn : n = name
      · rw [if_pos hn, hn, levelAt_of_unused hname]
        rfl
      · have hlevel : ∀ l : Logger, (if n ∈ h.waitingFor name then l.moveBelow name else l).level = l.level := by
          intro l
          unfold Logger.moveBelow
          split
          · split
            · rfl
            · rfl
          · rfl
        rw [if_neg hn, levelAt, Option.map_map]
        exact congrArg (fun f => ((h.loggers.lookup n).map f).getD 0) (funext hlevel)

theorem lookup_setLevel (h : Hierarchy) (name : String) (level : Level) (n : String) :
    (h.setLevel name level).loggers.lookup n =
      (h.loggers.lookup n).map fun l => if n = name then { l with level := level } else l := by
  unfold setLevel
  split
  · rename_i l hl
    rw [Dictionary.lookup_put]
    by_cases hn : n = name
    · simp [hn, hl]
    · simp [hn]
  · rename_i hl
    by_cases hn : n = name
    · simp [hn, hl]
    · simp [hn]

theorem isUsed_setLevel (h : Hierarchy) (name : String) (level : Level) :
    (h.setLevel name level).isUsed = h.isUsed := by
  funext n
  rw [isUsed, lookup_setLevel, isUsed, Option.isSome_map]

theorem levelAt_setLevel (hname : h.isUsed name = true) (level : Level) (n : String) :
    (h.setLevel name level).levelAt n = if n = name then level else h.levelAt n := by
  obtain ⟨l, hl⟩ := isUsed_iff.mp hname
  rw [levelAt, lookup_setLevel, levelAt]
  by_cases hn : n = name
  · simp [hn, hl]
  · simp [hn]

theorem waitingFor_setLevel (h : Hierarchy) (name : String) (level : Level) :
    (h.setLevel name level).waitingFor = h.waitingFor := by
  funext a
  unfold setLevel
  split
  · rfl
  · rfl

theorem Placed.setLevel {top : List Char} (hh : Placed top h) (name : String) (level : Level) :
    Placed top (h.setLevel name level) := by
  constructor
  case root_unused =>
    rw [isUsed_setLevel]
    exact hh.root_unused
  case regular =>
    intro n
    rw [isUsed_setLevel]
    exact hh.regular n
  case parent =>
    intro n l htop hl
    rw [lookup_setLevel] at hl
    obtain ⟨l₀, hl₀, rfl⟩ := Option.map_eq_some_iff.mp hl
    have hparent : (if n = name then { l₀ with level := level } else l₀).parent = l₀.parent := by
      split
      · rfl
      · rfl
    rw [isUsed_setLevel, hparent]
    exact hh.parent n l₀ htop hl₀
  case waits =>
    rw [isUsed_setLevel, waitingFor_setLevel]
    exact hh.waits
  case above =>
    rw [waitingFor_setLevel]
    exact hh.above

theorem Placed.hasLevel_lineageFrom {top : List Char} (hh : Placed top h) (root : Level) {steps : Nat} {n : String}
    (htop : topOf n = top) (hn : h.isUsed n = true) (hsteps : n.length < steps) :
    HasLevel h.levelAt root n ((((h.lineageFrom steps n).map Logger.level).find? (· != 0)).getD root) := by
  -- the name gets shorter from one logger to the next, so the steps last up to the root
  induction steps generalizing n with
  | zero => exact absurd hsteps (Nat.not_lt_zero _)
  | succ steps ih =>
      obtain ⟨l, hl⟩ := isUsed_iff.mp hn
      have hlevel : h.levelAt n = l.level := by
        rw [levelAt, hl]
        rfl
      have hparent := hh.parent n l htop hl
      rw [lineageFrom]
      simp only [hl, List.map_cons, List.find?_cons]
      by_cases hzero : l.level = 0
      · rw [hzero, bne_self_eq_false]
        rw [hzero] at hlevel
        cases hp : l.parent with
        | none =>
            rw [hp] at hparent
            refine .root fun a ha => ?_
            rcases ha with rfl | ha
            · exact hlevel
            · exact levelAt_of_unused (hparent a ha)
        | some p =>
            rw [hp] at hparent
            obtain ⟨hpn, hpused, hnearest⟩ := hparent
            have hlt := hpn.length_lt
            refine (ih (hpn.topOf_eq.trans htop) hpused (by omega)).of_above hpn hlevel
              fun a ha halevel => hnearest a ha ?_
            by_contra hunused
            exact halevel (levelAt_of_unused (Bool.not_eq_true _ ▸ hunused))
      · rw [bne_iff_ne.mpr hzero, Option.getD_some, ← hlevel]
        exact .nearest (Or.inl rfl) (hlevel ▸ hzero) fun b hb _ => hb.length_le

/-- A logger in its place has the level that its name tells. -/
theorem Placed.hasLevel {top : List Char} (hh : Placed top h) (root : Level) {n : String} (htop : topOf n = top)
    (hn : h.isUsed n = true ∨ n = rootName) : HasLevel h.levelAt root n ((h.ownLevel? n).getD root) := by
  rcases hn with hn | rfl
  · exact hh.hasLevel_lineageFrom root htop hn (Nat.lt_succ_self _)
  · have hunused := hh.root_unused
    have hnone : h.loggers.lookup rootName = none := by
      rw [isUsed, Option.isSome_eq_false_iff, Option.isNone_iff_eq_none] at hunused
      exact hunused
    have hown : h.ownLevel? rootName = none := by
      rw [ownLevel?, lineage, lineageFrom, hnone]
      rfl
    rw [hown]
    refine .root fun a ha => ?_
    rcases ha with rfl | ha
    · exact levelAt_of_unused hunused
    · exact absurd ha (not_isAbove_rootName a)

end Hierarchy

end LeadSheet.Log
