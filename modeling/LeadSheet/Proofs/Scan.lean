import LeadSheet.Text.Lines
import LeadSheet.Text.Scan
import Mathlib.Data.List.TakeWhile

/-!
# Parts of a text

Readers skip to a mark, trim what they find, and cut it at separators. Whatever they come to hold is a
stretch of the text they began with.
-/

namespace LeadSheet.Text

variable {α : Type} {p : α → Bool}

/-- A reader that stops at `a` has passed over what comes before it. -/
theorem eq_takeWhile_append {s rest : List α} {a : α} (h : s.dropWhile p = a :: rest) :
    p a = false ∧ s = s.takeWhile p ++ a :: rest := by
  constructor
  · have hhead := List.head?_dropWhile_not p s
    rw [h] at hhead
    simpa using hhead
  · rw [← h, List.takeWhile_append_dropWhile]

theorem not_mem_takeWhile_ne {s : List Char} (c : Char) : c ∉ s.takeWhile (· != c) := by
  intro h
  simpa using List.mem_takeWhile_imp h

/-- Two texts that are the same up to a mark, the first in either, are the same after it. -/
theorem append_mark_inj {a : α} {u v x y : List α} (hu : a ∉ u) (hv : a ∉ v) (h : u ++ a :: x = v ++ a :: y) :
    u = v ∧ x = y := by
  induction u generalizing v with
  | nil =>
      cases v with
      | nil => exact ⟨rfl, (List.cons.inj h).2⟩
      | cons d v => exact absurd ((List.cons.inj h).1 ▸ List.mem_cons_self) hv
  | cons c u ih =>
      cases v with
      | nil => exact absurd ((List.cons.inj h).1 ▸ List.mem_cons_self) hu
      | cons d v =>
          obtain ⟨hcd, htail⟩ := List.cons.inj h
          rw [List.mem_cons, not_or] at hu hv
          obtain ⟨huv, hxy⟩ := ih hu.2 hv.2 htail
          exact ⟨by rw [hcd, huv], hxy⟩

/-- A reader that goes on while `p` holds goes no further than a mark. -/
theorem takeWhile_append_mark {a : α} (ha : p a = false) (s t : List α) :
    (s ++ a :: t).takeWhile p = s.takeWhile p := by
  induction s with
  | nil => rw [List.nil_append, List.takeWhile_cons, ha, if_neg Bool.false_ne_true, List.takeWhile_nil]
  | cons b s ih => rw [List.cons_append, List.takeWhile_cons, List.takeWhile_cons, ih]

theorem dropWhile_append_mark {a : α} (ha : p a = false) (s t : List α) :
    (s ++ a :: t).dropWhile p = s.dropWhile p ++ a :: t := by
  induction s with
  | nil => rw [List.nil_append, List.dropWhile_cons, ha, if_neg Bool.false_ne_true, List.dropWhile_nil, List.nil_append]
  | cons b s ih =>
      rw [List.cons_append, List.dropWhile_cons, List.dropWhile_cons, ih]
      split
      · rfl
      · rfl

theorem dropEndWhile_append_mark {a : α} (ha : p a = false) (s t : List α) :
    dropEndWhile p (s ++ a :: t) = s ++ a :: dropEndWhile p t := by
  have hreverse : (s ++ a :: t).reverse = t.reverse ++ a :: s.reverse := by simp
  rw [dropEndWhile, hreverse, dropWhile_append_mark ha, List.reverse_append, List.reverse_cons, List.reverse_reverse,
    List.append_assoc, List.singleton_append, dropEndWhile]

/-- A reader that goes on while `p` holds takes nothing from a text that does not begin so. -/
theorem takeWhile_of_head {s : List α} (h : s.head?.any p = false) : s.takeWhile p = [] := by
  cases s with
  | nil => rfl
  | cons a s =>
      have ha : p a = false := h
      rw [List.takeWhile_cons, ha, if_neg Bool.false_ne_true]

theorem dropWhile_of_head {s : List α} (h : s.head?.any p = false) : s.dropWhile p = s := by
  cases s with
  | nil => rfl
  | cons a s =>
      have ha : p a = false := h
      rw [List.dropWhile_cons, ha, if_neg Bool.false_ne_true]

/-- Nothing is dropped where nothing satisfies `p`. -/
theorem dropWhile_of_none {s : List α} (h : ∀ a ∈ s, p a = false) : s.dropWhile p = s := by
  refine dropWhile_of_head ?_
  cases s with
  | nil => rfl
  | cons a s => exact h a List.mem_cons_self

theorem dropEndWhile_of_none {s : List α} (h : ∀ a ∈ s, p a = false) : dropEndWhile p s = s := by
  rw [dropEndWhile, dropWhile_of_none fun a ha => h a (List.mem_reverse.mp ha), List.reverse_reverse]

theorem prefix_dropEndWhile (s : List α) : dropEndWhile p s <+: s := by
  rw [dropEndWhile, ← List.reverse_suffix, List.reverse_reverse]
  exact List.dropWhile_suffix p

theorem dropEndWhile_dropWhile_eq_nil_iff {s : List α} :
    dropEndWhile p (s.dropWhile p) = [] ↔ ∀ a ∈ s, p a = true := by
  constructor
  · intro h a ha
    have hend : ∀ a ∈ s.dropWhile p, p a = true := by
      rw [dropEndWhile, List.reverse_eq_nil_iff, List.dropWhile_eq_nil_iff] at h
      exact fun a ha => h a (List.mem_reverse.mpr ha)
    rw [← List.takeWhile_append_dropWhile (p := p) (l := s)] at ha
    exact (List.mem_append.mp ha).elim List.mem_takeWhile_imp (hend a)
  · intro h
    rw [List.dropWhile_eq_nil_iff.mpr h]
    rfl

/-- What satisfies `p` is dropped on both sides of a part where nothing does. -/
theorem dropEndWhile_dropWhile_between {s u t : List α} (hs : ∀ a ∈ s, p a = true) (hu : ∀ a ∈ u, p a = false)
    (ht : ∀ a ∈ t, p a = true) : dropEndWhile p ((s ++ (u ++ t)).dropWhile p) = u := by
  have hend : dropEndWhile p (u ++ t) = u := by
    rw [dropEndWhile, List.reverse_append, List.dropWhile_append_of_pos fun a ha => ht a (List.mem_reverse.mp ha)]
    exact dropEndWhile_of_none hu
  rw [List.dropWhile_append_of_pos hs]
  cases u with
  | nil => exact dropEndWhile_dropWhile_eq_nil_iff.mpr ht
  | cons a u =>
      have hhead : (a :: u ++ t).head?.any p = false := hu a List.mem_cons_self
      rwa [dropWhile_of_head hhead]

/-- White space at the head of a text is trimmed away. -/
theorem isSpace_head_of_trim {c : Char} {s : List Char} (h : trim (c :: s) = c :: s) : isSpace c = false := by
  have hprefix : trim (c :: s) <+: trimStart (c :: s) := prefix_dropEndWhile _
  have hsuffix : trimStart (c :: s) <:+ c :: s := List.dropWhile_suffix _
  rw [h] at hprefix
  exact (eq_takeWhile_append (hsuffix.eq_of_length_le hprefix.length_le)).1

theorem isSpace_getLast_of_trim {c : Char} {s : List Char} (h : trim s = s) (hc : s.getLast? = some c) :
    isSpace c = false := by
  have hprefix : trim s <+: trimStart s := prefix_dropEndWhile _
  have hsuffix : trimStart s <:+ s := List.dropWhile_suffix _
  have hlength := hprefix.length_le
  rw [h] at hlength
  have hstart : trimStart s = s := hsuffix.eq_of_length_le hlength
  rw [trim, hstart, trimEnd, dropEndWhile, List.reverse_eq_iff] at h
  obtain ⟨t, ht⟩ := List.head?_eq_some_iff.mp (List.head?_reverse.trans hc)
  rw [ht] at h
  exact (eq_takeWhile_append h).1

/-- A prefix of two parts lies in the first one, or goes on from it into the second. -/
theorem prefix_append_cases {u s t : List α} (h : u <+: s ++ t) : u <+: s ∨ ∃ v, v <+: t ∧ u = s ++ v := by
  rcases List.prefix_or_prefix_of_prefix h (List.prefix_append s t) with h' | ⟨v, rfl⟩
  · exact Or.inl h'
  · exact Or.inr ⟨v, (List.prefix_append_right_inj s).mp h, rfl⟩

/-- A stretch that begins with a mark begins after a part without it. -/
theorem infix_of_infix_append {a : α} {u s t : List α} (ha : a ∉ s) (h : a :: u <:+: s ++ t) : a :: u <:+: t := by
  induction s with
  | nil => exact h
  | cons b s ih =>
      rw [List.mem_cons, not_or] at ha
      rcases List.infix_cons_iff.mp h with h | h
      · exact absurd (List.cons_prefix_cons.mp h).1 ha.1
      · exact ih ha.2 h

theorem cutAt_mark {a : α} (ha : p a = true) (t : List α) : cutAt p (a :: t) = [] :: cutAt p t := by
  rw [cutAt, if_pos ha]

theorem cutAt_append_mark {a : α} (ha : p a = true) (s t : List α) :
    cutAt p (s ++ a :: t) = cutAt p s ++ cutAt p t := by
  induction s with
  | nil => rw [List.nil_append, cutAt_mark ha, cutAt, List.singleton_append]
  | cons b s ih =>
      obtain ⟨part, parts, hcut⟩ := List.exists_cons_of_ne_nil (cutAt_ne_nil p s)
      rw [List.cons_append, cutAt, cutAt, ih, hcut]
      split
      · rfl
      · rfl

theorem cutAt_of_uncut {s : List α} (h : ∀ a ∈ s, p a = false) : cutAt p s = [s] := by
  induction s with
  | nil => rfl
  | cons a s ih =>
      obtain ⟨ha, hs⟩ := List.forall_mem_cons.mp h
      rw [cutAt, ha, ih hs]
      rfl

/-- Cutting gives back the parts that were put together with a separator between neighbours. -/
theorem cutAt_intercalate {a : α} (ha : p a = true) {parts : List (List α)} (hne : parts ≠ [])
    (h : ∀ part ∈ parts, ∀ b ∈ part, p b = false) : cutAt p (List.intercalate [a] parts) = parts := by
  induction parts with
  | nil => exact absurd rfl hne
  | cons part parts ih =>
      obtain ⟨hpart, hparts⟩ := List.forall_mem_cons.mp h
      cases parts with
      | nil => rw [List.intercalate_singleton, cutAt_of_uncut hpart]
      | cons part' parts =>
          rw [List.intercalate_cons_cons, List.append_assoc, List.singleton_append, cutAt_append_mark ha,
            cutAt_of_uncut hpart, ih (List.cons_ne_nil _ _) hparts, List.singleton_append]

/-- What does not end in a mark has no empty part at its end. -/
theorem getLast?_cutAt_ne {a : α} (ha : p a = false) (s : List α) : (cutAt p (s ++ [a])).getLast? ≠ some [] := by
  induction s with
  | nil => simp [cutAt, ha]
  | cons b s ih =>
      obtain ⟨part, parts, hcut⟩ := List.exists_cons_of_ne_nil (cutAt_ne_nil p (s ++ [a]))
      rw [List.cons_append, cutAt]
      rw [hcut] at ih ⊢
      split
      · rwa [List.getLast?_cons_cons]
      · cases parts with
        | nil => simp
        | cons part' parts => rwa [List.getLast?_cons_cons] at ih ⊢

theorem infix_intercalate {sep part : List α} {parts : List (List α)} (h : part ∈ parts) :
    part <:+: List.intercalate sep parts := by
  induction parts with
  | nil => exact absurd h List.not_mem_nil
  | cons first parts ih =>
      cases parts with
      | nil =>
          have hwhole : List.intercalate sep [first] = part := by
            rw [List.intercalate_singleton, List.mem_singleton.mp h]
          exact hwhole ▸ List.infix_rfl
      | cons second parts =>
          rw [List.intercalate_cons_cons]
          rcases List.mem_cons.mp h with rfl | h
          · exact ⟨[], _, by rw [List.nil_append, List.append_assoc]⟩
          · exact (ih h).trans (List.suffix_append _ _).isInfix

theorem not_mem_intercalate {a b : α} (hne : a ≠ b) {parts : List (List α)} (h : ∀ part ∈ parts, a ∉ part) :
    a ∉ List.intercalate [b] parts := by
  induction parts with
  | nil => simp
  | cons part parts ih =>
      obtain ⟨hpart, hparts⟩ := List.forall_mem_cons.mp h
      cases parts with
      | nil => rwa [List.intercalate_singleton]
      | cons part' parts =>
          rw [List.intercalate_cons_cons, List.mem_append, List.mem_append, List.mem_singleton]
          rintro ((hmem | hmem) | hmem)
          · exact hpart hmem
          · exact hne hmem
          · exact ih hparts hmem

theorem intercalate_append {sep : List α} {s t : List (List α)} (hs : s ≠ []) (ht : t ≠ []) :
    List.intercalate sep (s ++ t) = List.intercalate sep s ++ sep ++ List.intercalate sep t := by
  induction s with
  | nil => exact absurd rfl hs
  | cons part s ih =>
      cases s with
      | nil =>
          obtain ⟨part', t, rfl⟩ := List.exists_cons_of_ne_nil ht
          rw [List.singleton_append, List.intercalate_cons_cons, List.intercalate_singleton]
      | cons part' s =>
          rw [List.cons_append, List.cons_append, List.intercalate_cons_cons, ← List.cons_append,
            ih (List.cons_ne_nil _ _), List.intercalate_cons_cons]
          simp only [List.append_assoc]

/-- The parts before the last ones have a separator after each. -/
theorem intercalate_append_flatMap {sep : List α} (s : List (List α)) {t : List (List α)} (ht : t ≠ []) :
    List.intercalate sep (s ++ t) = s.flatMap (· ++ sep) ++ List.intercalate sep t := by
  induction s with
  | nil => rfl
  | cons part s ih =>
      obtain ⟨part', rest, hrest⟩ := List.exists_cons_of_ne_nil (List.append_ne_nil_of_right_ne_nil s ht)
      rw [List.cons_append, hrest, List.intercalate_cons_cons, ← hrest, ih, List.flatMap_cons]
      simp only [List.append_assoc]

theorem infix_of_mem_cutAt {s part : List α} (h : part ∈ cutAt p s) : part <:+: s := by
  -- the first part is a prefix, which the step of the induction needs
  have key : (∀ first, (cutAt p s).head? = some first → first <+: s) ∧
      ∀ part ∈ cutAt p s, part <:+: s := by
    clear h
    induction s with
    | nil => simp [cutAt]
    | cons a s ih =>
        simp only [cutAt]
        split
        · refine ⟨by simp, fun part hpart => ?_⟩
          rcases List.mem_cons.mp hpart with rfl | hpart
          · exact List.nil_infix
          · exact (ih.2 part hpart).trans (List.suffix_cons a s).isInfix
        · split
          · rename_i hcut
            exact absurd hcut (cutAt_ne_nil p s)
          · rename_i first parts hcut
            rw [hcut] at ih
            have hfirst : a :: first <+: a :: s := List.cons_prefix_cons.mpr ⟨rfl, ih.1 first rfl⟩
            refine ⟨by simpa using hfirst, fun part hpart => ?_⟩
            rcases List.mem_cons.mp hpart with rfl | hpart
            · exact hfirst.isInfix
            · exact (ih.2 part (List.mem_cons_of_mem first hpart)).trans (List.suffix_cons a s).isInfix
  exact key.2 part h

theorem not_mem_of_mem_cutAt {s part : List α} (h : part ∈ cutAt p s) : ∀ a ∈ part, p a = false := by
  induction s generalizing part with
  | nil => simp_all [cutAt]
  | cons a s ih =>
      simp only [cutAt] at h
      split at h
      · rcases List.mem_cons.mp h with rfl | h
        · simp
        · exact ih h
      · rename_i ha
        split at h
        · rename_i hcut
          exact absurd hcut (cutAt_ne_nil p s)
        · rename_i first parts hcut
          rw [hcut] at ih
          rcases List.mem_cons.mp h with rfl | h
          · exact List.forall_mem_cons.mpr ⟨by simpa using ha, ih List.mem_cons_self⟩
          · exact ih (List.mem_cons_of_mem first h)

theorem cutAt_map {β : Type} {q : β → Bool} {f : α → β} {s : List α} (h : ∀ a ∈ s, q (f a) = p a) :
    cutAt q (s.map f) = (cutAt p s).map (List.map f) := by
  induction s with
  | nil => rfl
  | cons a s ih =>
      obtain ⟨ha, hs⟩ := List.forall_mem_cons.mp h
      rw [List.map_cons, cutAt, cutAt, ha, ih hs]
      split
      · rfl
      · cases cutAt p s with
        | nil => rfl
        | cons part parts => rfl

/-! ## Lines -/

theorem prefix_of_prefix_unixLines {s u : List Char} (hu : '\n' ∉ u) (h : u <+: unixLines s) : u <+: s := by
  have hstop : ∀ {u rest : List Char}, '\n' ∉ u → u <+: '\n' :: rest → u = [] := by
    intro u rest hu h
    rcases List.prefix_cons_iff.mp h with rfl | ⟨u', rfl, -⟩
    · rfl
    · exact absurd List.mem_cons_self hu
  fun_induction unixLines s generalizing u with
  | case1 => exact h
  | case2 rest ih => exact hstop hu h ▸ List.nil_prefix
  | case3 rest hne ih => exact hstop hu h ▸ List.nil_prefix
  | case4 c rest hcrlf hcr ih =>
      rcases List.prefix_cons_iff.mp h with rfl | ⟨u', rfl, hu'⟩
      · exact List.nil_prefix
      · rw [List.mem_cons, not_or] at hu
        exact List.cons_prefix_cons.mpr ⟨rfl, ih hu.2 hu'⟩

theorem infix_of_infix_unixLines {s u : List Char} (hu : '\n' ∉ u) (h : u <:+: unixLines s) : u <:+: s := by
  fun_induction unixLines s with
  | case1 => exact h
  | case2 rest ih =>
      rcases List.infix_cons_iff.mp h with h | h
      · exact (prefix_of_prefix_unixLines (s := '\r' :: '\n' :: rest) hu h).isInfix
      · exact (ih h).trans ⟨['\r', '\n'], [], by simp⟩
  | case3 rest hne ih =>
      rcases List.infix_cons_iff.mp h with h | h
      · refine (prefix_of_prefix_unixLines (s := '\r' :: rest) hu ?_).isInfix
        rwa [unixLines.eq_3 rest hne]
      · exact (ih h).trans (List.suffix_cons _ _).isInfix
  | case4 c rest hcrlf hcr ih =>
      rcases List.infix_cons_iff.mp h with h | h
      · refine (prefix_of_prefix_unixLines (s := c :: rest) hu ?_).isInfix
        rwa [unixLines.eq_4 c rest hcrlf hcr]
      · exact (ih h).trans (List.suffix_cons _ _).isInfix

theorem unixLines_append {s : List Char} (h : '\r' ∉ s) (t : List Char) : unixLines (s ++ t) = s ++ unixLines t := by
  induction s with
  | nil => rfl
  | cons c s ih =>
      rw [List.mem_cons, not_or] at h
      have hc : c ≠ '\r' := Ne.symm h.1
      rw [List.cons_append, unixLines.eq_4 c (s ++ t) (fun _ heq => absurd heq hc) hc, ih h.2, List.cons_append]

theorem unixLines_of_not_mem {s : List Char} (h : '\r' ∉ s) : unixLines s = s := by
  have happend := unixLines_append h []
  rwa [unixLines, List.append_nil] at happend

theorem joinLines_cons (line : List Char) {rest : List (List Char)} (h : rest ≠ []) :
    joinLines (line :: rest) = line ++ '\n' :: joinLines rest := by
  obtain ⟨next, rest, rfl⟩ := List.exists_cons_of_ne_nil h
  rw [joinLines, List.intercalate_cons_cons, List.append_assoc]
  rfl

/-- A line in front of a text. -/
theorem lines_append_lf {l : List Char} (h : '\n' ∉ l) (s : List Char) : lines (l ++ '\n' :: s) = l :: lines s := by
  have huncut : ∀ c ∈ l, (c == '\n') = false := fun c hc => beq_eq_false_iff_ne.mpr fun heq => h (heq ▸ hc)
  rw [lines, cutAt_append_mark rfl, cutAt_of_uncut huncut, List.singleton_append, lines]

/-- Lines in front of a text with line ends of any kind. -/
theorem lines_joinLines_append {ls : List (List Char)} (hne : ls ≠ []) (h : ∀ l ∈ ls, '\r' ∉ l ∧ '\n' ∉ l)
    (s : List Char) : lines (unixLines (joinLines ls ++ '\n' :: s)) = ls ++ lines (unixLines s) := by
  have hfirst : ∀ {l : List Char}, '\r' ∉ l ∧ '\n' ∉ l → ∀ s,
      lines (unixLines (l ++ '\n' :: s)) = l :: lines (unixLines s) := by
    intro l hl s
    rw [unixLines_append hl.1, unixLines.eq_4 '\n' s (by simp) (by decide), lines_append_lf hl.2]
  induction ls with
  | nil => exact absurd rfl hne
  | cons l ls ih =>
      obtain ⟨hl, hls⟩ := List.forall_mem_cons.mp h
      cases ls with
      | nil => rw [joinLines, List.intercalate_singleton, hfirst hl, List.singleton_append]
      | cons l' ls =>
          have hne' := List.cons_ne_nil l' ls
          rw [joinLines_cons l hne', List.append_assoc, List.cons_append, hfirst hl, ih hne' hls]
          rfl

/-- Cutting undoes joining. -/
theorem lines_joinLines {ls : List (List Char)} (hne : ls ≠ []) (h : ∀ l ∈ ls, '\n' ∉ l) :
    lines (joinLines ls) = ls :=
  cutAt_intercalate rfl hne fun l hl _ hc => beq_eq_false_iff_ne.mpr fun heq => h l hl (heq ▸ hc)

/-- Joining lines adds nothing but LFs. -/
theorem filter_joinLines {p : Char → Bool} (hp : p '\n' = false) (ls : List (List Char)) :
    (joinLines ls).filter p = ls.flatten.filter p := by
  induction ls with
  | nil => rfl
  | cons l ls ih =>
      cases ls with
      | nil => rw [joinLines, List.intercalate_singleton, List.flatten_cons, List.flatten_nil, List.append_nil]
      | cons l' ls =>
          have hlf : ['\n'].filter p = [] := List.filter_cons_of_neg (by simp [hp])
          rw [joinLines, List.intercalate_cons_cons, List.filter_append, List.filter_append, hlf, List.append_nil,
            List.flatten_cons, List.filter_append, ← ih]
          rfl

theorem not_mem_joinLines {c : Char} (hc : c ≠ '\n') {ls : List (List Char)} (h : ∀ l ∈ ls, c ∉ l) :
    c ∉ joinLines ls := not_mem_intercalate hc h

/-- Where an LF is added to a text, a line end is added, unless the text ends in a CR. -/
theorem unixLines_append_lf (s t : List Char) :
    unixLines (s ++ '\n' :: t) = unixLines s ++ '\n' :: unixLines t ∨
      (∃ u, unixLines s = u ++ ['\n']) ∧ unixLines (s ++ '\n' :: t) = unixLines s ++ unixLines t := by
  fun_induction unixLines s with
  | case1 =>
      left
      rw [List.nil_append, unixLines.eq_4 _ _ (by simp) (by simp), List.nil_append]
  | case2 rest ih =>
      rw [List.cons_append, List.cons_append, unixLines]
      rcases ih with ih | ⟨⟨u, hu⟩, ih⟩
      · left
        rw [ih, List.cons_append]
      · right
        exact ⟨⟨'\n' :: u, by rw [hu, List.cons_append]⟩, by rw [ih, List.cons_append]⟩
  | case3 rest hlf ih =>
      cases rest with
      | nil =>
          right
          exact ⟨⟨[], rfl⟩, rfl⟩
      | cons c rest =>
          have hc : ∀ r, c :: rest ++ '\n' :: t = '\n' :: r → False :=
            fun r h => hlf rest (by rw [(List.cons.inj h).1])
          rw [List.cons_append, unixLines.eq_3 _ hc]
          rcases ih with ih | ⟨⟨u, hu⟩, ih⟩
          · left
            rw [ih, List.cons_append]
          · right
            exact ⟨⟨'\n' :: u, by rw [hu, List.cons_append]⟩, by rw [ih, List.cons_append]⟩
  | case4 c rest hcrlf hcr ih =>
      have hcrlf : ∀ r, c = '\r' → rest ++ '\n' :: t = '\n' :: r → False := fun r h _ => hcr h
      rw [List.cons_append, unixLines.eq_4 _ _ hcrlf hcr]
      rcases ih with ih | ⟨⟨u, hu⟩, ih⟩
      · left
        rw [ih, List.cons_append]
      · right
        exact ⟨⟨c :: u, by rw [hu, List.cons_append]⟩, by rw [ih, List.cons_append]⟩

/-- The lines of two texts with a blank line between them. -/
theorem lines_append_blank (s t : List Char) :
    ∃ ls, lines (unixLines (s ++ '\n' :: '\n' :: t)) = ls ++ [] :: lines (unixLines t) ∧
      (lines (unixLines s) = ls ∨ lines (unixLines s) = ls ++ [[]]) := by
  have hlf : unixLines ('\n' :: t) = '\n' :: unixLines t := unixLines.eq_4 _ _ (by simp) (by simp)
  rcases unixLines_append_lf s ('\n' :: t) with h | ⟨⟨u, hu⟩, h⟩
  · refine ⟨lines (unixLines s), ?_, Or.inl rfl⟩
    rw [h, hlf, lines, cutAt_append_mark rfl, cutAt_mark rfl]
    rfl
  · refine ⟨lines u, ?_, Or.inr ?_⟩
    · rw [h, hu, hlf, lines, List.append_assoc, List.singleton_append, cutAt_append_mark rfl, cutAt_mark rfl]
      rfl
    · rw [hu, lines, cutAt_append_mark rfl]
      rfl

/-- A line of a text is a stretch of it. -/
theorem infix_of_mem_lines {s line : List Char} (h : line ∈ lines (unixLines s)) : line <:+: s := by
  have hline : '\n' ∉ line := fun hmem => absurd (not_mem_of_mem_cutAt h _ hmem) (by decide)
  exact infix_of_infix_unixLines hline (infix_of_mem_cutAt h)

end LeadSheet.Text
