import LeadSheet.Proofs.Scan
import LeadSheet.Song.Document
import Mathlib.Data.List.TakeWhile
import Mathlib.Data.Nat.Find

/-!
# Where the front matter ends

A text is cut at its LFs. `DelimiterAt ls i` says that line `i` is three hyphens and blanks; a CR right
before an LF belongs to the line's end.

* `cutAtLine text k` : the song read with a block that line `k` closes;
* `EndsAtFirst text d` : `d` is the song read with a block that the first later delimiter closes, and the
  whole text as body where the first line or a later delimiter is missing;
* `endsAtFirst_parse_iff` : this is how a song is read, but for one kind of text. Where the second line
  is a delimiter and a later one is too, the block runs on to the latter.

The two readings of such a text never agree: the body of the one has the hyphens of a delimiter more.
-/

namespace LeadSheet.Document

open Text

/-! ## Delimiters -/

/-- Three hyphens and blanks. -/
def IsMark (s : List Char) : Prop :=
  ∃ blanks, (∀ c ∈ blanks, isBlank c = true) ∧ s = '-' :: '-' :: '-' :: blanks

/-- Line `i` is a delimiter. Only where a further line follows can a CR belong to the line's end. -/
def DelimiterAt (ls : List (List Char)) (i : Nat) : Prop :=
  ∃ s, IsMark s ∧ (ls[i]? = some s ∨ (i + 1 < ls.length ∧ ls[i]? = some (s ++ ['\r'])))

/-- Line `k` is the first delimiter after line `i`. -/
def FirstAfter (ls : List (List Char)) (i k : Nat) : Prop :=
  i < k ∧ DelimiterAt ls k ∧ ∀ j, i < j → j < k → ¬ DelimiterAt ls j

theorem eq_blanks_append (s : List Char) :
    ∃ blanks, (∀ c ∈ blanks, isBlank c = true) ∧ s = blanks ++ s.dropWhile isBlank :=
  ⟨s.takeWhile isBlank, fun _ => List.mem_takeWhile_imp,
    List.takeWhile_append_dropWhile.symm⟩

theorem isDelimiter_iff (ended : Bool) (line : List Char) :
    isDelimiter ended line = true ↔ ∃ s, IsMark s ∧ (line = s ∨ (ended = true ∧ line = s ++ ['\r'])) := by
  constructor
  · intro h
    unfold isDelimiter at h
    split at h
    · rename_i rest
      obtain ⟨blanks, hb, hr⟩ := eq_blanks_append rest
      split at h
      · rename_i hd
        refine ⟨_, ⟨blanks, hb, rfl⟩, Or.inl ?_⟩
        rw [hr, hd, List.append_nil]
      · rename_i hd
        refine ⟨_, ⟨blanks, hb, rfl⟩, Or.inr ⟨h, ?_⟩⟩
        rw [hr, hd]
        rfl
      · exact absurd h Bool.false_ne_true
    · exact absurd h Bool.false_ne_true
  · rintro ⟨s, ⟨blanks, hb, rfl⟩, rfl | ⟨rfl, rfl⟩⟩
    · have hd : blanks.dropWhile isBlank = [] := List.dropWhile_eq_nil_iff.mpr hb
      simp only [isDelimiter, hd]
    · have hd : (blanks ++ ['\r']).dropWhile isBlank = ['\r'] := by
        rw [List.dropWhile_append_of_pos hb]
        rfl
      simp only [isDelimiter, List.cons_append, hd]

theorem delimiterAt_zero (line : List Char) (rest : List (List Char)) :
    DelimiterAt (line :: rest) 0 ↔ isDelimiter (!rest.isEmpty) line = true := by
  rw [isDelimiter_iff]
  simp only [DelimiterAt, List.getElem?_cons_zero, Option.some.injEq, List.length_cons]
  cases rest <;> simp

theorem delimiterAt_succ (line : List Char) (rest : List (List Char)) (i : Nat) :
    DelimiterAt (line :: rest) (i + 1) ↔ DelimiterAt rest i := by
  simp only [DelimiterAt, List.getElem?_cons_succ, List.length_cons, Nat.add_lt_add_iff_right]

theorem delimiterIndex?_eq_none {ls : List (List Char)} (h : delimiterIndex? ls = none) (i : Nat) :
    ¬ DelimiterAt ls i := by
  induction ls generalizing i with
  | nil =>
      rintro ⟨s, -, hs | ⟨hlt, -⟩⟩
      · simp at hs
      · simp at hlt
  | cons line rest ih =>
      unfold delimiterIndex? at h
      split at h
      · simp at h
      · rename_i hline
        cases i with
        | zero => rwa [delimiterAt_zero]
        | succ i =>
            rw [delimiterAt_succ]
            exact ih (Option.map_eq_none_iff.mp h) i

theorem delimiterIndex?_eq_some {ls : List (List Char)} {k : Nat} (h : delimiterIndex? ls = some k) :
    DelimiterAt ls k ∧ ∀ j < k, ¬ DelimiterAt ls j := by
  induction ls generalizing k with
  | nil => simp [delimiterIndex?] at h
  | cons line rest ih =>
      unfold delimiterIndex? at h
      split at h
      · rename_i hline
        obtain rfl : 0 = k := Option.some.inj h
        exact ⟨(delimiterAt_zero line rest).mpr hline, fun j hj => absurd hj (Nat.not_lt_zero j)⟩
      · rename_i hline
        obtain ⟨k', hk', rfl⟩ := Option.map_eq_some_iff.mp h
        obtain ⟨hat, hno⟩ := ih hk'
        refine ⟨(delimiterAt_succ line rest k').mpr hat, fun j hj => ?_⟩
        cases j with
        | zero => rwa [delimiterAt_zero]
        | succ j =>
            rw [delimiterAt_succ]
            exact hno j (Nat.lt_of_succ_lt_succ hj)

/-! ## The line that closes the block -/

/-- The closing line is the first delimiter past the second line, or else the second line. -/
theorem closingIndex?_eq_some (opening : List Char) {rest : List (List Char)} {k : Nat}
    (h : closingIndex? rest = some k) :
    FirstAfter (opening :: rest) 1 (k + 1) ∨
      (k = 0 ∧ DelimiterAt (opening :: rest) 1 ∧ ∀ j, 1 < j → ¬ DelimiterAt (opening :: rest) j) := by
  cases rest with
  | nil => simp [closingIndex?] at h
  | cons line rest =>
      simp only [closingIndex?] at h
      split at h
      · rename_i i hi
        obtain rfl : i + 1 = k := Option.some.inj h
        obtain ⟨hat, hno⟩ := delimiterIndex?_eq_some hi
        refine Or.inl ⟨by omega, by rwa [delimiterAt_succ, delimiterAt_succ], fun j hj hlt => ?_⟩
        obtain ⟨j, rfl⟩ : ∃ i, j = i + 1 + 1 := ⟨j - 2, by omega⟩
        rw [delimiterAt_succ, delimiterAt_succ]
        exact hno j (by omega)
      · rename_i hi
        split at h
        · rename_i hline
          obtain rfl : 0 = k := Option.some.inj h
          refine Or.inr ⟨rfl, by rwa [delimiterAt_succ, delimiterAt_zero], fun j hj => ?_⟩
          obtain ⟨j, rfl⟩ : ∃ i, j = i + 1 + 1 := ⟨j - 2, by omega⟩
          rw [delimiterAt_succ, delimiterAt_succ]
          exact delimiterIndex?_eq_none hi j
        · simp at h

theorem closingIndex?_eq_none (opening : List Char) {rest : List (List Char)}
    (h : closingIndex? rest = none) (j : Nat) (hj : 0 < j) : ¬ DelimiterAt (opening :: rest) j := by
  obtain ⟨i, rfl⟩ : ∃ i, j = i + 1 := ⟨j - 1, by omega⟩
  rw [delimiterAt_succ]
  cases rest with
  | nil => exact delimiterIndex?_eq_none rfl i
  | cons line rest =>
      simp only [closingIndex?] at h
      split at h
      · simp at h
      · rename_i hi
        split at h
        · simp at h
        · rename_i hline
          cases i with
          | zero => rwa [delimiterAt_zero]
          | succ i =>
              rw [delimiterAt_succ]
              exact delimiterIndex?_eq_none hi i

/-- A song read with a block that line `k` closes: the block is what stands between it and the first
line, and the body is all that follows. -/
def cutAtLine (text : String) (k : Nat) : Document :=
  ⟨Metadata.parseChars (joinLines (((lines text.toList).take k).drop 1)),
    String.ofList (Body.trimChars (joinLines ((lines text.toList).drop (k + 1))))⟩

def allBody (text : String) : Document := ⟨[], Body.trim text⟩

/-- The block runs past the second line, where it can. -/
theorem parse_eq_cutAtLine {text : String} {k : Nat} (h0 : DelimiterAt (lines text.toList) 0)
    (hk : FirstAfter (lines text.toList) 1 k ∨
      (k = 1 ∧ DelimiterAt (lines text.toList) 1 ∧ ∀ j, 1 < j → ¬ DelimiterAt (lines text.toList) j)) :
    parse text = cutAtLine text k := by
  unfold parse split? cutAtLine
  generalize lines text.toList = ls at *
  cases ls with
  | nil => exact absurd h0 (delimiterIndex?_eq_none rfl 0)
  | cons opening rest =>
      have hopen := (delimiterAt_zero opening rest).mp h0
      have hat : 0 < k ∧ DelimiterAt (opening :: rest) k := by
        rcases hk with ⟨hlt, hat, -⟩ | ⟨rfl, hat, -⟩
        · exact ⟨by omega, hat⟩
        · exact ⟨by omega, hat⟩
      cases hc : closingIndex? rest with
      | none => exact absurd hat.2 (closingIndex?_eq_none opening hc k hat.1)
      | some i =>
          have hik : k = i + 1 := by
            rcases closingIndex?_eq_some opening hc with hi | ⟨rfl, -, hno⟩
            · rcases hk with hk | ⟨-, -, hno⟩
              · by_contra hne
                rcases Nat.lt_or_gt_of_ne hne with hlt | hlt
                · exact hi.2.2 k hk.1 hlt hk.2.1
                · exact hk.2.2 (i + 1) hi.1 hlt hi.2.1
              · exact absurd hi.2.1 (hno (i + 1) hi.1)
            · rcases hk with hk | ⟨rfl, -, -⟩
              · exact absurd hk.2.1 (hno k hk.1)
              · rfl
          subst hik
          simp only [hopen, hc, if_true, Option.map_some, List.take_succ_cons, List.drop_succ_cons,
            List.drop_zero]

theorem parse_eq_allBody {text : String}
    (h : ¬ (DelimiterAt (lines text.toList) 0 ∧ ∃ k, 0 < k ∧ DelimiterAt (lines text.toList) k)) :
    parse text = allBody text := by
  have hsplit : split? text.toList = none := by
    unfold split?
    generalize lines text.toList = ls at *
    cases ls with
    | nil => rfl
    | cons opening rest =>
        by_cases hopen : isDelimiter (!rest.isEmpty) opening = true
        · cases hc : closingIndex? rest with
          | none => simp [hopen, hc]
          | some i =>
              refine absurd ⟨(delimiterAt_zero opening rest).mpr hopen, i + 1, by omega, ?_⟩ h
              rcases closingIndex?_eq_some opening hc with hi | ⟨rfl, hi, -⟩
              · exact hi.2.1
              · exact hi
        · simp [hopen]
  unfold parse allBody
  rw [hsplit]

/-! ## The first later delimiter -/

/-- The song is read with a block that the first delimiter after the first line closes. Without a
delimiter in the first line and in a later one, all of it is body. -/
def EndsAtFirst (text : String) (d : Document) : Prop :=
  (∀ k, DelimiterAt (lines text.toList) 0 → FirstAfter (lines text.toList) 0 k → d = cutAtLine text k) ∧
    (¬ (DelimiterAt (lines text.toList) 0 ∧ ∃ k, 0 < k ∧ DelimiterAt (lines text.toList) k) →
      d = allBody text)

/-- The first two lines are delimiters, and so is a later one. -/
def EmptyBlockThenDelimiter (ls : List (List Char)) : Prop :=
  DelimiterAt ls 0 ∧ DelimiterAt ls 1 ∧ ∃ k, 1 < k ∧ DelimiterAt ls k

theorem exists_firstAfter {ls : List (List Char)} {i k : Nat} (hik : i < k) (hk : DelimiterAt ls k) :
    ∃ j, FirstAfter ls i j := by
  classical
  have hex : ∃ j, i < j ∧ DelimiterAt ls j := ⟨k, hik, hk⟩
  obtain ⟨hlt, hat⟩ := Nat.find_spec hex
  exact ⟨Nat.find hex, hlt, hat, fun j hj hjlt hd => Nat.find_min hex hjlt ⟨hj, hd⟩⟩

theorem count_dropWhile {c : Char} {p : Char → Bool} (hc : p c = false) (s : List Char) :
    (s.dropWhile p).count c = s.count c := by
  induction s with
  | nil => rfl
  | cons d s ih =>
      by_cases hd : p d = true
      · have hne : d ≠ c := by
          rintro rfl
          rw [hc] at hd
          exact Bool.false_ne_true hd
        rw [List.dropWhile_cons_of_pos hd, ih, List.count_cons_of_ne hne]
      · rw [List.dropWhile_cons_of_neg hd]

theorem count_trimEnd {c : Char} (hc : isSpace c = false) (s : List Char) :
    (trimEnd s).count c = s.count c := by
  rw [trimEnd, dropEndWhile, List.count_reverse, count_dropWhile hc, List.count_reverse]

theorem count_dropBlankLines {c : Char} (hc : isSpace c = false) (s : List Char) :
    (Body.dropBlankLines s).count c = s.count c := by
  have hblank : isBlank c = false := by
    by_contra h
    rw [isSpace_of_isBlank (by simpa using h)] at hc
    exact Bool.false_ne_true hc.symm
  have hlf : '\n' ≠ c := by
    rintro rfl
    exact absurd hc (by decide)
  have hcr : '\r' ≠ c := by
    rintro rfl
    exact absurd hc (by decide)
  fun_induction Body.dropBlankLines s with
  | case1 s rest h _ ih =>
      rw [ih, ← count_dropWhile hblank s, h, List.count_cons_of_ne hlf]
  | case2 s rest h _ ih =>
      rw [ih, ← count_dropWhile hblank s, h, List.count_cons_of_ne hcr, List.count_cons_of_ne hlf]
  | case3 => rfl

/-- Trimming a body takes nothing but white space. -/
theorem count_trimChars {c : Char} (hc : isSpace c = false) (s : List Char) :
    (Body.trimChars s).count c = s.count c := by
  rw [Body.trimChars, count_trimEnd hc, count_dropBlankLines hc]

theorem count_joinLines {c : Char} (hc : '\n' ≠ c) (ls : List (List Char)) :
    (joinLines ls).count c = ls.flatten.count c := by
  have hlf : ('\n' == c) = false := beq_eq_false_iff_ne.mpr hc
  rw [List.count_eq_length_filter, filter_joinLines (p := (· == c)) hlf, ← List.count_eq_length_filter]

/-- A delimiter has hyphens. -/
theorem count_hyphen_pos {ls : List (List Char)} {k : Nat} (h : DelimiterAt ls k) :
    ∃ line, ls[k]? = some line ∧ 0 < line.count '-' := by
  obtain ⟨s, ⟨blanks, -, rfl⟩, hk | ⟨-, hk⟩⟩ := h
  · exact ⟨_, hk, List.count_pos_iff.mpr List.mem_cons_self⟩
  · exact ⟨_, hk, List.count_pos_iff.mpr List.mem_cons_self⟩

/-- What follows a delimiter is not what follows an earlier line. -/
theorem cutAtLine_ne {text : String} {i k : Nat} (hik : i < k) (hk : DelimiterAt (lines text.toList) k) :
    cutAtLine text k ≠ cutAtLine text i := by
  intro h
  have hbody : Body.trimChars (joinLines ((lines text.toList).drop (k + 1))) =
      Body.trimChars (joinLines ((lines text.toList).drop (i + 1))) := by
    have := congrArg Document.body h
    exact String.ofList_injective this
  have hcount := congrArg (List.count '-') hbody
  rw [count_trimChars (by decide), count_trimChars (by decide), count_joinLines (by decide),
    count_joinLines (by decide)] at hcount
  obtain ⟨line, hline, hpos⟩ := count_hyphen_pos hk
  obtain ⟨hlt, hget⟩ := List.getElem?_eq_some_iff.mp hline
  have hsplit : (lines text.toList).drop (i + 1) =
      ((lines text.toList).drop (i + 1)).take (k - (i + 1)) ++ line :: (lines text.toList).drop (k + 1) := by
    have hdrop : ((lines text.toList).drop (i + 1)).drop (k - (i + 1)) = (lines text.toList).drop k := by
      rw [List.drop_drop, Nat.add_sub_cancel' hik]
    rw [← hget, List.getElem_cons_drop, ← hdrop, List.take_append_drop]
  rw [hsplit, List.flatten_append, List.flatten_cons, List.count_append, List.count_append] at hcount
  omega

/-- A song is read with a block that ends at the first later delimiter, unless the second line is a
delimiter and a later line is one too. The block of such a song ends at the first delimiter past the
second line. -/
theorem endsAtFirst_parse_iff (text : String) :
    (EndsAtFirst text (parse text) ↔ ¬ EmptyBlockThenDelimiter (lines text.toList)) ∧
      ∀ k, DelimiterAt (lines text.toList) 0 → FirstAfter (lines text.toList) 1 k →
        parse text = cutAtLine text k := by
  refine ⟨⟨?_, fun hgood => ⟨fun k h0 hk => ?_, parse_eq_allBody⟩⟩,
    fun k h0 hk => parse_eq_cutAtLine h0 (Or.inl hk)⟩
  · rintro ⟨hcut, -⟩ ⟨h0, h1, k, hlt, hat⟩
    obtain ⟨j, hj⟩ := exists_firstAfter hlt hat
    have hfirst : FirstAfter (lines text.toList) 0 1 :=
      ⟨Nat.zero_lt_one, h1, fun i hi hlt => by omega⟩
    refine cutAtLine_ne hj.1 hj.2.1 ?_
    rw [← parse_eq_cutAtLine h0 (Or.inl hj), hcut 1 h0 hfirst]
  · refine parse_eq_cutAtLine h0 ?_
    obtain ⟨hlt, hat, hno⟩ := hk
    by_cases h1 : k = 1
    · subst h1
      exact Or.inr ⟨rfl, hat, fun j hj hd => hgood ⟨h0, hat, j, hj, hd⟩⟩
    · exact Or.inl ⟨by omega, hat, fun j hj hlt => hno j (by omega) hlt⟩

/-- An empty block before a rule in the body: the text up to the rule is lost in the block. -/
theorem not_endsAtFirst_empty_block :
    ¬ EndsAtFirst "---\n---\nx\n---\n" (parse "---\n---\nx\n---\n") := by
  intro h
  have hmark : IsMark "---".toList := ⟨[], by simp, rfl⟩
  have h0 : DelimiterAt (lines "---\n---\nx\n---\n".toList) 0 := ⟨_, hmark, Or.inl (by decide)⟩
  have h1 : FirstAfter (lines "---\n---\nx\n---\n".toList) 0 1 :=
    ⟨Nat.zero_lt_one, ⟨_, hmark, Or.inl (by decide)⟩, fun i hi hlt => by omega⟩
  have hread := h.1 1 h0 h1
  revert hread
  decide +kernel

end LeadSheet.Document
