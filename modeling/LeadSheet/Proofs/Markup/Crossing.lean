import LeadSheet.Proofs.Markup.Nesting
import LeadSheet.Proofs.Markup.Numbering.Lines

/-!
# Marks that cross

The rules inside a line are applied one after another, and each takes the first marks that it finds, whatever
stands between them by then. A mark can so begin in an emphasis and end after it, and the tags cross. Nothing else
in a document does: blocks are always well nested, and a line is as soon as whatever two marks enclose is well
nested by itself when the marks are set.

* `Wraps s t contents` : the line `t` is `s` with some images set, and with tags around some of its stretches;
* `enclosed`, `chordNames` : what the marks of a line enclose, each as it is when its marks are set;
* `Uncrossed` : what the marks of a line enclose is well nested by itself;
* `wellNested_render` : a document is well nested exactly when each run of tags inside a line is, and it is as
  soon as its lines are uncrossed.
-/

namespace LeadSheet.Markup

open Text

/-! ## Balance -/

/-- One for each opening tag less one for each closing tag. -/
def balance : List Tag → Int
  | [] => 0
  | .opening _ :: ts => 1 + balance ts
  | .closing _ :: ts => -1 + balance ts
  | _ :: ts => balance ts

@[simp] theorem balance_nil : balance [] = 0 := rfl

@[simp] theorem balance_opening (e : Element) (ts : List Tag) : balance (.opening e :: ts) = 1 + balance ts := rfl

@[simp] theorem balance_closing (e : Element) (ts : List Tag) : balance (.closing e :: ts) = -1 + balance ts := rfl

@[simp] theorem balance_image (address description : List Char) (ts : List Tag) :
    balance (.image address description :: ts) = balance ts := rfl

@[simp] theorem balance_append (s t : List Tag) : balance (s ++ t) = balance s + balance t := by
  fun_induction balance s with
  | case1 => simp
  | case2 e ts ih =>
      rw [List.cons_append, balance_opening, ih]
      omega
  | case3 e ts ih =>
      rw [List.cons_append, balance_closing, ih]
      omega
  | case4 tag ts hopening hclosing ih => rw [List.cons_append, balance.eq_4 _ _ hopening hclosing, ih]

/-- The number of open elements changes by the balance. -/
theorem length_walk {ts : List Tag} {S S' : List (List Char)} (h : walk S ts = some S') :
    (S'.length : Int) = S.length + balance ts := by
  induction ts generalizing S with
  | nil =>
      obtain rfl := Option.some.inj h
      simp
  | cons t ts ih =>
      rw [walk_cons] at h
      obtain ⟨stack, hstack, h⟩ := Option.bind_eq_some_iff.mp h
      rw [ih h]
      cases t with
      | opening e =>
          obtain rfl := Option.some.inj hstack
          simp only [List.length_cons, balance_opening]
          omega
      | closing e =>
          simp only [Tag.after] at hstack
          split at hstack
          · split at hstack
            · obtain rfl := Option.some.inj hstack
              simp only [List.length_cons, balance_closing]
              omega
            · simp at hstack
          · simp at hstack
      | lineBreak =>
          obtain rfl := Option.some.inj hstack
          simp [balance]
      | rule =>
          obtain rfl := Option.some.inj hstack
          simp [balance]
      | image address description =>
          obtain rfl := Option.some.inj hstack
          simp [balance]

/-! ## Nested lines -/

namespace Line

theorem tags_wrap {p : Piece} {e : Element} (hp : p.tokens = [.tag (.opening e)]) (content t : Line) :
    tags (p :: (content ++ .tag (.closing e) :: t)) = .opening e :: (content.tags ++ .closing e :: t.tags) := by
  rw [tags_cons, hp, tags_append, tags_cons]
  rfl

end Line

/-- Every closing tag of the line closes the innermost element that is open, and none is left open. -/
def IsNested (l : Line) : Prop := walk [] l.tags = some []

instance (l : Line) : Decidable (IsNested l) := inferInstanceAs (Decidable (walk [] l.tags = some []))

theorem Tag.after_append {t : Tag} {stack stack' : List (List Char)} (h : t.after stack = some stack')
    (S : List (List Char)) : t.after (stack ++ S) = some (stack' ++ S) := by
  cases t with
  | closing e =>
      cases stack with
      | nil => simp [after] at h
      | cons top below =>
          simp only [after] at h
          split at h
          · rename_i heq
            obtain rfl := Option.some.inj h
            exact if_pos heq
          · simp at h
  | opening e =>
      obtain rfl := Option.some.inj h
      rfl
  | lineBreak | rule | image address description =>
      obtain rfl := Option.some.inj h
      rfl

/-- What does not touch the elements below does not depend on them. -/
theorem walk_append_stack {ts : List Tag} {stack stack' : List (List Char)} (h : walk stack ts = some stack')
    (S : List (List Char)) : walk (stack ++ S) ts = some (stack' ++ S) := by
  induction ts generalizing stack with
  | nil =>
      obtain rfl := Option.some.inj h
      rfl
  | cons t ts ih =>
      rw [walk_cons] at h
      obtain ⟨next, hnext, h⟩ := Option.bind_eq_some_iff.mp h
      rw [walk_cons, Tag.after_append hnext S]
      exact ih h

theorem IsNested.walk_eq {l : Line} (h : IsNested l) (S : List (List Char)) : walk S l.tags = some S :=
  walk_append_stack h S

/-! ## Tags around stretches of a line -/

/-- `t` is `s` with some images set, and with tags in place of the marks around the contents. -/
inductive Wraps : Line → Line → List Line → Prop
  | nil : Wraps [] [] []
  | keep (p : Piece) {s t : Line} {contents : List Line} : Wraps s t contents → Wraps (p :: s) (p :: t) contents
  | image (u : List Char) (n : Nat) (address description : List Char) {s t : Line} {contents : List Line} :
      Wraps s t contents →
        Wraps (Line.ofChars u ++ s) (.literal n [.tag (.image address description)] :: t) contents
  | wrap (u v : List Char) {p : Piece} {e : Element} (content : Line) {s t : Line} {contents : List Line} :
      p.tokens = [.tag (.opening e)] → Wraps s t contents →
        Wraps (Line.ofChars u ++ (content ++ (Line.ofChars v ++ s))) (p :: (content ++ .tag (.closing e) :: t))
          (content :: contents)

namespace Wraps

variable {s t : Line} {contents : List Line}

theorem keep_append (l : Line) (h : Wraps s t contents) : Wraps (l ++ s) (l ++ t) contents := by
  induction l with
  | nil => exact h
  | cons p l ih => exact keep p ih

/-- Tags around contents that are well nested make no difference to what is open. -/
theorem walk_eq (h : Wraps s t contents) (hcontents : ∀ c ∈ contents, IsNested c) (S : List (List Char)) :
    walk S t.tags = walk S s.tags := by
  induction h generalizing S with
  | nil => rfl
  | keep p _ ih =>
      rw [Line.tags_cons, Line.tags_cons, walk_append, walk_append]
      exact congrArg _ (funext fun S => ih hcontents S)
  | image u n address description _ ih =>
      rw [Line.tags_cons, Line.tags_append, Line.tags_ofChars]
      exact ih hcontents S
  | @wrap u v p e content s t contents hp _ ih =>
      obtain ⟨hcontent, hcontents⟩ := List.forall_mem_cons.mp hcontents
      have hclose : Tag.after (e.name :: S) (.closing e) = some S := if_pos rfl
      rw [Line.tags_wrap hp, walk_cons, Tag.after, Option.bind_some, walk_append, hcontent.walk_eq, Option.bind_some,
        walk_cons, hclose, Option.bind_some, ih hcontents]
      simp only [Line.tags_append, Line.tags_ofChars, List.nil_append, walk_append, hcontent.walk_eq, Option.bind_some]

theorem balance_eq (h : Wraps s t contents) : balance t.tags = balance s.tags := by
  induction h with
  | nil => rfl
  | keep p _ ih => rw [Line.tags_cons, Line.tags_cons, balance_append, balance_append, ih]
  | image u n address description _ ih => simp [Piece.tokens, ih]
  | @wrap u v p e content s t contents hp _ ih =>
      simp only [Line.tags_wrap hp, Line.tags_append, Line.tags_ofChars, List.nil_append, balance_opening,
        balance_append, balance_closing, ih]
      omega

end Wraps

/-! ## What the marks of a line enclose -/

theorem wraps_setImages (n : Nat) (line : Line) : Wraps line (setImages n line).1 [] := by
  fun_induction setImages n line with
  | case1 => exact .nil
  | case2 n piece rest description address after h _ pieces m heq ih =>
      rw [heq] at ih
      rw [image?_eq_some h]
      exact .image _ n address description ih
  | case3 n piece rest h pieces m heq ih =>
      rw [heq] at ih
      exact .keep piece ih

def linkLabels (line : Line) : List Line :=
  match line with
  | [] => []
  | piece :: rest =>
    match h : link? (piece :: rest) with
    | some (label, _, after) =>
      have : after.length ≤ rest.length := Nat.le_of_lt_succ (length_link? h)
      label :: linkLabels after
    | none => linkLabels rest
termination_by line.length

theorem wraps_setLinks (n : Nat) (line : Line) : Wraps line (setLinks n line).1 (linkLabels line) := by
  fun_induction linkLabels line generalizing n with
  | case1 =>
      rw [setLinks]
      exact .nil
  | case2 piece rest label address after h _ ih =>
      rw [setLinks_of_some h, link?_eq_some h]
      exact .wrap ['['] _ label rfl (ih (n + 1))
  | case3 piece rest h ih =>
      rw [setLinks_of_none h]
      exact .keep piece (ih n)

namespace Emphasis

/-- The contents of the marked texts of a line; `afterWord` says whether a word character comes before it. -/
def contents (e : Emphasis) (afterWord : Bool) (line : Line) : List Line :=
  match line with
  | [] => []
  | piece :: rest =>
    match h : e.begin? afterWord (piece :: rest) with
    | some (content, after) =>
      have : after.length ≤ rest.length := by
        rw [begin?] at h
        split at h
        · simp at h
        · exact Nat.le_of_lt_succ (length_match? h)
      content :: contents e (e.mark.getLast?.any isWord) after
    | none => contents e (piece.sat isWord) rest
termination_by line.length

theorem begin?_eq_some {e : Emphasis} {afterWord : Bool} {line content after : Line}
    (h : e.begin? afterWord line = some (content, after)) :
    line = Line.ofChars e.mark ++ (content ++ (Line.ofChars e.mark ++ after)) := by
  rw [begin?] at h
  split at h
  · simp at h
  · exact match?_eq_some h

theorem wraps_set (e : Emphasis) (afterWord : Bool) (line : Line) :
    Wraps line (e.set afterWord line) (e.contents afterWord line) := by
  fun_induction e.contents afterWord line with
  | case1 =>
      rw [set]
      exact .nil
  | case2 afterWord piece rest content after h _ ih =>
      rw [set_of_some h, begin?_eq_some h]
      exact .wrap e.mark e.mark content rfl ih
  | case3 afterWord piece rest h ih =>
      rw [set_of_none h]
      exact .keep piece ih

end Emphasis

/-- The contents of the marked texts of a line, kind after kind. -/
def emphasisContents : List Emphasis → Line → List Line
  | [], _ => []
  | e :: es, line => e.contents false line ++ emphasisContents es (e.set false line)

def chordNames (db : Chord.Database) (line : Line) : List Line :=
  match line with
  | [] => []
  | piece :: rest =>
    match h : name? (piece :: rest) with
    | some (name, after) =>
      have : after.length ≤ rest.length := by
        rw [name?_cons] at h
        split at h
        · exact Nat.le_of_lt (length_bracketed? h)
        · simp at h
      if db.isChord (Line.source name) then name :: chordNames db after else chordNames db after
    | none => chordNames db rest
termination_by line.length
decreasing_by all_goals simp only [List.length_cons]; omega

theorem name?_eq_some {line name after : Line} (h : name? line = some (name, after)) :
    line = .char '[' :: (name ++ .char ']' :: after) := by
  obtain ⟨rest, hrest, h⟩ := Option.bind_eq_some_iff.mp h
  rw [Line.dropMark?_eq_some hrest, (bracketed?_eq_some h).1]
  rfl

theorem wraps_setChords (db : Chord.Database) (line : Line) :
    Wraps line (setChords db line) (chordNames db line) := by
  fun_induction chordNames db line with
  | case1 =>
      rw [setChords]
      exact .nil
  | case2 piece rest name after h _ hchord ih =>
      rw [setChords_of_some h, if_pos hchord, name?_eq_some h]
      exact .wrap ['['] [']'] name rfl ih
  | case3 piece rest name after h _ hchord ih =>
      obtain ⟨rfl, hrest⟩ := List.cons.inj (name?_eq_some h)
      rw [setChords_of_some h, if_neg hchord, hrest]
      exact .keep _ ((Wraps.keep (.char ']') ih).keep_append name)
  | case4 piece rest h ih =>
      rw [setChords_of_none h]
      exact .keep piece ih

/-- What the marks of the links and of the emphases of a line enclose, as it is when the marks are set. The numbers
of literals do not matter to it. -/
def enclosed (line : Line) : List Line :=
  linkLabels (setImages 0 line).1 ++ emphasisContents emphases (setLinks 0 (setImages 0 line).1).1

/-- What the marks of a line enclose is well nested by itself when the marks are set. -/
def Uncrossed (db : Chord.Database) (line : Line) : Prop :=
  (∀ c ∈ enclosed line, IsNested c) ∧ ∀ n, ∀ name ∈ chordNames db (setInline n line), IsNested name

theorem isNested_of_chars {l : Line} (h : ∀ p ∈ l, ∃ c, p = .char c) : IsNested l := by
  induction l with
  | nil => rfl
  | cons p l ih =>
      obtain ⟨⟨c, rfl⟩, hl⟩ := List.forall_mem_cons.mp h
      exact ih hl

/-- Where no chord name has a `<`, nothing but characters is in the name of a chord. -/
theorem uncrossed_of_lacks {db : Chord.Database} (hdb : db.Lacks '<') {line : Line}
    (h : ∀ c ∈ enclosed line, IsNested c) : Uncrossed db line := by
  have hchars : ∀ l : Line, ∀ name ∈ chordNames db l, ∀ p ∈ name, ∃ c, p = .char c := by
    intro l
    fun_induction chordNames db l with
    | case1 => simp
    | case2 piece rest name after _ _ hchord ih =>
        refine List.forall_mem_cons.mpr ⟨fun p hp => ?_, ih⟩
        by_contra hopaque
        have hopen := Piece.open_mem_source fun c hc => hopaque ⟨c, hc⟩
        exact Chord.not_mem_of_isChord Chord.foreign_ne_open hdb hchord (List.mem_flatMap.mpr ⟨p, hp, hopen⟩)
    | case3 piece rest name after _ _ hchord ih => exact ih
    | case4 piece rest _ ih => exact ih
  exact ⟨h, fun n name hname => isNested_of_chars (hchars _ name hname)⟩

/-! ## The tags of a line that is marked up -/

theorem walk_setEmphases {line : Line} (h : ∀ c ∈ emphasisContents emphases line, IsNested c) (S : List (List Char)) :
    walk S (setEmphases line).tags = walk S line.tags := by
  unfold setEmphases
  revert h
  induction emphases generalizing line with
  | nil => exact fun _ => rfl
  | cons e es ih =>
      intro h
      obtain ⟨hfirst, hrest⟩ := List.forall_mem_append.mp h
      rw [List.foldl_cons, ih hrest, (e.wraps_set false line).walk_eq hfirst]

theorem balance_setEmphases (line : Line) : balance (setEmphases line).tags = balance line.tags := by
  unfold setEmphases
  induction emphases generalizing line with
  | nil => rfl
  | cons e es ih => rw [List.foldl_cons, ih, (e.wraps_set false line).balance_eq]

theorem balance_setInline (n : Nat) (line : Line) : balance (setInline n line).tags = balance line.tags := by
  rw [setInline, balance_setEmphases, (wraps_setLinks _ _).balance_eq, (wraps_setImages n line).balance_eq]

theorem Line.tags_anonymous (l : Line) : l.anonymous.tags = l.tags := by rw [tags, tokens_anonymous, tags]

/-- Uncrossed marks leave what is open as it is. -/
theorem walk_setInline {line : Line} (h : ∀ c ∈ enclosed line, IsNested c) (n : Nat) (S : List (List Char)) :
    walk S (setInline n line).tags = walk S line.tags := by
  obtain ⟨hlabels, hcontents⟩ := List.forall_mem_append.mp h
  have hlinks : ∀ k, (setLinks k (setImages n line).1).1.anonymous = (setLinks 0 (setImages 0 line).1).1.anonymous := by
    intro k
    rw [← setLinks_anonymous 0 k, ← setImages_anonymous 0 n, setImages_anonymous 0 0, setLinks_anonymous 0 0]
  have hinline : (setInline n line).tags = (setEmphases (setLinks 0 (setImages 0 line).1).1).tags := by
    rw [setInline, ← Line.tags_anonymous, ← setEmphases_anonymous, hlinks, setEmphases_anonymous, Line.tags_anonymous]
  rw [hinline, walk_setEmphases hcontents, (wraps_setLinks 0 _).walk_eq hlabels,
    (wraps_setImages 0 line).walk_eq (by simp)]

theorem nestsByLines_renderLine {P : Prop} {db : Chord.Database} {l : Line} (hl : l.IsBare) (h : P → Uncrossed db l)
    (n : Nat) : NestsByLines P (renderLine db n l).1 := by
  have hbare : ∀ S, walk S l.tags = some S := (tagList_bare hl).2
  refine nestsByLines_of_phrases (isPhrase_renderLine db n hl) (fun stack hstack => ?_) (fun hP => ?_)
  · have hbalance : balance (tagList (renderLine db n l).1) = balance l.tags :=
      (wraps_setChords db (setInline n l)).balance_eq.trans (balance_setInline n l)
    have hlength := length_walk hstack
    have hnone := length_walk (hbare [])
    rw [List.length_nil] at hlength hnone
    rw [← List.length_eq_zero_iff]
    omega
  · obtain ⟨hmarks, hnames⟩ := h hP
    have hwalk := (wraps_setChords db (setInline n l)).walk_eq (hnames n) []
    rw [walk_setInline hmarks, hbare] at hwalk
    exact hwalk

/-! ## The body -/

/-- A document is well nested exactly when each run of tags inside a line is; and it is when nothing in the lines
of the body crosses. -/
theorem wellNested_render (db : Chord.Database) (body : String) :
    (WellNested (render db body).toList ↔
      ∀ run ∈ cutAt isBlockTag (tags (render db body).toList), afterTags [] run = some []) ∧
    ((∀ l ∈ markedLines db body.toList, Uncrossed db l) → WellNested (render db body).toList) := by
  have hown := bodyTokens_own db body.toList
  have hnests : NestsByLines (∀ l ∈ markedLines db body.toList, Uncrossed db l) (bodyTokens db body.toList) :=
    nestsByLines_compositional.bodyTokens nestsByLines_fences fun l hl n =>
      nestsByLines_renderLine (markedLines_bare hl) (fun h => h l hl) n
  rw [render, String.toList_ofList]
  exact ⟨wellNested_iff_runs hown hnests, wellNested_of_nested hown hnests⟩

theorem wellNested_render_verse : WellNested (render .cMajor "- *a ~~b~~* [C]c\n- [**d**](e) `f`").toList := by
  have hmarks : ∀ l ∈ markedLines .cMajor "- *a ~~b~~* [C]c\n- [**d**](e) `f`".toList,
      ∀ c ∈ enclosed l, IsNested c := by
    decide +kernel
  exact (wellNested_render .cMajor "- *a ~~b~~* [C]c\n- [**d**](e) `f`").2
    fun l hl => uncrossed_of_lacks (by decide) (hmarks l hl)

/-- Text that is struck out from before an emphasis into it. -/
theorem not_wellNested_crossed_marks : ¬ WellNested (render .cMajor "~~**a~~b**").toList := by
  decide +kernel

end LeadSheet.Markup
