import LeadSheet.Proofs.Markup.Raw.Inline

/-!
# Emphasis and chords on text

* `set_source`, `setChords_source` : emphasis and chords are set alike on the source text of a line and on
  its pieces;
* `renderLine_agree` : so are all rules inside a line, and the marked text stands for the tokens.
-/

namespace LeadSheet.Markup

open Text
open Raw (LiteralKind LiteralTable Marking)

/-! ## Marks -/

namespace Emphasis

/-- What the kinds of emphasis have in common. -/
structure Regular (e : Emphasis) : Prop where
  begins : e.mark.head?.any (!isFiller ·) = true
  plain : e.mark.all isPlain = true
  edges : ∀ c ∈ ['&', '<', '>', ';'], e.edge c = true

theorem regular {e : Emphasis} (he : e ∈ emphases) : e.Regular where
  begins := (by decide : ∀ e ∈ emphases, e.mark.head?.any (!isFiller ·) = true) e he
  plain := List.all_eq_true.mp (by decide : (emphases.all fun e => e.mark.all isPlain) = true) e he
  edges := List.all_eq_true.mp
    (List.all_eq_true.mp (by decide : (emphases.all fun e => ['&', '<', '>', ';'].all e.edge) = true) e he)

namespace Regular

variable {e : Emphasis} (he : e.Regular)

include he

theorem mark_ne_nil : e.mark ≠ [] := fun hnil => by simpa [hnil] using he.begins

theorem dropMark?_of_filler {s : List Char} (hs : ∀ c ∈ s.head?, isFiller c = true) :
    Text.dropMark? e.mark s = none := by
  obtain ⟨c, mark, hmark⟩ := List.exists_cons_of_ne_nil he.mark_ne_nil
  have hc : isFiller c = false := by simpa [hmark] using he.begins
  rw [hmark]
  exact dropMark?_of_head fun hhead => by simp [hs c hhead] at hc

/-- Either end of a piece is an edge where the piece is one. -/
theorem edge_source (p : Piece) :
    p.source.head?.any e.edge = p.opaqueOr e.edge ∧ p.source.getLast?.any e.edge = p.opaqueOr e.edge := by
  rcases source_cases p with ⟨c, rfl, -, hsource⟩ | ⟨first, middle, last, hsource, hfirst, hlast, hchar⟩
  · rw [hsource]
    exact ⟨rfl, rfl⟩
  · have hopaque : p.opaqueOr e.edge = true := by
      cases p with
      | char c => rcases hchar c rfl with rfl | rfl | rfl <;> exact he.edges _ (by simp)
      | tag inner => rfl
      | literal n content => rfl
    rw [hsource, hopaque, ← List.cons_append, List.getLast?_concat]
    refine ⟨?_, ?_⟩
    · rcases hfirst with rfl | rfl <;> exact he.edges _ (by simp)
    · rcases hlast with rfl | rfl <;> exact he.edges _ (by simp)

theorem closing?_source {c : Char} {last : Piece} (hc : e.edge c = last.opaqueOr e.edge) (l : Line) :
    Raw.Emphasis.closing? e c (Line.source l) = (closing? e last l).map Line.source := by
  rw [Raw.Emphasis.closing?, closing?, hc, dropMark?_source he.plain]
  split
  · cases Line.dropMark? e.mark l with
    | none => rfl
    | some after =>
        have hword : (Line.source after).head?.any isWord = after.head?.any (Piece.sat isWord) :=
          head?_any_source fun p _ => readsAlike_sat (by decide) p
        simp only [Option.map_some, Option.filter, hword]
        split <;> rfl
  · rfl

/-- No closing mark stands among fillers. -/
theorem findClosing_append {x : List Char} (hx : ∀ c ∈ x, isFiller c = true) (c : Char) (s : List Char) :
    Raw.Emphasis.findClosing e c (x ++ s) =
      (Raw.Emphasis.findClosing e (x.getLast?.getD c) s).map (Prod.map (x ++ ·) id) := by
  induction x generalizing c with
  | nil =>
      rw [List.nil_append, List.getLast?_nil, Option.getD_none]
      cases Raw.Emphasis.findClosing e c s <;> rfl
  | cons d x ih =>
      obtain ⟨hd, hx⟩ := List.forall_mem_cons.mp hx
      have hnone : Raw.Emphasis.closing? e c (d :: (x ++ s)) = none := by
        rw [Raw.Emphasis.closing?, he.dropMark?_of_filler (by simpa using hd)]
        split <;> rfl
      have hdot : Raw.isDot d = true := by
        rw [Raw.isDot, bne_iff_ne]
        rintro rfl
        exact absurd hd (by decide)
      have hlast : (d :: x).getLast?.getD c = x.getLast?.getD d := by rw [List.getLast?_cons, Option.getD_some]
      rw [List.cons_append, Raw.Emphasis.findClosing, hnone, hlast]
      simp only [hdot, if_true, ih hx, Option.map_map]
      rfl

end Regular

end Emphasis

theorem isDot_of_mem_source {t : LiteralTable} {p : Piece} (hp : p.Fits t) {c : Char} (hc : c ∈ p.source) :
    Raw.isDot c = true := by
  rw [Raw.isDot, bne_iff_ne]
  rcases mem_source hp hc with rfl | hfiller
  · exact hp
  · rintro rfl
    exact absurd hfiller (by decide)

/-- After its first character the source text of a piece holds fillers only. -/
theorem isFiller_tail {t : LiteralTable} {p : Piece} (hp : p.Fits t) {d : Char} {x : List Char}
    (h : p.source = d :: x) : ∀ c ∈ x, isFiller c = true := by
  rcases source_cases p with ⟨c, -, -, hsource⟩ | ⟨first, middle, last, hsource, -, -, hchar⟩
  · have hx : x = [] := (List.cons.inj (h.symm.trans hsource)).2
    simp [hx]
  · intro c hc
    rcases mem_source hp (h ▸ List.mem_cons_of_mem d hc) with rfl | hfiller
    · rcases hchar c rfl with rfl | rfl | rfl <;> decide
    · exact hfiller

namespace Emphasis.Regular

variable {e : Emphasis} (he : e.Regular) {t : LiteralTable} {l : Line}

include he

/-- The search for a closing mark goes on behind a piece. -/
theorem findClosing_piece {p : Piece} (hp : p.Fits t) {d : Char} {x : List Char} (hsource : p.source = d :: x)
    (s : List Char) : ∃ last, e.edge last = p.opaqueOr e.edge ∧
      Raw.Emphasis.findClosing e d (x ++ s) = (Raw.Emphasis.findClosing e last s).map (Prod.map (x ++ ·) id) := by
  refine ⟨x.getLast?.getD d, ?_, he.findClosing_append (isFiller_tail hp hsource) d s⟩
  have hedge := (he.edge_source p).2
  rwa [hsource, List.getLast?_cons, Option.any_some] at hedge

theorem findClosing_source (hl : l.Fits t) {c : Char} {last : Piece} (hc : e.edge c = last.opaqueOr e.edge) :
    Raw.Emphasis.findClosing e c (Line.source l) =
      (findClosing e last l).map (Prod.map Line.source Line.source) := by
  induction l generalizing c last with
  | nil =>
      rw [findClosing_nil, Line.source_nil, Raw.Emphasis.findClosing]
      have hclosing := he.closing?_source hc []
      rw [Line.source_nil] at hclosing
      rw [hclosing, Option.map_map, Option.map_map]
      rfl
  | cons p l ih =>
      obtain ⟨hp, hl⟩ := List.forall_mem_cons.mp hl
      obtain ⟨d, x, hsource⟩ := List.exists_cons_of_ne_nil (source_ne_nil p)
      have hdot := isDot_of_mem_source hp (hsource ▸ List.mem_cons_self)
      have hclosing := he.closing?_source hc (p :: l)
      obtain ⟨last', hedge, hfind⟩ := he.findClosing_piece hp hsource (Line.source l)
      rw [Line.source_cons, hsource, List.cons_append] at hclosing ⊢
      rw [Raw.Emphasis.findClosing, findClosing_cons, hclosing]
      cases closing? e last (p :: l) with
      | some after => rfl
      | none =>
          simp only [Option.map_none, hdot, if_true, hfind, ih hl hedge, Option.map_map]
          cases findClosing e p l with
          | none => rfl
          | some found => simp [hsource]

theorem match?_source (hl : l.Fits t) : Raw.Emphasis.match? e (Line.source l) =
    (match? e l).map (Prod.map Line.source Line.source) := by
  rw [Raw.Emphasis.match?, dropMark?_source he.plain, match?]
  cases hopen : Line.dropMark? e.mark l with
  | none => rfl
  | some text =>
      cases text with
      | nil => rfl
      | cons p rest =>
          obtain ⟨hp, hrest⟩ := List.forall_mem_cons.mp (fits_of_dropMark? hl hopen)
          obtain ⟨d, x, hsource⟩ := List.exists_cons_of_ne_nil (source_ne_nil p)
          have hdot := isDot_of_mem_source hp (hsource ▸ List.mem_cons_self)
          have hedge := (he.edge_source p).1
          obtain ⟨last, hlast, hfind⟩ := he.findClosing_piece hp hsource (Line.source rest)
          rw [hsource, List.head?_cons, Option.any_some] at hedge
          rw [Option.map_some, Option.bind_some, Line.source_cons, hsource, List.cons_append]
          simp only [hedge, hdot, Bool.and_true, hfind, he.findClosing_source hrest hlast, Option.map_map]
          split
          · cases findClosing e p rest with
            | none => rfl
            | some found => simp [hsource]
          · rfl

theorem passes : Passes (Raw.Emphasis.pattern e) := by
  intro before s hs _
  have hfind : (Raw.Emphasis.pattern e).find? before s =
      if e.wholeWord && before.any isWord then none else Raw.Emphasis.match? e s := rfl
  rw [hfind, Raw.Emphasis.match?, he.dropMark?_of_filler hs]
  split <;> rfl

theorem find?_source (hl : l.Fits t) (before : Option Char) :
    (Raw.Emphasis.pattern e).find? before (Line.source l) =
      (begin? e (before.any isWord) l).map (Prod.map Line.source Line.source) := by
  have hfind : (Raw.Emphasis.pattern e).find? before (Line.source l) =
      if e.wholeWord && before.any isWord then none else Raw.Emphasis.match? e (Line.source l) := rfl
  rw [hfind, he.match?_source hl, begin?]
  split <;> rfl

end Emphasis.Regular

/-! ## Rules without literals -/

theorem getLast?_source (p : Piece) : p.source.getLast?.any isWord = p.sat isWord := by
  rcases readsAlike_sat (q := isWord) (by decide) p with ⟨hp, hall⟩ | ⟨hp, -, hlast⟩
  · obtain ⟨last, hlast⟩ : ∃ last, p.source.getLast? = some last :=
      Option.isSome_iff_exists.mp (by simpa using source_ne_nil p)
    rw [hlast, hp]
    exact hall last (List.mem_of_getLast? hlast)
  · rw [hlast, hp]

/-- Emphasis is set alike on the source text of a line and on its pieces. -/
theorem Emphasis.set_source {e : Emphasis} (he : e ∈ emphases) {t : LiteralTable} {l : Line} (hl : l.Fits t)
    {before : Option Char} {afterWord : Bool} (hbefore : before.any isWord = afterWord) :
    Id.run ((Raw.Emphasis.pattern e).sub (fun content => pure (Raw.wrap e.element content)) before (Line.source l)) =
      Line.source (e.set afterWord l) := by
  have hregular := Emphasis.regular he
  fun_induction e.set afterWord l generalizing before with
  | case1 =>
      rw [Line.source_nil, Pattern.sub_nil]
      rfl
  | case2 afterWord piece rest content after h _ ih =>
      have hmatch : e.match? (piece :: rest) = some (content, after) := by
        split at h
        · simp at h
        · exact h
      have hfind := hregular.find?_source hl before
      rw [hbefore, show begin? e afterWord (piece :: rest) = some (content, after) from h, Option.map_some] at hfind
      rw [Emphasis.match?_eq_some hmatch] at hl
      have hafter : after.Fits t := hl.subset fun p hp => by simp [hp]
      have hread : (Pattern.lastBefore (Line.source (piece :: rest)) (Line.source after)).any isWord =
          e.mark.getLast?.any isWord := by
        have hmark : Line.source (Line.ofChars e.mark) = e.mark := by
          rw [Line.source_ofChars, escape_of_plain (hregular.plain)]
        have hsource : Line.source (piece :: rest) =
            (e.mark ++ (Line.source content ++ e.mark)) ++ Line.source after := by
          rw [Emphasis.match?_eq_some hmatch]
          simp [hmark]
        have hlast := List.getLast?_eq_some_getLast hregular.mark_ne_nil
        rw [hsource, Pattern.lastBefore_append, List.getLast?_append, List.getLast?_append, hlast]
        rfl
      rw [Pattern.sub_of_some hfind]
      have hrest := ih hafter hread
      simp only [Id.run_bind, Id.run_pure, hrest]
      simp [Raw.wrap, Piece.source_tag]
  | case3 afterWord piece rest h ih =>
      obtain ⟨hpiece, hrest⟩ := List.forall_mem_cons.mp hl
      have hfind := hregular.find?_source hl before
      rw [hbefore, show begin? e afterWord (piece :: rest) = none from h, Option.map_none, Line.source_cons] at hfind
      have hsub := ih hrest (getLast?_source piece)
      rw [Line.source_cons, sub_piece hregular.passes hpiece hfind]
      simp only [Id.run_bind, Id.run_pure, hsub]
      rfl

theorem Emphasis.set_fits {e : Emphasis} (he : e ∈ emphases) {t : LiteralTable} {l : Line} (hl : l.Fits t)
    (afterWord : Bool) : (e.set afterWord l).Fits t := by
  fun_induction e.set afterWord l with
  | case1 => exact hl
  | case2 afterWord piece rest content after h _ ih =>
      have hmatch : e.match? (piece :: rest) = some (content, after) := by
        split at h
        · simp at h
        · exact h
      rw [Emphasis.match?_eq_some hmatch] at hl
      have hcontent : content.Fits t := hl.subset fun p hp => by simp [hp]
      have hafter : after.Fits t := hl.subset fun p hp => by simp [hp]
      intro p hp
      rw [List.mem_append, List.mem_cons, List.mem_cons] at hp
      rcases hp with (rfl | hp) | rfl | hp
      · exact .opening he
      · exact hcontent p hp
      · exact .closing he
      · exact ih hafter p hp
  | case3 afterWord piece rest h ih =>
      obtain ⟨hpiece, hrest⟩ := List.forall_mem_cons.mp hl
      exact List.forall_mem_cons.mpr ⟨hpiece, ih hrest⟩

theorem setEmphases_source {t : LiteralTable} {l : Line} (hl : l.Fits t) :
    SourceOf t (Raw.setEmphases (Line.source l)) (setEmphases l) := by
  have hfold : ∀ es : List Emphasis, (∀ e ∈ es, e ∈ emphases) → ∀ {l : Line}, l.Fits t →
      SourceOf t (es.foldl (fun s e => Id.run ((Raw.Emphasis.pattern e).sub
        (fun content => pure (Raw.wrap e.element content)) none s)) (Line.source l))
        (es.foldl (fun line e => e.set false line) l) := by
    intro es
    induction es with
    | nil => exact fun _ l hl => .of_fits hl
    | cons e es ih =>
        intro hes l hl
        have he := hes e List.mem_cons_self
        have hstart : (none : Option Char).any isWord = false := rfl
        rw [List.foldl_cons, List.foldl_cons, Emphasis.set_source he hl hstart]
        exact ih (fun e' he' => hes e' (List.mem_cons_of_mem e he')) (Emphasis.set_fits he hl false)
  exact hfold emphases (fun e he => he) hl

/-- Chords are set alike on the source text of a line and on its pieces. -/
theorem setChords_source (db : Chord.Database) {t : LiteralTable} {l : Line} (hl : l.Fits t) (before : Option Char) :
    Id.run (Raw.chord.sub (fun name => pure (Raw.putChord db name)) before (Line.source l)) =
      Line.source (setChords db l) := by
  fun_induction setChords db l generalizing before with
  | case1 =>
      rw [Line.source_nil, Pattern.sub_nil]
      rfl
  | case2 piece rest name after h _ hchord ih =>
      have hfind := find?_chord hl before
      rw [show name? (piece :: rest) = some (name, after) from name?_cons piece rest ▸ h, Option.map_some] at hfind
      obtain ⟨rfl, hrest, -⟩ := setChords_eq_some h
      have hafter : after.Fits t := hl.subset fun p hp => by simp [hrest, hp]
      rw [Pattern.sub_of_some hfind]
      simp only [Id.run_bind, Id.run_pure, ih hafter]
      simp [Raw.putChord, hchord, Raw.wrap, Piece.source_tag]
  | case3 piece rest name after h _ hchord ih =>
      have hfind := find?_chord hl before
      rw [show name? (piece :: rest) = some (name, after) from name?_cons piece rest ▸ h, Option.map_some] at hfind
      obtain ⟨rfl, hrest, -⟩ := setChords_eq_some h
      have hafter : after.Fits t := hl.subset fun p hp => by simp [hrest, hp]
      have hopen : (Piece.char '[').source = ['['] := rfl
      have hclose : (Piece.char ']').source = [']'] := rfl
      rw [Pattern.sub_of_some hfind]
      simp only [Id.run_bind, Id.run_pure, ih hafter]
      simp [Raw.putChord, hchord, hopen, hclose]
  | case4 piece rest h ih =>
      obtain ⟨hpiece, hrest⟩ := List.forall_mem_cons.mp hl
      have hfind := find?_chord hl before
      rw [show name? (piece :: rest) = none from name?_cons piece rest ▸ h, Option.map_none, Line.source_cons] at hfind
      rw [Line.source_cons, sub_piece passes_chord hpiece hfind]
      simp only [Id.run_bind, Id.run_pure, ih hrest]
      rfl

/-! ## Lines -/

/-- The source text of a line stands for its tokens. -/
theorem stands_source {t : LiteralTable} {K : LiteralKind → Prop} (hK : K .inline) {l : Line}
    (hl : ∀ n content, .literal n content ∈ l → t.inlines[n]? = some (Token.print content)) :
    Stands t K (Line.source l) (Line.tokens l) := by
  induction l with
  | nil => exact .nil
  | cons p l ih =>
      have hrest := ih fun n content h => hl n content (List.mem_cons_of_mem p h)
      rw [Line.source_cons, Line.tokens_cons]
      cases p with
      | char c => exact .char c hrest
      | tag x => exact .tag x hrest
      | literal n content =>
          have hsource : (Piece.literal n content).source = Raw.Placeholder.text ⟨.inline, Nat.toDigits 10 n⟩ := by
            rw [Piece.source_literal]
            simp [Raw.Placeholder.text, Raw.LiteralKind.name]
          rw [hsource]
          exact .literal .inline hK (hl n content List.mem_cons_self) hrest

theorem Line.Fits.stands {t : LiteralTable} {l : Line} (hl : l.Fits t) :
    Stands t (fun _ => True) (Line.source l) (Line.tokens l) :=
  stands_source trivial fun _ _ h => hl _ h

/-- A line is marked up alike on its text and on its pieces. -/
theorem renderLine_agree (db : Chord.Database) {t : LiteralTable} {l : Line} (hl : l.Fits t) :
    Agree (fun t s ts => Stands t (fun _ => True) s ts) t (Raw.renderLine db (Line.source l))
      (renderLine db t.inlines.length l) := by
  have himage := sub_image hl none
  have hlink := sub_link himage.result.2 none
  rw [← himage.result.1, himage.count] at hlink
  have hmarks := setEmphases_source hlink.result.2
  have htext : Raw.setChords db (Raw.setEmphases ((Raw.link.sub Raw.putLink none
      ((Raw.image.sub Raw.putImage none (Line.source l)) t).1) ((Raw.image.sub Raw.putImage none (Line.source l)) t).2).1) =
        Line.source (setChords db (setInline t.inlines.length l)) := by
    rw [hlink.result.1, hmarks.1]
    exact setChords_source db hmarks.2 none
  refine himage.bind (hlink.map ?_)
  rw [htext]
  refine stands_source trivial fun n content h => ?_
  rcases (rewrites_setChords db _).mem h with h | ⟨u, hu⟩
  · exact hmarks.2 _ h
  · cases hu

end LeadSheet.Markup
