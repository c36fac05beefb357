import LeadSheet.Proofs.Chord.Candidates
import LeadSheet.Proofs.Chord.Names
import LeadSheet.Proofs.Diagram.Characters
import LeadSheet.Proofs.Diagram.Grid
import LeadSheet.Song.Song
import Mathlib.Data.List.Forall2

/-!
# The chords of a song and their diagrams

Rendering a song collects the chords of its body and draws a diagram for each of them, in the same order. On a layout
with a grid the drawing never fails, so the only thing left that can go wrong is that there are chords and no worker.

* `Song.RenderedFrom` : what rendering a song gives (`Song.renderedFrom_of_render`);
* `Diagram.Stands` : a diagram is the notice for a chord without fingerings, or else draws the first one;
* `Song.Gathers` : the chords and diagrams of a song in terms of its text;
* `Song.exists_render` : every song is rendered so, for whatever number of workers, if there are any.
-/

namespace LeadSheet

/-! ## Traversals -/

theorem forall₂_of_mapM {α β ε : Type} {f : α → Except ε β} {xs : List α} {ys : List β} (h : xs.mapM f = .ok ys) :
    List.Forall₂ (fun x y => f x = .ok y) xs ys := by
  induction xs generalizing ys with
  | nil =>
      obtain rfl := Except.ok.inj h
      exact .nil
  | cons x xs ih =>
      rw [List.mapM_cons, Json.bind_eq_ok] at h
      obtain ⟨y, hy, h⟩ := h
      obtain ⟨ys, hys, h⟩ := Json.bind_eq_ok.mp h
      obtain rfl := Except.ok.inj h
      exact .cons hy (ih hys)

theorem exists_mapM_eq_ok {α β ε : Type} {f : α → Except ε β} {xs : List α} (h : ∀ x ∈ xs, ∃ y, f x = .ok y) :
    ∃ ys, xs.mapM f = .ok ys := by
  induction xs with
  | nil => exact ⟨[], rfl⟩
  | cons x xs ih =>
      obtain ⟨⟨y, hy⟩, hxs⟩ := List.forall_mem_cons.mp h
      obtain ⟨ys, hys⟩ := ih hxs
      refine ⟨y :: ys, ?_⟩
      rw [List.mapM_cons, Json.bind_eq_ok]
      exact ⟨y, hy, Json.bind_eq_ok.mpr ⟨ys, hys, rfl⟩⟩

/-! ## Diagrams -/

namespace Diagram

theorem exists_ofName {l : Layout} (hl : l.HasGrid) (db : Chord.Database) (name : List Char) :
    ∃ d, ofName l db name = .ok d := by
  rw [ofName]
  cases (db.findName? name).bind fun d => d.positions.head? with
  | none => exact ⟨notFound l (String.ofList name), rfl⟩
  | some position =>
      obtain ⟨c, hc⟩ := exists_chart_iff.mpr hl
      exact ⟨_, Json.bind_eq_ok.mpr ⟨c, hc, rfl⟩⟩

/-- The diagram stands under the name of a chord that the database knows. It is the notice just if the chord has no
fingering, and otherwise it is drawn from the first one. -/
structure Stands (l : Layout) (db : Chord.Database) (name : String) (diagram : Diagram) : Prop where
  name_eq : diagram.name = name
  fingering : ∃ definition, db.findName? name.toList = some definition ∧
    (diagram = notFound l name ↔ definition.positions = []) ∧
    ∀ position, definition.positions.head? = some position → ofPosition l name (some position) = .ok diagram

theorem stands_of_ofName {l : Layout} {db : Chord.Database} {name : String} {diagram : Diagram}
    (hname : db.isChord name.toList = true) (h : ofName l db name.toList = .ok diagram) :
    Stands l db name diagram := by
  obtain ⟨definition, hfind⟩ := Option.isSome_iff_exists.mp hname
  refine ⟨by rw [name_of_ofName h, String.ofList_toList], definition, hfind, ?_⟩
  rw [ofName, String.ofList_toList, hfind, Option.bind_some] at h
  constructor
  · rw [← List.head?_eq_none_iff]
    rcases ofPosition_eq_ok h with ⟨hhead, rfl⟩ | ⟨position, chart, hhead, -, rfl⟩
    · exact iff_of_true rfl hhead
    · refine iff_of_false (fun heq => ?_) (by simp [hhead])
      exact absurd (congrArg content heq) (by simp [notFound])
  · intro position hhead
    rwa [hhead] at h

end Diagram

/-! ## Songs -/

namespace Song

/-- What rendering the text of a song gives: its two parts, the markup of its body, the chords that this mentions, and
the diagram of each of them. -/
structure RenderedFrom (options : Options) (db : Chord.Database) (text : String) (song : Song) : Prop where
  document : song.document = Document.parse text
  markup : song.markup = Markup.render db song.document.body
  chords : song.chords = chordsOf db song.document.body
  diagrams : List.Forall₂ (fun name diagram => Diagram.ofName options.layout db name.toList = .ok diagram)
    song.chords song.diagrams

theorem renderedFrom_of_render {options : Options} {db : Chord.Database} {text : String} {song : Song}
    (h : render options db text = .ok song) : RenderedFrom options db text song := by
  rw [render] at h
  cases hdraw : draw options db (chordsOf db (Document.parse text).body) with
  | error e => rw [hdraw] at h; exact absurd h (by simp [Except.map])
  | ok diagrams =>
      rw [hdraw] at h
      obtain rfl := Except.ok.inj h
      refine ⟨rfl, rfl, rfl, forall₂_of_mapM ?_⟩
      rw [draw] at hdraw
      split at hdraw
      · exact absurd hdraw (by simp)
      · split at hdraw
        · rename_i hdiagrams
          exact Except.ok.inj hdraw ▸ hdiagrams
        · exact absurd hdraw (by simp)

/-- What goes on the sheet of a song, with the document of each of its diagrams. -/
structure SheetFrom (song : Song) (asked : Option String) (sheet : Sheet) : Prop where
  title : sheet.title = song.title asked
  metadata : sheet.metadata = song.document.metadata
  body : sheet.body = song.markup
  diagrams : List.Forall₂ (fun diagram svg => diagram.svg = .ok svg) song.diagrams sheet.diagrams

theorem exists_sheet_of_page {song : Song} {asked : Option String} {format : SheetFormat} {page : String}
    (h : song.page asked format = .ok page) :
    ∃ sheet, SheetFrom song asked sheet ∧ page = sheet.render format := by
  rw [Song.page, sheet] at h
  cases hsvgs : song.diagrams.mapM Diagram.svg with
  | error e => rw [hsvgs] at h; exact absurd h (by simp [Except.map])
  | ok documents =>
      rw [hsvgs] at h
      exact ⟨_, ⟨rfl, rfl, rfl, forall₂_of_mapM hsvgs⟩, (Except.ok.inj h).symm⟩

theorem mem_chordsOf {db : Chord.Database} {body name : String} :
    name ∈ chordsOf db body ↔
      name.toList ∈ Chord.candidates body.toList ∧ db.isChord name.toList = true := by
  rw [chordsOf, ← Chord.mem_chordsIn_iff_candidates]
  constructor
  · rintro h
    obtain ⟨chars, hchars, rfl⟩ := List.mem_map.mp h
    rwa [String.toList_ofList]
  · exact fun h => List.mem_map.mpr ⟨name.toList, h, String.ofList_toList⟩

theorem pairwise_chordsOf (db : Chord.Database) (body : String) : (chordsOf db body).Pairwise (· < ·) := by
  refine List.pairwise_map.mpr ((Chord.pairwise_chordsIn db body.toList).imp fun h => ?_)
  rwa [String.lt_iff, String.toList_ofList, String.toList_ofList]

/-- The chords of a song are the mentions that the database knows, each once in ascending order, and there is a diagram
for each of them in the same order. -/
structure Gathers (l : Layout) (db : Chord.Database) (text : String) (song : Song) : Prop where
  document : song.document = Document.parse text
  mentions : Chord.mentions song.document.body.toList = Chord.candidates song.document.body.toList
  ascending : song.chords.Pairwise (· < ·)
  mem_chords : ∀ name, name ∈ song.chords ↔
    name.toList ∈ Chord.candidates song.document.body.toList ∧ db.isChord name.toList = true
  diagrams : List.Forall₂ (Diagram.Stands l db) song.chords song.diagrams

theorem RenderedFrom.gathers {options : Options} {db : Chord.Database} {text : String} {song : Song}
    (h : RenderedFrom options db text song) : Gathers options.layout db text song where
  document := h.document
  mentions := Chord.mentions_eq_candidates _
  ascending := h.chords ▸ pairwise_chordsOf db _
  mem_chords := fun name => by rw [h.chords, mem_chordsOf]
  diagrams := by
    have hknown : ∀ name ∈ song.chords, db.isChord name.toList = true := fun name hname =>
      (mem_chordsOf.mp (h.chords ▸ hname)).2
    exact ((List.forall₂_and_left _ _).mpr ⟨hknown, h.diagrams⟩).imp fun name diagram hd =>
      Diagram.stands_of_ofName hd.1 hd.2

/-- With a grid only workers can be missing, and they are if there is something to draw. -/
theorem render_eq {l : Layout} (hl : l.HasGrid) (db : Chord.Database) (text : String) :
    ∃ song, ∀ workers : Option Int, render ⟨l, workers⟩ db text =
      if song.chords ≠ [] ∧ workers.any (· < 1) = true then .error .noWorkers else .ok song := by
  have hdraw : ∀ name ∈ chordsOf db (Document.parse text).body, ∃ d, Diagram.ofName l db name.toList = .ok d :=
    fun name _ => Diagram.exists_ofName hl db name.toList
  obtain ⟨diagrams, hdiagrams⟩ := exists_mapM_eq_ok hdraw
  refine ⟨⟨Document.parse text, Markup.render db (Document.parse text).body, chordsOf db (Document.parse text).body,
    diagrams⟩, fun workers => ?_⟩
  simp only [render, draw, hdiagrams]
  by_cases h : (chordsOf db (Document.parse text).body ≠ [] ∧ workers.any (· < 1) = true)
  · rw [if_pos h, if_pos (by simpa using h)]
    rfl
  · rw [if_neg h, if_neg (by simpa using h)]
    rfl

/-- On a layout with a grid every song is rendered with its chords and their diagrams. The number of workers has no
part in the result, but where there is something to draw it must not be less than one. -/
theorem exists_render {l : Layout} (hl : l.HasGrid) (db : Chord.Database) (text : String) :
    ∃ song, Gathers l db text song ∧
      (∀ workers : Option Int, (∀ w ∈ workers, 1 ≤ w) → render ⟨l, workers⟩ db text = .ok song) ∧
      ∀ w < 1, render ⟨l, some w⟩ db text = if song.chords = [] then .ok song else .error .noWorkers := by
  obtain ⟨song, hrender⟩ := render_eq hl db text
  have hworkers : ∀ workers : Option Int, (∀ w ∈ workers, 1 ≤ w) → render ⟨l, workers⟩ db text = .ok song := by
    intro workers h
    rw [hrender, if_neg]
    rintro ⟨-, hany⟩
    obtain ⟨w, hw, hlow⟩ := Option.any_eq_true _ _ |>.mp hany
    have := h w hw
    simp only [decide_eq_true_eq] at hlow
    omega
  refine ⟨song, (renderedFrom_of_render (hworkers none (by simp))).gathers, hworkers, fun w hw => ?_⟩
  by_cases h : song.chords = []
  · rw [hrender, if_neg (by simp [h]), if_pos h]
  · rw [hrender, if_pos ⟨h, by simpa using hw⟩, if_neg h]

theorem exists_render_refrain :
    ({} : Layout).HasGrid ∧
      ∃ song, Gathers {} .cMajor "[c] [Chorus]\n[C] [H]" song ∧ song.chords = ["C", "c"] ∧
        render ⟨{}, some 0⟩ .cMajor "[c] [Chorus]\n[C] [H]" = .error .noWorkers := by
  obtain ⟨song, hgathers, hworkers, hnone⟩ :=
    exists_render (l := {}) (by decide) .cMajor "[c] [Chorus]\n[C] [H]"
  have hchords : song.chords = ["C", "c"] := by
    rw [(renderedFrom_of_render (hworkers none (by simp))).chords, hgathers.document]
    decide +kernel
  refine ⟨by decide, song, hgathers, hchords, ?_⟩
  rw [hnone 0 (by decide), if_neg (by simp [hchords])]

end Song

end LeadSheet
