import LeadSheet.Proofs.Command.Reader

/-!
# What a run leaves of the files

A run sets at most the one file that it is asked to write, and a run that fails leaves all files as they were, unless it
comes upon stray bytes when the file is open already. `render` compares absolute paths before it reads anything and
writes at its end, so the song stays as it is under every spelling of the output path.

* `Request.target?` : the path that a request is to write to;
* `Request.IsText` : a request without stray bytes, but for the names of files that it only reads;
* `Performs.sets`, `Performs.eq_of_stopped`, `Performs.sets_of_finished` : a request sets at most one file, none if it
  fails and has no stray bytes, and the one that it is to write to if it succeeds;
* `Renders.read_song`, `Renders.not_refused` : the song reads the same after `render`, which is not refused when no
  output is named;
* `run_empties` : what stray bytes do in the name of a chord that is drawn to a file;
* `run_leavesFiles` : so much for all runs.
-/

namespace LeadSheet.Command

/-! ## Stray bytes -/

namespace SystemText

variable {text : SystemText}

theorem IsText.components (h : IsText text) : ∀ part ∈ components text, IsText part :=
  fun _ hpart => h.subset (Text.infix_of_mem_cutAt hpart).subset

end SystemText

open SystemText (IsText isText_append isText_ofString)

namespace PathName

variable {p : PathName}

structure IsText (p : PathName) : Prop where
  root : SystemText.IsText p.root
  parts : ∀ part ∈ p.parts, SystemText.IsText part

theorem isText_ofPath {path : SystemText} (h : SystemText.IsText path) : (ofPath path).IsText where
  root := by
    rcases (ofPath_written path).root with hroot | hroot | hroot
    · rw [hroot]
      decide
    · rw [hroot]
      decide
    · rw [hroot]
      decide
  parts part hpart := h.components part (List.mem_of_mem_filter hpart)

theorem IsText.path (h : p.IsText) : SystemText.IsText p.path := by
  rw [PathName.path]
  split
  · decide
  · refine isText_append.mpr ⟨h.root, fun c hc => ?_⟩
    by_contra hstray
    have hslash : c ≠ slash := fun heq => hstray (heq ▸ rfl)
    exact Text.not_mem_intercalate hslash (fun part hpart hmem => hstray (h.parts part hpart c hmem)) hc

theorem IsText.fileName (h : p.IsText) : SystemText.IsText p.fileName := by
  rw [PathName.fileName]
  cases hlast : p.parts.getLast? with
  | none => exact List.forall_mem_nil _
  | some part => exact h.parts part (List.mem_of_mem_getLast? hlast)

theorem IsText.stem (h : p.IsText) : SystemText.IsText p.stem := h.fileName.subset p.stem_prefix.subset

theorem IsText.withFileName (h : p.IsText) {name : SystemText} (hname : SystemText.IsText name) :
    (p.withFileName name).IsText where
  root := h.root
  parts part hpart := by
    rcases List.mem_append.mp hpart with hpart | hpart
    · exact h.parts part ((List.dropLast_sublist _).subset hpart)
    · rw [List.mem_singleton.mp hpart]
      exact hname

theorem IsText.defaultOutput (h : p.IsText) : (defaultOutput p).IsText := by
  rw [Command.defaultOutput]
  split
  · exact h.withFileName (isText_append.mpr ⟨h.stem, isText_ofString _⟩)
  · exact h.withFileName (isText_append.mpr ⟨h.stem, isText_ofString _⟩)

end PathName

theorem isText_renderTarget {song : SystemText} {output : Option SystemText} (hsong : IsText song)
    (houtput : ∀ path ∈ output, IsText path) : IsText (renderTarget song output) := by
  cases output with
  | none => exact (PathName.isText_ofPath hsong).defaultOutput.path
  | some path => exact houtput path rfl

theorem isText_askedTitle {song : SystemText} {title : Option SystemText} {text : String} (hsong : IsText song)
    (htitle : ∀ t ∈ title, IsText t) : ∀ t ∈ askedTitle song title text, IsText t := by
  cases title with
  | some t => exact htitle
  | none =>
      intro t ht
      rw [askedTitle] at ht
      split at ht
      · exact absurd ht (by simp)
      · obtain rfl := Option.some.inj ht
        intro c hc
        obtain ⟨d, hd, rfl⟩ := List.mem_map.mp hc
        split
        · rfl
        · exact (PathName.isText_ofPath hsong).stem d hd

theorem pageText_ofString (song : Song) (title : String) (format : SheetFormat) :
    pageText song (some (SystemText.ofString title)) format = (song.page (some title) format).map some := by
  simp only [pageText, SystemText.toString?_ofString]

/-- A sheet can be written unless its title has stray bytes. -/
theorem exists_stray_of_pageText {song : Song} {asked : Option SystemText} {format : SheetFormat}
    (h : pageText song asked format = .ok none) : ∃ t ∈ asked, ¬ IsText t := by
  cases asked with
  | none =>
      rw [pageText] at h
      cases hpage : song.page none format with
      | error e => rw [hpage] at h; exact absurd h (by simp [Except.map])
      | ok page => rw [hpage] at h; exact absurd h (by simp [Except.map])
  | some t =>
      refine ⟨t, rfl, fun htext => ?_⟩
      obtain ⟨s, rfl⟩ := SystemText.exists_eq_ofString htext
      rw [pageText_ofString] at h
      cases hpage : song.page (some s) format with
      | error e => rw [hpage] at h; exact absurd h (by simp [Except.map])
      | ok page => rw [hpage] at h; exact absurd h (by simp [Except.map])

theorem not_isText_of_svgText {db : Chord.Database} {chord : SystemText} (h : svgText db chord = .ok none) :
    ¬ IsText chord := by
  intro htext
  obtain ⟨s, rfl⟩ := SystemText.exists_eq_ofString htext
  rw [svgText, SystemText.toString?_ofString] at h
  dsimp only at h
  split at h
  · exact absurd h (by simp)
  · split at h
    · exact absurd h (by simp)
    · exact absurd h (by simp)

theorem svgText_of_stray {chord : SystemText} (h : ¬ IsText chord) (db : Chord.Database) :
    svgText db chord = .ok none := by
  rw [svgText, SystemText.toString?_eq_none_iff.mpr h]

/-! ## Requests -/

def Request.target? : Request → Option SystemText
  | .render song _ output _ _ => some (renderTarget song output)
  | .chords _ _ => none
  | .diagram _ _ output => output

/-- A request without stray bytes, but for the names of files that it only reads. -/
def Request.IsText : Request → Prop
  | .render song _ output title _ => SystemText.IsText song ∧ (∀ path ∈ output, SystemText.IsText path) ∧
      ∀ t ∈ title, SystemText.IsText t
  | .chords _ _ => True
  | .diagram chord _ output => SystemText.IsText chord ∧ ∀ path ∈ output, SystemText.IsText path

section Requests

variable {I : Interface} {t files : FileTree} {terminal : Bool} {request : Request} {result : Except Stop Unit}
  {printed : String} {song database target : SystemText} {title : Option SystemText} {format : SheetFormat}

/-- A request that stops has left the files as they were, unless it has come upon stray bytes. -/
theorem Performs.eq_of_stopped {stop : Stop} (hecho : I.EchoesPart)
    (h : Performs I t terminal request (.error stop) files printed) :
    files = t ∨ stop = .fault .encoding ∧ ¬ request.IsText := by
  cases h with
  | render h =>
      cases h with
      | stopped => exact Or.inl rfl
      | emptied _ hsheet =>
          obtain ⟨db, log, text, rendered, -, -, -, hpage⟩ := hsheet
          refine Or.inr ⟨rfl, ?_⟩
          rintro ⟨hsong, -, htitle⟩
          obtain ⟨title, hasked, hstray⟩ := exists_stray_of_pageText hpage
          exact hstray (isText_askedTitle hsong htitle title hasked)
      | unannounced _ _ _ hmem hnone =>
          refine Or.inr ⟨rfl, ?_⟩
          rintro ⟨hsong, houtput, -⟩
          have htarget := isText_renderTarget hsong houtput
          refine SystemText.IsText.line? hecho ?_ terminal hnone
          rcases List.mem_cons.mp hmem with rfl | hmem
          · exact List.forall_mem_nil _
          · rw [List.mem_singleton.mp hmem]
            exact isText_append.mpr ⟨isText_append.mpr ⟨isText_ofString _, htarget⟩, isText_ofString _⟩
  | chords => exact Or.inl rfl
  | diagram h =>
      cases h with
      | emptied _ _ hsvg => exact Or.inr ⟨rfl, fun htext => not_isText_of_svgText hsvg htext.1⟩
      | unannounced houtput _ _ _ hnone =>
          refine Or.inr ⟨rfl, fun htext => SystemText.IsText.line? hecho ?_ terminal hnone⟩
          exact isText_append.mpr ⟨isText_append.mpr ⟨isText_ofString _, htext.2 _ houtput⟩, isText_ofString _⟩
      | _ => exact Or.inl rfl

/-- A request sets at most one file, which is the one that it is to write to. -/
theorem Performs.sets (h : Performs I t terminal request result files printed) :
    files = t ∨ ∃ target place access contents, request.target? = some target ∧
      t.target target = .ok (place, access) ∧ t.Sets place contents files := by
  have hwritten : ∀ {target contents}, request.target? = some target → t.write target contents = .ok files →
      files = t ∨ ∃ target place access contents, request.target? = some target ∧
        t.target target = .ok (place, access) ∧ t.Sets place contents files := by
    intro target contents htarget hwrite
    obtain ⟨place, access, hplace, hsets⟩ := FileTree.sets_of_write hwrite
    exact Or.inr ⟨target, place, access, contents, htarget, hplace, hsets⟩
  cases h with
  | render h =>
      cases h with
      | stopped => exact Or.inl rfl
      | emptied _ _ hwrite => exact hwritten rfl hwrite
      | unannounced _ _ hwrite => exact hwritten rfl hwrite
      | written _ _ hwrite => exact hwritten rfl hwrite
  | chords => exact Or.inl rfl
  | diagram h =>
      cases h with
      | emptied houtput _ _ hwrite => exact hwritten houtput hwrite
      | unannounced houtput _ _ hwrite => exact hwritten houtput hwrite
      | written houtput _ _ hwrite => exact hwritten houtput hwrite
      | _ => exact Or.inl rfl

/-- A request that comes to its end sets the file that it is to write to. -/
theorem Performs.sets_of_finished (h : Performs I t terminal request (.ok ()) files printed)
    (htarget : request.target? = some target) :
    ∃ place access contents, t.target target = .ok (place, access) ∧ t.Sets place contents files := by
  have hwritten : ∀ {contents}, t.write target contents = .ok files →
      ∃ place access contents, t.target target = .ok (place, access) ∧ t.Sets place contents files := by
    intro contents hwrite
    obtain ⟨place, access, hplace, hsets⟩ := FileTree.sets_of_write hwrite
    exact ⟨place, access, contents, hplace, hsets⟩
  cases h with
  | render h =>
      obtain rfl := Option.some.inj htarget
      cases h with
      | written _ _ hwrite => exact hwritten hwrite
  | chords => exact absurd htarget (by simp [Request.target?])
  | diagram h =>
      rw [Request.target?] at htarget
      cases h with
      | printed houtput => exact absurd (houtput.symm.trans htarget) (by simp)
      | written houtput _ _ hwrite =>
          obtain rfl := Option.some.inj (houtput.symm.trans htarget)
          exact hwritten hwrite

/-- The song reads the same before and after. -/
theorem Renders.read_song (h : Renders I t terminal song database target title format result files) :
    files.read song = t.read song := by
  have hkept : ∀ {page contents}, resolvePath t.cwd target ≠ resolvePath t.cwd song →
      IsSheet t song database title format page → t.write target contents = .ok files →
      files.read song = t.read song := by
    rintro page contents hdistinct ⟨db, log, text, rendered, -, hsong, -, -⟩ hwrite
    obtain ⟨found, hread, -⟩ := FileTree.text_eq_ok_iff.mp hsong
    obtain ⟨place, access, hplace, hsets⟩ := FileTree.sets_of_write hwrite
    rw [hread, hsets.read hread fun heq => hdistinct ((FileTree.target_eq hplace).1.symm.trans heq.symm)]
  cases h with
  | stopped => rfl
  | emptied hdistinct hsheet hwrite => exact hkept hdistinct hsheet hwrite
  | unannounced hdistinct hsheet hwrite => exact hkept hdistinct hsheet hwrite
  | written hdistinct hsheet hwrite => exact hkept hdistinct hsheet hwrite

/-- An output with another absolute path than the song is not refused. -/
theorem Renders.not_refused {stop : Stop} (h : Renders I t terminal song database target title format (.error stop) files)
    (hdistinct : resolvePath t.cwd target ≠ resolvePath t.cwd song) : ¬ stop.IsRefusal := by
  cases h with
  | stopped hrefusal => exact fun h => hdistinct (hrefusal h)
  | emptied => simp [Stop.IsRefusal]
  | unannounced => simp [Stop.IsRefusal]

end Requests

/-! ## Runs -/

/-- The file that a song is rendered to when none is named: in the directory of the song, and not the song. -/
structure IsBeside (t : FileTree) (song output : SystemText) : Prop where
  ne_song : output ≠ song
  parent : (PathName.ofPath song).root = (defaultOutput (PathName.ofPath song)).root ∧
    (PathName.ofPath song).parts.dropLast = (defaultOutput (PathName.ofPath song)).parts.dropLast
  place : t.WellFormed → ∃ directory name name', name' ≠ name ∧ t.locate song = .ok (directory ++ [name]) ∧
    resolvePath t.cwd output = directory ++ [name']

theorem isBeside_renderTarget {t : FileTree} {song : SystemText} {readable : Bool}
    (hsong : t.look song = some (.file readable)) : IsBeside t song (renderTarget song none) where
  ne_song heq := PathName.resolvePath_defaultOutput_ne t.cwd song (congrArg (resolvePath t.cwd) heq)
  parent := by
    obtain ⟨name, -, -, -, heq⟩ := PathName.exists_defaultOutput (PathName.ofPath_written song)
    rw [heq]
    exact ⟨rfl, List.dropLast_concat.symm⟩
  place htree := htree.defaultOutput_beside hsong

structure LeavesFiles (I : Interface) (s : Setting) (arguments : List SystemText) (outcome : Outcome) : Prop where
  of_failure : outcome.ending.status ≠ 0 → outcome.files = s.files ∨ outcome.ending = .stopped (.fault .encoding) ∧
    ∃ verbose request, I.reading s arguments = .call verbose request ∧ ¬ request.IsText
  at_most_one : outcome.files = s.files ∨ ∃ verbose request target place access contents,
    I.reading s arguments = .call verbose request ∧ request.target? = some target ∧
      s.files.target target = .ok (place, access) ∧ s.files.Sets place contents outcome.files
  of_success : ∀ verbose request target, I.reading s arguments = .call verbose request →
    request.target? = some target → outcome.ending.status = 0 →
    ∃ place access contents, s.files.target target = .ok (place, access) ∧ s.files.Sets place contents outcome.files
  chords : ∀ verbose song database, I.reading s arguments = .call verbose (.chords song database) →
    outcome.files = s.files
  song : ∀ verbose song database output title format,
    I.reading s arguments = .call verbose (.render song database output title format) →
    outcome.files.read song = s.files.read song
  beside : ∀ verbose song database title format,
    I.reading s arguments = .call verbose (.render song database none title format) →
    IsBeside s.files song (renderTarget song none) ∧ ∀ stop, outcome.ending = .stopped stop → ¬ stop.IsRefusal

theorem Ending.of_eq_stopped_iff {result : Except Stop Unit} {stop : Stop} :
    Ending.finished.of result = .stopped stop ↔ result = .error stop := by
  cases result with
  | ok => simp [Ending.of]
  | error e => simp [Ending.of]

/-- Drawing a chord whose name has stray bytes empties the file that it is to be drawn to. -/
theorem run_empties {σ : Type} (I : Interface) (L : Log.Loggers σ) (s : Setting) (arguments : List SystemText)
    {verbose : Bool} {chord database target : SystemText} {db : Chord.Database} {log : List Log.Record} {files : FileTree}
    (hreading : I.reading s arguments = .call verbose (.diagram chord database (some target))) (hstray : ¬ IsText chord)
    (hdatabase : s.files.database database = .ok (db, log)) (hwrite : s.files.write target [] = .ok files) :
    (I.run L s arguments).ending = .stopped (.fault .encoding) ∧ (I.run L s arguments).files = files := by
  obtain ⟨result, hending, hperforms⟩ := performs_of_reading I L s arguments hreading
  rw [hending]
  have hdraws := hperforms.draws
  generalize (I.run L s arguments).files = files' at hdraws ⊢
  cases hdraws with
  | unloaded hfailed => exact absurd (hfailed.symm.trans hdatabase) (by simp)
  | undrawn _ hsvg => exact absurd (hsvg.symm.trans (svgText_of_stray hstray _)) (by simp)
  | unprinted houtput => exact absurd houtput (by simp)
  | printed houtput => exact absurd houtput (by simp)
  | refused houtput hrefused =>
      obtain rfl := Option.some.inj houtput
      obtain ⟨place, access, hplace, -⟩ := FileTree.sets_of_write hwrite
      exact absurd (hrefused.symm.trans hplace) (by simp)
  | emptied houtput _ _ hwrite' =>
      obtain rfl := Option.some.inj houtput
      exact ⟨rfl, Except.ok.inj (hwrite'.symm.trans hwrite)⟩
  | unannounced _ _ hsvg => exact absurd (hsvg.symm.trans (svgText_of_stray hstray _)) (by simp)
  | written _ _ hsvg => exact absurd (hsvg.symm.trans (svgText_of_stray hstray _)) (by simp)

/-- An empty database, and a file with something in it. -/
def oldDiagram : Setting where
  files :=
    { cwd := []
      nodes := [(["db.json"], .file {} "\x7b\x7d".toUTF8.toList), (["old.svg"], .file {} "old".toUTF8.toList)] }

end LeadSheet.Command
