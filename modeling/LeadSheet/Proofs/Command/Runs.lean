import LeadSheet.Proofs.Command.Programs
import Mathlib.Data.List.Forall2

/-!
# What a run can do

A command reads all that it needs and makes all that it is to write before it opens a file. So it stops before anything
has changed, or it writes one file; after that only a line about it is printed.

* `Renders`, `Lists`, `Draws` : all that `render`, `chords` and `diagram` can come to, and the files and the text on
  standard output that they leave (`yields_render`, `yields_chords`, `yields_diagram`);
* `Ends` : all that a run can come to (`ends_run`); where a command is called, it does what is asked for
  (`performs_of_reading`).
-/

namespace LeadSheet.Command

/-! ## The commands -/

/-- The sheet of a song, as `render` makes it. -/
def IsSheet (t : FileTree) (song database : SystemText) (title : Option SystemText) (format : SheetFormat)
    (page : Option String) : Prop :=
  ∃ db log text rendered, t.database database = .ok (db, log) ∧ t.text song = .ok text ∧
    Song.render {} db (String.ofList text) = .ok rendered ∧
    pageText rendered (askedTitle song title (String.ofList text)) format = .ok page

/-- What `render` says about a file that is the song itself. -/
def Stop.IsRefusal (stop : Stop) : Prop := ∃ output, stop = .failure (.overwritesSong output)

inductive MadeSheet {σ : Type} (w : World σ) (song database : SystemText) (title : Option SystemText)
    (format : SheetFormat) : Except Stop (Option String) → World σ → Prop
  | sheet {page : Option String} {printed : String} {w' : World σ} :
      IsSheet w.files song database title format page → Follows w w' printed →
      MadeSheet w song database title format (.ok page) w'
  | stopped {stop : Stop} {printed : String} {w' : World σ} : ¬ stop.IsRefusal → Follows w w' printed →
      MadeSheet w song database title format (.error stop) w'

/-- What `render` comes to before it writes. -/
inductive Prepared {σ : Type} (w : World σ) (song database target : SystemText) (title : Option SystemText)
    (format : SheetFormat) : Except Stop (Option String) → World σ → Prop
  | sheet {page : Option String} {printed : String} {w' : World σ} :
      resolvePath w.files.cwd target ≠ resolvePath w.files.cwd song →
      IsSheet w.files song database title format page → Follows w w' printed →
      Prepared w song database target title format (.ok page) w'
  | stopped {stop : Stop} {printed : String} {w' : World σ} : Follows w w' printed →
      (stop.IsRefusal → resolvePath w.files.cwd target = resolvePath w.files.cwd song) →
      Prepared w song database target title format (.error stop) w'

/-- All that `render` can come to. -/
inductive Renders (I : Interface) (t : FileTree) (terminal : Bool) (song database target : SystemText)
    (title : Option SystemText) (format : SheetFormat) : Except Stop Unit → FileTree → Prop
  | stopped {stop : Stop} : (stop.IsRefusal → resolvePath t.cwd target = resolvePath t.cwd song) →
      Renders I t terminal song database target title format (.error stop) t
  | emptied {files : FileTree} : resolvePath t.cwd target ≠ resolvePath t.cwd song →
      IsSheet t song database title format none → t.write target [] = .ok files →
      Renders I t terminal song database target title format (.error (.fault .encoding)) files
  | unannounced {page : String} {line : SystemText} {files : FileTree} :
      resolvePath t.cwd target ≠ resolvePath t.cwd song → IsSheet t song database title format (some page) →
      t.write target page.toUTF8.toList = .ok files → line ∈ closingLines target → I.line? terminal line = none →
      Renders I t terminal song database target title format (.error (.fault .encoding)) files
  | written {page : String} {files : FileTree} : resolvePath t.cwd target ≠ resolvePath t.cwd song →
      IsSheet t song database title format (some page) → t.write target page.toUTF8.toList = .ok files →
      Renders I t terminal song database target title format (.ok ()) files

/-- All that `chords` can come to, which leaves the files as they are. -/
inductive Lists (I : Interface) (t : FileTree) (terminal : Bool) (song database : SystemText) :
    Except Stop Unit → (printed : String) → Prop
  | stopped {stop : Stop} {printed : String} : Lists I t terminal song database (.error stop) printed
  | listed {db : Chord.Database} {log : List Log.Record} {text : List Char} {lines : List String} :
      t.database database = .ok (db, log) → t.text song = .ok text →
      List.Forall₂ (fun name line => I.line? terminal (SystemText.ofString (chordLine db name)) = some line)
        (Song.chordsOf db (Document.parse (String.ofList text)).body) lines →
      Lists I t terminal song database (.ok ()) (String.join lines)

/-- All that `diagram` can come to. -/
inductive Draws (I : Interface) (t : FileTree) (terminal : Bool) (chord database : SystemText)
    (output : Option SystemText) : Except Stop Unit → FileTree → (printed : String) → Prop
  | unloaded {cause printed : String} : t.database database = .error cause →
      Draws I t terminal chord database output (.error (.failure (.unreadDatabase cause))) t printed
  | undrawn {db : Chord.Database} {log : List Log.Record} {cause : Fault} {printed : String} :
      t.database database = .ok (db, log) → svgText db chord = .error cause →
      Draws I t terminal chord database output (.error (.fault cause)) t printed
  | unprinted {db : Chord.Database} {log : List Log.Record} {svg : Option String} {printed : String} : output = none →
      t.database database = .ok (db, log) → svgText db chord = .ok svg →
      (∀ text ∈ svg, I.line? terminal (SystemText.ofString text) = none) →
      Draws I t terminal chord database output (.error (.fault .encoding)) t printed
  | printed {db : Chord.Database} {log : List Log.Record} {svg line : String} : output = none →
      t.database database = .ok (db, log) → svgText db chord = .ok (some svg) →
      I.line? terminal (SystemText.ofString svg) = some line →
      Draws I t terminal chord database output (.ok ()) t line
  | refused {target : SystemText} {cause : FileError} {printed : String} : output = some target →
      t.target target = .error cause →
      Draws I t terminal chord database output (.error (.failure (.unwrittenDiagram (cause.message target)))) t printed
  | emptied {db : Chord.Database} {log : List Log.Record} {target : SystemText} {files : FileTree} {printed : String} :
      output = some target → t.database database = .ok (db, log) → svgText db chord = .ok none →
      t.write target [] = .ok files →
      Draws I t terminal chord database output (.error (.fault .encoding)) files printed
  | unannounced {db : Chord.Database} {log : List Log.Record} {svg printed : String} {target : SystemText}
      {files : FileTree} : output = some target → t.database database = .ok (db, log) →
      svgText db chord = .ok (some svg) → t.write target svg.toUTF8.toList = .ok files →
      I.line? terminal (wroteLine target) = none →
      Draws I t terminal chord database output (.error (.fault .encoding)) files printed
  | written {db : Chord.Database} {log : List Log.Record} {svg printed : String} {target : SystemText}
      {files : FileTree} : output = some target → t.database database = .ok (db, log) →
      svgText db chord = .ok (some svg) → t.write target svg.toUTF8.toList = .ok files →
      Draws I t terminal chord database output (.ok ()) files printed

inductive Performs (I : Interface) (t : FileTree) (terminal : Bool) :
    Request → Except Stop Unit → FileTree → (printed : String) → Prop
  | render {song database : SystemText} {output title : Option SystemText} {format : SheetFormat}
      {result : Except Stop Unit} {files : FileTree} {printed : String} :
      Renders I t terminal song database (renderTarget song output) title format result files →
      Performs I t terminal (.render song database output title format) result files printed
  | chords {song database : SystemText} {result : Except Stop Unit} {printed : String} :
      Lists I t terminal song database result printed →
      Performs I t terminal (.chords song database) result t printed
  | diagram {chord database : SystemText} {output : Option SystemText} {result : Except Stop Unit} {files : FileTree}
      {printed : String} : Draws I t terminal chord database output result files printed →
      Performs I t terminal (.diagram chord database output) result files printed

section Commands

variable {σ : Type} (I : Interface) (L : Log.Loggers σ) {w : World σ} (hw : w.Diverted)
  (song chord database target : SystemText) (output title : Option SystemText) (format : SheetFormat)

theorem World.Diverted.withFiles {w : World σ} (h : w.Diverted) (files : FileTree) : { w with files := files }.Diverted :=
  ⟨h.streams, h.handlers⟩

include hw

theorem yields_makeSheet {db : Chord.Database} {log : List Log.Record}
    (hdatabase : w.files.database database = .ok (db, log)) :
    Yields (makeSheet I (World.host L) song title format db) w (MadeSheet w song database title format) := by
  have hfail : ∀ reason : Failure, ¬ (Stop.failure reason).IsRefusal →
      Yields (fail I (World.host L) reason) w (MadeSheet w song database title format) := by
    intro reason hreason
    refine (yields_fail I L hw reason).mono ?_
    rintro _ w' ⟨rfl, hfollows⟩
    exact .stopped hreason hfollows
  refine (yields_readText L song).next ?_
  rintro w' rfl
  cases hread : w'.files.text song with
  | error e =>
      cases e with
      | file path cause => exact hfail _ (by simp [Stop.IsRefusal])
      | encoding cause => exact hfail _ (by simp [Stop.IsRefusal])
  | ok text =>
      dsimp only
      cases hrender : Song.render {} db (String.ofList text) with
      | error e => exact .throw (.stopped (by simp [Stop.IsRefusal]) (.refl hw))
      | ok rendered =>
          refine (yields_logAll L hw rendered.reports).next ?_
          intro w'' hfollows
          cases hpage : pageText rendered (askedTitle song title (String.ofList text)) format with
          | error e => exact .throw (.stopped (by simp [Stop.IsRefusal]) hfollows)
          | ok page => exact .pure (.sheet ⟨db, log, text, rendered, hdatabase, hread, hrender, hpage⟩ hfollows)

theorem yields_prepareSheet :
    Yields (prepareSheet I (World.host L) song database target title format) w
      (Prepared w song database target title format) := by
  refine Yields.next (P := fun w' => w' = w) ⟨rfl, rfl⟩ ?_
  rintro w' rfl
  refine Yields.next (P := fun w'' => w'' = w') ⟨rfl, rfl⟩ ?_
  rintro w'' rfl
  by_cases hsame : resolvePath w''.files.cwd target = resolvePath w''.files.cwd song
  · rw [if_pos hsame]
    refine (yields_fail I L hw _).mono ?_
    rintro _ w₁ ⟨rfl, hfollows⟩
    exact .stopped hfollows fun _ => hsame
  · rw [if_neg hsame]
    refine (yields_echoAll I L hw _).bind ?_ ?_
    · rintro - w₁ ⟨-, hfollows₁⟩
      refine (yields_loadDatabase I L hfollows₁.diverted database).bind ?_ ?_
      · rintro db w₂ ⟨hdatabase, hfollows₂⟩
        rw [hfollows₁.files] at hdatabase
        refine (yields_echoAll I L hfollows₂.diverted _).bind ?_ ?_
        · rintro - w₃ ⟨-, hfollows₃⟩
          have hfollows := (hfollows₁.trans hfollows₂).trans hfollows₃
          rw [← hfollows.files] at hdatabase
          refine (yields_makeSheet I L hfollows.diverted song database title format hdatabase).mono ?_
          rintro _ w₄ (⟨hsheet, hfollows₄⟩ | ⟨hstop, hfollows₄⟩)
          · rw [hfollows.files] at hsheet
            exact .sheet hsame hsheet (hfollows.trans hfollows₄)
          · exact .stopped (hfollows.trans hfollows₄) fun h => absurd h hstop
        · intro stop w₃ hechoed
          cases hechoed with
          | stray _ _ hfollows₃ =>
              exact .stopped ((hfollows₁.trans hfollows₂).trans hfollows₃) (by simp [Stop.IsRefusal])
      · intro stop w₂ hloaded
        cases hloaded with
        | failure _ hfollows₂ => exact .stopped (hfollows₁.trans hfollows₂) (by simp [Stop.IsRefusal])
    · intro stop w₁ hechoed
      cases hechoed with
      | stray _ _ hfollows₁ => exact .stopped hfollows₁ (by simp [Stop.IsRefusal])

theorem yields_render :
    Yields (render I (World.host L) song database target title format) w fun result w' =>
      Renders I w.files (w.terminal .stdout) song database target title format result w'.files := by
  refine (yields_prepareSheet I L hw song database target title format).bind ?_ ?_
  · rintro page w₁ ⟨hdistinct, hsheet, hfollows⟩
    refine (yields_writeText L target page).bind ?_ ?_
    · intro result w₂ hwrote
      rw [← hfollows.files, ← hfollows.terminal]
      rw [← hfollows.files] at hdistinct hsheet
      cases hwrote with
      | refused =>
          refine (yields_fail I L hfollows.diverted _).mono ?_
          rintro _ w₃ ⟨rfl, hfollows₃⟩
          rw [hfollows₃.files]
          exact .stopped (by simp [Stop.IsRefusal])
      | text hwrite =>
          refine (yields_echoAll I L (hfollows.diverted.withFiles _) _).mono ?_
          rintro _ w₃ (⟨-, hfollows₃⟩ | ⟨hmem, hnone, hfollows₃⟩)
          · rw [hfollows₃.files]
            exact .written hdistinct hsheet hwrite
          · rw [hfollows₃.files]
            exact .unannounced hdistinct hsheet hwrite hmem hnone
    · intro stop w₂ hwrote
      rw [← hfollows.files]
      rw [← hfollows.files] at hdistinct hsheet
      cases hwrote with
      | stray hwrite => exact .emptied hdistinct hsheet hwrite
  · intro stop w₁ hprepared
    cases hprepared with
    | stopped hfollows hsame =>
        rw [hfollows.files]
        exact .stopped hsame

theorem yields_chords :
    Yields (chords I (World.host L) song database) w fun result w' =>
      ∃ printed, Follows w w' printed ∧ Lists I w.files (w.terminal .stdout) song database result printed := by
  refine (yields_loadDatabase I L hw database).bind ?_ ?_
  · rintro db w₁ ⟨hdatabase, hfollows₁⟩
    refine (yields_readText L song).next ?_
    rintro w₂ rfl
    rw [hfollows₁.files]
    cases hread : w.files.text song with
    | error e =>
        refine (yields_fail I L hfollows₁.diverted _).mono ?_
        rintro _ w₃ ⟨rfl, hfollows₃⟩
        exact ⟨_, hfollows₁.trans hfollows₃, .stopped⟩
    | ok text =>
        dsimp only
        by_cases hnames : (Song.chordsOf db (Document.parse (String.ofList text)).body).isEmpty = true
        · rw [if_pos hnames]
          refine (yields_echo_stderr I L hfollows₁.diverted _).mono ?_
          rintro _ w₃ ⟨rfl, hfollows₃⟩
          have hlisted : Lists I w.files (w.terminal .stdout) song database (.ok ()) (String.join []) :=
            .listed hdatabase hread ((List.isEmpty_iff.mp hnames).symm ▸ .nil)
          exact ⟨_, hfollows₁.trans_silent hfollows₃, hlisted⟩
        · rw [if_neg hnames]
          refine (yields_echoAll I L hfollows₁.diverted _).mono ?_
          rintro _ w₃ (⟨hlines, hfollows₃⟩ | ⟨-, -, hfollows₃⟩)
          · rw [hfollows₁.terminal, List.forall₂_map_left_iff] at hlines
            exact ⟨_, hfollows₁.silent_trans hfollows₃, .listed hdatabase hread hlines⟩
          · exact ⟨_, hfollows₁.silent_trans hfollows₃, .stopped⟩
  · intro stop w₁ hloaded
    cases hloaded with
    | failure _ hfollows₁ => exact ⟨_, hfollows₁, .stopped⟩

theorem yields_diagram :
    Yields (diagram I (World.host L) chord database output) w fun result w' =>
      ∃ printed, w'.printed .stdout = w.printed .stdout ++ printed ∧
        Draws I w.files (w.terminal .stdout) chord database output result w'.files printed := by
  refine (yields_loadDatabase I L hw database).bind ?_ ?_
  · rintro db w₁ ⟨hdatabase, hfollows₁⟩
    have hkept : ∀ {stop}, Draws I w.files (w.terminal .stdout) chord database output (.error stop) w.files "" →
        Draws I w.files (w.terminal .stdout) chord database output (.error stop) w₁.files "" := by
      intro stop hdraws
      rwa [hfollows₁.files]
    cases hsvg : svgText db chord with
    | error e => exact .throw ⟨_, hfollows₁.stdout, hkept (.undrawn hdatabase hsvg)⟩
    | ok svg =>
        dsimp only
        cases output with
        | none =>
            cases svg with
            | none => exact .throw ⟨_, hfollows₁.stdout, hkept (.unprinted rfl hdatabase hsvg (by simp))⟩
            | some svg =>
                refine (yields_echo I L hfollows₁.diverted _).mono ?_
                intro result w₂ hechoed
                cases hechoed with
                | line hline hfollows₂ =>
                    have hfollows := hfollows₁.silent_trans hfollows₂
                    rw [hfollows₁.terminal] at hline
                    refine ⟨_, hfollows.stdout, ?_⟩
                    rw [hfollows.files]
                    exact .printed rfl hdatabase hsvg hline
                | stray hnone =>
                    rw [hfollows₁.terminal] at hnone
                    have hnone : ∀ text ∈ some svg, I.line? (w.terminal .stdout) (SystemText.ofString text) = none :=
                      fun text htext => Option.mem_some_iff.mp htext ▸ hnone
                    exact ⟨_, hfollows₁.stdout, hkept (.unprinted rfl hdatabase hsvg hnone)⟩
        | some target =>
            refine (yields_writeText L target svg).bind ?_ ?_
            · intro result w₂ hwrote
              cases hwrote with
              | refused hrefused =>
                  rw [hfollows₁.files] at hrefused
                  refine (yields_fail I L hfollows₁.diverted _).mono ?_
                  rintro _ w₃ ⟨rfl, hfollows₃⟩
                  refine ⟨_, (hfollows₁.trans hfollows₃).stdout, ?_⟩
                  rw [hfollows₃.files]
                  exact hkept (.refused rfl hrefused)
              | text hwrite =>
                  rw [hfollows₁.files] at hwrite
                  refine (yields_echo I L (hfollows₁.diverted.withFiles _) _).mono ?_
                  intro result w₃ hechoed
                  cases hechoed with
                  | line hline hfollows₃ =>
                      have hstdout : w₃.printed .stdout = w₁.printed .stdout ++ _ := hfollows₃.stdout
                      refine ⟨_, hstdout.trans ((congrArg (· ++ _) hfollows₁.stdout).trans String.append_assoc), ?_⟩
                      rw [hfollows₃.files]
                      exact .written rfl hdatabase hsvg hwrite
                  | stray hnone =>
                      have hnone : I.line? (w₁.terminal .stdout) (wroteLine target) = none := hnone
                      rw [hfollows₁.terminal] at hnone
                      exact ⟨_, hfollows₁.stdout, .unannounced rfl hdatabase hsvg hwrite hnone⟩
            · intro stop w₂ hwrote
              cases hwrote with
              | stray hwrite =>
                  rw [hfollows₁.files] at hwrite
                  exact ⟨_, hfollows₁.stdout, .emptied rfl hdatabase hsvg hwrite⟩
  · intro stop w₁ hloaded
    cases hloaded with
    | failure hdatabase hfollows₁ =>
        refine ⟨_, hfollows₁.stdout, ?_⟩
        rw [hfollows₁.files]
        exact .unloaded hdatabase

theorem yields_perform (hstart : w.printed .stdout = "") (request : Request) :
    Yields (perform I (World.host L) request) w fun result w' =>
      Performs I w.files (w.terminal .stdout) request result w'.files (w'.printed .stdout) := by
  cases request with
  | render song database output title format =>
      exact (yields_render I L hw song database (renderTarget song output) title format).mono fun _ _ h => .render h
  | chords song database =>
      refine (yields_chords I L hw song database).mono ?_
      rintro result w' ⟨printed, hfollows, hlists⟩
      rw [hfollows.files, hfollows.stdout, hstart, String.empty_append]
      exact .chords hlists
  | diagram chord database output =>
      refine (yields_diagram I L hw chord database output).mono ?_
      rintro result w' ⟨printed, hstdout, hdraws⟩
      rw [hstdout, hstart, String.empty_append]
      exact .diagram hdraws

end Commands

/-! ## Inversion -/

section Inversion

variable {I : Interface} {t files : FileTree} {terminal : Bool} {song chord database : SystemText}
  {output title : Option SystemText} {format : SheetFormat} {result : Except Stop Unit} {printed : String}

theorem Performs.renders (h : Performs I t terminal (.render song database output title format) result files printed) :
    Renders I t terminal song database (renderTarget song output) title format result files := by
  cases h with
  | render h => exact h

theorem Performs.lists (h : Performs I t terminal (.chords song database) result files printed) :
    Lists I t terminal song database result printed := by
  cases h with
  | chords h => exact h

theorem Performs.draws (h : Performs I t terminal (.diagram chord database output) result files printed) :
    Draws I t terminal chord database output result files printed := by
  cases h with
  | diagram h => exact h

end Inversion

/-! ## Lines -/

/-- What is printed about a text without stray bytes has none. -/
theorem SystemText.IsText.line? {I : Interface} (hecho : I.EchoesPart) {text : SystemText} (h : text.IsText)
    (terminal : Bool) : I.line? terminal text ≠ none := by
  rw [Interface.line?, Ne, toString?_eq_none_iff, not_not]
  exact IsText.subset (isText_append.mpr ⟨h, by decide⟩) (hecho terminal _).subset

/-! ## Runs -/

section Runs

variable {σ : Type} (I : Interface) (L : Log.Loggers σ) (s : Setting) (arguments : List SystemText)

def Interface.reading : Reading := I.read s.files.look s.environment arguments

/-- All that a run can come to. -/
inductive Ends : Outcome → Prop
  | answered {status : Nat} {stdout stderr : List SystemText} {outcome : Outcome} :
      I.reading s arguments = .answer status stdout stderr → outcome.files = s.files → Ends outcome
  | performed {verbose : Bool} {request : Request} {result : Except Stop Unit} {outcome : Outcome} :
      I.reading s arguments = .call verbose request → outcome.ending = Ending.finished.of result →
      Performs I s.files (s.terminal .stdout) request result outcome.files outcome.stdout → Ends outcome

theorem ends_run : Ends I s arguments (I.run L s arguments) := by
  have hstart := World.diverted_start L s
  rw [Interface.run]
  cases hreading : I.read s.files.look s.environment arguments with
  | answer status stdout stderr =>
      refine .answered hreading ?_
      have hresponds : Yields (respond I (World.host L) stdout stderr) (World.start L s) fun _ w => w.files = s.files := by
        refine (yields_echoAll I L hstart stdout).bind ?_ ?_
        · rintro - w ⟨-, hfollows⟩
          refine (yields_echoAll_stderr I L hfollows.diverted stderr).mono ?_
          rintro _ w' ⟨-, hfollows'⟩
          exact hfollows'.files.trans hfollows.files
        · intro stop w hechoed
          cases hechoed with
          | stray _ _ hfollows => exact hfollows.files
      exact hresponds
  | call verbose request =>
      have hfollows := Follows.setUpLog (L := L) hstart (shownLevel verbose)
      have hprinted : (World.setUpLog L (shownLevel verbose) .stderr (World.start L s)).printed .stdout = "" :=
        hfollows.stdout
      have hperforms := yields_perform I L hfollows.diverted hprinted request
      exact .performed hreading rfl hperforms

theorem eq_ok_of_status {result : Except Stop Unit} (h : (Ending.finished.of result).status = 0) : result = .ok () := by
  cases result with
  | ok => rfl
  | error stop => exact absurd h (by decide : stoppedStatus ≠ 0)

/-- What is asked for is done. -/
theorem performs_of_reading {verbose : Bool} {request : Request}
    (hreading : I.reading s arguments = .call verbose request) :
    ∃ result, (I.run L s arguments).ending = Ending.finished.of result ∧
      Performs I s.files (s.terminal .stdout) request result (I.run L s arguments).files (I.run L s arguments).stdout := by
  have hends := ends_run I L s arguments
  generalize I.run L s arguments = outcome at hends ⊢
  cases hends with
  | answered hanswer => exact absurd (hanswer.symm.trans hreading) (by simp)
  | performed hcall hending hperforms =>
      obtain ⟨-, rfl⟩ := Reading.call.inj (hcall.symm.trans hreading)
      exact ⟨_, hending, hperforms⟩

/-- A diagram that can be drawn is asked for with success. -/
theorem status_of_svgText {verbose : Bool} {chord database : SystemText} {db : Chord.Database} {log : List Log.Record}
    {svg : String} (hecho : I.EchoesPart) (hreading : I.reading s arguments = .call verbose (.diagram chord database none))
    (hdatabase : s.files.database database = .ok (db, log)) (hsvg : svgText db chord = .ok (some svg)) :
    (I.run L s arguments).ending.status = 0 := by
  obtain ⟨result, hending, hperforms⟩ := performs_of_reading I L s arguments hreading
  rw [hending]
  have hdraws := hperforms.draws
  generalize (I.run L s arguments).stdout = stdout at hdraws
  generalize (I.run L s arguments).files = files at hdraws
  cases hdraws with
  | unloaded hunloaded => exact absurd (hunloaded.symm.trans hdatabase) (by simp)
  | undrawn hloaded hundrawn =>
      obtain ⟨rfl, -⟩ := Prod.mk.inj (Except.ok.inj (hloaded.symm.trans hdatabase))
      exact absurd (hundrawn.symm.trans hsvg) (by simp)
  | unprinted _ hloaded hdrawn hnone =>
      obtain ⟨rfl, -⟩ := Prod.mk.inj (Except.ok.inj (hloaded.symm.trans hdatabase))
      obtain rfl := Except.ok.inj (hdrawn.symm.trans hsvg)
      exact absurd (hnone svg rfl) ((SystemText.isText_ofString svg).line? hecho _)
  | printed => rfl
  | refused houtput => exact absurd houtput (by simp)
  | emptied houtput => exact absurd houtput (by simp)
  | unannounced houtput => exact absurd houtput (by simp)
  | written houtput => exact absurd houtput (by simp)

end Runs

end LeadSheet.Command
