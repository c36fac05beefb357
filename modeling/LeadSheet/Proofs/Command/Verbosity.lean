import LeadSheet.Proofs.Command.Reader
import LeadSheet.Proofs.Diagram.Characters

/-!
# Verbose runs

A verbose run sets up the log with another level, and from then on other records are written, in another form and at
other times. None of this is seen by a command: from two worlds that differ only in what is written to standard error,
in the loggers, the handlers and the clock, it comes to the same result and leaves two worlds that are alike again.

* `World.Alike w₁ w₂` : the worlds have the same files, terminals and text on standard output, and log records go to
  standard error in both;
* `Steady x` : the action comes to the same from worlds that are alike, and leaves worlds that are alike; so do all parts
  of the commands, one after the other (`Steady.bind`), and the commands (`steady_perform`);
* `run_verbose` : so two such runs have the same results, and a diagram is printed alone, whatever is logged.
-/

namespace LeadSheet.Command

/-! ## Worlds that are alike -/

/-- Two worlds with the same files, terminals and text on standard output, where log records go to standard error. -/
structure World.Alike {σ : Type} (w₁ w₂ : World σ) : Prop where
  files : w₁.files = w₂.files
  terminal : w₁.terminal = w₂.terminal
  stdout : w₁.printed .stdout = w₂.printed .stdout
  diverted₁ : w₁.Diverted
  diverted₂ : w₂.Diverted

/-- Two worlds that follow two that are alike, after the same text is printed. -/
theorem World.Alike.follow {σ : Type} {w₁ w₂ w₁' w₂' : World σ} {printed : String} (h : w₁.Alike w₂)
    (h₁ : Follows w₁ w₁' printed) (h₂ : Follows w₂ w₂' printed) : w₁'.Alike w₂' where
  files := (h₁.files.trans h.files).trans h₂.files.symm
  terminal := (h₁.terminal.trans h.terminal).trans h₂.terminal.symm
  stdout := by rw [h₁.stdout, h₂.stdout, h.stdout]
  diverted₁ := h₁.diverted
  diverted₂ := h₂.diverted

/-- The action does the same from worlds that are alike. -/
def Steady {σ α : Type} (x : Action σ α) : Prop :=
  ∀ w₁ w₂ : World σ, w₁.Alike w₂ → (exec x w₁).1 = (exec x w₂).1 ∧ (exec x w₁).2.Alike (exec x w₂).2

section Steady

variable {σ α β : Type}

theorem Steady.pure (a : α) : Steady (Pure.pure a : Action σ α) := fun _ _ h => ⟨rfl, h⟩

theorem Steady.throw (stop : Stop) : Steady (MonadExcept.throw stop : Action σ α) := fun _ _ h => ⟨rfl, h⟩

/-- One action after another that depends on what the first one comes to. -/
theorem Steady.bind {x : Action σ α} {f : α → Action σ β} (hx : Steady x) (hf : ∀ a, Steady (f a)) : Steady (x >>= f) := by
  intro w₁ w₂ h
  obtain ⟨hresult, halike⟩ := hx w₁ w₂ h
  rcases h₁ : exec x w₁ with ⟨result, w₁'⟩
  rcases h₂ : exec x w₂ with ⟨result', w₂'⟩
  rw [h₁, h₂] at hresult halike
  obtain rfl : result = result' := hresult
  cases result with
  | ok a =>
      rw [exec_bind_ok h₁, exec_bind_ok h₂]
      exact hf a w₁' w₂' halike
  | error stop =>
      rw [exec_bind_error h₁, exec_bind_error h₂]
      exact ⟨rfl, halike⟩

end Steady

/-! ## The commands -/

section Commands

variable {σ α : Type} (I : Interface) (L : Log.Loggers σ)

theorem steady_isTerminal (stream : Stream) : Steady (liftM ((World.host L).isTerminal stream) : Action σ Bool) := by
  intro w₁ w₂ h
  show Except.ok (w₁.terminal stream) = .ok (w₂.terminal stream) ∧ w₁.Alike w₂
  rw [h.terminal]
  exact ⟨rfl, h⟩

theorem steady_echo (stream : Stream) (text : SystemText) : Steady (echo I (World.host L) stream text) := by
  refine (steady_isTerminal L stream).bind fun terminal => ?_
  cases stream with
  | stderr => exact fun w₁ w₂ h => ⟨rfl, h.follow (.print_stderr h.diverted₁ _) (.print_stderr h.diverted₂ _)⟩
  | stdout =>
      dsimp only
      cases I.line? terminal text with
      | some line => exact fun w₁ w₂ h => ⟨rfl, h.follow (.print_stdout h.diverted₁ _) (.print_stdout h.diverted₂ _)⟩
      | none => exact .throw _

theorem steady_echoAll (stream : Stream) (texts : List SystemText) :
    Steady (echoAll I (World.host L) stream texts) := by
  induction texts with
  | nil => exact .pure ()
  | cons text texts ih => exact (steady_echo I L stream text).bind fun _ => ih

theorem steady_fail (reason : Failure) : Steady (fail I (World.host L) reason : Action σ α) :=
  (steady_echo I L .stderr _).bind fun _ => .throw _

/-- Logging a record is not noticed. -/
theorem steady_log (record : Log.Record) : Steady (liftM ((World.host L).log record) : Action σ Unit) :=
  fun _ _ h => ⟨rfl, h.follow (.log h.diverted₁ record) (.log h.diverted₂ record)⟩

theorem steady_logAll (records : List Log.Record) : Steady (logAll (World.host L) records) := by
  induction records with
  | nil => exact .pure ()
  | cons record records ih => exact (steady_log L record).bind fun _ => ih

theorem steady_readText (path : SystemText) : Steady (readText (World.host L) path) := by
  intro w₁ w₂ h
  rw [exec_readText, exec_readText, h.files]
  exact ⟨rfl, h⟩

theorem steady_resolve (path : SystemText) :
    Steady (liftM ((World.host L).resolve path) : Action σ (List SystemText)) := by
  intro w₁ w₂ h
  show Except.ok (resolvePath w₁.files.cwd path) = .ok (resolvePath w₂.files.cwd path) ∧ w₁.Alike w₂
  rw [h.files]
  exact ⟨rfl, h⟩

theorem steady_write (path : SystemText) (contents : Bytes) :
    Steady (liftM ((World.host L).write path contents) : Action σ (Except FileError Unit)) := by
  intro w₁ w₂ h
  show Except.ok (((World.host L).write path contents).run w₁).1 = .ok (((World.host L).write path contents).run w₂).1 ∧
    (((World.host L).write path contents).run w₁).2.Alike (((World.host L).write path contents).run w₂).2
  rw [World.run_write, World.run_write, h.files]
  cases w₂.files.write path contents with
  | error e => exact ⟨rfl, h⟩
  | ok files => exact ⟨rfl, rfl, h.terminal, h.stdout, h.diverted₁.withFiles files, h.diverted₂.withFiles files⟩

theorem steady_writeText (path : SystemText) (text : Option String) : Steady (writeText (World.host L) path text) := by
  cases text with
  | some text => exact steady_write L path _
  | none =>
      refine (steady_write L path []).bind fun result => ?_
      cases result with
      | error e => exact .pure _
      | ok => exact .throw _

theorem steady_loadDatabase (path : SystemText) : Steady (loadDatabase I (World.host L) path) := by
  refine (steady_readText L path).bind fun text => ?_
  cases text with
  | error e => exact steady_fail I L _
  | ok text =>
      dsimp only
      cases Chord.Database.ofText text with
      | error e => exact steady_fail I L _
      | ok loaded => exact (steady_logAll L loaded.2).bind fun _ => .pure loaded.1

theorem steady_makeSheet (song : SystemText) (title : Option SystemText) (format : SheetFormat) (db : Chord.Database) :
    Steady (makeSheet I (World.host L) song title format db) := by
  refine (steady_readText L song).bind fun text => ?_
  cases text with
  | error e =>
      cases e with
      | file path cause => exact steady_fail I L _
      | encoding cause => exact steady_fail I L _
  | ok text =>
      dsimp only
      cases Song.render {} db (String.ofList text) with
      | error e => exact .throw _
      | ok rendered =>
          refine (steady_logAll L rendered.reports).bind fun _ => ?_
          cases pageText rendered (askedTitle song title (String.ofList text)) format with
          | error e => exact .throw _
          | ok page => exact .pure page

theorem steady_prepareSheet (song database target : SystemText) (title : Option SystemText) (format : SheetFormat) :
    Steady (prepareSheet I (World.host L) song database target title format) := by
  refine (steady_resolve L target).bind fun place => (steady_resolve L song).bind fun place' => ?_
  by_cases hsame : place = place'
  · rw [if_pos hsame]
    exact steady_fail I L _
  · rw [if_neg hsame]
    exact (steady_echoAll I L .stdout _).bind fun _ => (steady_loadDatabase I L database).bind fun db =>
      (steady_echoAll I L .stdout _).bind fun _ => steady_makeSheet I L song title format db

theorem steady_render (song database target : SystemText) (title : Option SystemText) (format : SheetFormat) :
    Steady (render I (World.host L) song database target title format) := by
  refine (steady_prepareSheet I L song database target title format).bind fun page =>
    (steady_writeText L target page).bind fun result => ?_
  cases result with
  | error cause => exact steady_fail I L _
  | ok => exact steady_echoAll I L .stdout _

theorem steady_chords (song database : SystemText) : Steady (chords I (World.host L) song database) := by
  refine (steady_loadDatabase I L database).bind fun db => (steady_readText L song).bind fun text => ?_
  cases text with
  | error e => exact steady_fail I L _
  | ok text =>
      dsimp only
      by_cases hnames : (Song.chordsOf db (Document.parse (String.ofList text)).body).isEmpty = true
      · rw [if_pos hnames]
        exact steady_echo I L .stderr _
      · rw [if_neg hnames]
        exact steady_echoAll I L .stdout _

theorem steady_diagram (chord database : SystemText) (output : Option SystemText) :
    Steady (diagram I (World.host L) chord database output) := by
  refine (steady_loadDatabase I L database).bind fun db => ?_
  cases svgText db chord with
  | error e => exact .throw _
  | ok svg =>
      dsimp only
      cases output with
      | none =>
          cases svg with
          | some svg => exact steady_echo I L .stdout _
          | none => exact .throw _
      | some target =>
          refine (steady_writeText L target svg).bind fun result => ?_
          cases result with
          | error cause => exact steady_fail I L _
          | ok => exact steady_echo I L .stdout _

theorem steady_perform (request : Request) : Steady (perform I (World.host L) request) := by
  cases request with
  | render song database output title format => exact steady_render I L song database _ title format
  | chords song database => exact steady_chords I L song database
  | diagram chord database output => exact steady_diagram I L chord database output

theorem steady_respond (stdout stderr : List SystemText) : Steady (respond I (World.host L) stdout stderr) :=
  (steady_echoAll I L .stdout stdout).bind fun _ => steady_echoAll I L .stderr stderr

end Commands

/-! ## Runs -/

theorem exists_diagram_of_svgText {db : Chord.Database} {chord : SystemText} {svg : String}
    (h : svgText db chord = .ok (some svg)) :
    ∃ name diagram, chord = SystemText.ofString name ∧ Diagram.ofName {} db name.toList = .ok diagram ∧
      diagram.svg = .ok svg := by
  rw [svgText] at h
  split at h
  · exact absurd h (by simp)
  · rename_i name hname
    split at h
    · exact absurd h (by simp)
    · rename_i diagram hdiagram
      split at h
      · exact absurd h (by simp)
      · rename_i drawn hdrawn
        obtain rfl := Option.some.inj (Except.ok.inj h)
        exact ⟨name, diagram, SystemText.toString?_eq_some_iff.mp hname, hdiagram, hdrawn⟩

/-- Two runs end in the same way, print the same, and leave the same files. -/
structure SameResults (first second : Outcome) : Prop where
  ending : first.ending = second.ending
  stdout : first.stdout = second.stdout
  files : first.files = second.files

theorem World.alike_start {σ : Type} (L : Log.Loggers σ) (s : Setting) (clock : Nat → Int) :
    (start L { s with clock := clock }).Alike (start L s) :=
  ⟨rfl, rfl, rfl, diverted_start L _, diverted_start L s⟩

/-- What a command line comes to depends neither on the level from which records are shown nor on the clock. -/
theorem alike_conclude {σ : Type} (I : Interface) (L : Log.Loggers σ) {reading reading' : Reading}
    (h : reading.verbosely = reading'.verbosely) {w₁ w₂ : World σ} (halike : w₁.Alike w₂) :
    ((conclude I (World.host L) reading).run w₁).1 = ((conclude I (World.host L) reading').run w₂).1 ∧
      ((conclude I (World.host L) reading).run w₁).2.Alike ((conclude I (World.host L) reading').run w₂).2 := by
  cases reading with
  | answer status stdout stderr =>
      cases reading' with
      | answer status' stdout' stderr' =>
          obtain ⟨rfl, rfl, rfl⟩ := Reading.answer.inj h
          obtain ⟨hresult, halike⟩ := steady_respond I L stdout stderr w₁ w₂ halike
          exact ⟨congrArg (Ending.answered status).of hresult, halike⟩
      | call verbose' request' => exact Reading.noConfusion h
  | call verbose request =>
      cases reading' with
      | answer status' stdout' stderr' => exact Reading.noConfusion h
      | call verbose' request' =>
          obtain ⟨-, rfl⟩ := Reading.call.inj h
          have hsetup : (w₁.setUpLog L (shownLevel verbose) .stderr).Alike (w₂.setUpLog L (shownLevel verbose') .stderr) :=
            halike.follow (.setUpLog halike.diverted₁ _) (.setUpLog halike.diverted₂ _)
          obtain ⟨hresult, halike⟩ := steady_perform I L request _ _ hsetup
          exact ⟨congrArg Ending.finished.of hresult, halike⟩

theorem sameResults_of_verbosely {σ : Type} (I : Interface) (L : Log.Loggers σ) (s : Setting) (clock : Nat → Int)
    {arguments arguments' : List SystemText}
    (h : (I.reading s arguments).verbosely = (I.reading s arguments').verbosely) :
    SameResults (I.run L { s with clock := clock } arguments) (I.run L s arguments') := by
  obtain ⟨hending, halike⟩ := alike_conclude I L h (World.alike_start L s clock)
  exact ⟨hending, halike.stdout, halike.files⟩

/-- A diagram that is asked for without an output is printed as one line, and nothing else is. -/
theorem exists_diagram_of_success {σ : Type} {I : Interface} {L : Log.Loggers σ} {s : Setting}
    {arguments : List SystemText} {verbose : Bool} {chord database : SystemText}
    (hreading : I.reading s arguments = .call verbose (.diagram chord database none))
    (hstatus : (I.run L s arguments).ending.status = 0) :
    ∃ db log name diagram svg, chord = SystemText.ofString name ∧ s.files.database database = .ok (db, log) ∧
      Diagram.ofName {} db name.toList = .ok diagram ∧ diagram.svg = .ok svg ∧
      I.line? (s.terminal .stdout) (SystemText.ofString svg) = some (I.run L s arguments).stdout := by
  obtain ⟨result, hending, hperforms⟩ := performs_of_reading I L s arguments hreading
  rw [hending] at hstatus
  obtain rfl := eq_ok_of_status hstatus
  have hdraws := hperforms.draws
  generalize (I.run L s arguments).stdout = stdout at hdraws ⊢
  generalize (I.run L s arguments).files = files at hdraws
  cases hdraws with
  | printed _ hdatabase hsvg hline =>
      obtain ⟨name, diagram, rfl, hdiagram, hdrawn⟩ := exists_diagram_of_svgText hsvg
      exact ⟨_, _, name, diagram, _, rfl, hdatabase, hdiagram, hdrawn, hline⟩
  | written houtput => exact absurd houtput (by simp)

/-- An SVG document of a chord has no escape characters but those of the name of the chord. -/
theorem escape_not_mem_svg {db : Chord.Database} {name : String} {diagram : Diagram} {svg : String}
    (h : Diagram.ofName {} db name.toList = .ok diagram) (hsvg : diagram.svg = .ok svg) (hescape : '\x1b' ∉ name.toList) :
    '\x1b' ∉ svg.toList := by
  have hink : ∀ c, Diagram.isInk c = true → c ≠ '\x1b' := by
    rintro c hc rfl
    exact absurd hc (by decide)
  have hname : ∀ c ∈ name.toList, c ≠ '\x1b' := fun c hc heq => hescape (heq ▸ hc)
  exact fun hmem => Diagram.inks_svg_of_ofName hink h hsvg hname _ hmem rfl

def emptyKey : Setting where
  files := { cwd := [], nodes := [(["db.json"], .file {} "\x7b\"\": []\x7d".toUTF8.toList)] }

/-- A chord that can be drawn without a database is asked for with success. -/
theorem status_emptyKey {arguments : List SystemText} {verbose : Bool} {chord : SystemText}
    (hreading : reader.reading emptyKey arguments = .call verbose (.diagram chord "db.json" none))
    (hdrawn : (svgText ⟨[]⟩ chord).toOption.join.isSome = true) :
    (reader.run Log.Registry.loggers emptyKey arguments).ending.status = 0 := by
  have hdatabase : emptyKey.files.database "db.json" = .ok (⟨[]⟩, [Chord.emptyKeyReport "", Chord.loadedReport 0]) := by
    decide +kernel
  rcases hsvg : svgText ⟨[]⟩ chord with e | _ | svg
  · rw [hsvg] at hdrawn
    exact absurd hdrawn Bool.false_ne_true
  · rw [hsvg] at hdrawn
    exact absurd hdrawn (by decide)
  · exact status_of_svgText reader _ emptyKey arguments reader_echoesPart hreading hdatabase hsvg

theorem reading_diagram :
    reader.reading emptyKey ["-v", "diagram", "C", "--db", "db.json"] = .call true (.diagram "C" "db.json" none) :=
  rfl

end LeadSheet.Command
