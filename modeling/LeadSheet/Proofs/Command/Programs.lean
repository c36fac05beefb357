import LeadSheet.Command.World
import LeadSheet.Proofs.Command.Paths
import LeadSheet.Proofs.Log.Routing

/-!
# What programs do

A program over a world comes to a result, or stops, and leaves a world. `Yields x w Q` says that what it comes to and
leaves satisfies `Q`; it is proved along the program, one step after the other (`Yields.bind`).

* `World.Diverted` : log records go to standard error only;
* `Follows w w' printed` : from one diverted world to another one nothing happens to the files, and some text is printed
  to standard output;
* `yields_echo`, `yields_echoAll`, `yields_fail`, `yields_logAll`, `yields_readText`, `yields_loadDatabase`,
  `yields_writeText` : what the parts of the commands do.
-/

namespace LeadSheet.Command

/-! ## Results -/

/-- A program over worlds. -/
abbrev Action (σ α : Type) : Type := Program (StateM (World σ)) α

section Yields

variable {σ α β : Type} {x : Action σ α} {f : α → Action σ β} {w w' : World σ}

/-- What an action comes to, and the world that it leaves. -/
def exec (x : Action σ α) (w : World σ) : Except Stop α × World σ := (ExceptT.run x).run w

def Yields (x : Action σ α) (w : World σ) (Q : Except Stop α → World σ → Prop) : Prop := Q (exec x w).1 (exec x w).2

theorem exec_bind_ok {a : α} (h : exec x w = (.ok a, w')) : exec (x >>= f) w = exec (f a) w' := by
  rw [exec, ExceptT.run_bind, StateT.run_bind]
  rw [exec] at h
  rw [h]
  rfl

theorem exec_bind_error {stop : Stop} (h : exec x w = (.error stop, w')) : exec (x >>= f) w = (.error stop, w') := by
  rw [exec, ExceptT.run_bind, StateT.run_bind]
  rw [exec] at h
  rw [h]
  rfl

theorem Yields.pure {a : α} {Q : Except Stop α → World σ → Prop} (h : Q (.ok a) w) : Yields (Pure.pure a) w Q := h

theorem Yields.throw {stop : Stop} {Q : Except Stop α → World σ → Prop} (h : Q (.error stop) w) :
    Yields (MonadExcept.throw stop) w Q :=
  h

theorem Yields.lift {y : StateM (World σ) α} {Q : Except Stop α → World σ → Prop} (h : Q (.ok (y.run w).1) (y.run w).2) :
    Yields (liftM y) w Q :=
  h

/-- One step after another: the second one is taken from where the first one leads, unless the first one stops. -/
theorem Yields.bind {P : Except Stop α → World σ → Prop} {Q : Except Stop β → World σ → Prop} (hx : Yields x w P)
    (hf : ∀ a w', P (.ok a) w' → Yields (f a) w' Q) (hstop : ∀ stop w', P (.error stop) w' → Q (.error stop) w') :
    Yields (x >>= f) w Q := by
  rw [Yields] at hx ⊢
  rcases h : exec x w with ⟨result, w'⟩
  rw [h] at hx
  cases result with
  | ok a =>
      rw [exec_bind_ok h]
      exact hf a w' hx
  | error stop =>
      rw [exec_bind_error h]
      exact hstop stop w' hx

/-- A step that never stops, and the step after it. -/
theorem Yields.next {a : α} {P : World σ → Prop} {Q : Except Stop β → World σ → Prop}
    (hx : Yields x w fun result w' => result = .ok a ∧ P w') (hf : ∀ w', P w' → Yields (f a) w' Q) :
    Yields (x >>= f) w Q := by
  refine hx.bind ?_ ?_
  · rintro a' w' ⟨ha, hw'⟩
    obtain rfl := Except.ok.inj ha
    exact hf w' hw'
  · rintro stop w' ⟨hstop, -⟩
    exact absurd hstop (by simp)

theorem Yields.mono {P Q : Except Stop α → World σ → Prop} (hx : Yields x w P) (h : ∀ result w', P result w' → Q result w') :
    Yields x w Q :=
  h _ _ hx

end Yields

/-! ## Streams -/

theorem stdout_write_stderr {σ : Type} (text : String) (r : Log.Router σ) :
    (r.write Stream.stderr.number text).streams.getD Stream.stdout.number "" =
      r.streams.getD Stream.stdout.number "" := by
  have hne : Stream.stderr.number ≠ Stream.stdout.number := by decide
  show (r.streams.modify Stream.stderr.number (· ++ text)).getD Stream.stdout.number "" = _
  rw [List.getD_eq_getElem?_getD, List.getD_eq_getElem?_getD, List.getElem?_modify_ne _ _ hne]

namespace World

variable {σ : Type} {L : Log.Loggers σ} {w : World σ}

/-- Log records go to standard error only. -/
structure Diverted (w : World σ) : Prop where
  streams : w.router.streams.length = 2
  handlers : ∀ h ∈ w.router.handlers, h.stream = Stream.stderr.number

theorem diverted_start (L : Log.Loggers σ) (s : Setting) : (start L s).Diverted := ⟨rfl, List.forall_mem_nil _⟩

theorem Diverted.print (h : w.Diverted) (stream : Stream) (text : String) : (w.print stream text).Diverted where
  streams := (List.length_modify _ _ _).trans h.streams
  handlers := h.handlers

theorem Diverted.setUpLog (h : w.Diverted) (level : Log.Level) : (w.setUpLog L level .stderr).Diverted where
  streams := by
    rw [World.setUpLog, Log.Router.streams_setup]
    exact h.streams
  handlers := by
    rw [World.setUpLog, Log.Router.handlers_setup]
    intro handler hmem
    rcases List.mem_append.mp hmem with hmem | hmem
    · exact h.handlers handler (List.mem_of_mem_filter hmem)
    · rw [List.mem_singleton.mp hmem]

theorem printed_print_stdout (h : w.Diverted) (text : String) :
    (w.print .stdout text).printed .stdout = w.printed .stdout ++ text := by
  obtain ⟨out, err, hstreams⟩ := List.length_eq_two.mp h.streams
  rw [printed, printed, World.print, Log.Router.write, hstreams]
  rfl

theorem printed_print_stderr (text : String) : (w.print .stderr text).printed .stdout = w.printed .stdout :=
  stdout_write_stderr text w.router

end World

/-- One router comes from another by writing to standard error. -/
structure Beside {σ : Type} (r r' : Log.Router σ) : Prop where
  handlers : r'.handlers = r.handlers
  length : r'.streams.length = r.streams.length
  stdout : r'.streams.getD Stream.stdout.number "" = r.streams.getD Stream.stdout.number ""

namespace Beside

variable {σ : Type} {L : Log.Loggers σ} {r r' r'' : Log.Router σ}

theorem refl (r : Log.Router σ) : Beside r r := ⟨rfl, rfl, rfl⟩

theorem trans (h : Beside r r') (h' : Beside r' r'') : Beside r r'' :=
  ⟨h'.handlers.trans h.handlers, h'.length.trans h.length, h'.stdout.trans h.stdout⟩

theorem deliver (record : Log.Record) (time : Int) {h : Log.Handler} (hstream : h.stream = Stream.stderr.number) :
    Beside r (r.deliver record time h) := by
  rw [Log.Router.deliver]
  split
  · split
    · rename_i line _
      exact ⟨rfl, List.length_modify _ _ _, hstream ▸ stdout_write_stderr line r⟩
    · exact refl r
  · exact refl r

theorem deliverAll (record : Log.Record) (time : Int) {hs : List Log.Handler}
    (h : ∀ handler ∈ hs, handler.stream = Stream.stderr.number) :
    Beside r (hs.foldl (Log.Router.deliver record time) r) := by
  induction hs generalizing r with
  | nil => exact refl r
  | cons handler hs ih =>
      obtain ⟨hhandler, hhs⟩ := List.forall_mem_cons.mp h
      exact (deliver record time hhandler).trans (ih hhs)

theorem log (event : Log.Event) (h : ∀ handler ∈ r.handlers, handler.stream = Stream.stderr.number) :
    Beside r (r.log L event) := by
  rw [Log.Router.log]
  dsimp only
  have hasked : Beside r { r with loggers := (L.ask (Log.canonicalName event.logger) event.level r.loggers).2 } :=
    ⟨rfl, rfl, rfl⟩
  split
  · exact hasked.trans (deliverAll _ event.time h)
  · exact hasked

end Beside

/-! ## What follows -/

/-- From one world to another one, which is diverted, the files stay as they are and a text is printed. -/
structure Follows {σ : Type} (w w' : World σ) (printed : String) : Prop where
  files : w'.files = w.files
  terminal : w'.terminal = w.terminal
  stdout : w'.printed .stdout = w.printed .stdout ++ printed
  diverted : w'.Diverted

namespace Follows

variable {σ : Type} {L : Log.Loggers σ} {w w' w'' : World σ} {printed printed' : String}

theorem refl (h : w.Diverted) : Follows w w "" := ⟨rfl, rfl, String.append_empty.symm, h⟩

theorem trans (h : Follows w w' printed) (h' : Follows w' w'' printed') : Follows w w'' (printed ++ printed') where
  files := h'.files.trans h.files
  terminal := h'.terminal.trans h.terminal
  stdout := by rw [h'.stdout, h.stdout, String.append_assoc]
  diverted := h'.diverted

theorem trans_silent (h : Follows w w' printed) (h' : Follows w' w'' "") : Follows w w'' printed := by
  simpa using h.trans h'

theorem silent_trans (h : Follows w w' "") (h' : Follows w' w'' printed) : Follows w w'' printed := by
  simpa using h.trans h'

theorem print_stdout (h : w.Diverted) (text : String) : Follows w (w.print .stdout text) text :=
  ⟨rfl, rfl, World.printed_print_stdout h text, h.print .stdout text⟩

theorem print_stderr (h : w.Diverted) (text : String) : Follows w (w.print .stderr text) "" :=
  ⟨rfl, rfl, (World.printed_print_stderr text).trans String.append_empty.symm, h.print .stderr text⟩

theorem log (h : w.Diverted) (record : Log.Record) : Follows w (w.log L record) "" := by
  have hbeside : Beside w.router (w.log L record).router := Beside.log _ h.handlers
  exact ⟨rfl, rfl, hbeside.stdout.trans String.append_empty.symm, hbeside.length.trans h.streams,
    fun handler hmem => h.handlers handler (hbeside.handlers ▸ hmem)⟩

theorem setUpLog (h : w.Diverted) (level : Log.Level) : Follows w (w.setUpLog L level .stderr) "" := by
  refine ⟨rfl, rfl, ?_, h.setUpLog level⟩
  rw [World.printed, World.setUpLog, Log.Router.streams_setup, String.append_empty]
  rfl

end Follows

/-! ## Parts of the commands -/

namespace FileTree

def text (t : FileTree) (path : SystemText) : Except ReadError (List Char) :=
  match t.read path with
  | .error e => .error (.file path e)
  | .ok contents => (textOfBytes contents).mapError .encoding

/-- The database in a file, with the records of its loading. -/
def database (t : FileTree) (path : SystemText) : Except String (Chord.Database × List Log.Record) :=
  match t.text path with
  | .error e => .error e.message
  | .ok text => (Chord.Database.ofText text).mapError Chord.LoadError.message

variable {t t' : FileTree} {path path' : SystemText}

theorem text_eq_ok_iff {text : List Char} :
    t.text path = .ok text ↔ ∃ contents, t.read path = .ok contents ∧ textOfBytes contents = .ok text := by
  rw [FileTree.text]
  cases t.read path with
  | error e => simp
  | ok contents =>
      cases h : textOfBytes contents with
      | error e => simp [h, Except.mapError]
      | ok text => simp [h, Except.mapError]

theorem database_eq_ok_iff {loaded : Chord.Database × List Log.Record} :
    t.database path = .ok loaded ↔ ∃ text, t.text path = .ok text ∧ Chord.Database.ofText text = .ok loaded := by
  rw [FileTree.database]
  cases t.text path with
  | error e => simp
  | ok text =>
      cases h : Chord.Database.ofText text with
      | error e => simp [h, Except.mapError]
      | ok loaded => simp [h, Except.mapError]

/-- Files with the same contents hold the same text. -/
theorem text_of_read_eq (hread : t.read path = t'.read path') {text : List Char} (h : t.text path = .ok text) :
    t'.text path' = .ok text := by
  rwa [text_eq_ok_iff, ← hread, ← text_eq_ok_iff]

theorem database_of_read_eq (hread : t.read path = t'.read path') {loaded : Chord.Database × List Log.Record}
    (h : t.database path = .ok loaded) : t'.database path' = .ok loaded := by
  obtain ⟨text, htext, hloaded⟩ := database_eq_ok_iff.mp h
  exact database_eq_ok_iff.mpr ⟨text, text_of_read_eq hread htext, hloaded⟩

end FileTree

theorem World.run_write {σ : Type} (L : Log.Loggers σ) (w : World σ) (path : SystemText) (contents : Bytes) :
    ((host L).write path contents).run w =
      match w.files.write path contents with
      | .ok files => (.ok (), { w with files := files })
      | .error e => (.error e, w) := by
  show (match w.files.write path contents with
    | .ok files => do modify fun w => { w with files := files }; return .ok ()
    | .error e => return .error e : StateM (World σ) (Except FileError Unit)).run w = _
  cases w.files.write path contents with
  | ok files => rfl
  | error e => rfl

section Parts

variable {σ α : Type} (I : Interface) (L : Log.Loggers σ) {w : World σ} (hw : w.Diverted)

inductive Echoed (w : World σ) (text : SystemText) : Except Stop Unit → World σ → Prop
  | line {line : String} {w' : World σ} : I.line? (w.terminal .stdout) text = some line → Follows w w' line →
      Echoed w text (.ok ()) w'
  | stray : I.line? (w.terminal .stdout) text = none → Echoed w text (.error (.fault .encoding)) w

inductive EchoedAll (w : World σ) (texts : List SystemText) : Except Stop Unit → World σ → Prop
  | lines {lines : List String} {w' : World σ} :
      List.Forall₂ (fun text line => I.line? (w.terminal .stdout) text = some line) texts lines →
      Follows w w' (String.join lines) → EchoedAll w texts (.ok ()) w'
  | stray {text : SystemText} {printed : String} {w' : World σ} : text ∈ texts →
      I.line? (w.terminal .stdout) text = none → Follows w w' printed →
      EchoedAll w texts (.error (.fault .encoding)) w'

inductive Loaded (w : World σ) (path : SystemText) : Except Stop Chord.Database → World σ → Prop
  | database {db : Chord.Database} {log : List Log.Record} {w' : World σ} : w.files.database path = .ok (db, log) →
      Follows w w' "" → Loaded w path (.ok db) w'
  | failure {cause : String} {w' : World σ} : w.files.database path = .error cause → Follows w w' "" →
      Loaded w path (.error (.failure (.unreadDatabase cause))) w'

inductive Wrote (w : World σ) (path : SystemText) : Option String → Except Stop (Except FileError Unit) → World σ → Prop
  | refused {text : Option String} {cause : FileError} : w.files.target path = .error cause →
      Wrote w path text (.ok (.error cause)) w
  | text {text : String} {files : FileTree} : w.files.write path text.toUTF8.toList = .ok files →
      Wrote w path (some text) (.ok (.ok ())) { w with files := files }
  | stray {files : FileTree} : w.files.write path [] = .ok files →
      Wrote w path none (.error (.fault .encoding)) { w with files := files }

include hw

theorem yields_echo (text : SystemText) : Yields (echo I (World.host L) .stdout text) w (Echoed I w text) := by
  show Yields (printLine (World.host L) (I.line? (w.terminal .stdout) text)) w (Echoed I w text)
  cases h : I.line? (w.terminal .stdout) text with
  | some line => exact .lift (.line h (.print_stdout hw line))
  | none => exact .throw (.stray h)

theorem yields_echo_stderr (text : SystemText) :
    Yields (echo I (World.host L) .stderr text) w fun result w' => result = .ok () ∧ Follows w w' "" :=
  ⟨rfl, .print_stderr hw _⟩

theorem yields_echoAll_stderr (texts : List SystemText) :
    Yields (echoAll I (World.host L) .stderr texts) w fun result w' => result = .ok () ∧ Follows w w' "" := by
  induction texts generalizing w with
  | nil => exact ⟨rfl, .refl hw⟩
  | cons text texts ih =>
      refine (yields_echo_stderr I L hw text).next ?_
      intro w' hfollows
      exact (ih hfollows.diverted).mono fun _ _ h => ⟨h.1, hfollows.trans_silent h.2⟩

theorem yields_echoAll (texts : List SystemText) :
    Yields (echoAll I (World.host L) .stdout texts) w (EchoedAll I w texts) := by
  induction texts generalizing w with
  | nil => exact .lines .nil (.refl hw)
  | cons text texts ih =>
      refine (yields_echo I L hw text).bind ?_ ?_
      · rintro - w' ⟨hline, hfollows⟩
        refine (ih hfollows.diverted).mono ?_
        rintro _ w'' (⟨hlines, hfollows'⟩ | ⟨hmem, hnone, hfollows'⟩)
        · rw [hfollows.terminal] at hlines
          exact .lines (.cons hline hlines) (String.join_cons ▸ hfollows.trans hfollows')
        · rw [hfollows.terminal] at hnone
          exact .stray (List.mem_cons_of_mem _ hmem) hnone (hfollows.trans hfollows')
      · intro stop w' hecho
        cases hecho with
        | stray hnone => exact .stray List.mem_cons_self hnone (.refl hw)

theorem yields_fail (reason : Failure) :
    Yields (fail I (World.host L) reason : Action σ α) w fun result w' =>
      result = .error (.failure reason) ∧ Follows w w' "" := by
  refine (yields_echo_stderr I L hw _).next ?_
  intro w' hfollows
  exact .throw ⟨rfl, hfollows⟩

theorem yields_logAll (records : List Log.Record) :
    Yields (logAll (World.host L) records) w fun result w' => result = .ok () ∧ Follows w w' "" := by
  induction records generalizing w with
  | nil => exact ⟨rfl, .refl hw⟩
  | cons record records ih =>
      refine Yields.next (P := fun w' => Follows w w' "") ⟨rfl, .log hw record⟩ ?_
      intro w' hfollows
      exact (ih hfollows.diverted).mono fun _ _ h => ⟨h.1, hfollows.trans_silent h.2⟩

omit hw in
theorem exec_readText (path : SystemText) : exec (readText (World.host L) path) w = (.ok (w.files.text path), w) := by
  show exec (match w.files.read path with
    | .error e => pure (.error (.file path e))
    | .ok contents => pure ((textOfBytes contents).mapError .encoding) : Action σ (Except ReadError (List Char))) w = _
  rw [FileTree.text]
  cases w.files.read path with
  | error e => rfl
  | ok contents => rfl

omit hw in
theorem yields_readText (path : SystemText) :
    Yields (readText (World.host L) path) w fun result w' => result = .ok (w.files.text path) ∧ w' = w := by
  rw [Yields, exec_readText]
  exact ⟨rfl, rfl⟩

theorem yields_loadDatabase (path : SystemText) :
    Yields (loadDatabase I (World.host L) path) w (Loaded w path) := by
  refine (yields_readText L path).next ?_
  rintro w' rfl
  cases hread : w'.files.text path with
  | error e =>
      refine (yields_fail I L hw _).mono ?_
      rintro _ w'' ⟨rfl, hfollows⟩
      exact .failure (by rw [FileTree.database, hread]) hfollows
  | ok text =>
      dsimp only
      have hdatabase : w'.files.database path = (Chord.Database.ofText text).mapError Chord.LoadError.message := by
        rw [FileTree.database, hread]
      cases hloaded : Chord.Database.ofText text with
      | error e =>
          refine (yields_fail I L hw _).mono ?_
          rintro _ w'' ⟨rfl, hfollows⟩
          exact .failure (by rw [hdatabase, hloaded]; rfl) hfollows
      | ok loaded =>
          refine (yields_logAll L hw loaded.2).next ?_
          intro w'' hfollows
          exact .pure (.database (by rw [hdatabase, hloaded]; rfl) hfollows)

omit hw in
theorem yields_writeText (path : SystemText) (text : Option String) :
    Yields (writeText (World.host L) path text) w (Wrote w path text) := by
  cases text with
  | some text =>
      refine Yields.lift ?_
      rw [World.run_write]
      cases h : w.files.write path text.toUTF8.toList with
      | ok files => exact .text h
      | error e => exact .refused (FileTree.target_of_write h)
  | none =>
      refine Yields.next (P := fun w' => w' = (((World.host L).write path []).run w).2) (Yields.lift ⟨rfl, rfl⟩) ?_
      rintro w' rfl
      rw [World.run_write]
      cases h : w.files.write path [] with
      | ok files => exact .throw (.stray h)
      | error e => exact .pure (.refused (FileTree.target_of_write h))

end Parts

end LeadSheet.Command
