import LeadSheet.Proofs.Log.Registry

/-!
# Which records are written, and where

What a router does with a record depends on the steps before it: the latest set-up says to which stream it may go, in
which form and from which level on, and the loggers say whether it passes. A set-up takes the handlers of all earlier
ones away, so there is at most one that set-ups have installed, and it is for the newest stream.

* `latestSetup?` : the level of the latest set-up;
* `IsDue steps event installed` : after the steps the record is to be written in the form of this level;
* `handlers_setup` : a set-up leaves the handlers of others and its own;
* `Routed L steps r` : the router has the handler of the latest set-up only (`routed_run`);
* `run_routes` : so a record is written when it is due, once, to the newest stream, and the others stay as they are.
-/

namespace LeadSheet.Log

/-! ## What is due -/

def Step.setup? : Step → Option Level
  | .setup level => some level
  | _ => none

def latestSetup? (steps : List Step) : Option Level := latest? Step.setup? steps

/-- A record in the form of a stream that was set up with a level. -/
inductive IsLine (installed : Level) (time : Int) (record : Record) : String → Prop
  | verbose {text : String} : installed ≤ 10 → timestamp? time = some text →
      IsLine installed time record (record.verboseLine text ++ "\n")
  | plain : 10 < installed → IsLine installed time record (record.plainLine ++ "\n")

/-- After some steps a record is to be written in the form of a level: the latest set-up has this level, and the record
reaches it and the level of its logger. -/
structure IsDue (steps : List Step) (event : Event) (installed : Level) : Prop where
  setup : latestSetup? steps = some installed
  reached : installed ≤ event.level
  logger : ∃ level, HasLevel (levelOf steps) (rootLevelOf steps) (canonicalName event.logger) level ∧ level ≤ event.level

/-- The time of a record has a date, as all that a clock shows. -/
def Event.HasDate (event : Event) : Prop := (timestamp? event.time).isSome

instance (event : Event) : Decidable event.HasDate := inferInstanceAs (Decidable (_ = true))

theorem latestSetup?_eq_none_iff {steps : List Step} : latestSetup? steps = none ↔ ∀ level, Step.setup level ∉ steps := by
  rw [latestSetup?, latest?, List.findSome?_eq_none_iff]
  constructor
  · intro h level hmem
    exact absurd (h _ (List.mem_reverse.mpr hmem)) (by simp [Step.setup?])
  · intro h step hstep
    cases step with
    | setup level => exact absurd (List.mem_reverse.mp hstep) (h level)
    | setLevel logger level => rfl
    | log event => rfl

theorem latestSetup?_append_singleton (steps : List Step) (s : Step) :
    latestSetup? (steps ++ [s]) = s.setup?.or (latestSetup? steps) :=
  latest?_append_singleton Step.setup? steps s

theorem lineOf?_eq_some_iff {installed : Level} {time : Int} {record : Record} {line : String} :
    lineOf? (isVerbose installed) time record = some line ↔ IsLine installed time record line := by
  unfold lineOf? isVerbose Level.debug
  by_cases hverbose : installed ≤ 10
  · rw [if_pos (decide_eq_true hverbose), Option.map_eq_some_iff]
    constructor
    · rintro ⟨text, htext, rfl⟩
      exact .verbose hverbose htext
    · rintro (⟨-, htext⟩ | hplain)
      · exact ⟨_, htext, rfl⟩
      · exact absurd hverbose (Int.not_le.mpr hplain)
  · rw [if_neg (by simpa using hverbose), Option.some.injEq]
    constructor
    · rintro rfl
      exact .plain (Int.not_le.mp hverbose)
    · rintro (⟨hle, -⟩ | -)
      · exact absurd hle hverbose
      · rfl

theorem exists_lineOf? {event : Event} (h : event.HasDate) (verbose : Bool) (record : Record) :
    ∃ line, lineOf? verbose event.time record = some line := by
  obtain ⟨text, htext⟩ := Option.isSome_iff_exists.mp h
  cases verbose with
  | true => exact ⟨_, by rw [lineOf?, if_pos rfl, htext]; rfl⟩
  | false => exact ⟨_, rfl⟩

/-! ## Handlers -/

/-- Erasing all members of a list that have a property leaves the others. -/
theorem foldl_erase_filter {α : Type} [DecidableEq α] (p : α → Bool) {kept : List α} (hkept : ∀ a ∈ kept, p a = false)
    (l : List α) : (l.filter p).foldl List.erase (kept ++ l) = kept ++ l.filter fun a => !p a := by
  induction l generalizing kept with
  | nil => simp
  | cons a l ih =>
      by_cases ha : p a = true
      · have hnot : a ∉ kept := fun hmem => Bool.false_ne_true ((hkept a hmem).symm.trans ha)
        rw [List.filter_cons_of_pos ha, List.foldl_cons, List.erase_append_right _ hnot, List.erase_cons_head, ih hkept,
          List.filter_cons_of_neg (by simpa using ha)]
      · have ha : p a = false := Bool.eq_false_iff.mpr ha
        have hkept : ∀ b ∈ kept ++ [a], p b = false :=
          List.forall_mem_append.mpr ⟨hkept, List.forall_mem_singleton.mpr ha⟩
        calc ((a :: l).filter p).foldl List.erase (kept ++ a :: l)
            = (l.filter p).foldl List.erase (kept ++ [a] ++ l) := by
              rw [List.filter_cons_of_neg (by simpa using ha), List.append_cons]
          _ = kept ++ [a] ++ l.filter fun a => !p a := ih hkept
          _ = kept ++ (a :: l).filter fun a => !p a := by
              rw [List.filter_cons_of_pos (by simpa using ha), ← List.append_cons]

namespace Router

variable {σ : Type} {L : Loggers σ}

theorem foldl_removeHandler (hs : List Handler) (r : Router σ) :
    hs.foldl removeHandler r = { r with handlers := hs.foldl List.erase r.handlers } := by
  induction hs generalizing r with
  | nil => rfl
  | cons h hs ih => exact ih _

/-- A set-up leaves the handlers of others and its own. -/
theorem handlers_setup (level : Level) (stream : StreamId) (r : Router σ) :
    (r.setup L level stream).handlers =
      r.handlers.filter (fun h => !h.marked) ++ [⟨true, level, isVerbose level, stream⟩] := by
  have hremoved := foldl_erase_filter Handler.marked (List.forall_mem_nil _) r.handlers
  rw [List.nil_append, List.nil_append] at hremoved
  rw [setup, foldl_removeHandler, hremoved]
  rfl

theorem streams_setup (level : Level) (stream : StreamId) (r : Router σ) :
    (r.setup L level stream).streams = r.streams := by
  rw [setup, foldl_removeHandler]
  rfl

theorem loggers_setup (level : Level) (stream : StreamId) (r : Router σ) :
    (r.setup L level stream).loggers = L.setLevel rootName level r.loggers := by
  rw [setup, foldl_removeHandler]
  rfl

/-- Whatever handlers there are, a set-up leaves one that set-ups have installed. -/
theorem installedCount_setup (level : Level) (stream : StreamId) (r : Router σ) :
    (r.setup L level stream).installedCount = 1 := by
  have hothers : (r.handlers.filter fun h => !h.marked).countP Handler.marked = 0 :=
    List.countP_eq_zero.mpr fun h hmem => by simpa using (List.mem_filter.mp hmem).2
  rw [installedCount, handlers_setup, List.countP_append, hothers]
  rfl

/-- Delivering a record changes the streams only. -/
theorem deliver_eq (record : Record) (time : Int) (r : Router σ) (h : Handler) :
    r.deliver record time h = { r with streams := (r.deliver record time h).streams } := by
  unfold deliver
  split
  · split
    · rfl
    · rfl
  · rfl

theorem foldl_deliver_eq (record : Record) (time : Int) (hs : List Handler) (r : Router σ) :
    hs.foldl (deliver record time) r = { r with streams := (hs.foldl (deliver record time) r).streams } := by
  induction hs generalizing r with
  | nil => rfl
  | cons h hs ih =>
      rw [List.foldl_cons, ih]
      rw [deliver_eq]

/-- A record changes the loggers as asking does, and otherwise the streams only. -/
theorem log_eq (event : Event) (r : Router σ) :
    r.log L event =
      { r with
        loggers := (L.ask (canonicalName event.logger) event.level r.loggers).2
        streams := (r.log L event).streams } := by
  unfold log
  dsimp only
  split
  · rw [foldl_deliver_eq]
  · rfl

/-- The streams after a record. -/
theorem streams_log (event : Event) (r : Router σ) :
    (r.log L event).streams =
      match if (L.ask (canonicalName event.logger) event.level r.loggers).1 then event.record? else none with
      | some record => (r.handlers.foldl (deliver record event.time) r).streams
      | none => r.streams := by
  have hstreams : ∀ (record : Record) (hs : List Handler) (r r' : Router σ), r.streams = r'.streams →
      (hs.foldl (deliver record event.time) r).streams = (hs.foldl (deliver record event.time) r').streams := by
    intro record hs
    induction hs with
    | nil => exact fun _ _ h => h
    | cons h hs ih =>
        intro r r' heq
        refine ih _ _ ?_
        unfold deliver
        split
        · split
          · rw [write, write, heq]
          · exact heq
        · exact heq
  unfold log
  dsimp only
  split
  · rename_i record hrecord
    rw [hrecord]
    exact hstreams record _ _ _ rfl
  · rename_i hrecord
    rw [hrecord]

/-! ## Runs -/

theorem run_append_singleton (steps : List Step) (s : Step) : run L (steps ++ [s]) = (run L steps).step L s := by
  rw [run, List.foldl_append]
  rfl

/-- A router has the handler of the latest set-up and no other, and this one is for the newest stream. -/
structure Routed (L : Loggers σ) (steps : List Step) (r : Router σ) : Prop where
  loggers : r.loggers = L.after steps
  handlers : r.handlers =
    (latestSetup? steps).toList.map fun level => ⟨true, level, isVerbose level, r.streams.length - 1⟩
  streams : r.streams = [] ↔ latestSetup? steps = none

section Steps

variable {r : Router σ} {steps : List Step}

theorem Routed.exists_streams (h : Routed L steps r) {level : Level} (hsetup : latestSetup? steps = some level) :
    ∃ earlier current, r.streams = earlier ++ [current] := by
  rcases List.eq_nil_or_concat r.streams with hnil | ⟨earlier, current, hstreams⟩
  · rw [h.streams, hsetup] at hnil
    exact absurd hnil (by simp)
  · exact ⟨earlier, current, by rw [hstreams, List.concat_eq_append]⟩

/-- A record is delivered to the newest stream, if it reaches the level of the latest set-up. -/
theorem Routed.streams_deliver (h : Routed L steps r) {level : Level} (hsetup : latestSetup? steps = some level)
    {earlier : List String} {current : String} (hstreams : r.streams = earlier ++ [current]) (record : Record)
    (time : Int) :
    (r.handlers.foldl (deliver record time) r).streams =
      earlier ++ [current ++ if level ≤ record.level then (lineOf? (isVerbose level) time record).getD "" else ""] := by
  have hindex : r.streams.length - 1 = earlier.length := by
    rw [hstreams, List.length_append]
    rfl
  rw [h.handlers, hsetup, Option.toList_some, List.map_singleton, List.foldl_cons, List.foldl_nil, deliver, hindex]
  split
  · cases lineOf? (isVerbose level) time record with
    | none => simpa using hstreams
    | some line =>
        show r.streams.modify earlier.length _ = _
        rw [hstreams, List.modify_eq_take_drop, List.take_left, List.drop_left]
        rfl
  · simpa using hstreams

theorem Routed.streams_of_none (h : Routed L steps r) (hsetup : latestSetup? steps = none) (event : Event) :
    (r.log L event).streams = r.streams := by
  rw [streams_log, h.handlers, hsetup]
  split
  · rfl
  · rfl

/-- A record adds to the newest stream at most. -/
theorem Routed.streams_log_cases (h : Routed L steps r) (event : Event) :
    (r.log L event).streams = r.streams ∨
      ∃ earlier current line, r.streams = earlier ++ [current] ∧ (r.log L event).streams = earlier ++ [current ++ line] := by
  cases hsetup : latestSetup? steps with
  | none => exact Or.inl (h.streams_of_none hsetup event)
  | some level =>
      obtain ⟨earlier, current, hstreams⟩ := h.exists_streams hsetup
      rw [Router.streams_log]
      split
      · exact Or.inr ⟨earlier, current, _, hstreams, h.streams_deliver hsetup hstreams _ _⟩
      · exact Or.inl rfl

theorem Routed.log (h : Routed L steps r) (event : Event) : Routed L (steps ++ [.log event]) (r.log L event) := by
  have hsetup : latestSetup? (steps ++ [.log event]) = latestSetup? steps := latestSetup?_append_singleton _ _
  have hlength : (r.log L event).streams.length = r.streams.length := by
    rcases h.streams_log_cases event with heq | ⟨earlier, current, line, hbefore, hafter⟩
    · rw [heq]
    · rw [hbefore, hafter, List.length_append, List.length_append]
      rfl
  constructor
  case loggers =>
    rw [Loggers.after_append_singleton, ← h.loggers, log_eq]
    rfl
  case handlers =>
    rw [hsetup, hlength, ← h.handlers, log_eq]
  case streams =>
    rw [hsetup, ← h.streams, ← List.length_eq_zero_iff, ← List.length_eq_zero_iff, hlength]

theorem Routed.setup (h : Routed L steps r) (level : Level) :
    Routed L (steps ++ [.setup level]) (r.step L (.setup level)) := by
  have hsetup : latestSetup? (steps ++ [.setup level]) = some level := latestSetup?_append_singleton _ _
  have hstreams : (r.step L (.setup level)).streams = r.streams ++ [""] := streams_setup _ _ _
  have hothers : r.handlers.filter (fun h => !h.marked) = [] := by
    rw [h.handlers]
    cases latestSetup? steps with
    | none => rfl
    | some level => rfl
  constructor
  case loggers =>
    rw [Loggers.after_append_singleton, ← h.loggers]
    exact loggers_setup _ _ _
  case handlers =>
    have hhandlers : (r.step L (.setup level)).handlers =
        r.handlers.filter (fun h => !h.marked) ++ [⟨true, level, isVerbose level, r.streams.length⟩] :=
      handlers_setup _ _ _
    rw [hsetup, hstreams, hhandlers, hothers, List.length_append]
    rfl
  case streams => simp [hsetup, hstreams]

theorem Routed.setLevel (h : Routed L steps r) (logger : String) (level : Level) :
    Routed L (steps ++ [.setLevel logger level]) (r.step L (.setLevel logger level)) := by
  have hsetup : latestSetup? (steps ++ [.setLevel logger level]) = latestSetup? steps :=
    latestSetup?_append_singleton _ _
  refine ⟨?_, by rw [hsetup]; exact h.handlers, by rw [hsetup]; exact h.streams⟩
  rw [Loggers.after_append_singleton, ← h.loggers]
  rfl

end Steps

theorem routed_run (L : Loggers σ) (steps : List Step) : Routed L steps (run L steps) := by
  induction steps using List.reverseRecOn with
  | nil => exact ⟨rfl, rfl, ⟨fun _ => rfl, fun _ => rfl⟩⟩
  | append_singleton steps s ih =>
      rw [run_append_singleton]
      cases s with
      | setup level => exact ih.setup level
      | setLevel logger level => exact ih.setLevel logger level
      | log event => exact ih.log event

/-! ## Streams -/

section Streams

variable {steps : List Step} {event : Event}

/-- A record that is due is added to the newest stream as one line. -/
theorem streams_of_isDue (hanswers : L.AnswersFor steps event) (hpos : 0 < event.level) (hdate : event.HasDate)
    {record : Record} (hrecord : event.record? = some record) {installed : Level} (hdue : IsDue steps event installed) :
    ∃ earlier current line, IsLine installed event.time record line ∧ (run L steps).streams = earlier ++ [current] ∧
      (run L (steps ++ [.log event])).streams = earlier ++ [current ++ line] := by
  have hrouted := routed_run L steps
  obtain ⟨earlier, current, hstreams⟩ := hrouted.exists_streams hdue.setup
  obtain ⟨line, hline⟩ := exists_lineOf? hdate (isVerbose installed) record
  have hreached : installed ≤ record.level := by
    obtain ⟨message, -, rfl⟩ := Option.map_eq_some_iff.mp hrecord
    exact hdue.reached
  refine ⟨earlier, current, line, lineOf?_eq_some_iff.mp hline, hstreams, ?_⟩
  have hasked : (L.ask (canonicalName event.logger) event.level (run L steps).loggers).1 = true := by
    rw [hrouted.loggers]
    exact (hanswers hpos).mpr hdue.logger
  have hlog : (run L (steps ++ [.log event])).streams = ((run L steps).log L event).streams := by
    rw [run_append_singleton]
    rfl
  rw [hlog, streams_log, if_pos hasked, hrecord]
  dsimp only
  rw [hrouted.streams_deliver hdue.setup hstreams, if_pos hreached, hline, Option.getD_some]

/-- Any other record leaves all streams as they are. -/
theorem streams_of_not_isDue (hanswers : L.AnswersFor steps event) (hpos : 0 < event.level)
    (hdue : ∀ installed, ¬ IsDue steps event installed) :
    (run L (steps ++ [.log event])).streams = (run L steps).streams := by
  have hrouted := routed_run L steps
  have hlog : (run L (steps ++ [.log event])).streams = ((run L steps).log L event).streams := by
    rw [run_append_singleton]
    rfl
  rw [hlog]
  cases hsetup : latestSetup? steps with
  | none => exact hrouted.streams_of_none hsetup event
  | some installed =>
      obtain ⟨earlier, current, hstreams⟩ := hrouted.exists_streams hsetup
      rw [streams_log]
      split
      · rename_i record hrecord
        obtain ⟨hasked, hrecord⟩ := Option.ite_none_right_eq_some.mp hrecord
        obtain ⟨message, -, rfl⟩ := Option.map_eq_some_iff.mp hrecord
        rw [hrouted.loggers] at hasked
        have hlow : ¬ installed ≤ event.level := fun hle => hdue installed ⟨hsetup, hle, (hanswers hpos).mp hasked⟩
        rw [hrouted.streams_deliver hsetup hstreams, if_neg hlow, String.append_empty, hstreams]
      · rfl

/-- A step does not touch the streams before the newest one. -/
theorem streams_step {older newer : List String} (hstreams : (run L steps).streams = older ++ newer) (hne : newer ≠ [])
    (s : Step) : ∃ newer', newer' ≠ [] ∧ (run L (steps ++ [s])).streams = older ++ newer' := by
  rw [run_append_singleton]
  cases s with
  | setup level =>
      refine ⟨newer ++ [""], by simp, ?_⟩
      rw [step, streams_setup, openStream, hstreams, List.append_assoc]
  | setLevel logger level => exact ⟨newer, hne, hstreams⟩
  | log event =>
      rcases (routed_run L steps).streams_log_cases event with heq | ⟨earlier, current, line, hbefore, hafter⟩
      · exact ⟨newer, hne, heq.trans hstreams⟩
      · obtain ⟨front, last, rfl⟩ := (List.eq_nil_or_concat newer).resolve_left hne
        rw [hstreams, List.concat_eq_append, ← List.append_assoc] at hbefore
        obtain ⟨rfl, hlast⟩ := List.append_inj' hbefore rfl
        exact ⟨front ++ [current ++ line], by simp, by rw [step, hafter, List.append_assoc]⟩

/-- Once a stream has been replaced, it keeps its contents. -/
theorem streams_of_replaced (L : Loggers σ) (steps : List Step) (level : Level) (more : List Step) :
    ∃ newer, newer ≠ [] ∧ (run L (steps ++ .setup level :: more)).streams = (run L steps).streams ++ newer := by
  induction more using List.reverseRecOn with
  | nil =>
      refine ⟨[""], List.cons_ne_nil _ _, ?_⟩
      rw [run_append_singleton, step, streams_setup]
      rfl
  | append_singleton more s ih =>
      obtain ⟨newer, hne, hstreams⟩ := ih
      rw [← List.cons_append, ← List.append_assoc]
      exact streams_step hstreams hne s

theorem installedCount_run (L : Loggers σ) (steps : List Step) :
    (run L steps).installedCount = if (latestSetup? steps).isSome then 1 else 0 := by
  rw [installedCount, (routed_run L steps).handlers]
  cases latestSetup? steps with
  | none => rfl
  | some level => rfl

end Streams

/-- Before the first set-up no handler is installed, and ever after exactly one. A set-up opens an empty stream, and what
was written to the streams before stays. A record of a positive level whose message has a text is written, when it is
due, once, to the newest stream; otherwise no stream changes. This holds for all loggers that answer for the record as
they are documented to. -/
theorem run_routes (L : Loggers σ) :
    (∀ steps : List Step, ((∀ level, Step.setup level ∉ steps) → (run L steps).installedCount = 0) ∧
      ∀ level, Step.setup level ∈ steps → (run L steps).installedCount = 1) ∧
    (∀ (steps : List Step) (level : Level), (run L (steps ++ [.setup level])).streams = (run L steps).streams ++ [""]) ∧
    (∀ (steps : List Step) (logger : String) (level : Level),
      (run L (steps ++ [.setLevel logger level])).streams = (run L steps).streams) ∧
    (∀ (steps : List Step) (level : Level) (more : List Step), ∃ newer, newer ≠ [] ∧
      (run L (steps ++ .setup level :: more)).streams = (run L steps).streams ++ newer) ∧
    ∀ (steps : List Step) (event : Event) (record : Record), L.AnswersFor steps event → event.HasDate →
      0 < event.level → event.record? = some record →
      (∀ installed, IsDue steps event installed → ∃ earlier current line, IsLine installed event.time record line ∧
        (run L steps).streams = earlier ++ [current] ∧
        (run L (steps ++ [.log event])).streams = earlier ++ [current ++ line]) ∧
      ((∀ installed, ¬ IsDue steps event installed) →
        (run L (steps ++ [.log event])).streams = (run L steps).streams) := by
  refine ⟨fun steps => ⟨fun hnone => ?_, fun level hmem => ?_⟩, fun steps level => ?_, fun steps logger level => ?_,
    streams_of_replaced L, fun steps event record hanswers hdate hpos hrecord =>
      ⟨fun installed hdue => streams_of_isDue hanswers hpos hdate hrecord hdue, streams_of_not_isDue hanswers hpos⟩⟩
  · rw [installedCount_run, latestSetup?_eq_none_iff.mpr hnone]
    rfl
  · have hsome : (latestSetup? steps).isSome := by
      rw [Option.isSome_iff_ne_none]
      exact fun hnone => latestSetup?_eq_none_iff.mp hnone level hmem
    rw [installedCount_run, if_pos hsome]
  · rw [run_append_singleton, step, streams_setup]
    rfl
  · rw [run_append_singleton]
    rfl

/-- A logger is used, then a level is set above it, and then a second stream is installed. -/
def secondStream : List Step :=
  [.setup 20, .log ⟨20, "chordsheet.cli", 1, "m", [], 0⟩, .setLevel "chordsheet" 30, .setup 30]

/-- After a second set-up one handler is installed, and a record goes to the second stream only. -/
theorem run_routes_second_stream :
    Step.setup 30 ∈ secondStream ∧ (run Registry.loggers secondStream).installedCount = 1 ∧
    Registry.loggers.AnswersFor secondStream ⟨30, "chordsheet.cli", 1, "m", [], 0⟩ ∧
    (⟨30, "chordsheet.cli", 1, "m", [], 0⟩ : Event).HasDate ∧
    IsDue secondStream ⟨30, "chordsheet.cli", 1, "m", [], 0⟩ 30 ∧
    ∃ earlier current line, IsLine 30 0 ⟨30, "chordsheet.cli", 1, "m"⟩ line ∧
      (run Registry.loggers secondStream).streams = earlier ++ [current] ∧
      (run Registry.loggers (secondStream ++ [.log ⟨30, "chordsheet.cli", 1, "m", [], 0⟩])).streams =
        earlier ++ [current ++ line] := by
  have hmem : Step.setup 30 ∈ secondStream := by simp [secondStream]
  have hlogger : Regular "chordsheet.cli" := ⟨by decide, by decide⟩
  have habove : Regular "chordsheet" := ⟨by decide, by decide⟩
  have hregular : Registry.RegularFor secondStream ⟨30, "chordsheet.cli", 1, "m", [], 0⟩ := by
    refine ⟨fun s hs => ?_, hlogger⟩
    simp only [secondStream, List.mem_cons, List.not_mem_nil, or_false] at hs
    rcases hs with rfl | rfl | rfl | rfl
    · trivial
    · exact fun _ => hlogger
    · exact fun _ => habove
    · trivial
  have hlevel : HasLevel (levelOf secondStream) (rootLevelOf secondStream) "chordsheet.cli"
      (levelOf secondStream "chordsheet") := by
    refine .nearest (Or.inr ⟨by decide, "cli".toList, rfl⟩) (by decide) fun b _ hb => ?_
    obtain ⟨logger, level, hset, rfl⟩ := exists_setLevel_of_levelOf hb
    simp only [secondStream, List.mem_cons, List.not_mem_nil, or_false, Step.setLevel.injEq, reduceCtorEq,
      false_or] at hset
    rw [hset.1]
    decide
  have hanswers := Registry.answersFor hregular
  have hdate : (⟨30, "chordsheet.cli", 1, "m", [], 0⟩ : Event).HasDate := by decide +kernel
  have hdue : IsDue secondStream ⟨30, "chordsheet.cli", 1, "m", [], 0⟩ 30 := ⟨rfl, by decide, _, hlevel, by decide⟩
  exact ⟨hmem, ((run_routes Registry.loggers).1 _).2 30 hmem, hanswers, hdate, hdue,
    ((run_routes Registry.loggers).2.2.2.2 _ _ _ hanswers hdate (by decide) rfl).1 30 hdue⟩

end Router

end LeadSheet.Log
