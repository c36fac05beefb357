import LeadSheet.Log.Router
import LeadSheet.Proofs.Log.Hierarchy
import Mathlib.Tactic.Common

/-!
# Which records a registry lets pass

The levels that have been set since the beginning say which records a logger lets pass: those that reach the level of
the nearest name at or above its own that has one, or else that of the root. Loggers may find their answers in any way.
A registry finds them in a tree of loggers, and in what these remember.

* `rootLevelOf`, `levelOf` : what the steps so far have set;
* `Loggers.AnswersFor steps event` : after the steps the loggers answer for a record as the levels say;
* `Registry.Follows steps r` : a registry has what the steps have set (`Registry.follows_after`);
* `Registry.Settled top r` : the loggers below a top stand in their places, and what they remember is what they would say
  now (`Registry.settled_after`);
* `Registry.answersFor` : so a registry answers as the levels say where names are regular.
-/

namespace LeadSheet.Log

/-! ## What has been set -/

namespace Step

def levelFor? (n : String) : Step → Option Level
  | .setLevel logger level => if canonicalName logger = n then some level else none
  | _ => none

def rootLevel? : Step → Option Level
  | .setup level => some level
  | step => step.levelFor? rootName

/-- The step names no logger below a top but a regular one. -/
def IsRegular (top : List Char) : Step → Prop
  | .setup _ => True
  | .setLevel logger _ => topOf (canonicalName logger) = top → Regular logger
  | .log event => topOf (canonicalName event.logger) = top → Regular event.logger

end Step

/-- What is read off the latest step that has it. -/
def latest? {α : Type} (read : Step → Option α) (steps : List Step) : Option α := steps.reverse.findSome? read

def rootLevelOf (steps : List Step) : Level := (latest? Step.rootLevel? steps).getD .warning

def levelOf (steps : List Step) (n : String) : Level :=
  if n = rootName then 0 else (latest? (Step.levelFor? n) steps).getD 0

section History

variable {steps : List Step} {step : Step}

theorem latest?_append_singleton {α : Type} (read : Step → Option α) (steps : List Step) (step : Step) :
    latest? read (steps ++ [step]) = (read step).or (latest? read steps) := by
  rw [latest?, List.reverse_append, List.reverse_singleton, List.singleton_append, List.findSome?_cons, latest?]
  cases read step with
  | none => rfl
  | some a => rfl

theorem levelOf_append_setup (level : Level) (n : String) : levelOf (steps ++ [.setup level]) n = levelOf steps n := by
  rw [levelOf, latest?_append_singleton]
  rfl

theorem levelOf_append_log (event : Event) (n : String) : levelOf (steps ++ [.log event]) n = levelOf steps n := by
  rw [levelOf, latest?_append_singleton]
  rfl

theorem levelOf_append_setLevel {n : String} (hn : n ≠ rootName) (logger : String) (level : Level) :
    levelOf (steps ++ [.setLevel logger level]) n = if n = canonicalName logger then level else levelOf steps n := by
  rw [levelOf, if_neg hn, latest?_append_singleton, levelOf, if_neg hn, Step.levelFor?]
  by_cases hname : canonicalName logger = n
  · rw [if_pos hname, if_pos hname.symm]
    rfl
  · rw [if_neg hname, if_neg (Ne.symm hname)]
    rfl

/-- A name has a level only if a step has set it. -/
theorem exists_setLevel_of_levelOf {n : String} (h : levelOf steps n ≠ 0) :
    ∃ logger level, Step.setLevel logger level ∈ steps ∧ canonicalName logger = n := by
  unfold levelOf at h
  split at h
  · exact absurd rfl h
  · cases hlatest : latest? (Step.levelFor? n) steps with
    | none => exact absurd (by rw [hlatest]; rfl) h
    | some level =>
        obtain ⟨step, hstep, hlevel⟩ := List.exists_of_findSome?_eq_some hlatest
        cases step with
        | setup level => exact absurd hlevel (by simp [Step.levelFor?])
        | setLevel logger level =>
            refine ⟨logger, level, List.mem_reverse.mp hstep, ?_⟩
            by_contra hname
            simp [Step.levelFor?, hname] at hlevel
        | log event => exact absurd hlevel (by simp [Step.levelFor?])

end History

theorem canonicalName_ne_empty (name : String) : canonicalName name ≠ "" := by
  unfold canonicalName
  split
  · decide
  · rename_i h
    rintro rfl
    exact h (by decide)

theorem Regular.canonicalName {name : String} (h : Regular name) : Regular (canonicalName name) := by
  unfold Log.canonicalName
  split
  · exact ⟨by decide, by decide⟩
  · exact h

namespace Loggers

variable {σ : Type}

def step (L : Loggers σ) (s : σ) : Step → σ
  | .setup level => L.setLevel rootName level s
  | .setLevel logger level => L.setLevel (canonicalName logger) level s
  | .log event => (L.ask (canonicalName event.logger) event.level s).2

def after (L : Loggers σ) (steps : List Step) : σ := steps.foldl L.step L.initial

theorem after_append_singleton (L : Loggers σ) (steps : List Step) (s : Step) :
    L.after (steps ++ [s]) = L.step (L.after steps) s := by
  rw [after, List.foldl_append]
  rfl

/-- After some steps the loggers answer for a record as they are documented to: its logger lets a record of a positive
level pass just when it reaches the level that the steps give the logger. -/
def AnswersFor (L : Loggers σ) (steps : List Step) (event : Event) : Prop :=
  0 < event.level → ((L.ask (canonicalName event.logger) event.level (L.after steps)).1 = true ↔
    ∃ level, HasLevel (levelOf steps) (rootLevelOf steps) (canonicalName event.logger) level ∧ level ≤ event.level)

end Loggers

/-! ## Registries -/

namespace Registry

section Steps

variable {r : Registry} {steps : List Step} {name : String} {top : List Char}

theorem use_eq (r : Registry) (name : String) : r.use name = { r with hierarchy := (r.use name).hierarchy } := by
  unfold use
  split
  · rfl
  · rfl

theorem hierarchy_use (r : Registry) (name : String) :
    (r.use name).hierarchy = if name = rootName then r.hierarchy else r.hierarchy.use name := by
  unfold use
  split
  · rfl
  · rfl

theorem levelAt_use (r : Registry) (name n : String) : (r.use name).hierarchy.levelAt n = r.hierarchy.levelAt n := by
  rw [hierarchy_use]
  split
  · rfl
  · exact Hierarchy.levelAt_use n

/-! ### The state against the steps -/

/-- The registry has what the steps have set. -/
structure Follows (steps : List Step) (r : Registry) : Prop where
  rootLevel : r.rootLevel = rootLevelOf steps
  root_unused : r.hierarchy.isUsed rootName = false
  levels : ∀ n, r.hierarchy.levelAt n = levelOf steps n

theorem isUsed_rootName_use (h : r.hierarchy.isUsed rootName = false) (name : String) :
    (r.use name).hierarchy.isUsed rootName = false := by
  rw [hierarchy_use]
  split
  · exact h
  · rename_i hname
    rw [Bool.eq_false_iff]
    intro hused
    rcases (Hierarchy.isUsed_use rootName).mp hused with heq | hused
    · exact hname heq.symm
    · rw [h] at hused
      exact absurd hused (by decide)

theorem Follows.log (h : Follows steps r) (event : Event) :
    Follows (steps ++ [.log event]) (loggers.step r (.log event)) := by
  have hroot : latest? Step.rootLevel? (steps ++ [.log event]) = latest? Step.rootLevel? steps := by
    rw [latest?_append_singleton]
    rfl
  constructor
  case rootLevel =>
    rw [rootLevelOf, hroot]
    show (r.use (canonicalName event.logger)).rootLevel = _
    rw [use_eq]
    exact h.rootLevel
  case root_unused => exact isUsed_rootName_use h.root_unused _
  case levels =>
    intro n
    rw [levelOf_append_log, ← h.levels n]
    exact levelAt_use r _ n

/-- Setting the level of the root, by a set-up or by its name. -/
theorem Follows.setRoot (h : Follows steps r) {s : Step} {level : Level} (hs : s.rootLevel? = some level)
    (hlevels : ∀ n, levelOf (steps ++ [s]) n = levelOf steps n) :
    Follows (steps ++ [s]) (r.setLevel rootName level) := by
  rw [setLevel, if_pos rfl]
  refine ⟨?_, h.root_unused, fun n => (h.levels n).trans (hlevels n).symm⟩
  rw [rootLevelOf, latest?_append_singleton, hs]
  rfl

theorem Follows.setLevel (h : Follows steps r) (logger : String) (level : Level) :
    Follows (steps ++ [.setLevel logger level]) (loggers.step r (.setLevel logger level)) := by
  have hrootname : ∀ steps, levelOf steps rootName = 0 := fun steps => if_pos rfl
  show Follows _ (r.setLevel (canonicalName logger) level)
  by_cases hname : canonicalName logger = rootName
  · rw [hname]
    refine h.setRoot (if_pos hname) fun n => ?_
    by_cases hn : n = rootName
    · rw [hn, hrootname, hrootname]
    · rw [levelOf_append_setLevel hn, if_neg (hname ▸ hn)]
  · have hused : (r.hierarchy.use (canonicalName logger)).isUsed (canonicalName logger) = true :=
      (Hierarchy.isUsed_use _).mpr (Or.inl rfl)
    have hroot : Step.rootLevel? (.setLevel logger level) = none := if_neg hname
    rw [Registry.setLevel, if_neg hname]
    refine ⟨?_, ?_, fun n => ?_⟩
    · rw [rootLevelOf, latest?_append_singleton, hroot]
      exact h.rootLevel
    · have hunused := isUsed_rootName_use h.root_unused (canonicalName logger)
      rw [hierarchy_use, if_neg hname] at hunused
      simpa only [Hierarchy.isUsed_setLevel] using hunused
    · simp only [Hierarchy.levelAt_setLevel hused, Hierarchy.levelAt_use]
      by_cases hn : n = rootName
      · rw [if_neg (hn ▸ Ne.symm hname), hn, hrootname, ← hrootname steps]
        exact h.levels rootName
      · rw [levelOf_append_setLevel hn, h.levels n]

/-- A registry has what the steps have set. -/
theorem follows_after (steps : List Step) : Follows steps (loggers.after steps) := by
  induction steps using List.reverseRecOn with
  | nil =>
      have hlevel : ∀ n, levelOf [] n = 0 := fun n => ite_self _
      exact ⟨rfl, rfl, fun n => (hlevel n).symm⟩
  | append_singleton steps s ih =>
      rw [Loggers.after_append_singleton]
      cases s with
      | setup level => exact ih.setRoot rfl (levelOf_append_setup level)
      | setLevel logger level => exact ih.setLevel logger level
      | log event => exact ih.log event

/-! ### What loggers remember -/

/-- The loggers below a top stand in their places, and what one remembers is what it would say now. -/
structure Settled (top : List Char) (r : Registry) : Prop where
  placed : r.hierarchy.Placed top
  answers : ∀ n level answer, topOf n = top → r.answers.lookup (n, level) = some answer →
    (r.hierarchy.isUsed n = true ∨ n = rootName) ∧ answer = r.reaches n level

theorem isUsed_use_self (r : Registry) (name : String) :
    (r.use name).hierarchy.isUsed name = true ∨ name = rootName := by
  rw [hierarchy_use]
  split
  · rename_i hname
    exact Or.inr hname
  · exact Or.inl ((Hierarchy.isUsed_use name).mpr (Or.inl rfl))

theorem isUsed_use_of_isUsed {n : String} (hn : r.hierarchy.isUsed n = true ∨ n = rootName) (name : String) :
    (r.use name).hierarchy.isUsed n = true ∨ n = rootName := by
  refine hn.imp_left fun hn => ?_
  rw [hierarchy_use]
  split
  · exact hn
  · exact (Hierarchy.isUsed_use n).mpr (Or.inr hn)

theorem placed_use (h : r.hierarchy.Placed top) (hname : topOf name = top → Regular name) (hne : name ≠ "") :
    (r.use name).hierarchy.Placed top := by
  rw [hierarchy_use]
  split
  · exact h
  · rename_i hroot
    exact h.use hname hroot hne

/-- Loggers in their places keep their levels when a name comes into use, because this one has none. -/
theorem effectiveLevel_use (h : r.hierarchy.Placed top) (hname : topOf name = top → Regular name) (hne : name ≠ "")
    {n : String} (htop : topOf n = top) (hn : r.hierarchy.isUsed n = true ∨ n = rootName) :
    (r.use name).effectiveLevel n = r.effectiveLevel n := by
  have hbefore := h.hasLevel r.rootLevel htop hn
  have hafter := (placed_use h hname hne).hasLevel (r.use name).rootLevel htop (isUsed_use_of_isUsed hn name)
  have hlevels : (r.use name).hierarchy.levelAt = r.hierarchy.levelAt := funext (levelAt_use r name)
  have hroot : (r.use name).rootLevel = r.rootLevel := by rw [use_eq]
  rw [hlevels, hroot] at hafter
  rw [effectiveLevel, effectiveLevel, hroot]
  exact hafter.unique hbefore

theorem Settled.use (h : Settled top r) (hname : topOf name = top → Regular name) (hne : name ≠ "") :
    Settled top (r.use name) where
  placed := placed_use h.placed hname hne
  answers n level answer htop hlookup := by
    rw [use_eq] at hlookup
    obtain ⟨hn, rfl⟩ := h.answers n level answer htop hlookup
    refine ⟨isUsed_use_of_isUsed hn name, ?_⟩
    rw [reaches, reaches, effectiveLevel_use h.placed hname hne htop hn]

/-- A logger that remembers something remembers the right thing, and one that does not asks. -/
theorem Settled.answer_eq (h : Settled top r) {n : String} (htop : topOf n = top) (level : Level) :
    r.answer n level = r.reaches n level := by
  rw [Registry.answer]
  cases hlookup : r.answers.lookup (n, level) with
  | none => rfl
  | some answer => exact (h.answers n level answer htop hlookup).2

theorem Settled.remember (h : Settled top r) (hname : r.hierarchy.isUsed name = true ∨ name = rootName)
    (level : Level) : Settled top (r.remember name level) where
  placed := h.placed
  answers n level' answer htop hlookup := by
    simp only [Registry.remember, List.lookup_cons] at hlookup
    split at hlookup
    · rename_i heq
      obtain ⟨rfl, rfl⟩ := Prod.mk.inj (beq_iff_eq.mp heq)
      rw [h.answer_eq htop] at hlookup
      exact ⟨hname, (Option.some.inj hlookup).symm⟩
    · exact h.answers n level' answer htop hlookup

theorem Settled.step (h : Settled top r) {s : Step} (hs : s.IsRegular top) : Settled top (loggers.step r s) := by
  cases s with
  | setup level => exact ⟨h.placed, fun n level' answer _ hlookup => absurd hlookup (by simp [Loggers.step, loggers, setLevel])⟩
  | setLevel logger level =>
      show Settled top (r.setLevel (canonicalName logger) level)
      rw [Registry.setLevel]
      split
      · exact ⟨h.placed, fun n level' answer _ hlookup => by simp at hlookup⟩
      · rename_i hroot
        have hplaced := h.placed.use (fun htop => (hs htop).canonicalName) hroot (canonicalName_ne_empty logger)
        exact ⟨hplaced.setLevel _ _, fun n level' answer _ hlookup => by simp at hlookup⟩
  | log event =>
      have huse := h.use (fun htop => (hs htop).canonicalName) (canonicalName_ne_empty event.logger)
      exact huse.remember (isUsed_use_self r (canonicalName event.logger)) event.level

theorem settled_after (hsteps : ∀ s ∈ steps, s.IsRegular top) : Settled top (loggers.after steps) := by
  induction steps using List.reverseRecOn with
  | nil => exact ⟨Hierarchy.placed_empty top, fun n level answer _ hlookup => by simp [Loggers.after, loggers] at hlookup⟩
  | append_singleton steps s ih =>
      rw [List.forall_mem_append, List.forall_mem_singleton] at hsteps
      rw [Loggers.after_append_singleton]
      exact (ih hsteps.1).step hsteps.2

/-! ### Answers -/

/-- The names that matter for an event are regular: its own, and those that the steps use below the same top. -/
structure RegularFor (steps : List Step) (event : Event) : Prop where
  steps : ∀ s ∈ steps, s.IsRegular (topOf (canonicalName event.logger))
  logger : Regular event.logger

/-- A registry answers for a record as the levels say. -/
theorem answersFor {event : Event} (hregular : RegularFor steps event) : loggers.AnswersFor steps event := by
  intro hpos
  have hfollows := follows_after steps
  have hsettled := (settled_after hregular.steps).use (fun _ => hregular.logger.canonicalName)
    (canonicalName_ne_empty event.logger)
  have hlevel := hsettled.placed.hasLevel (rootLevelOf steps) rfl
    (isUsed_use_self (loggers.after steps) (canonicalName event.logger))
  have hlevels : ((loggers.after steps).use (canonicalName event.logger)).hierarchy.levelAt = levelOf steps :=
    funext fun n => (levelAt_use (loggers.after steps) _ n).trans (hfollows.levels n)
  have hroot : ((loggers.after steps).use (canonicalName event.logger)).rootLevel = rootLevelOf steps := by
    rw [use_eq]
    exact hfollows.rootLevel
  rw [hlevels] at hlevel
  show ((loggers.after steps).use _).answer _ _ = true ↔ _
  rw [hsettled.answer_eq rfl, reaches, Bool.and_eq_true, decide_eq_true_eq, decide_eq_true_eq, effectiveLevel, hroot]
  constructor
  · rintro ⟨-, hle⟩
    exact ⟨_, hlevel, hle⟩
  · rintro ⟨level, hhas, hle⟩
    rw [hlevel.unique hhas]
    exact ⟨hpos, hle⟩

end Steps

end Registry

end LeadSheet.Log
