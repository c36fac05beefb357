import LeadSheet.Command.Reader
import LeadSheet.Proofs.Command.Runs
import Mathlib.Tactic.Common

/-!
# The reader of command lines

The reader has the properties that the commands rely on.

* `reader_checksFiles` : it calls a command only for files that are there and may be read, because it examines all
  parameters (`parameterFault?_of_firstFault?`);
* `reader_readsVerbose` : the option before a command is all that is read differently;
* `reader_echoesPart`, `reader_echoesPlain` : it leaves control sequences out, and nothing of a text without any.
-/

namespace LeadSheet.Command

/-! ## Files -/

section Files

variable {look : SystemText → Option Sight} {environment : Option SystemText} {name : CommandName} {line : Scanned}

theorem look_of_fileFault? {parameter : String} {path : SystemText} (h : fileFault? (m := Id) look parameter path = none) :
    look path = some (.file true) := by
  rw [fileFault?] at h
  cases hlook : look path with
  | none => rw [hlook] at h; exact absurd h (Option.some_ne_none _)
  | some sight =>
      rw [hlook] at h
      cases sight with
      | directory => exact absurd h (Option.some_ne_none _)
      | file readable =>
          cases readable with
          | false => exact absurd h (Option.some_ne_none _)
          | true => rfl

/-- Where no fault is found, no parameter has one. -/
theorem parameterFault?_of_firstFault? {ps : List Parameter} (h : firstFault? (m := Id) look environment name line ps = none) :
    ∀ p ∈ ps, parameterFault? (m := Id) look environment name line p = none := by
  induction ps with
  | nil => exact List.forall_mem_nil _
  | cons p ps ih =>
      rw [firstFault?] at h
      cases hp : parameterFault? (m := Id) look environment name line p with
      | some e => rw [hp] at h; exact absurd h (Option.some_ne_none _)
      | none =>
          rw [hp] at h
          exact List.forall_mem_cons.mpr ⟨hp, ih h⟩

theorem database_mem_parameters (line : Scanned) (name : CommandName) : .option .database ∈ line.parameters name := by
  refine List.mem_append_right _ (List.mem_cons_of_mem _ (List.mem_map_of_mem ?_))
  cases name with
  | render => exact List.mem_cons_self
  | chords => exact List.mem_cons_self
  | diagram => exact List.mem_cons_self

/-- The files that are to be read have been looked at. -/
theorem look_inputs {request : Request} (hrequest : line.request name environment = .ok request)
    (hfaults : ∀ p ∈ line.parameters name, parameterFault? (m := Id) look environment name line p = none) :
    ∀ path ∈ request.inputs, look path = some (.file true) := by
  have hargument := hfaults .argument (List.mem_append_right _ List.mem_cons_self)
  have hdatabase := hfaults (.option .database) (database_mem_parameters line name)
  rw [Scanned.request] at hrequest
  unfold parameterFault? at hargument hdatabase
  dsimp only at hargument hdatabase
  split at hrequest
  · exact absurd hrequest (by simp)
  · rename_i argument extra harguments
    rw [harguments] at hargument
    dsimp only at hargument
    split at hrequest
    · exact absurd hrequest (by simp)
    · rename_i database hnamed
      rw [hnamed] at hdatabase
      have hdatabase := look_of_fileFault? hdatabase
      split at hrequest
      · exact absurd hrequest (by simp)
      · obtain rfl := Except.ok.inj hrequest
        cases name with
        | render =>
            exact List.forall_mem_cons.mpr ⟨look_of_fileFault? hargument, List.forall_mem_singleton.mpr hdatabase⟩
        | chords =>
            exact List.forall_mem_cons.mpr ⟨look_of_fileFault? hargument, List.forall_mem_singleton.mpr hdatabase⟩
        | diagram => exact List.forall_mem_singleton.mpr hdatabase

end Files

theorem misuse_ne_call (command : Option CommandName) (e : UsageError) (verbose : Bool) (request : Request) :
    misuse command e ≠ .call verbose request := by
  rw [misuse]
  exact Reading.noConfusion

theorem reader_checksFiles : reader.ChecksFiles := by
  intro look environment arguments verbose request hread
  have hread : readLine (m := Id) look environment arguments = .call verbose request := hread
  rw [readLine] at hread
  split at hread
  · exact absurd hread Reading.noConfusion
  · exact absurd hread Reading.noConfusion
  · exact absurd hread Reading.noConfusion
  · exact absurd hread (misuse_ne_call _ _ _ _)
  · rename_i verbose' name line _
    rw [readCommand] at hread
    cases hfault : firstFault? (m := Id) look environment name line (line.parameters name) with
    | some e => rw [hfault] at hread; exact absurd hread (misuse_ne_call _ _ _ _)
    | none =>
        rw [hfault] at hread
        cases hrequest : line.request name environment with
        | error e => rw [hrequest] at hread; exact absurd hread (misuse_ne_call _ _ _ _)
        | ok found =>
            rw [hrequest] at hread
            obtain ⟨-, rfl⟩ := Reading.call.inj hread
            exact look_inputs hrequest (parameterFault?_of_firstFault? hfault)

/-! ## The verbose option -/

theorem CommandName.scan_name (name : CommandName) (rest : List SystemText) :
    scan leadingOptions false (SystemText.ofString name.name :: rest) =
      .ok { arguments := SystemText.ofString name.name :: rest } := by
  cases name with
  | render => rfl
  | chords => rfl
  | diagram => rfl

theorem CommandName.ofName?_name (name : CommandName) : ofName? (SystemText.ofString name.name) = some name := by
  cases name with
  | render => rfl
  | chords => rfl
  | diagram => rfl

namespace Invocation

theorem read_command (name : CommandName) (rest : List SystemText) :
    read (SystemText.ofString name.name :: rest) = ofCommand false name rest := by
  rw [read, CommandName.scan_name]
  simp [immediate?, CommandName.ofName?_name, Scanned.has]

theorem read_verbose_command (name : CommandName) (rest : List SystemText) :
    read (SystemText.ofString "-v" :: SystemText.ofString name.name :: rest) = ofCommand true name rest := by
  have hscan : scan leadingOptions false (SystemText.ofString "-v" :: SystemText.ofString name.name :: rest) =
      (scan leadingOptions false (SystemText.ofString name.name :: rest)).map (Scanned.add [⟨.verbose, []⟩] []) := rfl
  rw [read, hscan, CommandName.scan_name]
  simp [immediate?, CommandName.ofName?_name, Scanned.has, Scanned.add, Except.map]

/-- A command line for a command is read as one command, or else in the same way whether it is verbose or not. -/
theorem ofCommand_cases (name : CommandName) (rest : List SystemText) :
    (∃ line, ∀ verbose, ofCommand verbose name rest = .command verbose name line) ∨
      ∃ invocation, (∀ verbose, ofCommand verbose name rest = invocation) ∧
        ∀ verbose name line, invocation ≠ .command verbose name line := by
  unfold ofCommand
  cases scan name.options true rest with
  | error e => exact Or.inr ⟨.misuse (some name) e, fun _ => rfl, by simp⟩
  | ok line =>
      dsimp only
      cases h : immediate? (some name) line.uses with
      | none => exact Or.inl ⟨line, fun _ => rfl⟩
      | some invocation =>
          refine Or.inr ⟨invocation, fun _ => rfl, fun verbose name' line' heq => ?_⟩
          subst heq
          obtain ⟨u, -, hu⟩ := List.exists_of_findSome?_eq_some h
          split at hu
          · exact absurd hu (by simp)
          · exact absurd hu (by simp)
          · exact absurd hu (by simp)

end Invocation

theorem reader_readsVerbose : reader.ReadsVerbose := by
  intro look environment name rest
  show readLine (m := Id) look environment _ = (readLine (m := Id) look environment _).verbosely
  rw [readLine, readLine, Invocation.read_command, Invocation.read_verbose_command]
  rcases Invocation.ofCommand_cases name rest with ⟨line, hread⟩ | ⟨invocation, hread, hne⟩
  · rw [hread, hread]
    dsimp only
    rw [readCommand, readCommand]
    cases firstFault? (m := Id) look environment name line (line.parameters name) with
    | some e => rfl
    | none =>
        cases line.request name environment with
        | error e => rfl
        | ok request => rfl
  · rw [hread, hread]
    cases invocation with
    | command verbose name line => exact absurd rfl (hne verbose name line)
    | _ => rfl

/-! ## Printing -/

theorem reader_echoesPart : reader.EchoesPart := by
  intro terminal text
  cases terminal with
  | true => exact List.Sublist.refl text
  | false => exact dropControls_sublist text

theorem reader_echoesPlain : reader.EchoesPlain := by
  rintro terminal text (rfl | hescape)
  · rfl
  · cases terminal with
    | true => rfl
    | false => exact dropControls_of_not_mem hescape

/-- A text without escape characters is printed as it is, and so is all that goes to a terminal. -/
theorem line?_of_plain {I : Interface} (hecho : I.EchoesPlain) {terminal : Bool} {text : String}
    (hplain : terminal = true ∨ '\x1b' ∉ text.toList) :
    I.line? terminal (SystemText.ofString text) = some (text ++ "\n") := by
  have hline : SystemText.ofString text ++ [.char '\n'] = SystemText.ofString (text ++ "\n") :=
    (SystemText.ofString_append text "\n").symm
  have hescape : terminal = true ∨ SystemChar.char '\x1b' ∉ SystemText.ofString (text ++ "\n") := by
    refine hplain.imp_right fun hnot hmem => ?_
    obtain ⟨c, hc, heq⟩ := List.mem_map.mp hmem
    obtain rfl := SystemChar.char.inj heq
    rw [String.toList_append, List.mem_append] at hc
    exact hc.elim hnot (by decide)
  rw [Interface.line?, hline, hecho terminal _ hescape, SystemText.toString?_ofString]

/-- A text that is printed as it is, to what is no terminal, has no control sequences. -/
theorem afterControl?_of_line? {text : String} (h : reader.line? false (SystemText.ofString text) = some (text ++ "\n"))
    {rest : SystemText} (hsuffix : .char '\x1b' :: rest <:+ SystemText.ofString (text ++ "\n")) :
    afterControl? rest = none := by
  have hline : dropControls (SystemText.ofString text ++ [.char '\n']) = SystemText.ofString (text ++ "\n") :=
    SystemText.toString?_eq_some_iff.mp h
  rw [SystemText.ofString_append] at hline hsuffix
  exact dropControls_eq_self_iff.mp hline rest hsuffix

end LeadSheet.Command
