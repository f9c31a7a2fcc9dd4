import ConfigSnapshot.Command.Run
import ConfigSnapshot.Proofs.Command.Slots
import ConfigSnapshot.Proofs.Conversion.Reports
import ConfigSnapshot.Proofs.Text.Bytes

/-!
# What the command does

Refused arguments leave everything as it is, and a text that is asked for is the same in every
tree. Otherwise a directory was given and is converted, and the exit code tells whether that
failed. So a file can change only when a directory is given without a dry run.
-/

namespace ConfigSnapshot
namespace Command

open Conversion

/-- Whether a request is answered by a text alone. -/
def Request.showsText : Request → Bool
  | .help | .version => true
  | .run options => options.asksForText

/-- Whether a switch asks for a text. -/
def Switch.showsText : Switch → Bool
  | .help | .version | .manual | .markdown => true
  | .verbose | .dryRun => false

/-- Whether arguments ask for a text: by a switch, or by naming a shell. -/
def AsksForText (arguments : List String) : Prop :=
  (∃ switch : Switch, switch.showsText = true ∧ switch.occursIn arguments = true) ∨
    Slot.completion.valuesIn (given none arguments) ≠ []

/-- What is said at the end of a conversion that fails. -/
inductive IsReason (t : FileTree) (dir : String) : String → Prop
  | notADirectory (h : t.isDirectory dir = false) :
      IsReason t dir ("error: " ++ dir ++ " is not a directory\n")
  | notText {modules : List Bytes} {path : Bytes} (modulesIn : modulesIn t dir = .ok modules)
      (mem : path ∈ modules) (holdsNoText : HoldsNoText t path) :
      IsReason t dir ("nixops4-snapshot-convert error: reading module file " ++ path.display ++
        "\n\nCaused by:\n    stream did not contain valid UTF-8\n")

theorem explain_notADirectory (path : Bytes) :
    explain (.notADirectory path) = "error: " ++ path.display ++ " is not a directory\n" := by
  have hend : " is not a directory" ++ "\n" = " is not a directory\n" := by decide
  calc explain (.notADirectory path)
      = "error: " ++ (path.display ++ " is not a directory") ++ "\n" := rfl
    _ = "error: " ++ path.display ++ (" is not a directory" ++ "\n") := by
        simp only [String.append_assoc]
    _ = _ := by rw [hend]

theorem explain_reading_notText (path : Bytes) :
    explain (.reading path .notText) =
      "nixops4-snapshot-convert error: reading module file " ++ path.display ++
        "\n\nCaused by:\n    stream did not contain valid UTF-8\n" := by
  have hhead : "nixops4-snapshot-convert error: " ++ "reading module file " =
      "nixops4-snapshot-convert error: reading module file " := by decide
  have hcause : "\n" ++ ("\nCaused by:\n    " ++ ("stream did not contain valid UTF-8" ++ "\n")) =
      "\n\nCaused by:\n    stream did not contain valid UTF-8\n" := by decide
  calc explain (.reading path .notText)
      = "nixops4-snapshot-convert error: " ++ ("reading module file " ++ path.display) ++ "\n" ++
          ("\nCaused by:\n    " ++ "stream did not contain valid UTF-8" ++ "\n") := rfl
    _ = ("nixops4-snapshot-convert error: " ++ "reading module file ") ++ path.display ++
          ("\n" ++ ("\nCaused by:\n    " ++ ("stream did not contain valid UTF-8" ++ "\n"))) := by
        simp only [String.append_assoc]
    _ = _ := by rw [hhead, hcause]

theorem isReason_of_failsBy {t : FileTree} {dir : String} {failure : Failure}
    (h : FailsBy t dir failure) : IsReason t dir (explain failure) := by
  cases h with
  | notADirectory hdir =>
      rw [explain_notADirectory, Bytes.display_ofString]
      exact .notADirectory hdir
  | notText hmodules hmem hnot =>
      rw [explain_reading_notText]
      exact .notText hmodules hmem hnot

/-- The answer of a conversion: it fails by a wrong directory or by a module that holds no text,
and the error stream names no other failure. -/
structure IsConverted (around : Surroundings) (t : FileTree) (options : Options) (mode : Mode)
    (dir : String) (answer : Answer) : Prop where
  tree : answer.tree = (convertIn t mode dir).tree
  stdout : answer.stdout = (convertIn t mode dir).output
  exitCode_eq : answer.exitCode = 0 ∨ answer.exitCode = 1
  exitCode_eq_one_iff : answer.exitCode = 1 ↔ t.isDirectory dir = false ∨
    ∃ modules, modulesIn t dir = .ok modules ∧ ∃ path ∈ modules, HoldsNoText t path
  stderr_of_zero : answer.exitCode = 0 →
    answer.stderr = options.log around (convertIn t mode dir)
  stderr_of_one : answer.exitCode = 1 → ∃ reason, IsReason t dir reason ∧
    answer.stderr = options.log around (convertIn t mode dir) ++ reason

theorem isConverted_convert (around : Surroundings) (t : FileTree) (options : Options)
    (dir : String) :
    IsConverted around t options options.mode dir (convert around t options dir) := by
  cases hresult : (convertIn t options.mode dir).result with
  | ok summary =>
      have hanswer : convert around t options dir = ⟨0, (convertIn t options.mode dir).output,
          options.log around (convertIn t options.mode dir),
          (convertIn t options.mode dir).tree⟩ := by
        simp only [convert, hresult]
      have hnot : ¬ ∃ failure, FailsBy t dir failure := by
        rintro ⟨failure, hfails⟩
        obtain ⟨other, hother⟩ := exists_result_of_failsBy options.mode hfails
        rw [hresult] at hother
        cases hother
      rw [hanswer]
      refine ⟨rfl, rfl, Or.inl rfl, ?_, fun _ ↦ rfl, fun hone ↦ absurd hone Nat.zero_ne_one⟩
      rw [← exists_failsBy_iff]
      exact iff_of_false Nat.zero_ne_one hnot
  | error failure =>
      have hanswer : convert around t options dir = ⟨1, (convertIn t options.mode dir).output,
          options.log around (convertIn t options.mode dir) ++ explain failure,
          (convertIn t options.mode dir).tree⟩ := by
        simp only [convert, hresult]
      have hfails := failsBy_of_result hresult
      rw [hanswer]
      refine ⟨rfl, rfl, Or.inr rfl, ?_, fun hzero ↦ absurd hzero Nat.one_ne_zero,
        fun _ ↦ ⟨_, isReason_of_failsBy hfails, rfl⟩⟩
      rw [← exists_failsBy_iff]
      exact iff_of_true rfl ⟨failure, hfails⟩

/-- The text that is shown if one is asked for. -/
def Options.text? (options : Options) : Option String :=
  if options.manual then some manualPage
  else if options.markdown then some markdownPage
  else options.completion?.map Shell.completion

theorem Options.isSome_text? (options : Options) :
    options.text?.isSome = options.asksForText := by
  unfold Options.text? Options.asksForText
  cases options.manual <;> cases options.markdown <;> simp

theorem runOptions_of_text? {options : Options} {text : String} (h : options.text? = some text)
    (around : Surroundings) (t : FileTree) : runOptions around t options = .text t text := by
  unfold Options.text? at h
  split at h
  · next hmanual =>
      obtain rfl := Option.some.inj h
      simp only [runOptions, hmanual, if_true]
  · next hmanual =>
      split at h
      · next hmarkdown =>
          obtain rfl := Option.some.inj h
          simp only [runOptions, hmanual, hmarkdown, if_true, Bool.false_eq_true, if_false]
      · next hmarkdown =>
          obtain ⟨shell, hshell, rfl⟩ := Option.map_eq_some_iff.mp h
          simp only [runOptions, hmanual, hmarkdown, hshell, Bool.false_eq_true, if_false]

theorem exists_text_of_asksForText {options : Options} (h : options.asksForText = true)
    (around : Surroundings) : ∃ text, ∀ t, runOptions around t options = .text t text := by
  obtain ⟨text, htext⟩ := Option.isSome_iff_exists.mp (options.isSome_text?.trans h)
  exact ⟨text, runOptions_of_text? htext around⟩

theorem runOptions_of_directory {options : Options} {dir : String}
    (h : options.asksForText = false) (hdir : options.directory? = some dir)
    (around : Surroundings) (t : FileTree) :
    runOptions around t options = convert around t options dir := by
  simp only [Options.asksForText, Bool.or_eq_false_iff, Option.isSome_eq_false_iff,
    Option.isNone_iff_eq_none] at h
  obtain ⟨⟨hmanual, hmarkdown⟩, hcompletion⟩ := h
  simp only [runOptions, hmanual, hmarkdown, hcompletion, hdir, Bool.false_eq_true, if_false]

theorem Options.AreGivenBy.mode_eq {options : Options} {arguments : List String}
    (h : options.AreGivenBy arguments) :
    options.mode = if Switch.dryRun.occursIn arguments then .dryRun else .write := by
  rw [← h.isOn .dryRun]
  rfl

section parse

variable {arguments : List String} {request : Request}

theorem Request.showsText_of_occursIn (h : parse arguments = .ok request) {switch : Switch}
    (hswitch : switch.showsText = true) (hoccurs : switch.occursIn arguments = true) :
    request.showsText = true := by
  cases request with
  | help => rfl
  | version => rfl
  | run options =>
      rw [← (Options.areGivenBy_of_parse h).isOn switch] at hoccurs
      cases switch with
      | verbose | dryRun => cases hswitch
      | help | version => cases hoccurs
      | manual =>
          have hmanual : options.manual = true := hoccurs
          simp [Request.showsText, Options.asksForText, hmanual]
      | markdown =>
          have hmarkdown : options.markdown = true := hoccurs
          simp [Request.showsText, Options.asksForText, hmarkdown]

/-- The request shows a text if the arguments ask for one. -/
theorem Request.showsText_iff (h : parse arguments = .ok request) :
    request.showsText = true ↔ AsksForText arguments := by
  cases request with
  | help => exact iff_of_true rfl (Or.inl ⟨.help, rfl, Switch.occursIn_of_parse rfl h⟩)
  | version => exact iff_of_true rfl (Or.inl ⟨.version, rfl, Switch.occursIn_of_parse rfl h⟩)
  | run options =>
      have hgiven := Options.areGivenBy_of_parse h
      have hcompletion : Slot.completion.valuesIn (given none arguments) ≠ [] ↔
          options.completion?.isSome = true := by
        rw [ne_eq, ← List.map_eq_nil_iff, hgiven.holds.completion]
        cases options.completion? <;> simp
      constructor
      · intro hshows
        simp only [Request.showsText, Options.asksForText, Bool.or_eq_true] at hshows
        rcases hshows with (hmanual | hmarkdown) | hshell
        · exact Or.inl ⟨.manual, rfl, (hgiven.isOn .manual).symm.trans hmanual⟩
        · exact Or.inl ⟨.markdown, rfl, (hgiven.isOn .markdown).symm.trans hmarkdown⟩
        · exact Or.inr (hcompletion.mpr hshell)
      · rintro (⟨switch, hswitch, hoccurs⟩ | hshell)
        · exact Request.showsText_of_occursIn h hswitch hoccurs
        · rw [Request.showsText, Options.asksForText, hcompletion.mp hshell, Bool.or_true]

/-- A directory is given where a request shows no text. -/
theorem Options.AreGivenBy.exists_directory {options : Options}
    (h : options.AreGivenBy arguments) (hshows : options.asksForText = false) :
    ∃ dir, options.directory? = some dir ∧
      Slot.directory.valuesIn (given none arguments) = [dir] ∧ dir ≠ "" := by
  obtain ⟨dir, hdir⟩ := Option.isSome_iff_exists.mp (h.isSome_of_not_asksForText hshows)
  have hvalues := h.holds.directory
  rw [hdir] at hvalues
  refine ⟨dir, hdir, hvalues, ?_⟩
  rintro rfl
  exact h.holds.ne_empty (hvalues ▸ List.mem_singleton.mpr rfl)

theorem run_of_error {e : UsageError} (h : parse arguments = .error e) (around : Surroundings)
    (t : FileTree) : run around t arguments =
      ⟨2, "", e.shown around.isTerminal (around.advice arguments e), t⟩ := by
  simp only [run, h]

theorem exists_text_of_showsText (h : parse arguments = .ok request)
    (hshows : request.showsText = true) (around : Surroundings) :
    ∃ text, ∀ t, run around t arguments = ⟨0, text, "", t⟩ := by
  cases request with
  | help => exact ⟨helpText, fun t ↦ by simp only [run, h, Answer.text]⟩
  | version => exact ⟨versionText, fun t ↦ by simp only [run, h, Answer.text]⟩
  | run options =>
      obtain ⟨text, htext⟩ := exists_text_of_asksForText hshows around
      exact ⟨text, fun t ↦ by simp only [run, h, htext, Answer.text]⟩

/-- A request that shows no text is a run on the directory that was given. -/
theorem exists_directory_of_not_showsText (h : parse arguments = .ok request)
    (hshows : request.showsText = false) (around : Surroundings) :
    ∃ dir, Slot.directory.valuesIn (given none arguments) = [dir] ∧ dir ≠ "" ∧
      ∃ options, request = .run options ∧
        ∀ t, run around t arguments = convert around t options dir ∧
          IsConverted around t options
            (if Switch.dryRun.occursIn arguments then .dryRun else .write) dir
              (run around t arguments) := by
  cases request with
  | help => cases hshows
  | version => cases hshows
  | run options =>
      have hgiven := Options.areGivenBy_of_parse h
      obtain ⟨dir, hdir, hvalues, hne⟩ := hgiven.exists_directory hshows
      refine ⟨dir, hvalues, hne, options, rfl, fun t ↦ ?_⟩
      have hrun : run around t arguments = convert around t options dir := by
        simp only [run, h, runOptions_of_directory hshows hdir]
      rw [hrun, ← hgiven.mode_eq]
      exact ⟨rfl, isConverted_convert around t options dir⟩

end parse

/-- What the command answers and leaves behind, by what the arguments ask for. -/
theorem run_answers_request (around : Surroundings) (arguments : List String) :
    (∀ t, (run around t arguments).exitCode = 2 ↔ ∃ e, parse arguments = .error e) ∧
      (∀ e, parse arguments = .error e → ∀ t, run around t arguments =
        ⟨2, "", e.shown around.isTerminal (around.advice arguments e), t⟩) ∧
      (∀ request, parse arguments = .ok request → AsksForText arguments →
        (∀ switch : Switch, switch.request? = some request → switch.occursIn arguments = true) ∧
          ∃ text, ∀ t, run around t arguments = ⟨0, text, "", t⟩) ∧
      (∀ request, parse arguments = .ok request → ¬ AsksForText arguments →
        ∃ dir, Slot.directory.valuesIn (given none arguments) = [dir] ∧ dir ≠ "" ∧
          ∃ options, request = .run options ∧
            ∀ t, IsConverted around t options
              (if Switch.dryRun.occursIn arguments then .dryRun else .write) dir
                (run around t arguments)) ∧
      ∀ t, (run around t arguments).tree ≠ t →
        (∃ request, parse arguments = .ok request) ∧ ¬ AsksForText arguments ∧
          Switch.dryRun.occursIn arguments = false ∧
            ∃ dir, Slot.directory.valuesIn (given none arguments) = [dir] ∧
              t.isDirectory dir = true := by
  cases hparse : parse arguments with
  | error e =>
      have hrun := run_of_error hparse around
      have hno (request : Request) : (.error e : Except UsageError Request) ≠ .ok request := nofun
      refine ⟨fun t ↦ ?_, ?_, fun request h ↦ absurd h (hno request),
        fun request h ↦ absurd h (hno request), ?_⟩
      · rw [hrun]
        exact iff_of_true rfl ⟨e, rfl⟩
      · rintro _ ⟨⟩ t
        exact hrun t
      · intro t hne
        rw [hrun] at hne
        exact absurd rfl hne
  | ok request =>
      have hiff := Request.showsText_iff hparse
      cases hshows : request.showsText with
      | true =>
          obtain ⟨text, htext⟩ := exists_text_of_showsText hparse hshows around
          refine ⟨fun t ↦ ?_, nofun, ?_, fun _ _ hno ↦ absurd (hiff.mp hshows) hno, ?_⟩
          · rw [htext]
            exact iff_of_false (show 0 ≠ 2 by decide) nofun
          · rintro _ ⟨⟩ -
            exact ⟨fun switch hrequest ↦ Switch.occursIn_of_parse hrequest hparse, text, htext⟩
          · intro t hne
            rw [htext] at hne
            exact absurd rfl hne
      | false =>
          have hno : ¬ AsksForText arguments := by
            rw [← hiff, hshows]
            exact Bool.false_ne_true
          obtain ⟨dir, hvalues, hne, options, rfl, hall⟩ :=
            exists_directory_of_not_showsText hparse hshows around
          refine ⟨fun t ↦ ?_, nofun, fun _ _ hasks ↦ absurd hasks hno, ?_, ?_⟩
          · refine iff_of_false ?_ nofun
            rcases (hall t).2.exitCode_eq with hcode | hcode <;> rw [hcode] <;> decide
          · rintro _ ⟨⟩ -
            exact ⟨dir, hvalues, hne, options, rfl, fun t ↦ (hall t).2⟩
          · intro t hchanged
            rw [(hall t).2.tree] at hchanged
            refine ⟨⟨_, rfl⟩, hno, ?_, dir, hvalues, ?_⟩
            · rw [← Bool.not_eq_true]
              intro hoccurs
              rw [if_pos hoccurs, convertIn_dryRun_tree] at hchanged
              exact hchanged rfl
            · rw [← Bool.not_eq_false]
              intro hfile
              rw [convertIn_of_isDirectory_eq_false hfile] at hchanged
              exact hchanged rfl

end Command
end ConfigSnapshot
