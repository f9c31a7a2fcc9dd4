import ConfigSnapshot.Proofs.Command.Run
import ConfigSnapshot.Proofs.Conversion.Contents

/-!
# Runs that differ in their log

How detailed the log is and whether it is in colour are told by two of the options. They are read
for the error stream alone: what is converted, what is reported and how the command ends is the
same without them.
-/

namespace ConfigSnapshot
namespace Command

open Conversion

/-- The options but for those that concern the log. -/
def Options.task (options : Options) : Options :=
  { options with verbose := false, color? := none }

/-- What is asked for, whatever is asked of the log. -/
def Request.task : Request → Request
  | .run options => .run options.task
  | request => request

theorem Options.exists_of_task_eq {options options' : Options}
    (h : options.task = options'.task) :
    ∃ verbose color?, options' = { options with verbose := verbose, color? := color? } := by
  refine ⟨options'.verbose, options'.color?, ?_⟩
  cases options
  cases options'
  simp only [task, Options.mk.injEq, true_and] at h
  simp [h]

/-- The answers differ at most in the log, and a failure is explained alike. -/
structure Answer.AgreesWith (answer other : Answer) : Prop where
  exitCode : answer.exitCode = other.exitCode
  stdout : answer.stdout = other.stdout
  tree : answer.tree = other.tree
  reason : answer.exitCode = 1 → ∃ failure log log',
    answer.stderr = log ++ explain failure ∧ other.stderr = log' ++ explain failure

theorem Answer.agreesWith_text (t : FileTree) (text : String) :
    (Answer.text t text).AgreesWith (Answer.text t text) :=
  ⟨rfl, rfl, rfl, fun hone ↦ absurd hone Nat.zero_ne_one⟩

variable {options options' : Options}

theorem agreesWith_convert (h : options.task = options'.task) (around around' : Surroundings)
    (t : FileTree) (dir : String) :
    (convert around t options dir).AgreesWith (convert around' t options' dir) := by
  obtain ⟨verbose, color?, rfl⟩ := Options.exists_of_task_eq h
  have hmode : Options.mode { options with verbose := verbose, color? := color? } =
      options.mode := rfl
  simp only [convert, hmode]
  cases (convertIn t options.mode dir).result with
  | ok summary => exact ⟨rfl, rfl, rfl, fun hone ↦ absurd hone Nat.zero_ne_one⟩
  | error failure => exact ⟨rfl, rfl, rfl, fun _ ↦ ⟨failure, _, _, rfl, rfl⟩⟩

theorem Options.text?_eq_of_task_eq (h : options.task = options'.task) :
    options'.text? = options.text? := by
  obtain ⟨verbose, color?, rfl⟩ := Options.exists_of_task_eq h
  rfl

theorem agreesWith_runOptions (h : options.task = options'.task)
    (hgiven : options.asksForText = false → options.directory?.isSome = true)
    (around around' : Surroundings) (t : FileTree) :
    (runOptions around t options).AgreesWith (runOptions around' t options') := by
  cases htext : options.asksForText with
  | true =>
      obtain ⟨text, hsome⟩ := Option.isSome_iff_exists.mp (options.isSome_text?.trans htext)
      have hsome' := (Options.text?_eq_of_task_eq h).trans hsome
      rw [runOptions_of_text? hsome, runOptions_of_text? hsome']
      exact Answer.agreesWith_text t text
  | false =>
      have hconvert := agreesWith_convert h around around' t
      obtain ⟨verbose, color?, rfl⟩ := Options.exists_of_task_eq h
      obtain ⟨dir, hdir⟩ := Option.isSome_iff_exists.mp (hgiven htext)
      have htext' : Options.asksForText { options with verbose := verbose, color? := color? } =
          false := htext
      rw [runOptions_of_directory htext hdir, runOptions_of_directory htext' hdir]
      exact hconvert dir

/-- Accepted arguments that ask for the same, but for the log, get the same answer, but for the
error stream. -/
theorem run_agreesWith_of_task_eq (around around' : Surroundings) (t : FileTree)
    {arguments arguments' : List String} {request request' : Request}
    (h : parse arguments = .ok request) (h' : parse arguments' = .ok request')
    (htask : request.task = request'.task) :
    (run around t arguments).AgreesWith (run around' t arguments') := by
  cases request with
  | help =>
      cases request' with
      | help =>
          simp only [run, h, h']
          exact Answer.agreesWith_text t helpText
      | version => cases htask
      | run options' => cases htask
  | version =>
      cases request' with
      | version =>
          simp only [run, h, h']
          exact Answer.agreesWith_text t versionText
      | help => cases htask
      | run options' => cases htask
  | run options =>
      cases request' with
      | help => cases htask
      | version => cases htask
      | run options' =>
          simp only [run, h, h']
          have hgiven := (Options.areGivenBy_of_parse h).isSome_of_not_asksForText
          exact agreesWith_runOptions (Request.run.inj htask) hgiven around around' t

/-- A run that stops half-way, once as it is and once with a detailed log in colour. -/
theorem run_agreesWith_of_task_eq_linkedModules :
    let around : Surroundings := ⟨⟨"0", "0"⟩, true, fun _ _ ↦ ⟨"", ""⟩⟩
    let quiet := ["m"]
    let loud := ["--color", "always", "-v", "m"]
    (∃ request request', parse quiet = .ok request ∧ parse loud = .ok request' ∧
        request ≠ request' ∧ request.task = request'.task) ∧
      (run around linkedModules quiet).exitCode = 1 ∧
        (run around linkedModules quiet).AgreesWith (run around linkedModules loud) := by
  intro around quiet loud
  have hquiet : parse quiet = .ok (.run { Options.default with directory? := some "m" }) := by rfl
  have hloud : parse loud = .ok (.run { Options.default with
      verbose := true, color? := some .always, directory? := some "m" }) := by rfl
  have hrun : run around linkedModules quiet =
      convert around linkedModules { Options.default with directory? := some "m" } "m" := by
    simp only [run, hquiet]
    rfl
  refine ⟨⟨_, _, hquiet, hloud, by decide, rfl⟩, ?_, ?_⟩
  · rw [hrun, (isConverted_convert _ _ _ _).exitCode_eq_one_iff]
    have hnot : HoldsNoText linkedModules "m/c.nix" :=
      ⟨[⟨"c.nix", by decide⟩, ⟨"m", by decide⟩], ⟨#[0xff]⟩, ⟨by decide, rfl⟩, by decide⟩
    exact Or.inr ⟨_, modulesIn_linkedModules, "m/c.nix", by decide, hnot⟩
  · exact run_agreesWith_of_task_eq around around linkedModules hquiet hloud rfl

end Command
end ConfigSnapshot
