import ConfigSnapshot.Proofs.Command.Run
import ConfigSnapshot.Proofs.Conversion.Steps
import ConfigSnapshot.Proofs.Log.Render

/-!
# The log of the command

The error stream of a conversion is the blocks of the modules that were visited, if they are
asked for, and then the counts or the reason why the run was stopped. The blocks tell of the
same steps as the printed lines and the tree do.
-/

namespace ConfigSnapshot
namespace Command

open Conversion Text

/-- Whether arguments have the log in colour. If they do not say, it is on a terminal. -/
def isColored (arguments : List String) (isTerminal : Bool) : Bool :=
  match Slot.color.valuesIn (given none arguments) with
  | ["always"] => true
  | ["never"] => false
  | _ => isTerminal

theorem ColorChoice.eq_of_ofString? {s : String} {choice : ColorChoice}
    (h : ColorChoice.ofString? s = some choice) : s = match choice with
      | .auto => "auto"
      | .always => "always"
      | .never => "never" := by
  unfold ColorChoice.ofString? at h
  split at h
  · next hs =>
      cases h
      exact hs
  · split at h
    · next hs =>
        cases h
        exact hs
    · split at h
      · next hs =>
          cases h
          exact hs
      · cases h

theorem Options.AreGivenBy.colored_eq {options : Options} {arguments : List String}
    (h : options.AreGivenBy arguments) (isTerminal : Bool) :
    options.colored isTerminal = isColored arguments isTerminal := by
  have hcolor := h.holds.color
  rw [isColored, Options.colored]
  cases hchoice : options.color? with
  | none =>
      rw [hchoice] at hcolor
      rw [List.map_eq_nil_iff.mp hcolor]
  | some choice =>
      rw [hchoice] at hcolor
      obtain ⟨value, hvalue, hread⟩ := List.map_eq_singleton_iff.mp hcolor
      rw [hvalue, ColorChoice.eq_of_ofString? hread]
      cases choice <;> rfl

section convert

variable {t : FileTree} {options : Options} {dir : String}

/-- What is told of the visits before the end of the error stream. -/
def Options.story (options : Options) (around : Surroundings) (visits : List Visit) : String :=
  options.header ++
    Log.blocks options.verbose (options.colored around.isTerminal) around.clock visits

theorem stderr_convert_of_ok {summary : Summary}
    (h : (convertIn t options.mode dir).result = .ok summary) (around : Surroundings) :
    (convert around t options dir).exitCode = 0 ∧ (convert around t options dir).stderr =
      options.story around (convertIn t options.mode dir).visits ++
        Log.doneLine (options.colored around.isTerminal) around.clock summary := by
  simp only [convert, h, Options.log, Log.render_of_ok h, Options.story, String.append_assoc,
    true_and]

theorem stderr_convert_of_error {failure : Failure}
    (h : (convertIn t options.mode dir).result = .error failure) (around : Surroundings) :
    (convert around t options dir).exitCode = 1 ∧ (convert around t options dir).stderr =
      options.story around (convertIn t options.mode dir).visits ++ explain failure := by
  simp only [convert, h, Options.log, Log.render_of_error h, Options.story, true_and]

theorem Options.story_eq (options : Options) (around : Surroundings) (visits : List Visit) :
    options.story around visits =
      if options.verbose then
        "setting up verbose logging\n" ++ String.join (visits.map
          (Log.blockText (options.colored around.isTerminal) around.clock))
      else "" := by
  unfold Options.story Options.header Log.blocks
  cases options.verbose <;> rfl

end convert

/-- How the error stream of a run on a directory ends: with the counts of the printed lines, or
with the reason why the last module could not be read. -/
inductive EndsWith (t : FileTree) (mode : Mode) (colored : Bool) (clock : Log.Clock)
    (visits : List Visit) : (left : List Bytes) → (exitCode : Nat) → (ending : String) → Prop
  | done (summary : Summary)
      (dealtWith : ∀ visit ∈ visits, visit.outcome.isOk = true ∧
        visit.output = reportText mode visit.announces visit.path)
      (converted : summary.converted = (visits.map Visit.announces).count true)
      (unchanged : summary.unchanged = (visits.map Visit.announces).count false) :
      EndsWith t mode colored clock visits [] 0 (Log.doneLine colored clock summary)
  | stopped (front : List Visit) (path : Bytes) (left : List Bytes)
      (visits_eq : visits = front ++ [notTextVisit path])
      (dealtWith : ∀ visit ∈ front, visit.outcome.isOk = true ∧
        visit.output = reportText mode visit.announces visit.path)
      (holdsNoText : HoldsNoText t path) :
      EndsWith t mode colored clock visits left 1
        ("nixops4-snapshot-convert error: reading module file " ++ path.display ++
          "\n\nCaused by:\n    stream did not contain valid UTF-8\n")

theorem exists_endsWith {t : FileTree} {options : Options} {dir : String}
    {names done left : List Bytes} {visits : List Visit}
    (h : IsRun t options.mode dir names done left visits) (around : Surroundings) :
    ∃ ending, EndsWith t options.mode (options.colored around.isTerminal) around.clock
        (convertIn t options.mode dir).visits (left.tail.map (Path.join dir))
        (convert around t options dir).exitCode ending ∧
      (convert around t options dir).stderr =
        options.story around (convertIn t options.mode dir).visits ++ ending := by
  have hmoves := map_announces_of_reported h.reported
  have hfront : ∀ visit ∈ visits, visit.outcome.isOk = true ∧
      visit.output = reportText options.mode visit.announces visit.path := by
    intro visit hmem
    obtain ⟨hok, houtput⟩ := output_of_reported h.reported visit hmem
    rw [announces_eq_of_output houtput]
    exact ⟨hok, houtput⟩
  cases left with
  | nil =>
      obtain ⟨hexit, hstderr⟩ := stderr_convert_of_ok h.result_of_nil around
      have hvisits : (convertIn t options.mode dir).visits = visits :=
        h.visits_eq.trans (List.append_nil visits)
      refine ⟨_, ?_, hstderr⟩
      rw [hexit, hvisits]
      exact .done _ hfront (congrArg (List.count true) hmoves.symm)
        (congrArg (List.count false) hmoves.symm)
  | cons name left =>
      obtain ⟨hexit, hstderr⟩ := stderr_convert_of_error h.result_of_cons around
      refine ⟨_, ?_, hstderr⟩
      rw [hexit, explain_reading_notText]
      exact .stopped visits (Path.join dir name) _ h.visits_eq hfront h.holdsNoText_of_cons

/-- The error stream tells the same of each module as is printed of it, and the same of each step
as the trees before and after it. -/
theorem run_log_agrees (around : Surroundings) (t : FileTree) {arguments : List String}
    {request : Request} {dir : String} (h : parse arguments = .ok request)
    (hasks : ¬ AsksForText arguments)
    (hgiven : Slot.directory.valuesIn (given none arguments) = [dir])
    (hdir : t.isDirectory dir = true) :
    let mode : Mode := if Switch.dryRun.occursIn arguments then .dryRun else .write
    let colored := isColored arguments around.isTerminal
    let conversion := convertIn t mode dir
    let answer := run around t arguments
    answer.stdout = String.join (conversion.visits.map Visit.output) ∧
      answer.tree = conversion.tree ∧
      ∃ modules left ending, modulesIn t dir = .ok modules ∧
        modules = conversion.visits.map Visit.path ++ left ∧
        EndsWith t mode colored around.clock conversion.visits left answer.exitCode ending ∧
        answer.stderr = (if Switch.verbose.occursIn arguments then
            "setting up verbose logging\n" ++
              String.join (conversion.visits.map (Log.blockText colored around.clock))
          else "") ++ ending ∧
        conversion.tree = treeAfter mode t modules conversion.visits.length ∧
        ∀ k visit, conversion.visits[k]? = some visit →
          let before := treeAfter mode t modules k
          let after := treeAfter mode t modules (k + 1)
          visitModule before mode visit.path = (after, visit) ∧
            ((∃ n, .config n ∈ visit.events) ↔ visit.announces = true) ∧
            (after ≠ before ↔ mode = .write ∧ ∃ n, .config n ∈ visit.events) ∧
            (mode = .write → '\n' ∉ snapshotKey visit.path → ∀ n, .config n ∈ visit.events →
              OnlyLineDiffers before after visit.path n) := by
  intro mode colored conversion answer
  have hshows : request.showsText = false := by
    rw [← Bool.not_eq_true, Request.showsText_iff h]
    exact hasks
  obtain ⟨dir', hvalues, -, options, rfl, hall⟩ :=
    exists_directory_of_not_showsText h hshows around
  obtain rfl : dir' = dir := List.singleton_inj.mp (hvalues.symm.trans hgiven)
  obtain ⟨hanswer, hconverted⟩ := hall t
  have hoptions := Options.areGivenBy_of_parse h
  have hverbose : options.verbose = Switch.verbose.occursIn arguments := hoptions.isOn .verbose
  have hmode : options.mode = mode := hoptions.mode_eq
  have hcolored : options.colored around.isTerminal = colored := hoptions.colored_eq _
  obtain ⟨names, done, left, visits, hrun⟩ := exists_isRun options.mode hdir
  obtain ⟨ending, hends, hstderr⟩ := exists_endsWith hrun around
  rw [hmode] at hrun
  rw [← hanswer, hmode, hcolored] at hends
  rw [← hanswer, hmode, Options.story_eq, hverbose, hcolored] at hstderr
  refine ⟨hconverted.stdout, hconverted.tree, names.map (Path.join dir'), _, ending,
    hrun.modulesIn, hrun.exists_left, hends, hstderr, hrun.tree_eq hdir, ?_⟩
  intro k visit hk before after
  have htraced := hrun.isTraced hdir hk
  exact ⟨hrun.step hdir hk, htraced.config_iff, htraced.changed_iff, htraced.line⟩

/-- Of a file that two modules lead to, a run logs and changes first one line and then the next,
before it stops. -/
theorem run_log_agrees_linkedModules :
    let around : Surroundings := ⟨⟨"0", "0"⟩, true, fun _ _ ↦ ⟨"", ""⟩⟩
    let arguments := ["-v", "m", "--color=never"]
    let visits : List Visit :=
      [⟨"m/a.nix", [.brace .one, .brace .two, .config 3], some ⟨.converted, "m/a.nix"⟩,
          .ok .converted⟩,
        ⟨"m/b.nix", [.brace .one, .brace .two, .config 4], some ⟨.converted, "m/b.nix"⟩,
          .ok .converted⟩,
        notTextVisit "m/c.nix"]
    let tree := treeAfter .write linkedModules ["m/a.nix", "m/b.nix", "m/c.nix"]
    (∃ request, parse arguments = .ok request) ∧ ¬ AsksForText arguments ∧
      Slot.directory.valuesIn (given none arguments) = ["m"] ∧
      linkedModules.isDirectory "m" = true ∧
      (convertIn linkedModules .write "m").visits = visits ∧
      (run around linkedModules arguments).stderr =
        "setting up verbose logging\n" ++
          String.join (visits.map (Log.blockText false around.clock)) ++
          ("nixops4-snapshot-convert error: reading module file " ++ "m/c.nix" ++
            "\n\nCaused by:\n    stream did not contain valid UTF-8\n") ∧
        OnlyLineDiffers (tree 0) (tree 1) "m/a.nix" 3 ∧
          OnlyLineDiffers (tree 1) (tree 2) "m/b.nix" 4 := by
  intro around arguments visits tree
  have hparse : parse arguments = .ok (.run { Options.default with
      verbose := true, color? := some .never, directory? := some "m" }) := by rfl
  have hasks : ¬ AsksForText arguments := by
    rw [← Request.showsText_iff hparse]
    decide
  have hgiven : Slot.directory.valuesIn (given none arguments) = ["m"] := by decide
  have hdir : linkedModules.isDirectory "m" = true := by decide
  have hvisits : (convertIn linkedModules .write "m").visits = visits := by
    rw [convertIn_of_modulesIn .write hdir modulesIn_linkedModules]
    rfl
  obtain ⟨-, -, modules, left, ending, hmodules, -, hends, hstderr, -, hsteps⟩ :=
    run_log_agrees around linkedModules hparse hasks hgiven hdir
  obtain rfl := Except.ok.inj (modulesIn_linkedModules.symm.trans hmodules)
  obtain ⟨-, -, -, hfirst⟩ := hsteps 0 _ (congrArg (·[0]?) hvisits)
  obtain ⟨-, -, -, hsecond⟩ := hsteps 1 _ (congrArg (·[1]?) hvisits)
  have hending : ending = "nixops4-snapshot-convert error: reading module file " ++ "m/c.nix" ++
      "\n\nCaused by:\n    stream did not contain valid UTF-8\n" := by
    generalize (run around linkedModules arguments).exitCode = code at hends
    cases hends with
    | stopped front path left hfront hok hno =>
        have hlast := congrArg List.getLast? (hvisits.symm.trans hfront)
        rw [List.getLast?_concat] at hlast
        obtain rfl : ("m/c.nix" : Bytes) = path := congrArg Visit.path (Option.some.inj hlast)
        rfl
    | done summary hok _ _ =>
        -- the last visit has failed
        have hlast : (notTextVisit "m/c.nix").outcome.isOk = true :=
          (hok _ (hvisits ▸ List.mem_cons_of_mem _ (List.mem_cons_of_mem _ List.mem_cons_self))).1
        cases hlast
  refine ⟨⟨_, hparse⟩, hasks, hgiven, hdir, hvisits, ?_, hfirst rfl (by decide) 3 (by decide),
    hsecond rfl (by decide) 4 (by decide)⟩
  rw [← hending, ← hvisits]
  exact hstderr

end Command
end ConfigSnapshot
