import ConfigSnapshot.Command.Arguments
import ConfigSnapshot.Command.Completion
import ConfigSnapshot.Log.Line

/-!
# Running the command

Reports go to the standard output, and the log and the reason of a failure to the error stream.
The exit code is 0 if all that was asked for was done, 1 if a conversion failed and 2 if the
arguments are refused.
-/

namespace ConfigSnapshot
namespace Command

open Conversion

/-- What a run does not learn from its arguments and the tree: how times are told, whether the
error stream is a terminal, and what is said of wrong usage besides the mistake. -/
structure Surroundings where
  clock : Log.Clock
  isTerminal : Bool
  advice : List String → UsageError → Advice

/-- What a run ends with. -/
structure Answer where
  exitCode : Nat
  stdout : String
  stderr : String
  tree : FileTree

/-- What is said when a conversion fails. A directory that is none is the user's mistake and has
no further cause. -/
def explain (failure : Failure) : String :=
  match failure with
  | .notADirectory _ => "error: " ++ failure.headline ++ "\n"
  | _ =>
      "nixops4-snapshot-convert error: " ++ failure.headline ++ "\n" ++
        match failure.cause? with
        | some fault => "\nCaused by:\n    " ++ fault.message ++ "\n"
        | none => ""

/-- An answer that shows a text and leaves the tree as it is. -/
def Answer.text (t : FileTree) (text : String) : Answer :=
  ⟨0, text, "", t⟩

def Options.mode (options : Options) : Mode :=
  if options.dryRun then .dryRun else .write

/-- The error stream's first line in a verbose run. -/
def Options.header (options : Options) : String :=
  if options.verbose then "setting up verbose logging\n" else ""

/-- The error stream of a conversion, but for the reason of a failure. -/
def Options.log (options : Options) (around : Surroundings) (run : Conversion.Run) : String :=
  options.header ++
    Log.render options.verbose (options.colored around.isTerminal) around.clock run

/-- Converts a directory as the options say. -/
def convert (around : Surroundings) (t : FileTree) (options : Options) (dir : String) : Answer :=
  let run := convertIn t options.mode dir
  let log := options.log around run
  match run.result with
  | .ok _ => ⟨0, run.output, log, run.tree⟩
  | .error failure => ⟨1, run.output, log ++ explain failure, run.tree⟩

/-- Of several texts asked for, the manual comes first, then its Markdown form. -/
def runOptions (around : Surroundings) (t : FileTree) (options : Options) : Answer :=
  if options.manual then .text t manualPage
  else if options.markdown then .text t markdownPage
  else
    match options.completion?, options.directory? with
    | some shell, _ => .text t shell.completion
    | none, some dir => convert around t options dir
    | none, none =>
        ⟨1, "", options.header ++
          "nixops4-snapshot-convert error: missing modules directory argument\n", t⟩

/-- What the command does when it is given these arguments. -/
def run (around : Surroundings) (t : FileTree) (arguments : List String) : Answer :=
  match parse arguments with
  | .error e => ⟨2, "", e.shown around.isTerminal (around.advice arguments e), t⟩
  | .ok .help => .text t helpText
  | .ok .version => .text t versionText
  | .ok (.run options) => runOptions around t options

end Command
end ConfigSnapshot
