import ConfigSnapshot.Conversion.Report
import ConfigSnapshot.FileTree.Access
import ConfigSnapshot.NixModule.Move

/-!
# Converting one module

A module is read through whatever links lead to it, and its configuration is moved under the
stem of the name it was reached by. It is written back to the same file, so a link stays a link.
-/

namespace ConfigSnapshot
namespace Conversion

/-- What came of one module: what its scan noticed, its report if there is one, and the
outcome. -/
structure Visit where
  path : Bytes
  events : List NixModule.Event
  report? : Option Report
  outcome : Except Failure Outcome

/-- What a visit prints. -/
def Visit.output (visit : Visit) : String :=
  visit.report?.elim "" Report.line

/-- The tree after the module at a path is converted, and what came of it. The report is given
before the file is written. -/
def visitModule (t : FileTree) (mode : Mode) (path : Bytes) : FileTree × Visit :=
  match t.readText path with
  | .error fault => (t, ⟨path, [], none, .error (.reading path fault)⟩)
  | .ok text =>
      match Path.fileName? path with
      | none => (t, ⟨path, [], none, .error (.unnamed path)⟩)
      | some name =>
          let events := (NixModule.scan text.toList).events
          match NixModule.moveConfig text.toList (Path.stem name).toText, mode with
          | none, _ => (t, ⟨path, events, some ⟨.unchanged, path⟩, .ok .unchanged⟩)
          | some _, .dryRun => (t, ⟨path, events, some ⟨.wouldConvert, path⟩, .ok .converted⟩)
          | some moved, .write =>
              let report : Report := ⟨.converted, path⟩
              match t.write path (String.ofList moved).toUTF8 with
              | .ok t => (t, ⟨path, events, some report, .ok .converted⟩)
              | .error fault => (t, ⟨path, events, some report, .error (.writing path fault)⟩)

end Conversion
end ConfigSnapshot
