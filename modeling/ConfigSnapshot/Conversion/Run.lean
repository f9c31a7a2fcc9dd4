import ConfigSnapshot.Conversion.Visit
import ConfigSnapshot.Path.Order

/-!
# Converting a directory

The modules of a directory are the regular files in it, links followed, whose names end in
`.nix`; directories below it are left alone. They are converted in the order of their paths, and
the first failure ends the run: what was converted before it stays so, and nothing after it is
read.
-/

namespace ConfigSnapshot
namespace Conversion

/-- Whether a file of this name is taken for a module. -/
def isModuleName (name : Bytes) : Bool :=
  ".nix".toList.isSuffixOf name.toText

/-- Whether a path leads to a module. -/
def isModule (t : FileTree) (path : Bytes) : Bool :=
  (Path.fileName? path).any isModuleName && t.isFile path

/-- The paths of the modules in a directory, in order. -/
def modulesIn (t : FileTree) (dir : Bytes) : Except Failure (List Bytes) :=
  match t.list dir with
  | .ok names => .ok (Path.sort ((names.map (Path.join dir)).filter (isModule t)))
  | .error fault => .error (.listing dir fault)

/-- Converts modules in turn, up to the first that fails. -/
def visitAll (mode : Mode) : FileTree → List Bytes → FileTree × List Visit
  | t, [] => (t, [])
  | t, path :: paths =>
      let first := visitModule t mode path
      match first.2.outcome with
      | .error _ => (first.1, [first.2])
      | .ok _ =>
          let rest := visitAll mode first.1 paths
          (rest.1, first.2 :: rest.2)

/-- The count of the outcomes, or the failure that is among them. -/
def summarize : List Visit → Except Failure Summary
  | [] => .ok .zero
  | visit :: visits =>
      match visit.outcome, summarize visits with
      | .error failure, _ => .error failure
      | .ok _, .error failure => .error failure
      | .ok outcome, .ok summary => .ok (summary.add outcome)

/-- What came of a directory: the tree afterwards, the modules visited, and the result. -/
structure Run where
  tree : FileTree
  visits : List Visit
  result : Except Failure Summary

/-- The reports of a run, in order. -/
def Run.reports (run : Run) : List Report :=
  run.visits.filterMap Visit.report?

/-- What a run prints. -/
def Run.output (run : Run) : String :=
  String.join (run.visits.map Visit.output)

/-- Converts the modules in a directory. -/
def convertIn (t : FileTree) (mode : Mode) (dir : Bytes) : Run :=
  if t.isDirectory dir then
    match modulesIn t dir with
    | .ok paths =>
        let all := visitAll mode t paths
        ⟨all.1, all.2, summarize all.2⟩
    | .error failure => ⟨t, [], .error failure⟩
  else ⟨t, [], .error (.notADirectory dir)⟩

end Conversion
end ConfigSnapshot
