import ConfigSnapshot.FileTree.Fault
import ConfigSnapshot.Text.Bytes

/-!
# What a conversion tells

A module that could be read gets one report. A conversion that has to stop says at what step,
for which path, and why.
-/

namespace ConfigSnapshot
namespace Conversion

/-- Whether converted modules are written back or only reported. -/
inductive Mode
  | write
  | dryRun
  deriving DecidableEq, Repr

/-- What became of a module. -/
inductive Outcome
  | converted
  /-- No line assigns the top-level `config`, as in modules that only import others. -/
  | unchanged
  deriving DecidableEq, Repr

/-- What a report says of a module. -/
inductive Verdict
  | converted
  | wouldConvert
  | unchanged
  deriving DecidableEq, Repr

def Verdict.wording : Verdict → String
  | .converted => "Converted "
  | .wouldConvert => "Would convert "
  | .unchanged => "No changes made to "

/-- What is said of the module at a path. -/
structure Report where
  verdict : Verdict
  path : Bytes
  deriving DecidableEq, Repr

/-- The report as it is printed. -/
def Report.line (report : Report) : String :=
  report.verdict.wording ++ report.path.display ++ "\n"

/-- Why a conversion stops. -/
inductive Failure
  | notADirectory (path : Bytes)
  | listing (path : Bytes) (fault : Fault)
  | reading (path : Bytes) (fault : Fault)
  /-- The path does not end in a name. -/
  | unnamed (path : Bytes)
  | writing (path : Bytes) (fault : Fault)
  deriving DecidableEq, Repr

/-- What went wrong, without the cause. -/
def Failure.headline : Failure → String
  | .notADirectory path => path.display ++ " is not a directory"
  | .listing path _ => "listing directory " ++ path.display
  | .reading path _ => "reading module file " ++ path.display
  | .unnamed path => "module file " ++ path.display ++ " has no file name"
  | .writing path _ => "writing module file " ++ path.display

def Failure.cause? : Failure → Option Fault
  | .notADirectory _ | .unnamed _ => none
  | .listing _ fault | .reading _ fault | .writing _ fault => some fault

/-- How many modules were converted and how many had nothing to convert. -/
structure Summary where
  converted : Nat
  unchanged : Nat
  deriving DecidableEq, Repr

namespace Summary

def zero : Summary := ⟨0, 0⟩

/-- The summary with one more module. -/
def add (s : Summary) : Outcome → Summary
  | .converted => { s with converted := s.converted + 1 }
  | .unchanged => { s with unchanged := s.unchanged + 1 }

end Summary
end Conversion
end ConfigSnapshot
