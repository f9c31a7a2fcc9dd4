/-!
# Faults

Why a file or a directory cannot be used, and how each cause is worded.
-/

namespace ConfigSnapshot

/-- A cause for which a path cannot be followed, or what it leads to cannot be used. -/
inductive Fault
  | notFound
  | alreadyExists
  | notDirectory
  | isDirectory
  | invalidMove
  | nameTooLong
  | linkLoop
  /-- The path holds the character NUL. -/
  | nulInPath
  /-- The content is not UTF-8. -/
  | notText
  deriving DecidableEq, Repr

/-- The number that the system gives to a fault of its own. -/
def Fault.number? : Fault → Option Nat
  | .notFound => some 2
  | .alreadyExists => some 17
  | .notDirectory => some 20
  | .isDirectory => some 21
  | .invalidMove => some 22
  | .nameTooLong => some 36
  | .linkLoop => some 40
  | .nulInPath => none
  | .notText => none

/-- The cause in words. -/
def Fault.wording : Fault → String
  | .notFound => "No such file or directory"
  | .alreadyExists => "File exists"
  | .notDirectory => "Not a directory"
  | .isDirectory => "Is a directory"
  | .invalidMove => "Invalid argument"
  | .nameTooLong => "File name too long"
  | .linkLoop => "Too many levels of symbolic links"
  | .nulInPath => "file name contained an unexpected NUL byte"
  | .notText => "stream did not contain valid UTF-8"

/-- The wording, with the system's number where there is one. -/
def Fault.message (fault : Fault) : String :=
  match fault.number? with
  | some number => fault.wording ++ " (os error " ++ toString number ++ ")"
  | none => fault.wording

end ConfigSnapshot
