import ConfigSnapshot.Conversion.Run

/-!
# Log records

The log of a run has one block of records for each module visited, opened and closed by the
phases of its conversion, and a last record with the counts if the run was not stopped.
-/

namespace ConfigSnapshot
namespace Log

open Conversion

/-- The phases that the conversion of a module goes through. -/
inductive Phase
  | new
  | enter
  | exit
  | close
  deriving DecidableEq, Repr

def Phase.label : Phase → String
  | .new => "new"
  | .enter => "enter"
  | .exit => "exit"
  | .close => "close"

/-- What the log tells. -/
inductive Record
  | phase (path : Bytes) (phase : Phase)
  | noticed (path : Bytes) (event : NixModule.Event)
  | done (summary : Summary)
  deriving DecidableEq, Repr

/-- A value that goes with a message: a text, or a time taken. -/
inductive Value
  | text (s : String)
  | duration
  deriving DecidableEq, Repr

namespace Record

/-- The module whose conversion the record belongs to. -/
def path? : Record → Option Bytes
  | .phase path _ | .noticed path _ => some path
  | .done _ => none

def level : Record → Level
  | .phase _ _ => .debug
  | .noticed _ event => event.level
  | .done _ => .info

/-- The part of the program that the record comes from. -/
def origin : Record → String
  | .phase _ _ | .noticed _ _ => "nixops4_snapshot_convert::rewrite"
  | .done _ => "nixops4_snapshot_convert::driver"

def message : Record → String
  | .phase _ p => p.label
  | .noticed _ event => event.message
  | .done _ => "done"

def fields : Record → List (String × Value)
  | .phase _ .close => [("time.busy", .duration), ("time.idle", .duration)]
  | .phase _ _ => []
  | .noticed _ event => event.fields.map fun field ↦ (field.1, .text field.2)
  | .done summary =>
      [("converted", .text (toString summary.converted)),
        ("unchanged", .text (toString summary.unchanged))]

/-- Whether the record is wanted. Only a verbose log goes into detail. -/
def isWanted (verbose : Bool) (record : Record) : Bool :=
  verbose || record.level = .info

end Record

/-- The records of one module. -/
def block (visit : Visit) : List Record :=
  [.phase visit.path .new, .phase visit.path .enter] ++
    visit.events.map (.noticed visit.path) ++
      [.phase visit.path .exit, .phase visit.path .close]

/-- The records of a run, in order. -/
def records (run : Run) : List Record :=
  run.visits.flatMap block ++
    match run.result with
    | .ok summary => [.done summary]
    | .error _ => []

end Log
end ConfigSnapshot
