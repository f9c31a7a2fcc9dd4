import ConfigSnapshot.Log.Record
import ConfigSnapshot.Terminal.Paint

/-!
# Log lines

A record is written on one line: the time, the level, the module in whose conversion it falls,
the part of the program, the message and its values. In colour the pieces carry escape
sequences, and without them the line is the same.
-/

namespace ConfigSnapshot
namespace Log

/-- How a log line tells times: the time it is written at, and a time taken. -/
structure Clock where
  stamp : String
  duration : String

open Terminal

def Level.look : Level → Look
  | .info => .green
  | .debug => .blue
  | .trace => .magenta

/-- A piece of a line, painted if the line is in colour. -/
def paintIf (colored : Bool) (look : Look) (piece : String) : String :=
  if colored then paint look piece else piece

/-- The label of a level, right-aligned in five columns. -/
def Level.column (level : Level) : String :=
  String.ofList (List.replicate (5 - level.label.length) ' ') ++ level.label

def Value.render (clock : Clock) : Value → String
  | .text s => s
  | .duration => clock.duration

namespace Record

/-- The module in whose conversion the record falls. -/
def context (colored : Bool) (record : Record) : String :=
  match record.path? with
  | none => ""
  | some path =>
      paintIf colored .bold "convert" ++ paintIf colored .bold "\x7b" ++
        paintIf colored .italic "path" ++ paintIf colored .dim "=" ++ path.display ++
          paintIf colored .bold "\x7d" ++ paintIf colored .dim ":" ++ " "

/-- The values that go with the message. -/
def details (colored : Bool) (clock : Clock) (record : Record) : String :=
  String.join (record.fields.map fun field ↦
    " " ++ paintIf colored .italic field.1 ++ paintIf colored .dim "=" ++ field.2.render clock)

/-- The record on a line. -/
def line (colored : Bool) (clock : Clock) (record : Record) : String :=
  paintIf colored .dim clock.stamp ++ " " ++
    paintIf colored record.level.look record.level.column ++ " " ++
      record.context colored ++
        paintIf colored .dim record.origin ++ paintIf colored .dim ":" ++ " " ++
          record.message ++ record.details colored clock ++ "\n"

end Record

/-- The log of a run. -/
def render (verbose colored : Bool) (clock : Clock) (run : Conversion.Run) : String :=
  String.join (((records run).filter (Record.isWanted verbose)).map (Record.line colored clock))

end Log
end ConfigSnapshot
