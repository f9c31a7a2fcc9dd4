import ConfigSnapshot.Command.Options
import ConfigSnapshot.Terminal.Paint
import ConfigSnapshot.Terminal.Plain

/-!
# Wrong usage

Why a list of arguments is refused. The message starts with the mistake and ends with how the
command is to be used.
-/

namespace ConfigSnapshot
namespace Command

/-- What is wrong with an argument, or that one is missing. -/
inductive UsageError
  | missingDirectory
  | unexpectedArgument (argument : String)
  | unexpectedValue (value : String) (switch : Switch)
  | invalidValue (value : String) (slot : Slot)
  | missingValue (slot : Slot)
  | repeatedSwitch (switch : Switch)
  | repeatedSlot (slot : Slot)
  deriving DecidableEq, Repr

/-- What a message takes from elsewhere: hints that are given with the mistake, and the form in
which the command is to be used. -/
structure Advice where
  hints : String
  synopsis : String

namespace UsageError

open Terminal

/-- What was given on the command line, in the colour of a mistake. -/
def given (s : String) : String :=
  "'" ++ paint .yellow s ++ "'"

/-- A part of the command's own language. -/
def named (label : String) : String :=
  "'" ++ paint .bold label ++ "'"

/-- The message in colour. -/
def message : UsageError → String
  | .missingDirectory => "the following required arguments were not provided:"
  | .unexpectedArgument argument => "unexpected argument " ++ given argument ++ " found"
  | .unexpectedValue value switch =>
      "unexpected value " ++ given value ++ " for " ++ named switch.label ++
        " found; no more were expected"
  | .invalidValue value slot => "invalid value " ++ given value ++ " for " ++ named slot.label
  | .missingValue slot =>
      "a value is required for " ++ named slot.label ++ " but none was supplied"
  | .repeatedSwitch switch => repeated switch.label
  | .repeatedSlot slot => repeated slot.label
where
  repeated (label : String) : String :=
    "the argument " ++ given label ++ " cannot be used multiple times"

/-- The message with what belongs to it, in colour. -/
def text (advice : Advice) (e : UsageError) : String :=
  paintBold .red "error:" ++ " " ++ e.message ++ "\n" ++ advice.hints ++ "\n" ++
    paintBold .underline "Usage:" ++ " " ++ advice.synopsis ++
      "\n\nFor more information, try '" ++ paint .bold "--help" ++ "'.\n"

/-- The text as it is printed. Where the error stream is no terminal, escape sequences and control
characters are taken out, those of an argument too. What an argument leaves unfinished ends with
its colour. -/
def shown (isTerminal : Bool) (advice : Advice) (e : UsageError) : String :=
  if isTerminal then e.text advice else plain (e.text advice)

end UsageError
end Command
end ConfigSnapshot
