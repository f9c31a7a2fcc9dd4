/-!
# What is left of a text without a terminal

A text meant for a terminal is rid of what a terminal would not show: control characters other
than white space, and escape sequences. A sequence starts at an escape character, wherever that
stands, and its next characters tell what kind it is and so where it ends. White space between
the characters of a sequence is shown, and so is all that follows it up to the next character
that is hidden by itself; there the sequence goes on.
-/

namespace ConfigSnapshot
namespace Terminal

/-- What the characters read so far have begun. -/
inductive State
  | text
  /-- After an escape character. -/
  | escape
  /-- In an escape sequence that is longer than two characters. -/
  | longEscape
  /-- In a control sequence, which a letter or a similar character ends. -/
  | control
  /-- At the start of a device control string. -/
  | device
  /-- In the numbers that a device control string can start with. -/
  | deviceNumbers
  /-- In the punctuation before the letter of a device control string. -/
  | deviceLetter
  /-- In a string that is hidden up to its terminator. -/
  | string
  /-- In a title or another command to the system, which a bell ends. -/
  | command
  deriving DecidableEq, Repr

/-- Whether the code point of a character lies between two others. -/
def isBetween (low high : Nat) (c : Char) : Bool :=
  low ≤ c.toNat && c.toNat ≤ high

/-- Whether the byte that terminates a string is among the bytes of a character. -/
def holdsTerminator (c : Char) : Bool :=
  (String.singleton c).toUTF8.data.toList.contains 0x9C

/-- What has begun after one more character that is not shown. An escape character begins anew,
and the characters that cancel a sequence do so everywhere. -/
def State.next (s : State) (c : Char) : State :=
  if c = '\x1b' then .escape
  else if c = '\x18' || c = '\x1a' then .text
  else
    match s with
    | .text => .text
    | .escape =>
        if c = '[' then .control
        else if c = ']' then .command
        else if c = 'P' then .device
        else if c = 'X' || c = '^' || c = '_' then .string
        else if isBetween 0x20 0x2F c then .longEscape
        else if isBetween 0x30 0x7E c then .text
        else .escape
    | .longEscape => if isBetween 0x30 0x7E c then .text else .longEscape
    | .control => if isBetween 0x40 0x7E c then .text else .control
    | .device =>
        if isBetween 0x20 0x2F c then .deviceLetter
        else if isBetween 0x30 0x3F c then .deviceNumbers
        else if isBetween 0x40 0x7E c then .string
        else .device
    | .deviceNumbers =>
        if isBetween 0x20 0x2F c then .deviceLetter
        else if isBetween 0x3C 0x7E c then .string
        else .deviceNumbers
    | .deviceLetter => if isBetween 0x30 0x7E c then .string else .deviceLetter
    | .string => if holdsTerminator c then .text else .string
    | .command => if c = '\x07' then .text else .command

/-- The white space that is shown within most sequences. -/
def isLayout (c : Char) : Bool :=
  c = '\t' || c = '\n' || c = '\x0c' || c = '\r'

/-- Whether a character is shown when this has begun. -/
def State.shows (s : State) (c : Char) : Bool :=
  match s with
  | .text => isLayout c || (0x20 ≤ c.toNat && c ≠ '\x7f')
  | .escape | .longEscape | .control => isLayout c
  | .device | .deviceNumbers | .deviceLetter | .string | .command => false

/-- The characters that are shown, after some of which the last was shown or not. -/
def shown (s : State) (lastShown : Bool) : List Char → List Char
  | [] => []
  | c :: cs =>
      if (if lastShown then State.text else s).shows c then
        c :: shown (if c.toNat < 0x80 then s else .text) true cs
      else shown (s.next c) false cs

/-- The text that is left. -/
def plain (s : String) : String :=
  String.ofList (shown .text false s.toList)

end Terminal
end ConfigSnapshot
