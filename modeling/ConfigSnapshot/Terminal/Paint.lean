/-!
# Colour on a terminal

A piece of text is given a look by an escape sequence before it and one after it that ends all
looks.
-/

namespace ConfigSnapshot
namespace Terminal

/-- The looks of a piece of text. -/
inductive Look
  | bold
  | dim
  | italic
  | underline
  | red
  | green
  | yellow
  | blue
  | magenta
  deriving DecidableEq, Repr

def Look.code : Look → String
  | .bold => "1"
  | .dim => "2"
  | .italic => "3"
  | .underline => "4"
  | .red => "31"
  | .green => "32"
  | .yellow => "33"
  | .blue => "34"
  | .magenta => "35"

def paint (look : Look) (piece : String) : String :=
  "\x1b[" ++ look.code ++ "m" ++ piece ++ "\x1b[0m"

/-- A piece that is bold as well. -/
def paintBold (look : Look) (piece : String) : String :=
  "\x1b[" ++ Look.bold.code ++ "m" ++ paint look piece

end Terminal
end ConfigSnapshot
