import ConfigSnapshot.NixModule.Event
import ConfigSnapshot.Subsequence
import ConfigSnapshot.Text.Lines

/-!
# Finding the top-level assignment

A module's lines are read from the top until one assigns the top-level `config`. Such a line
comes after exactly two lines that start with a brace. In a module with a `let … in` block it
also has to come after the block, whose end is the first line that holds only `in`; whether
there is such a block is a matter of the whole module.
-/

namespace ConfigSnapshot
namespace NixModule

open Text

/-- Where a reader of a module stands after some of its lines. -/
structure Position where
  braces : BraceCount
  pastLet : Bool
  deriving DecidableEq, Repr

/-- Before the first line. -/
def Position.start : Position := ⟨.zero, false⟩

def startsWithBrace (line : Text) : Bool :=
  line.head? = some '{'

/-- Whether the line assigns `config` as a whole. -/
def assignsConfig (line : Text) : Bool :=
  "config = ".toList.isPrefixOf (trim line)

/-- Whether the line holds only the word `in`. -/
def isIn (line : Text) : Bool :=
  trim line = "in".toList

/-- Whether some line holds only `let` and a later one only `in`. -/
def hasLetBlock (ls : List Text) : Bool :=
  Subsequence.occurs ["let".toList, "in".toList] (ls.map trim)

/-- What comes of one line: the position after it, what is noticed, and whether the line is the
top-level assignment. -/
structure Step where
  position : Position
  events : List Event
  isTarget : Bool
  deriving DecidableEq, Repr

/-- The brace count includes the line itself, and the line that ends the block is no target. -/
def Position.read (letBlock : Bool) (p : Position) (line : Text) : Step :=
  let braces := if startsWithBrace line then p.braces.succ else p.braces
  let noticed := if startsWithBrace line then [Event.brace braces] else []
  if !p.pastLet && isIn line then ⟨⟨braces, true⟩, noticed ++ [.letEnd], false⟩
  else
    ⟨⟨braces, p.pastLet⟩, noticed,
      (p.pastLet || !letBlock) && braces = .two && assignsConfig line⟩

/-- The outcome of a scan: what was noticed, and the index of the top-level assignment. -/
structure Finding where
  events : List Event
  target : Option Nat
  deriving DecidableEq, Repr

/-- Reads lines, the first of which has the given index, up to the top-level assignment. -/
def Position.scan (letBlock : Bool) (p : Position) (index : Nat) : List Text → Finding
  | [] => ⟨[], none⟩
  | line :: rest =>
      let step := p.read letBlock line
      if step.isTarget then ⟨step.events ++ [.config (index + 1)], some index⟩
      else
        let later := step.position.scan letBlock (index + 1) rest
        ⟨step.events ++ later.events, later.target⟩

/-- What a module's lines show, up to the top-level assignment. -/
def scan (t : Text) : Finding :=
  Position.start.scan (hasLetBlock (lines t)) 0 (lines t)

end NixModule
end ConfigSnapshot
