import ConfigSnapshot.Log.Level

/-!
# What is noticed in a module

Nesting is approximated by counting the lines that start with an opening brace. A formatted
module has two of them, its argument set and its body, so a third one lies past the body and
the count need not go on.
-/

namespace ConfigSnapshot
namespace NixModule

/-- The number of lines starting with a brace, told apart up to three. -/
inductive BraceCount
  | zero
  | one
  | two
  | more
  deriving DecidableEq, Repr

namespace BraceCount

/-- The count after `n` lines that start with a brace. -/
def ofLines : Nat → BraceCount
  | 0 => .zero
  | 1 => .one
  | 2 => .two
  | _ + 3 => .more

def succ : BraceCount → BraceCount
  | .zero => .one
  | .one => .two
  | .two => .more
  | .more => .more

def label : BraceCount → String
  | .zero => "BeforeAnyBrace"
  | .one => "SeenOneBrace"
  | .two => "SeenTwoBraces"
  | .more => "PastTopLevel"

@[simp] theorem ofLines_succ (n : Nat) : ofLines (n + 1) = (ofLines n).succ := by
  match n with
  | 0 | 1 | 2 | _ + 3 => rfl

@[simp] theorem ofLines_eq_two_iff {n : Nat} : ofLines n = .two ↔ n = 2 := by
  match n with
  | 0 | 1 | 2 | _ + 3 => simp [ofLines]

end BraceCount

/-- What a scan notices, in the order of the lines. -/
inductive Event
  /-- A line starts with a brace; the count includes it. -/
  | brace (count : BraceCount)
  /-- The first line that holds only the word `in`. -/
  | letEnd
  /-- The line that assigns the top-level `config`, counted from one. -/
  | config (line : Nat)
  deriving DecidableEq, Repr

namespace Event

open Log

def level : Event → Level
  | .brace _ => .trace
  | .letEnd => .debug
  | .config _ => .debug

def message : Event → String
  | .brace _ => "top-level brace"
  | .letEnd => "end of let block"
  | .config _ => "found top-level config"

/-- The named values that go with the message. -/
def fields : Event → List (String × String)
  | .brace count => [("depth", count.label)]
  | .letEnd => []
  | .config line => [("line", toString line)]

end Event
end NixModule
end ConfigSnapshot
