import ConfigSnapshot.Text.Blank

/-!
# Lines

A line feed ends a line and belongs to it. No other character ends one: a carriage return or a
Unicode line separator stays inside its line. Only the last line may lack its line feed, and no
line is empty, so the lines of a text are its one decomposition of this kind.
-/

namespace ConfigSnapshot
namespace Text

/-- The lines after one more character in front. -/
def addInFront (c : Char) (ls : List Text) : List Text :=
  if c = '\n' then [c] :: ls
  else
    match ls with
    | [] => [[c]]
    | l :: ls => (c :: l) :: ls

/-- The lines of a text. -/
def lines (t : Text) : List Text :=
  t.foldr addInFront []

@[simp] theorem lines_nil : lines [] = [] :=
  rfl

theorem lines_cons (c : Char) (t : Text) : lines (c :: t) = addInFront c (lines t) :=
  rfl

theorem flatten_addInFront (c : Char) (ls : List Text) :
    (addInFront c ls).flatten = c :: ls.flatten := by
  unfold addInFront
  split
  · simp
  · cases ls <;> simp

/-- Splitting into lines loses nothing. -/
@[simp] theorem flatten_lines (t : Text) : (lines t).flatten = t := by
  induction t with
  | nil => rfl
  | cons c t ih => rw [lines_cons, flatten_addInFront, ih]

end Text
end ConfigSnapshot
