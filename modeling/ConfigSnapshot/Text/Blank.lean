/-!
# Blank characters

The characters with the Unicode property White_Space, and the removal of blanks at both ends
of a text.
-/

namespace ConfigSnapshot

/-- The text of a module, of one of its lines, or of a name, character by character. -/
abbrev Text := List Char

namespace Text

/-- The code points with the property White_Space, as closed ranges in increasing order. -/
def blankRanges : List (Nat × Nat) :=
  [(0x09, 0x0D), (0x20, 0x20), (0x85, 0x85), (0xA0, 0xA0), (0x1680, 0x1680), (0x2000, 0x200A),
    (0x2028, 0x2029), (0x202F, 0x202F), (0x205F, 0x205F), (0x3000, 0x3000)]

/-- Whether a character has the property White_Space. -/
def isBlank (c : Char) : Bool :=
  blankRanges.any fun r ↦ r.1 ≤ c.toNat && c.toNat ≤ r.2

/-- The text without the blanks at its left end. -/
def trimLeft (t : Text) : Text :=
  t.dropWhile isBlank

/-- The text without the blanks at its right end. -/
def trimRight (t : Text) : Text :=
  (t.reverse.dropWhile isBlank).reverse

/-- The text without the blanks at its two ends. -/
def trim (t : Text) : Text :=
  trimRight (trimLeft t)

@[simp] theorem isBlank_newline : isBlank '\n' = true := by
  decide

@[simp] theorem trim_nil : trim [] = [] :=
  rfl

end Text
end ConfigSnapshot
