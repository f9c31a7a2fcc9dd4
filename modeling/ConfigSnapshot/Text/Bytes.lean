import ConfigSnapshot.Text.Blank

/-!
# Bytes

Names and paths are bytes. Most are the UTF-8 form of a text, but nothing sees to it. Where they
are shown or put into a text, U+FFFD stands for what is no character, once for as many bytes as
the form of some character begins with.
-/

namespace ConfigSnapshot

/-- A name or a path, byte by byte. -/
abbrev Bytes := List UInt8

namespace Bytes

/-- The UTF-8 form of a text. -/
def ofText (t : Text) : Bytes :=
  t.flatMap String.utf8EncodeChar

/-- The UTF-8 form of a string. -/
def ofString (s : String) : Bytes :=
  ofText s.toList

instance : Coe String Bytes :=
  ⟨ofString⟩

/-- What stands for bytes that are no character. -/
def replacement : Char := '\uFFFD'

/-- The character whose UTF-8 form the bytes start with. -/
def firstChar? (b : Bytes) : Option Char :=
  b.toByteArray.utf8DecodeChar? 0

/-- The bytes that can begin the form of a character of three or four bytes, each with those that
can follow it there, as closed ranges. -/
def longForms : List ((UInt8 × UInt8) × (UInt8 × UInt8)) :=
  [((0xE0, 0xE0), (0xA0, 0xBF)), ((0xE1, 0xEC), (0x80, 0xBF)), ((0xED, 0xED), (0x80, 0x9F)),
    ((0xEE, 0xEF), (0x80, 0xBF)), ((0xF0, 0xF0), (0x90, 0xBF)), ((0xF1, 0xF3), (0x80, 0xBF)),
    ((0xF4, 0xF4), (0x80, 0x8F))]

/-- Whether two bytes begin a longer form. -/
def beginsLongForm (first second : UInt8) : Bool :=
  longForms.any fun form ↦
    form.1.1 ≤ first && first ≤ form.1.2 && form.2.1 ≤ second && second ≤ form.2.2

/-- How many bytes are replaced at once where no character starts. -/
def brokenLength : Bytes → Nat
  | first :: second :: rest =>
      if beginsLongForm first second then
        match rest with
        | third :: _ => if 0xF0 ≤ first && 0x80 ≤ third && third ≤ 0xBF then 3 else 2
        | [] => 2
      else 1
  | _ => 1

/-- The characters of bytes after the first `skipped` ones. -/
def decodeAfter : (skipped : Nat) → Bytes → Text
  | _, [] => []
  | skipped + 1, _ :: rest => decodeAfter skipped rest
  | 0, first :: rest =>
      match firstChar? (first :: rest) with
      | some c => c :: decodeAfter (c.utf8Size - 1) rest
      | none => replacement :: decodeAfter (brokenLength (first :: rest) - 1) rest

/-- The text that bytes are taken for. -/
def toText (b : Bytes) : Text :=
  decodeAfter 0 b

/-- Bytes as they are shown. -/
def display (b : Bytes) : String :=
  String.ofList (toText b)

example : toText [0x61, 0xE2, 0x82, 0xAC, 0xE2, 0x82, 0x2F, 0xFF] =
    ['a', '€', '\uFFFD', '/', '\uFFFD'] := by
  decide

end Bytes
end ConfigSnapshot
