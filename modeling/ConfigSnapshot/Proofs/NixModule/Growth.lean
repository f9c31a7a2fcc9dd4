import ConfigSnapshot.Proofs.NixModule.Target

/-!
# How much a move adds

A move replaces one line of a module by a longer one: the words `config =` get the key put into
them, and nothing is taken away. So no move is without effect, and its effect on the size of the
module depends on the stem alone.
-/

namespace ConfigSnapshot
namespace Text

/-- The number of bytes in the UTF-8 form of a text. -/
def size (t : Text) : Nat :=
  (String.ofList t).utf8ByteSize

@[simp] theorem size_append (s t : Text) : size (s ++ t) = size s + size t := by
  rw [size, String.ofList_append, String.utf8ByteSize_append]
  rfl

theorem size_toUTF8_ofList (t : Text) : (String.ofList t).toUTF8.size = size t :=
  rfl

theorem size_toList (s : String) : size s.toList = s.toUTF8.size := by
  rw [← size_toUTF8_ofList, String.ofList_toList]

end Text

namespace NixModule

open Text

/-- What a move under a stem adds to the size of a module. -/
def growth (stem : Text) : Nat :=
  10 + size stem

theorem growth_pos (stem : Text) : 0 < growth stem := by
  rw [growth]
  omega

theorem size_moveLine {line : Text} (h : assignsConfig line = true) (stem : Text) :
    size (moveLine stem line) = size line + growth stem := by
  obtain ⟨v, r, hv, rfl⟩ := exists_of_assignsConfig h
  have hwords : size "config =".toList = 8 := by decide
  have hkey : size "config.snapshot.".toList = 16 := by decide
  have hsign : size " =".toList = 2 := by decide
  rw [moveLine_append hv]
  simp only [size_append, hwords, hkey, hsign, growth]
  omega

theorem size_moveConfig {t stem u : Text} (h : moveConfig t stem = some u) :
    size u = size t + growth stem := by
  obtain ⟨i, line, -, -, hconfig, ht, hu⟩ := exists_lines_of_moveConfig h
  have hsize := congrArg size ht
  rw [hu]
  simp only [size_append, size_moveLine hconfig] at hsize ⊢
  omega

theorem ne_of_moveConfig {t stem u : Text} (h : moveConfig t stem = some u) : u ≠ t := by
  rintro rfl
  have hsize := size_moveConfig h
  have hpos := growth_pos stem
  omega

end NixModule
end ConfigSnapshot
