/-!
# Subsequences

Looking for the elements of a pattern in a list, in order but not necessarily side by side.
The search reads the list once, from the left, and takes the first match for each element of
the pattern; elements passed over are not reconsidered.
-/

namespace ConfigSnapshot
namespace Subsequence

/-- Whether the whole pattern was found, and how many elements of the list were read. -/
structure Search where
  found : Bool
  consumed : Nat
  deriving DecidableEq, Repr

/-- The search stops right after the match of the last element of the pattern. -/
def search {α : Type u} [DecidableEq α] : List α → List α → Search
  | [], _ => ⟨true, 0⟩
  | _ :: _, [] => ⟨false, 0⟩
  | p :: ps, x :: xs =>
      let rest := search (if x = p then ps else p :: ps) xs
      ⟨rest.found, rest.consumed + 1⟩

/-- Whether the pattern occurs in the list in order. -/
def occurs {α : Type u} [DecidableEq α] (pattern list : List α) : Bool :=
  (search pattern list).found

@[simp] theorem search_nil_left {α : Type u} [DecidableEq α] (xs : List α) :
    search [] xs = ⟨true, 0⟩ := by
  simp [search]

@[simp] theorem search_cons_nil {α : Type u} [DecidableEq α] (p : α) (ps : List α) :
    search (p :: ps) [] = ⟨false, 0⟩ := by
  simp [search]

end Subsequence
end ConfigSnapshot
