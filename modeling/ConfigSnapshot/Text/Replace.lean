import ConfigSnapshot.Text.Blank

/-!
# Replacing an occurrence
-/

namespace ConfigSnapshot
namespace Text

/-- The text with the leftmost occurrence of a nonempty target replaced, or the text itself if
the target does not occur. -/
def replaceFirst (target replacement : Text) : Text → Text
  | [] => []
  | c :: cs =>
      if target.isPrefixOf (c :: cs) then replacement ++ (c :: cs).drop target.length
      else c :: replaceFirst target replacement cs

@[simp] theorem replaceFirst_nil (target replacement : Text) :
    replaceFirst target replacement [] = [] :=
  rfl

/-- An occurrence at the left end is the leftmost one. -/
theorem replaceFirst_append {target : Text} (replacement rest : Text) (h : target ≠ []) :
    replaceFirst target replacement (target ++ rest) = replacement ++ rest := by
  obtain ⟨c, cs, rfl⟩ := List.exists_cons_of_ne_nil h
  have hp : (c :: cs).isPrefixOf (c :: (cs ++ rest)) = true := by
    simp [List.isPrefixOf_iff_prefix]
  rw [List.cons_append, replaceFirst, if_pos hp]
  simp

end Text
end ConfigSnapshot
