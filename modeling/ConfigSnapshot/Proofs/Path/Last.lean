import ConfigSnapshot.Proofs.Path.Join

/-!
# The last segment of a path

It is what follows the last slash of the path, or all of a path without one.
-/

namespace ConfigSnapshot
namespace Path

theorem exists_append_of_separator_mem {path : Bytes} (h : separator ∈ path) :
    ∃ front last, path = front ++ separator :: last ∧ separator ∉ last := by
  obtain ⟨last, front, hreverse, hnot⟩ :=
    List.eq_append_cons_of_mem (List.mem_reverse.mpr h)
  refine ⟨front.reverse, last.reverse, ?_, by simpa using hnot⟩
  rw [← List.reverse_reverse path, hreverse]
  simp

theorem exists_getLast?_segments (path : Bytes) :
    ∃ front last : Bytes, path = front ++ last ∧ (front = [] ∨ endsInSeparator front = true) ∧
      separator ∉ last ∧ (segments path).getLast? = some last := by
  by_cases hmem : separator ∈ path
  · obtain ⟨front, last, rfl, hnot⟩ := exists_append_of_separator_mem hmem
    refine ⟨front ++ [separator], last, by simp, Or.inr ?_, hnot, ?_⟩
    · simp [endsInSeparator]
    · rw [segments_append_separator, segments_of_not_mem hnot]
      simp
  · refine ⟨[], path, rfl, Or.inl rfl, hmem, ?_⟩
    rw [segments_of_not_mem hmem]
    rfl

end Path
end ConfigSnapshot
