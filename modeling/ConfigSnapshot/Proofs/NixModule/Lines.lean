import ConfigSnapshot.Proofs.NixModule.Chain

/-!
# The lines of a module

A text is cut into lines in one way only: the lines are the pieces that make up the text and have
the shape of lines. So a line can be replaced by any text of that shape that ends as it does, and
the other lines of the module are the same as before. A move under a stem without a line feed
replaces one line in this way.
-/

namespace ConfigSnapshot
namespace Text

/-- A text that can be a line: it is not empty, and if it has a line feed, that ends it. -/
structure IsLine (l : Text) : Prop where
  ne_nil : l ≠ []
  not_mem_dropLast : '\n' ∉ l.dropLast

def EndsInFeed (l : Text) : Prop :=
  l.getLast? = some '\n'

/-- Pieces of the shape that the lines of a text have: only the last may lack its line feed. -/
structure AreLines (ls : List Text) : Prop where
  isLine : ∀ l ∈ ls, IsLine l
  endsInFeed : ∀ l ∈ ls.dropLast, EndsInFeed l

theorem endsInFeed_iff {l : Text} : EndsInFeed l ↔ ∃ x, l = x ++ ['\n'] :=
  List.getLast?_eq_some_iff

theorem not_endsInFeed_of_not_mem {l : Text} (h : '\n' ∉ l) : ¬ EndsInFeed l :=
  fun hend ↦ h (List.mem_of_getLast? hend)

/-- The line feed of a line, if it has one, is the last character. -/
theorem IsLine.feed_cases {l : Text} (h : IsLine l) :
    (∃ x, '\n' ∉ x ∧ l = x ++ ['\n']) ∨ ('\n' ∉ l ∧ ¬ EndsInFeed l) := by
  by_cases hend : EndsInFeed l
  · obtain ⟨x, rfl⟩ := endsInFeed_iff.mp hend
    refine Or.inl ⟨x, ?_, rfl⟩
    simpa using h.not_mem_dropLast
  · refine Or.inr ⟨?_, hend⟩
    rw [← List.dropLast_concat_getLast h.ne_nil, List.mem_append, not_or, List.mem_singleton]
    refine ⟨h.not_mem_dropLast, fun hlast ↦ hend ?_⟩
    rw [EndsInFeed, List.getLast?_eq_some_getLast h.ne_nil, hlast]

theorem isLine_of_not_mem {l : Text} (hne : l ≠ []) (hfree : '\n' ∉ l) : IsLine l :=
  ⟨hne, fun hmem ↦ hfree (List.dropLast_subset _ hmem)⟩

theorem isLine_concat {x : Text} (hfree : '\n' ∉ x) : IsLine (x ++ ['\n']) :=
  ⟨by simp, by rwa [List.dropLast_concat]⟩

theorem IsCut.areLines {ls : List Text} (h : IsCut ls) : AreLines ls := by
  induction h with
  | nil => exact ⟨by simp, by simp⟩
  | last hne hfree => exact ⟨by simpa using isLine_of_not_mem hne hfree, by simp⟩
  | @cons x ls hfree _ ih =>
      refine ⟨List.forall_mem_cons.mpr ⟨isLine_concat hfree, ih.isLine⟩, ?_⟩
      cases ls with
      | nil => simp
      | cons l ls =>
          rw [List.dropLast_cons_cons]
          exact List.forall_mem_cons.mpr ⟨endsInFeed_iff.mpr ⟨x, rfl⟩, ih.endsInFeed⟩

theorem AreLines.isCut {ls : List Text} (h : AreLines ls) : IsCut ls := by
  induction ls with
  | nil => exact .nil
  | cons l ls ih =>
      obtain ⟨hline, hlines⟩ := List.forall_mem_cons.mp h.isLine
      rcases hline.feed_cases with ⟨x, hfree, rfl⟩ | ⟨hfree, hend⟩
      · refine .cons hfree (ih ⟨hlines, fun m hm ↦ h.endsInFeed m ?_⟩)
        cases ls with
        | nil => simp at hm
        | cons m' ls =>
            rw [List.dropLast_cons_cons]
            exact List.mem_cons_of_mem _ hm
      · -- a piece without a line feed can only be the last one
        cases ls with
        | nil => exact .last hline.ne_nil hfree
        | cons m ls => exact absurd (h.endsInFeed l (by simp)) hend

theorem endsAlike_of_isLine {l l' : Text} (h : IsLine l') (hend : EndsInFeed l' ↔ EndsInFeed l) :
    EndsAlike l l' where
  ne_nil := h.ne_nil
  free hfree := by
    rcases h.feed_cases with ⟨x, -, hx⟩ | ⟨hfree', -⟩
    · exact absurd (hend.mp (endsInFeed_iff.mpr ⟨x, hx⟩)) (not_endsInFeed_of_not_mem hfree)
    · exact hfree'
  feed {y} _ hy := by
    rcases h.feed_cases with hx | ⟨-, hnot⟩
    · exact hx
    · exact absurd (hend.mpr (endsInFeed_iff.mpr ⟨y, hy⟩)) hnot

theorem EndsAlike.isLine {l l' : Text} (h : EndsAlike l l') (hl : IsLine l) :
    IsLine l' ∧ (EndsInFeed l' ↔ EndsInFeed l) := by
  rcases hl.feed_cases with ⟨x, hfree, rfl⟩ | ⟨hfree, hend⟩
  · obtain ⟨x', hfree', rfl⟩ := h.feed hfree rfl
    exact ⟨isLine_concat hfree',
      iff_of_true (endsInFeed_iff.mpr ⟨x', rfl⟩) (endsInFeed_iff.mpr ⟨x, rfl⟩)⟩
  · exact ⟨isLine_of_not_mem h.ne_nil (h.free hfree),
      iff_of_false (not_endsInFeed_of_not_mem (h.free hfree)) hend⟩

theorem modify_eq_set_of_getElem? {ls : List Text} {i : Nat} {line : Text}
    (h : ls[i]? = some line) (f : Text → Text) : ls.modify i f = ls.set i (f line) := by
  rw [List.modify_eq_set, h, Option.getD_some]

theorem lines_flatten_set {t line line' : Text} {i : Nat} (hline : (lines t)[i]? = some line)
    (h : EndsAlike line line') :
    lines ((lines t).set i line').flatten = (lines t).set i line' := by
  rw [← modify_eq_set_of_getElem? hline fun _ ↦ line']
  refine ((isCut_lines t).modify fun l hl ↦ ?_).lines_flatten
  obtain rfl := Option.some.inj (hline.symm.trans hl)
  exact h

end Text

namespace NixModule

open Text

theorem exists_set_of_moveConfig {t stem u : Text} (hstem : '\n' ∉ stem)
    (h : moveConfig t stem = some u) :
    ∃ i line, (scan t).target = some i ∧ (lines t)[i]? = some line ∧
      EndsAlike line (moveLine stem line) ∧
        u = ((lines t).set i (moveLine stem line)).flatten := by
  rw [moveConfig] at h
  obtain ⟨i, hi, rfl⟩ := Option.map_eq_some_iff.mp h
  obtain ⟨line, hline, hconfig⟩ := assignsConfig_of_target hi
  exact ⟨i, line, hi, hline, endsAlike_moveLine hconfig hstem,
    congrArg List.flatten (modify_eq_set_of_getElem? hline (moveLine stem))⟩

/-- The lines are the one decomposition of a text into pieces of their shape, and a piece can be
replaced without a change of the others, as a move does. -/
theorem lines_unique_decomposition (t : Text) :
    ((lines t).flatten = t ∧ AreLines (lines t)) ∧
      (∀ ls, AreLines ls → lines ls.flatten = ls) ∧
      (∀ i line line', (lines t)[i]? = some line → IsLine line' →
        (EndsInFeed line' ↔ EndsInFeed line) →
          lines ((lines t).set i line').flatten = (lines t).set i line') ∧
      ∀ stem u, '\n' ∉ stem → moveConfig t stem = some u →
        ∃ i line, (scan t).target = some i ∧ (lines t)[i]? = some line ∧
          let line' := moveLine stem line
          IsLine line' ∧ (EndsInFeed line' ↔ EndsInFeed line) ∧
            u = ((lines t).set i line').flatten ∧ lines u = (lines t).set i line' := by
  have hshape : AreLines (lines t) := (isCut_lines t).areLines
  refine ⟨⟨flatten_lines t, hshape⟩, fun ls h ↦ h.isCut.lines_flatten, ?_, ?_⟩
  · intro i line line' hline hline' hend
    exact lines_flatten_set hline (endsAlike_of_isLine hline' hend)
  · intro stem u hstem hu
    obtain ⟨i, line, hi, hline, halike, rfl⟩ := exists_set_of_moveConfig hstem hu
    obtain ⟨hshape', hend⟩ := halike.isLine (hshape.isLine line (List.mem_of_getElem? hline))
    exact ⟨i, line, hi, hline, hshape', hend, rfl, lines_flatten_set hline halike⟩

/-- A carriage return or a separator of lines or paragraphs ends no line. -/
example : lines "a\r\n\nb\r\u2028c".toList =
    ["a\r\n".toList, "\n".toList, "b\r\u2028c".toList] := by
  decide

end NixModule
end ConfigSnapshot
