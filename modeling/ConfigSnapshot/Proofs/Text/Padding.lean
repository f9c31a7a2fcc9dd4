import ConfigSnapshot.Proofs.Text.Cut
import ConfigSnapshot.Proofs.Text.Trim

/-!
# Padding the ends of lines

Blanks other than the line feed can stand at the end of a line, in front of its line feed if it
has one. The lines of a text that is padded in this way are the lines of the text, each with its
padding, and trim to what they trimmed to. A carriage return in front of each line feed is a
padding.
-/

namespace ConfigSnapshot
namespace Text

/-- Blanks that do not end a line. -/
structure IsPadding (w : Text) : Prop where
  blank : AllBlank w
  free : '\n' ∉ w

/-- The line with a padding in front of its line feed, or at its end if it has none. -/
def padLine (w line : Text) : Text :=
  if line.getLast? = some '\n' then line.dropLast ++ (w ++ ['\n']) else line ++ w

/-- The lines with a padding each. -/
def padLines (pads : Nat → Text) (ls : List Text) : List Text :=
  ls.mapIdx fun i line ↦ padLine (pads i) line

/-- The text with a padding for each line, given by the index of the line. -/
def pad (pads : Nat → Text) (t : Text) : Text :=
  (padLines pads (lines t)).flatten

/-- The text with a carriage return in front of each line feed. -/
def withReturns (t : Text) : Text :=
  t.flatMap fun c ↦ if c = '\n' then ['\r', '\n'] else [c]

theorem padLine_feed (w x : Text) : padLine w (x ++ ['\n']) = x ++ (w ++ ['\n']) := by
  simp [padLine]

theorem padLine_of_not_mem {line : Text} (h : '\n' ∉ line) (w : Text) :
    padLine w line = line ++ w :=
  if_neg fun hlast ↦ h (List.mem_of_getLast? hlast)

theorem padLine_append {y : Text} (hy : y ≠ []) (w x : Text) :
    padLine w (x ++ y) = x ++ padLine w y := by
  obtain ⟨c, hc⟩ := Option.ne_none_iff_exists'.mp (mt List.getLast?_eq_none_iff.mp hy)
  rw [padLine, padLine, List.getLast?_append, hc, Option.some_or,
    List.dropLast_append_of_ne_nil hy]
  split <;> simp only [List.append_assoc]

/-- The padding stands between the line and blanks at its end. -/
theorem exists_padLine (w line : Text) :
    ∃ x e, AllBlank e ∧ line = x ++ e ∧ padLine w line = x ++ (w ++ e) := by
  by_cases hlast : line.getLast? = some '\n'
  · obtain ⟨x, rfl⟩ := List.getLast?_eq_some_iff.mp hlast
    exact ⟨x, ['\n'], by decide, rfl, padLine_feed w x⟩
  · exact ⟨line, [], by decide, (List.append_nil line).symm, by simp [padLine, hlast]⟩

theorem trim_padLine {w : Text} (hw : AllBlank w) (line : Text) :
    trim (padLine w line) = trim line := by
  obtain ⟨x, e, he, rfl, hpad⟩ := exists_padLine w line
  rw [hpad, trim_append_right_of_allBlank (hw.append he), trim_append_right_of_allBlank he]

theorem padLines_cons (pads : Nat → Text) (line : Text) (ls : List Text) :
    padLines pads (line :: ls) = padLine (pads 0) line :: padLines (fun i ↦ pads (i + 1)) ls :=
  List.mapIdx_cons

theorem IsCut.padLines {ls : List Text} (h : IsCut ls) {pads : Nat → Text}
    (hpads : ∀ i, IsPadding (pads i)) : IsCut (padLines pads ls) := by
  induction h generalizing pads with
  | nil => exact .nil
  | last hne hfree =>
      rw [padLines_cons, padLine_of_not_mem hfree]
      refine .last (by simp [hne]) ?_
      rw [List.mem_append, not_or]
      exact ⟨hfree, (hpads 0).free⟩
  | cons hfree _ ih =>
      rw [padLines_cons, padLine_feed, ← List.append_assoc]
      refine .cons ?_ (ih fun i ↦ hpads (i + 1))
      rw [List.mem_append, not_or]
      exact ⟨hfree, (hpads 0).free⟩

theorem lines_pad {pads : Nat → Text} (hpads : ∀ i, IsPadding (pads i)) (t : Text) :
    lines (pad pads t) = padLines pads (lines t) :=
  ((isCut_lines t).padLines hpads).lines_flatten

/-- A carriage return for each of the first `n` lines. -/
def returns (n i : Nat) : Text :=
  if i < n then ['\r'] else []

theorem isPadding_returns (n i : Nat) : IsPadding (returns n i) := by
  rw [returns]
  split
  · exact ⟨by decide, by decide⟩
  · exact ⟨by decide, by decide⟩

theorem withReturns_append (t v : Text) :
    withReturns (t ++ v) = withReturns t ++ withReturns v :=
  List.flatMap_append

theorem withReturns_of_not_mem {t : Text} (h : '\n' ∉ t) : withReturns t = t := by
  induction t with
  | nil => rfl
  | cons c t ih =>
      rw [List.mem_cons, not_or] at h
      rw [withReturns, List.flatMap_cons, if_neg (Ne.symm h.1), ← withReturns, ih h.2,
        List.singleton_append]

theorem IsCut.withReturns_flatten {ls : List Text} (h : IsCut ls) :
    withReturns ls.flatten = (Text.padLines (returns (ls.flatten.count '\n')) ls).flatten := by
  induction h with
  | nil => rfl
  | @last l _ hfree =>
      have hcount : l.count '\n' = 0 := List.count_eq_zero_of_not_mem hfree
      rw [padLines_cons, List.flatten_cons, List.flatten_nil, List.append_nil, hcount,
        withReturns_of_not_mem hfree, padLine_of_not_mem hfree]
      simp [Text.padLines, returns]
  | @cons x ls hfree _ ih =>
      have hcount : ((x ++ ['\n']) ++ ls.flatten).count '\n' = ls.flatten.count '\n' + 1 := by
        simp [List.count_eq_zero_of_not_mem hfree]
      have hshift : (fun i ↦ returns (ls.flatten.count '\n' + 1) (i + 1)) =
          returns (ls.flatten.count '\n') := by
        funext i
        simp only [returns, Nat.add_lt_add_iff_right]
      rw [List.flatten_cons, hcount, padLines_cons, hshift, List.flatten_cons, ← ih,
        withReturns_append, withReturns_append, withReturns_of_not_mem hfree, padLine_feed]
      simp [returns, withReturns]

/-- Returns pad the lines that have a line feed, and there are as many of them as line feeds. -/
theorem withReturns_eq_pad (t : Text) : withReturns t = pad (returns (t.count '\n')) t := by
  have h := (isCut_lines t).withReturns_flatten
  rwa [flatten_lines] at h

end Text
end ConfigSnapshot
