import ConfigSnapshot.Text.Blank

/-!
# Trimming

A text is its trimmed form between two runs of blanks. Blanks in front of a text do not change
its trimmed form, and a word at the front of the rest, one that neither starts nor ends with a
blank, stays at the front of it.
-/

namespace ConfigSnapshot
namespace Text

/-- Every character of the text is blank. -/
def AllBlank (t : Text) : Prop :=
  ∀ c ∈ t, isBlank c = true

instance (t : Text) : Decidable (AllBlank t) :=
  List.decidableBAll _ t

theorem AllBlank.append {v w : Text} (hv : AllBlank v) (hw : AllBlank w) : AllBlank (v ++ w) :=
  fun c hc ↦ (List.mem_append.mp hc).elim (hv c) (hw c)

/-- The text starts and ends with a character that is not blank. -/
def IsSolid (t : Text) : Prop :=
  (∃ c, t.head? = some c ∧ isBlank c = false) ∧ ∃ c, t.getLast? = some c ∧ isBlank c = false

theorem trimLeft_append_of_allBlank {v : Text} (hv : AllBlank v) (t : Text) :
    trimLeft (v ++ t) = trimLeft t :=
  List.dropWhile_append_of_pos hv

theorem trim_append_of_allBlank {v : Text} (hv : AllBlank v) (t : Text) :
    trim (v ++ t) = trim t := by
  rw [trim, trim, trimLeft_append_of_allBlank hv]

theorem trimRight_append_of_allBlank {w : Text} (hw : AllBlank w) (t : Text) :
    trimRight (t ++ w) = trimRight t := by
  have hreverse : ∀ c ∈ w.reverse, isBlank c = true := fun c hc ↦ hw c (List.mem_reverse.mp hc)
  rw [trimRight, trimRight, List.reverse_append, List.dropWhile_append_of_pos hreverse]

theorem trim_append_right_of_allBlank {w : Text} (hw : AllBlank w) (t : Text) :
    trim (t ++ w) = trim t := by
  have hall : w.dropWhile isBlank = [] := by
    have hnil := trimLeft_append_of_allBlank hw []
    rwa [List.append_nil] at hnil
  rw [trim, trim, trimLeft, trimLeft, List.dropWhile_append]
  split
  · next hempty => rw [hall, List.isEmpty_iff.mp hempty]
  · exact trimRight_append_of_allBlank hw _

theorem exists_trimLeft (t : Text) : ∃ v, AllBlank v ∧ t = v ++ trimLeft t := by
  refine ⟨t.takeWhile isBlank, ?_, List.takeWhile_append_dropWhile.symm⟩
  intro c hc
  exact List.all_eq_true.mp List.all_takeWhile c hc

theorem exists_trimRight (t : Text) : ∃ w, AllBlank w ∧ t = trimRight t ++ w := by
  obtain ⟨v, hv, ht⟩ := exists_trimLeft t.reverse
  refine ⟨v.reverse, ?_, ?_⟩
  · intro c hc
    exact hv c (List.mem_reverse.mp hc)
  · have h := congrArg List.reverse ht
    rwa [List.reverse_reverse, List.reverse_append] at h

theorem exists_trim (t : Text) :
    ∃ v w, AllBlank v ∧ AllBlank w ∧ t = v ++ (trim t ++ w) := by
  obtain ⟨v, hv, hleft⟩ := exists_trimLeft t
  obtain ⟨w, hw, hright⟩ := exists_trimRight (trimLeft t)
  refine ⟨v, w, hv, hw, ?_⟩
  rw [trim, ← hright]
  exact hleft

theorem trimRight_append_of_getLast {x : Text} {c : Char} (hlast : x.getLast? = some c)
    (hc : isBlank c = false) (t : Text) : trimRight (x ++ t) = x ++ trimRight t := by
  obtain ⟨x', rfl⟩ := List.getLast?_eq_some_iff.mp hlast
  have hstop : (x' ++ [c]).reverse.dropWhile isBlank = (x' ++ [c]).reverse := by
    simp [hc]
  rw [trimRight, trimRight, List.reverse_append, List.dropWhile_append, hstop]
  split
  · next hempty => simp [List.isEmpty_iff.mp hempty]
  · rw [List.reverse_append, List.reverse_reverse]

/-- A solid word that only blanks precede is where the trimmed form starts. -/
theorem trim_append_solid {v x : Text} (hv : AllBlank v) (hx : IsSolid x) (t : Text) :
    trim (v ++ (x ++ t)) = x ++ trimRight t := by
  obtain ⟨⟨c, hhead, hc⟩, ⟨d, hlast, hd⟩⟩ := hx
  obtain ⟨x', rfl⟩ : ∃ x', x = c :: x' := by
    cases x with
    | nil => simp at hhead
    | cons a x' =>
        refine ⟨x', ?_⟩
        simpa using hhead
  rw [trim_append_of_allBlank hv, trim, trimLeft, List.cons_append,
    List.dropWhile_cons_of_neg (by simp [hc]), ← List.cons_append]
  exact trimRight_append_of_getLast hlast hd t

end Text
end ConfigSnapshot
