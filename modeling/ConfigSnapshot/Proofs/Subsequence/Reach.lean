import ConfigSnapshot.Proofs.Subsequence
import Mathlib.Data.List.NodupEquivFin
import Mathlib.Order.Bounds.Defs

/-!
# How far the search reads

The search never goes back, and still it reads no more of a list than it has to. It stops at the
end of the shortest part, taken from the left, that the pattern occurs in, and it reads the whole
list only if there is no such part before the end. An occurrence gives each element of the pattern
a place in the list, in their order.
-/

namespace ConfigSnapshot
namespace Subsequence

variable {α : Type u}

/-- The places keep the order of the pattern, and each holds the element that it is for. -/
structure IsOccurrence (pattern xs : List α) (place : Fin pattern.length → Fin xs.length) :
    Prop where
  strictMono : StrictMono place
  getElem_eq (i : Fin pattern.length) : xs[place i] = pattern[i]

theorem exists_isOccurrence_iff_sublist {pattern xs : List α} :
    (∃ place, IsOccurrence pattern xs place) ↔ pattern.Sublist xs := by
  rw [List.sublist_iff_exists_fin_orderEmbedding_get_eq]
  constructor
  · rintro ⟨place, hmono, helement⟩
    exact ⟨OrderEmbedding.ofStrictMono place hmono, fun i ↦ (helement i).symm⟩
  · rintro ⟨place, helement⟩
    exact ⟨place, place.strictMono, fun i ↦ (helement i).symm⟩

variable [DecidableEq α]

theorem search_cons_self (p : α) (ps xs : List α) :
    search (p :: ps) (p :: xs) =
      ⟨(search ps xs).found, (search ps xs).consumed + 1⟩ := by
  rw [search, if_pos rfl]

theorem search_cons_of_ne {p x : α} (h : x ≠ p) (ps xs : List α) :
    search (p :: ps) (x :: xs) =
      ⟨(search (p :: ps) xs).found, (search (p :: ps) xs).consumed + 1⟩ := by
  rw [search, if_neg h]

theorem consumed_search_le (pattern xs : List α) :
    (search pattern xs).consumed ≤ xs.length := by
  induction xs generalizing pattern with
  | nil => cases pattern <;> simp
  | cons x xs ih =>
      cases pattern with
      | nil => simp
      | cons p ps => exact Nat.succ_le_succ (ih _)

/-- A search that finds nothing has read everything. -/
theorem consumed_search_of_not_found {pattern xs : List α}
    (h : (search pattern xs).found = false) : (search pattern xs).consumed = xs.length := by
  induction xs generalizing pattern with
  | nil => cases pattern <;> simp
  | cons x xs ih =>
      cases pattern with
      | nil => simp at h
      | cons p ps => exact congrArg (· + 1) (ih h)

/-- The pattern occurs in just those parts that reach as far as the search reads. The first match
of an element is taken, and an occurrence that takes a later one can be moved to it. -/
theorem sublist_take_iff {pattern xs : List α} {n : Nat} :
    pattern.Sublist (xs.take n) ↔
      (search pattern xs).found = true ∧ (search pattern xs).consumed ≤ n := by
  induction xs generalizing pattern n with
  | nil => cases pattern <;> simp
  | cons x xs ih =>
      cases pattern with
      | nil => simp
      | cons p ps =>
          cases n with
          | zero => simp [search]
          | succ n =>
              rw [List.take_succ_cons]
              by_cases hx : x = p
              · subst hx
                rw [search_cons_self, List.cons_sublist_cons, ih, Nat.succ_le_succ_iff]
              · have hlater : (p :: ps).Sublist (x :: xs.take n) ↔
                    (p :: ps).Sublist (xs.take n) :=
                  ⟨List.Sublist.of_cons_of_ne (Ne.symm hx), List.Sublist.cons x⟩
                rw [search_cons_of_ne hx, hlater, ih, Nat.succ_le_succ_iff]

/-- The search finds every occurrence, at the end of the shortest part that has one. -/
theorem search_reaches_shortest (pattern xs : List α) :
    (occurs pattern xs = true ↔ ∃ place, IsOccurrence pattern xs place) ∧
      (occurs pattern xs = true →
        IsLeast {n | ∃ front, front <+: xs ∧ front.length = n ∧
          ∃ place, IsOccurrence pattern front place} (search pattern xs).consumed) ∧
      (occurs pattern xs = false → (search pattern xs).consumed = xs.length) ∧
      search ([] : List α) xs = ⟨true, 0⟩ := by
  have hle := consumed_search_le pattern xs
  refine ⟨?_, fun hfound ↦ ⟨?_, ?_⟩, consumed_search_of_not_found, search_nil_left xs⟩
  · rw [exists_isOccurrence_iff_sublist, occurs_iff_sublist]
  · refine ⟨xs.take (search pattern xs).consumed, List.take_prefix _ _,
      List.length_take_of_le hle, ?_⟩
    exact exists_isOccurrence_iff_sublist.mpr (sublist_take_iff.mpr ⟨hfound, Nat.le_refl _⟩)
  · rintro n ⟨front, hfront, rfl, hoccurs⟩
    rw [exists_isOccurrence_iff_sublist, List.prefix_iff_eq_take.mp hfront] at hoccurs
    exact (sublist_take_iff.mp hoccurs).2

/-- The second element of the pattern needs a place of its own behind that of the first. -/
example : search ["in", "in"] ["in", "x", "in", "in"] = ⟨true, 3⟩ := by
  decide

end Subsequence
end ConfigSnapshot
