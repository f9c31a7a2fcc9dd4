import ConfigSnapshot.Subsequence

/-!
# What the greedy search finds

Taking the first match for each element never loses an occurrence: the search succeeds exactly
on the sublists.
-/

namespace ConfigSnapshot
namespace Subsequence

variable {α : Type u} [DecidableEq α]

theorem occurs_cons_self (p : α) (ps xs : List α) :
    occurs (p :: ps) (p :: xs) = occurs ps xs := by
  simp [occurs, search]

theorem occurs_cons_of_ne {p x : α} (h : x ≠ p) (ps xs : List α) :
    occurs (p :: ps) (x :: xs) = occurs (p :: ps) xs := by
  simp [occurs, search, h]

theorem occurs_iff_sublist {pattern xs : List α} :
    occurs pattern xs = true ↔ pattern.Sublist xs := by
  induction xs generalizing pattern with
  | nil => cases pattern <;> simp [occurs]
  | cons x xs ih =>
      cases pattern with
      | nil => simp [occurs]
      | cons p ps =>
          by_cases h : x = p
          · subst h
            rw [occurs_cons_self, ih, List.cons_sublist_cons]
          · rw [occurs_cons_of_ne h, ih]
            constructor
            · exact List.Sublist.cons x
            · intro hsub
              cases hsub with
              | cons _ hrest => exact hrest
              | cons_cons => exact absurd rfl h

/-- Only the elements of the pattern play a role. -/
theorem occurs_filter (pattern xs : List α) :
    occurs pattern (xs.filter (· ∈ pattern)) = occurs pattern xs := by
  rw [Bool.eq_iff_iff, occurs_iff_sublist, occurs_iff_sublist]
  constructor
  · intro h
    exact h.trans List.filter_sublist
  · intro h
    have hfilter := h.filter (· ∈ pattern)
    rwa [List.filter_eq_self.mpr (by simp)] at hfilter

theorem occurs_insert {pattern block : List α} (h : ∀ x ∈ block, x ∉ pattern)
    (front back : List α) :
    occurs pattern (front ++ (block ++ back)) = occurs pattern (front ++ back) := by
  have hblock : block.filter (· ∈ pattern) = [] := by
    rw [List.filter_eq_nil_iff]
    intro x hx
    simpa using h x hx
  rw [← occurs_filter, ← occurs_filter pattern (front ++ back)]
  simp only [List.filter_append, hblock, List.nil_append]

/-- Two elements occur in order if the first has an earlier index than the second. -/
theorem occurs_pair_iff {p q : α} {xs : List α} :
    occurs [p, q] xs = true ↔ ∃ j k : Nat, j < k ∧ xs[j]? = some p ∧ xs[k]? = some q := by
  rw [occurs_iff_sublist, List.cons_sublist_iff]
  constructor
  · rintro ⟨front, back, rfl, hp, hq⟩
    obtain ⟨j, hj⟩ := List.mem_iff_getElem?.mp hp
    obtain ⟨k, hk⟩ := List.mem_iff_getElem?.mp (List.singleton_sublist.mp hq)
    have hlt : j < front.length := (List.getElem?_eq_some_iff.mp hj).1
    refine ⟨j, front.length + k, by omega, ?_, ?_⟩
    · rw [List.getElem?_append_left hlt, hj]
    · rw [List.getElem?_append_right (by omega), Nat.add_sub_cancel_left, hk]
  · rintro ⟨j, k, hjk, hj, hk⟩
    have hfront : p ∈ xs.take (j + 1) := by
      apply List.mem_iff_getElem?.mpr
      exact ⟨j, by rw [List.getElem?_take_of_lt (Nat.lt_succ_self j), hj]⟩
    have hback : q ∈ xs.drop (j + 1) := by
      apply List.mem_iff_getElem?.mpr
      exact ⟨k - (j + 1), by rw [List.getElem?_drop, Nat.add_sub_cancel' hjk, hk]⟩
    exact ⟨xs.take (j + 1), xs.drop (j + 1), (List.take_append_drop _ _).symm, hfront,
      List.singleton_sublist.mpr hback⟩

end Subsequence
end ConfigSnapshot
