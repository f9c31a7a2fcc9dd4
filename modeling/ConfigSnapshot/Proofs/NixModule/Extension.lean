import ConfigSnapshot.Proofs.NixModule.Eligible
import ConfigSnapshot.Proofs.NixModule.Passage

/-!
# Text behind the target

More text at the end of a module leaves its lines where they are, with the braces and the `in`
lines before each of them. It can take the target away, by making a `let` block of a module that
has no `in` line before its target, and it can do nothing else to the move. Moves of different
lines never give the same module, so a target that is taken away shows in the outcome.
-/

namespace ConfigSnapshot
namespace NixModule

open Text

theorem moveLine_append_ne {line : Text} (h : assignsConfig line = true) (stem x y : Text) :
    moveLine stem line ++ x ≠ line ++ y := by
  obtain ⟨v, r, hv, rfl⟩ := exists_of_assignsConfig h
  intro heq
  rw [moveLine_append hv] at heq
  simp only [List.append_assoc] at heq
  -- behind the indentation and the word `config` a dot would have to be a space
  have hget := congrArg (·[6]?) (List.append_cancel_left heq)
  simp at hget

theorem flatten_modify_ne {ls : List Text} {i j : Nat} {line : Text} (hij : i < j)
    (hline : ls[i]? = some line) (hconfig : assignsConfig line = true) (stem : Text) :
    (ls.modify i (moveLine stem)).flatten ≠ (ls.modify j (moveLine stem)).flatten := by
  obtain ⟨j, rfl⟩ := Nat.exists_eq_add_of_lt hij
  induction ls generalizing i with
  | nil => simp at hline
  | cons l ls ih =>
      cases i with
      | zero =>
          obtain rfl : l = line := by simpa using hline
          rw [Nat.zero_add, List.modify_zero_cons, List.modify_succ_cons, List.flatten_cons,
            List.flatten_cons]
          exact moveLine_append_ne hconfig stem _ _
      | succ i =>
          have hindex : i + 1 + j + 1 = (i + j + 1) + 1 := by omega
          rw [hindex, List.modify_succ_cons, List.modify_succ_cons, List.flatten_cons,
            List.flatten_cons, ne_eq, List.append_cancel_left_eq]
          exact ih (by simpa using hline) (by omega)

theorem eq_of_flatten_modify_eq {ls : List Text} {i j : Nat} {stem : Text}
    (hi : ∃ line, ls[i]? = some line ∧ assignsConfig line = true)
    (hj : ∃ line, ls[j]? = some line ∧ assignsConfig line = true)
    (h : (ls.modify i (moveLine stem)).flatten = (ls.modify j (moveLine stem)).flatten) :
    i = j := by
  obtain ⟨line, hline, hconfig⟩ := hi
  obtain ⟨line', hline', hconfig'⟩ := hj
  rcases Nat.lt_trichotomy i j with hlt | heq | hgt
  · exact absurd h (flatten_modify_ne hlt hline hconfig stem)
  · exact heq
  · exact absurd h.symm (flatten_modify_ne hgt hline' hconfig' stem)

section

variable {t : Text} (ht : IsWhole t) (v : Text)

include ht

theorem holdsAt_append {word : String} {i : Nat} (hi : i < (lines t).length) :
    HoldsAt (t ++ v) word i ↔ HoldsAt t word i := by
  rw [HoldsAt, HoldsAt, lines_append ht, List.getElem?_append_left hi]

theorem HoldsAt.append {word : String} {i : Nat} (h : HoldsAt t word i) :
    HoldsAt (t ++ v) word i := by
  obtain ⟨line, hline, -⟩ := Option.map_eq_some_iff.mp h
  exact (holdsAt_append ht v (List.getElem?_eq_some_iff.mp hline).1).mpr h

theorem HasLetIn.append (h : HasLetIn t) : HasLetIn (t ++ v) := by
  obtain ⟨j, k, hjk, hj, hk⟩ := h
  exact ⟨j, k, hjk, hj.append ht v, hk.append ht v⟩

theorem isEligible_append_iff {i : Nat} (hi : i < (lines t).length) :
    IsEligible (t ++ v) i ↔
      IsEligible t i ∧ ((∃ j < i, HoldsAt t "in" j) ∨ ¬ HasLetIn (t ++ v)) := by
  have htake : (lines (t ++ v)).take (i + 1) = (lines t).take (i + 1) := by
    rw [lines_append ht, List.take_append_of_le_length hi]
  have hget : (lines (t ++ v))[i]? = (lines t)[i]? := by
    rw [lines_append ht, List.getElem?_append_left hi]
  have hin : (∃ j < i, HoldsAt (t ++ v) "in" j) ↔ ∃ j < i, HoldsAt t "in" j :=
    exists_congr fun j ↦ and_congr_right fun hj ↦ holdsAt_append ht v (hj.trans hi)
  constructor
  · rintro ⟨hbraces, hconfig, hlet⟩
    rw [htake] at hbraces
    rw [hget] at hconfig
    rw [hin] at hlet
    exact ⟨⟨hbraces, hconfig, hlet.imp_right fun h ht' ↦ h (HasLetIn.append ht v ht')⟩, hlet⟩
  · rintro ⟨⟨hbraces, hconfig, -⟩, hlet⟩
    refine ⟨?_, ?_, ?_⟩
    · rwa [htake]
    · rwa [hget]
    · rwa [hin]

/-- The target of a module stays the target unless a `let` block comes about. -/
theorem target_scan_append_iff {i : Nat} (hi : (scan t).target = some i) :
    (scan (t ++ v)).target = some i ↔
      (∃ j < i, HoldsAt t "in" j) ∨ ¬ HasLetIn (t ++ v) := by
  rw [target_scan_eq_some_iff] at hi ⊢
  obtain ⟨line, hline, -⟩ := hi.1.config
  have hlt := (List.getElem?_eq_some_iff.mp hline).1
  constructor
  · intro hleast
    exact ((isEligible_append_iff ht v hlt).mp hleast.1).2
  · intro hkept
    refine ⟨(isEligible_append_iff ht v hlt).mpr ⟨hi.1, hkept⟩, ?_⟩
    intro j hj
    rcases Nat.lt_or_ge j (lines t).length with hjt | hjt
    · exact hi.2 ((isEligible_append_iff ht v hjt).mp hj).1
    · exact (hlt.trans_le hjt).le

/-- Where a `let` block takes the target away, only what comes behind a later `in` line can be
moved instead. -/
theorem exists_in_of_target_scan_append {i k : Nat} (hi : (scan t).target = some i)
    (hk : (scan (t ++ v)).target = some k) (hlet : HasLetIn (t ++ v))
    (hfree : ¬ ∃ j < i, HoldsAt t "in" j) :
    ∃ j, i < j ∧ j < k ∧ HoldsAt (t ++ v) "in" j := by
  obtain ⟨line, hline, hconfig⟩ := assignsConfig_of_target hi
  have hlt := (List.getElem?_eq_some_iff.mp hline).1
  have hbefore := (isEligible_of_target hk).letBlock
  obtain ⟨j, hjk, hj⟩ := hbefore.resolve_right (not_not_intro hlet)
  refine ⟨j, ?_, hjk, hj⟩
  by_contra hle
  have hjt : HoldsAt t "in" j := (holdsAt_append ht v (by omega)).mp hj
  rcases Nat.lt_or_eq_of_le (Nat.le_of_not_lt hle) with hji | rfl
  · exact hfree ⟨j, hji, hjt⟩
  · rw [HoldsAt, hline, Option.map_some, Option.some.injEq] at hjt
    exact trim_ne_of_assignsConfig hconfig rfl hjt

/-- The text behind a module stays behind the moved module as long as the target stays. -/
theorem moveConfig_append_eq_iff {stem u : Text} {i : Nat} (hi : (scan t).target = some i)
    (hu : moveConfig t stem = some u) :
    moveConfig (t ++ v) stem = some (u ++ v) ↔ (scan (t ++ v)).target = some i := by
  obtain ⟨line, hline, hconfig⟩ := assignsConfig_of_target hi
  have hlt := (List.getElem?_eq_some_iff.mp hline).1
  rw [moveConfig, hi, Option.map_some, Option.some.injEq] at hu
  subst hu
  refine ⟨fun hmove ↦ ?_, fun htarget ↦ moveConfig_append_of_lt ht htarget hlt stem⟩
  obtain ⟨k, hk, hsame⟩ := Option.map_eq_some_iff.mp hmove
  have hmodify : ((lines (t ++ v)).modify k (moveLine stem)).flatten =
      ((lines (t ++ v)).modify i (moveLine stem)).flatten := by
    rw [hsame, lines_append ht, modify_append_of_lt hlt, List.flatten_append, flatten_lines]
  have hline' : (lines (t ++ v))[i]? = some line := by
    rw [lines_append ht, List.getElem?_append_left hlt, hline]
  rw [hk, eq_of_flatten_modify_eq (assignsConfig_of_target hk) ⟨line, hline', hconfig⟩ hmodify]

end

/-- Text behind a module keeps its move or, if the module has no `in` line before the target,
takes it away by completing a `let` block. -/
theorem moveConfig_append_iff {t stem u : Text} (hend : t.getLast? = some '\n')
    (hu : moveConfig t stem = some u) (v : Text) :
    ∃ i, (scan t).target = some i ∧
      (moveConfig (t ++ v) stem = some (u ++ v) ↔
        (∃ j < i, HoldsAt t "in" j) ∨ ¬ HasLetIn (t ++ v)) ∧
      (moveConfig (t ++ v) stem ≠ some (u ++ v) →
        (¬ ∃ j < i, HoldsAt t "in" j) ∧ ¬ HasLetIn t ∧ HasLetIn (t ++ v) ∧
          ∀ k, (scan (t ++ v)).target = some k →
            ∃ j, i < j ∧ j < k ∧ HoldsAt (t ++ v) "in" j) := by
  have ht : IsWhole t := Or.inr hend
  obtain ⟨i, hi, -⟩ := Option.map_eq_some_iff.mp hu
  have hiff := (moveConfig_append_eq_iff ht v hi hu).trans (target_scan_append_iff ht v hi)
  refine ⟨i, hi, hiff, fun hveto ↦ ?_⟩
  rw [ne_eq, hiff, not_or, not_not] at hveto
  obtain ⟨hfree, hlet⟩ := hveto
  refine ⟨hfree, ?_, hlet, fun k hk ↦ exists_in_of_target_scan_append ht v hi hk hlet hfree⟩
  exact (isEligible_of_target hi).letBlock.resolve_left hfree

theorem moveConfig_append_iff_let_behind :
    let t := "\x7b \x7d:\n\x7b\n  config = a;\n\x7d\n".toList
    let u := "\x7b \x7d:\n\x7b\n  config.snapshot.m = a;\n\x7d\n".toList
    let v := "let\nin\n".toList
    t.getLast? = some '\n' ∧ moveConfig t "m".toList = some u ∧
      moveConfig (t ++ v) "m".toList = none ∧ HasLetIn (t ++ v) := by
  intro t u v
  have hend : t.getLast? = some '\n' := by decide
  have hu : moveConfig t "m".toList = some u := by decide
  have hnone : moveConfig (t ++ v) "m".toList = none := by decide
  obtain ⟨i, -, -, hveto⟩ := moveConfig_append_iff hend hu v
  exact ⟨hend, hu, hnone, (hveto (by rw [hnone]; exact (Option.some_ne_none _).symm)).2.2.1⟩

end NixModule
end ConfigSnapshot
