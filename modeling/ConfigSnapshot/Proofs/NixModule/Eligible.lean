import ConfigSnapshot.Proofs.NixModule.Target
import Mathlib.Order.Bounds.Basic

/-!
# The rule for the top-level assignment

The rule speaks of the lines of a module by their indices and knows no scan: two braces so far,
the words `config =` in front, and the end of the `let` block in an earlier line if the module
has such a block anywhere. The targets of a scan are the lines that meet it.
-/

namespace ConfigSnapshot
namespace NixModule

open Text

/-- The line of this index holds only the word. -/
def HoldsAt (t : Text) (word : String) (i : Nat) : Prop :=
  (lines t)[i]?.map trim = some word.toList

/-- Some line holds only `let` and a later one only `in`. -/
def HasLetIn (t : Text) : Prop :=
  ∃ j k, j < k ∧ HoldsAt t "let" j ∧ HoldsAt t "in" k

structure IsEligible (t : Text) (i : Nat) : Prop where
  braces : ((lines t).take (i + 1)).countP startsWithBrace = 2
  config : ∃ line, (lines t)[i]? = some line ∧ "config = ".toList <+: trim line
  letBlock : (∃ j < i, HoldsAt t "in" j) ∨ ¬ HasLetIn t

theorem hasLetBlock_lines_iff {t : Text} : hasLetBlock (lines t) = true ↔ HasLetIn t := by
  simp only [hasLetBlock, Subsequence.occurs_pair_iff, List.getElem?_map, HasLetIn, HoldsAt]

theorem any_isIn_take_iff {t : Text} {i : Nat} :
    ((lines t).take i).any isIn = true ↔ ∃ j < i, HoldsAt t "in" j := by
  rw [List.any_eq_true]
  constructor
  · rintro ⟨line, hmem, hin⟩
    obtain ⟨j, hj⟩ := List.mem_iff_getElem?.mp hmem
    have hlt : j < i := by
      apply Nat.lt_of_not_ge
      intro hge
      rw [List.getElem?_take_eq_none hge] at hj
      exact Option.some_ne_none line hj.symm
    rw [List.getElem?_take_of_lt hlt] at hj
    exact ⟨j, hlt, by rw [HoldsAt, hj, Option.map_some, isIn_iff.mp hin]⟩
  · rintro ⟨j, hlt, hholds⟩
    obtain ⟨line, hline, htrim⟩ := Option.map_eq_some_iff.mp hholds
    have hmem : line ∈ (lines t).take i := by
      apply List.mem_iff_getElem?.mpr
      exact ⟨j, by rw [List.getElem?_take_of_lt hlt, hline]⟩
    exact ⟨line, hmem, isIn_iff.mpr htrim⟩

theorem mem_targets_iff_isEligible {t : Text} {i : Nat} : i ∈ targets t ↔ IsEligible t i := by
  have hblock : (positionAfter t i).pastLet = true ∨ hasLetBlock (lines t) = false ↔
      (∃ j < i, HoldsAt t "in" j) ∨ ¬ HasLetIn t := by
    rw [pastLet_positionAfter, any_isIn_take_iff, ← hasLetBlock_lines_iff, Bool.not_eq_true]
  rw [mem_targets_iff, hblock, braces_positionAfter, BraceCount.ofLines_eq_two_iff]
  simp only [assignsConfig_iff]
  constructor
  · rintro ⟨line, hline, hlet, hbraces, hconfig⟩
    exact ⟨hbraces, ⟨line, hline, hconfig⟩, hlet⟩
  · rintro ⟨hbraces, ⟨line, hline, hconfig⟩, hlet⟩
    exact ⟨line, hline, hlet, hbraces, hconfig⟩

theorem isLeast_of_head?_targets {t : Text} {i : Nat} (h : (targets t).head? = some i) :
    IsLeast {j | IsEligible t j} i := by
  obtain ⟨later, hlater⟩ := List.head?_eq_some_iff.mp h
  have hpairwise := pairwise_targets t
  rw [hlater, List.pairwise_cons] at hpairwise
  have hfirst : i ∈ targets t := hlater ▸ List.mem_cons_self
  refine ⟨mem_targets_iff_isEligible.mp hfirst, ?_⟩
  intro j hj
  have hmem : j ∈ targets t := mem_targets_iff_isEligible.mpr hj
  rw [hlater, List.mem_cons] at hmem
  rcases hmem with rfl | hmem
  · exact Nat.le_refl j
  · exact Nat.le_of_lt (hpairwise.1 j hmem)

theorem target_scan_eq_some_iff {t : Text} {i : Nat} :
    (scan t).target = some i ↔ IsLeast {j | IsEligible t j} i := by
  rw [target_scan]
  constructor
  · exact isLeast_of_head?_targets
  · intro hleast
    have hmem : i ∈ targets t := mem_targets_iff_isEligible.mpr hleast.1
    obtain ⟨k, later, htargets⟩ := List.exists_cons_of_ne_nil (List.ne_nil_of_mem hmem)
    have hhead : (targets t).head? = some k := by rw [htargets, List.head?_cons]
    rw [hhead, (isLeast_of_head?_targets hhead).unique hleast]

theorem isEligible_of_target {t : Text} {i : Nat} (h : (scan t).target = some i) :
    IsEligible t i :=
  (target_scan_eq_some_iff.mp h).1

/-- A module is moved at its first eligible line and nowhere else, and kept if it has none. The
brace count of the scan is the plain one at every line, so far as it tells counts apart. -/
theorem moveConfig_at_least_eligible (t stem : Text) :
    (moveConfig t stem = none ↔ ∀ i, ¬ IsEligible t i) ∧
      (∀ u, moveConfig t stem = some u →
        ∃ i line, IsLeast {j | IsEligible t j} i ∧ (scan t).target = some i ∧
          (lines t)[i]? = some line ∧ moveLine stem line ≠ line ∧
            u = ((lines t).take i).flatten ++ moveLine stem line ++
              ((lines t).drop (i + 1)).flatten) ∧
        ∀ i < (lines t).length,
          let count := ((lines t).take (i + 1)).countP startsWithBrace
          (positionAfter t (i + 1)).braces = .ofLines count ∧
            ((positionAfter t (i + 1)).braces = .two ↔ count = 2) := by
  refine ⟨?_, ?_, ?_⟩
  · rw [moveConfig_eq, Option.map_eq_none_iff, List.head?_eq_none_iff,
      List.eq_nil_iff_forall_not_mem]
    simp only [mem_targets_iff_isEligible]
  · intro u hu
    rw [moveConfig_eq] at hu
    obtain ⟨i, hi, rfl⟩ := Option.map_eq_some_iff.mp hu
    have hmem : i ∈ targets t := List.mem_of_head? hi
    obtain ⟨line, hline, hconfig⟩ := assignsConfig_of_mem_targets hmem
    obtain ⟨hlt, hget⟩ := List.getElem?_eq_some_iff.mp hline
    refine ⟨i, line, isLeast_of_head?_targets hi, ?_, hline, moveLine_ne hconfig stem, ?_⟩
    · rw [target_scan, hi]
    · rw [List.modify_eq_take_cons_drop hlt, hget, List.flatten_append, List.flatten_cons,
        List.append_assoc]
  · intro i _ count
    rw [braces_positionAfter]
    exact ⟨rfl, BraceCount.ofLines_eq_two_iff⟩

end NixModule
end ConfigSnapshot
