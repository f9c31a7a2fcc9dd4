import ConfigSnapshot.Proofs.NixModule.Chain
import ConfigSnapshot.Proofs.NixModule.Eligible
import Mathlib.Data.Set.Card

/-!
# Moving a moved module again

A move takes one eligible line away and leaves the others to later moves. Under a stem without a
line feed it makes no new ones, so a module is done with after as many moves as it has eligible
lines, and after the first one only if that was its only such line. A stem that has a line feed
can bring an eligible line of its own.
-/

namespace ConfigSnapshot
namespace NixModule

open Text

theorem nodup_targets (t : Text) : (targets t).Nodup :=
  (pairwise_targets t).imp Nat.ne_of_lt

theorem ncard_isEligible (t : Text) : {i | IsEligible t i}.ncard = (targets t).length := by
  have hset : {i | IsEligible t i} = ((targets t).toFinset : Set Nat) := by
    ext i
    rw [Set.mem_ofPred_eq, Finset.mem_coe, List.mem_toFinset, mem_targets_iff_isEligible]
  rw [hset, Set.ncard_coe_finset, List.toFinset_card_of_nodup (nodup_targets t)]

theorem existsUnique_isEligible_iff {t : Text} {i : Nat} {later : List Nat}
    (h : targets t = i :: later) : (∃! j, IsEligible t j) ↔ later = [] := by
  have hmem (j : Nat) : IsEligible t j ↔ j = i ∨ j ∈ later := by
    rw [← mem_targets_iff_isEligible, h, List.mem_cons]
  constructor
  · rintro ⟨j, -, hunique⟩
    rw [List.eq_nil_iff_forall_not_mem]
    intro k hk
    have hki : k = i := by
      rw [hunique k ((hmem k).mpr (Or.inr hk)), hunique i ((hmem i).mpr (Or.inl rfl))]
    have hnodup := nodup_targets t
    rw [h, List.nodup_cons, ← hki] at hnodup
    exact hnodup.1 hk
  · rintro rfl
    refine ⟨i, (hmem i).mpr (Or.inl rfl), ?_⟩
    intro j hj
    rcases (hmem j).mp hj with hji | hlater
    · exact hji
    · exact absurd hlater List.not_mem_nil

theorem moveConfig_moveAll_replicate_eq_none_iff (t : Text) {stem : Text} (hstem : '\n' ∉ stem)
    (n : Nat) :
    moveConfig (moveAll t (List.replicate n stem)) stem = none ↔ (targets t).length ≤ n := by
  have hstems : ∀ s ∈ List.replicate n stem, '\n' ∉ s := by
    intro s hs
    rw [List.eq_of_mem_replicate hs]
    exact hstem
  rw [moveConfig_eq_none_iff, (moveAll_of_not_mem t hstems).1, List.length_replicate,
    List.drop_eq_nil_iff]

/-- A module that was moved has nothing left to move if and only if it had one eligible line, and
moves under one stem go on for as many eligible lines as there are. -/
theorem moveConfig_again_eq_none_iff {t stem u : Text} (hstem : '\n' ∉ stem)
    (hu : moveConfig t stem = some u) :
    (moveConfig u stem = none ↔ ∃! i, IsEligible t i) ∧
      ∀ n, moveConfig (moveAll t (List.replicate n stem)) stem = none ↔
        {i | IsEligible t i}.ncard ≤ n := by
  refine ⟨?_, fun n ↦ ?_⟩
  · cases ht : targets t with
    | nil =>
        rw [moveConfig_eq_none_iff.mpr ht] at hu
        cases hu
    | cons i later =>
        obtain ⟨w, hw, -, htargets⟩ := exists_moveConfig ht hstem
        obtain rfl : u = w := Option.some.inj (hu.symm.trans hw)
        rw [moveConfig_eq_none_iff, htargets, existsUnique_isEligible_iff ht]
  · rw [ncard_isEligible]
    exact moveConfig_moveAll_replicate_eq_none_iff t hstem n

theorem moveConfig_again_one_target :
    let t := "\x7b \x7d:\n\x7b\n  config = a;\n\x7d\n".toList
    let u := "\x7b \x7d:\n\x7b\n  config.snapshot.m = a;\n\x7d\n".toList
    '\n' ∉ "m".toList ∧ moveConfig t "m".toList = some u ∧
      moveConfig u "m".toList = none ∧ ∃! i, IsEligible t i := by
  intro t u
  have hstem : '\n' ∉ "m".toList := by decide
  have hu : moveConfig t "m".toList = some u := by decide
  have hnone : moveConfig u "m".toList = none := by decide
  exact ⟨hstem, hu, hnone, (moveConfig_again_eq_none_iff hstem hu).1.mp hnone⟩

/-- A second eligible line is left to a second move, and so is one that comes with the stem. -/
theorem not_moveConfig_again_eq_none :
    (¬ ∀ t stem u, moveConfig t stem = some u → moveConfig u stem = none) ∧
      ¬ ∀ t stem u, (∃! i, IsEligible t i) → moveConfig t stem = some u →
        moveConfig u stem = none := by
  refine ⟨fun h ↦ ?_, fun h ↦ ?_⟩
  · have honce : moveConfig "\x7b \x7d:\n\x7b\n  config = a;\n  config = b;\n\x7d\n".toList
        "m".toList =
          some "\x7b \x7d:\n\x7b\n  config.snapshot.m = a;\n  config = b;\n\x7d\n".toList := by
      decide
    have hleft : moveConfig
        "\x7b \x7d:\n\x7b\n  config.snapshot.m = a;\n  config = b;\n\x7d\n".toList "m".toList ≠
          none := by decide
    exact hleft (h _ _ _ honce)
  · have honce : moveConfig "\x7b \x7d:\n\x7b\n  config = a;\n\x7d\n".toList
        "m\nconfig".toList =
          some "\x7b \x7d:\n\x7b\n  config.snapshot.m\nconfig = a;\n\x7d\n".toList := by decide
    have hleft : moveConfig "\x7b \x7d:\n\x7b\n  config.snapshot.m\nconfig = a;\n\x7d\n".toList
        "m\nconfig".toList ≠ none := by decide
    have htargets : targets "\x7b \x7d:\n\x7b\n  config = a;\n\x7d\n".toList = [2] := by decide
    exact hleft (h _ _ _ ((existsUnique_isEligible_iff htargets).mpr rfl) honce)

end NixModule
end ConfigSnapshot
