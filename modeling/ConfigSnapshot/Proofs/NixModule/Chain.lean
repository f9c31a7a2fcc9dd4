import ConfigSnapshot.Proofs.NixModule.Target

/-!
# Moving again and again

A moved line is inert, so the move takes the first target away and leaves the others, and every
line keeps its place if the stem has no line feed. Moving once for each of several stems thus
moves one target after the other until there is none left.
-/

namespace ConfigSnapshot
namespace NixModule

open Text

/-- The text after one move for each stem; a move that finds nothing leaves the text as it is. -/
def moveAll (t : Text) (stems : List Text) : Text :=
  stems.foldl (fun u stem ↦ (moveConfig u stem).getD u) t

/-- The lines with some of them moved, each under a stem of its own. -/
def moveLines (moves : List (Nat × Text)) (ls : List Text) : List Text :=
  moves.foldl (fun ms move ↦ ms.modify move.1 (moveLine move.2)) ls

theorem moveAll_cons (t stem : Text) (stems : List Text) :
    moveAll t (stem :: stems) = moveAll ((moveConfig t stem).getD t) stems :=
  rfl

theorem moveAll_append (t : Text) (stems more : List Text) :
    moveAll t (stems ++ more) = moveAll (moveAll t stems) more :=
  List.foldl_append

theorem Position.targets_modify {letBlock : Bool} {p : Position} {index i : Nat} {ls : List Text}
    {later : List Nat} {f : Text → Text}
    (h : p.targets letBlock index ls = (index + i) :: later)
    (hf : ∀ line, assignsConfig line = true → IsInert (f line)) :
    p.targets letBlock index (ls.modify i f) = later := by
  induction ls generalizing p index i with
  | nil => simp [targets] at h
  | cons line ls ih =>
      rw [targets] at h
      split at h
      · next htarget =>
          rw [List.cons.injEq] at h
          obtain ⟨hi, hlater⟩ := h
          obtain rfl : i = 0 := by omega
          rw [position_read_of_isTarget htarget] at hlater
          -- the line reads as nothing now, so the rest is read from the same position
          have hinert := hf line (isTarget_read_iff.mp htarget).2.2
          rw [List.modify_zero_cons, targets, read_of_isInert hinert, hlater]
          exact if_neg Bool.false_ne_true
      · next htarget =>
          have hmem : index + i ∈ (p.read letBlock line).position.targets letBlock (index + 1) ls :=
            h ▸ List.mem_cons_self
          obtain ⟨j, -, hj, -⟩ := mem_targets_iff.mp hmem
          obtain rfl : i = j + 1 := by omega
          rw [List.modify_succ_cons, targets, if_neg htarget]
          apply ih
          rw [h, hj]

theorem hasLetBlock_modify {ls : List Text} {i : Nat} {f : Text → Text}
    (hline : ∀ line, ls[i]? = some line → assignsConfig line = true)
    (hf : ∀ line, assignsConfig line = true → IsInert (f line)) :
    hasLetBlock (ls.modify i f) = hasLetBlock ls := by
  have hword (word : Text) (hconfig : "config = ".toList.isPrefixOf word = false)
      (hinert : ∀ line, IsInert line → trim line ≠ word) (j : Nat) :
      ((ls.modify i f).map trim)[j]? = some word ↔ (ls.map trim)[j]? = some word := by
    rw [List.getElem?_map, List.getElem?_map, List.getElem?_modify]
    by_cases hij : i = j
    · subst hij
      cases hget : ls[i]? with
      | none => simp
      | some line =>
          have hassigns := hline line hget
          simp [hinert _ (hf line hassigns), trim_ne_of_assignsConfig hassigns hconfig]
    · simp [hij]
  rw [Bool.eq_iff_iff, hasLetBlock, hasLetBlock, Subsequence.occurs_pair_iff,
    Subsequence.occurs_pair_iff]
  simp only [hword "let".toList rfl fun _ h ↦ h.letWord,
    hword "in".toList rfl fun _ h ↦ h.inWord]

/-- One move of a text that has a target. -/
theorem exists_moveConfig {t stem : Text} {i : Nat} {later : List Nat}
    (ht : targets t = i :: later) (hstem : '\n' ∉ stem) :
    ∃ u, moveConfig t stem = some u ∧ lines u = (lines t).modify i (moveLine stem) ∧
      targets u = later := by
  have hline : ∀ line, (lines t)[i]? = some line → assignsConfig line = true :=
    fun line ↦ assignsConfig_of_getElem? (ht ▸ List.mem_cons_self)
  have hinert : ∀ line, assignsConfig line = true → IsInert (moveLine stem line) :=
    fun line h ↦ isInert_moveLine h stem
  have hcut : IsCut ((lines t).modify i (moveLine stem)) :=
    (isCut_lines t).modify fun line h ↦ endsAlike_moveLine (hline line h) hstem
  refine ⟨((lines t).modify i (moveLine stem)).flatten, ?_, hcut.lines_flatten, ?_⟩
  · rw [moveConfig_eq, ht]
    rfl
  · rw [targets, hcut.lines_flatten, hasLetBlock_modify hline hinert]
    apply Position.targets_modify _ hinert
    rw [Nat.zero_add]
    exact ht

theorem moveConfig_eq_none_iff {t stem : Text} :
    moveConfig t stem = none ↔ targets t = [] := by
  rw [moveConfig_eq, Option.map_eq_none_iff, List.head?_eq_none_iff]

/-- What several moves leave: each takes the first of the targets that are left. -/
theorem moveAll_of_not_mem (t : Text) {stems : List Text} (hstems : ∀ s ∈ stems, '\n' ∉ s) :
    targets (moveAll t stems) = (targets t).drop stems.length ∧
      lines (moveAll t stems) = moveLines ((targets t).zip stems) (lines t) := by
  induction stems generalizing t with
  | nil => simp [moveAll, moveLines]
  | cons stem stems ih =>
      obtain ⟨hstem, hrest⟩ := List.forall_mem_cons.mp hstems
      cases ht : targets t with
      | nil =>
          have hnone : moveConfig t stem = none := moveConfig_eq_none_iff.mpr ht
          have hih := ih t hrest
          rw [moveAll_cons, hnone, Option.getD_none]
          simpa [ht] using hih
      | cons i later =>
          obtain ⟨u, hu, hlines, htargets⟩ := exists_moveConfig ht hstem
          have hih := ih u hrest
          rw [moveAll_cons, hu, Option.getD_some]
          simpa [htargets, hlines, moveLines] using hih

theorem getElem?_moveLines {moves : List (Nat × Text)} (h : (moves.map Prod.fst).Nodup)
    (ls : List Text) (i : Nat) :
    (moveLines moves ls)[i]? =
      ls[i]?.map fun line ↦ (moves.lookup i).elim line fun stem ↦ moveLine stem line := by
  induction moves generalizing ls with
  | nil => simp [moveLines]
  | cons move moves ih =>
      obtain ⟨j, stem⟩ := move
      rw [List.map_cons, List.nodup_cons] at h
      rw [moveLines, List.foldl_cons, ← moveLines, ih h.2, List.getElem?_modify,
        List.lookup_cons]
      by_cases hji : j = i
      · subst hji
        have hlookup : moves.lookup j = none := by
          rw [List.lookup_eq_none_iff]
          intro move hmem
          simp only [bne_iff_ne, ne_eq]
          exact fun heq ↦ h.1 (List.mem_map.mpr ⟨move, hmem, heq.symm⟩)
        cases ls[j]? <;> simp [hlookup]
      · have hbeq : (i == j) = false := by simpa using Ne.symm hji
        cases ls[i]? <;> simp [hji, hbeq]

theorem lines_moveAll (t : Text) {stems : List Text} (hstems : ∀ s ∈ stems, '\n' ∉ s) :
    lines (moveAll t stems) =
      (lines t).mapIdx fun i line ↦
        (((targets t).zip stems).lookup i).elim line fun stem ↦ moveLine stem line := by
  have hnodup : (((targets t).zip stems).map Prod.fst).Nodup := by
    rw [List.zip_eq_zip_take_min, List.map_fst_zip (by simp)]
    exact ((pairwise_targets t).imp Nat.ne_of_lt).sublist (List.take_sublist _ _)
  apply List.ext_getElem?
  intro i
  rw [(moveAll_of_not_mem t hstems).2, getElem?_moveLines hnodup, List.getElem?_mapIdx]

theorem moveAll_take_succ (t : Text) {stems : List Text} {k : Nat} (hk : k < stems.length) :
    moveAll t (stems.take (k + 1)) =
      (moveConfig (moveAll t (stems.take k)) stems[k]).getD (moveAll t (stems.take k)) := by
  rw [List.take_succ_eq_append_getElem hk, moveAll_append]
  rfl

theorem targets_moveAll_take (t : Text) {stems : List Text} (hstems : ∀ s ∈ stems, '\n' ∉ s)
    {k : Nat} (hk : k ≤ stems.length) :
    targets (moveAll t (stems.take k)) = (targets t).drop k := by
  have htake : ∀ s ∈ stems.take k, '\n' ∉ s := fun s hs ↦ hstems s (List.mem_of_mem_take hs)
  rw [(moveAll_of_not_mem t htake).1, List.length_take_of_le hk]

/-- Moves under stems without a line feed change the targets of the text in turn, one for each
stem until there is none left, and no other line. -/
theorem moveAll_in_turn (t : Text) (stems : List Text) (hstems : ∀ s ∈ stems, '\n' ∉ s) :
    (targets t).Pairwise (· < ·) ∧
      (∀ i, i ∈ targets t ↔ ∃ line, (lines t)[i]? = some line ∧
        ((positionAfter t i).pastLet = true ∨ hasLetBlock (lines t) = false) ∧
          (positionAfter t (i + 1)).braces = .two ∧ assignsConfig line = true) ∧
      (∀ k (hk : k < stems.length),
        let before := moveAll t (stems.take k)
        let after := moveAll t (stems.take (k + 1))
        (∀ i, (targets t)[k]? = some i →
          moveConfig before stems[k] = some after ∧
            lines after = (lines before).modify i (moveLine stems[k]) ∧
              ∃ line, (lines before)[i]? = some line ∧ moveLine stems[k] line ≠ line) ∧
          ((targets t).length ≤ k → moveConfig before stems[k] = none)) ∧
      lines (moveAll t stems) =
        ((lines t).mapIdx fun i line ↦
          (((targets t).zip stems).lookup i).elim line fun stem ↦ moveLine stem line) ∧
      ∀ first second, '\n' ∉ first →
        (moveConfig (moveAll t [first]) second = none ↔ (targets t).length ≤ 1) := by
  refine ⟨pairwise_targets t, fun i ↦ mem_targets_iff, ?_, lines_moveAll t hstems, ?_⟩
  · intro k hk before after
    have hbefore : targets before = (targets t).drop k :=
      targets_moveAll_take t hstems (Nat.le_of_lt hk)
    refine ⟨?_, ?_⟩
    · intro i hi
      obtain ⟨hlt, hget⟩ := List.getElem?_eq_some_iff.mp hi
      rw [List.drop_eq_getElem_cons hlt, hget] at hbefore
      obtain ⟨u, hu, hlines, -⟩ := exists_moveConfig hbefore (hstems _ (List.getElem_mem hk))
      have hafter : after = u := by
        rw [show after = _ from moveAll_take_succ t hk, hu, Option.getD_some]
      obtain ⟨line, hline, hconfig⟩ :=
        assignsConfig_of_mem_targets (hbefore ▸ List.mem_cons_self)
      rw [hafter]
      exact ⟨hu, hlines, line, hline, moveLine_ne hconfig stems[k]⟩
    · intro hle
      rw [moveConfig_eq_none_iff, hbefore, List.drop_eq_nil_iff]
      exact hle
  · intro first second hfirst
    have hone : ∀ s ∈ [first], '\n' ∉ s := by simpa using hfirst
    rw [moveConfig_eq_none_iff, (moveAll_of_not_mem t hone).1, List.drop_eq_nil_iff]
    rfl

theorem moveAll_in_turn_two_targets :
    let t := "\x7b \x7d:\n\x7b\n  config = a;\n  config = b;\n\x7d\n".toList
    let stems := ["x".toList, "y".toList, "z".toList]
    (∀ s ∈ stems, '\n' ∉ s) ∧ targets t = [2, 3] ∧
      moveConfig (moveAll t (stems.take 2)) "z".toList = none := by
  intro t stems
  have hstems : ∀ s ∈ stems, '\n' ∉ s := by decide
  have htargets : targets t = [2, 3] := by decide
  obtain ⟨-, -, hturn, -⟩ := moveAll_in_turn t stems hstems
  refine ⟨hstems, htargets, (hturn 2 (by decide)).2 ?_⟩
  rw [htargets]
  decide

end NixModule
end ConfigSnapshot
