import ConfigSnapshot.Proofs.NixModule.Passage

/-!
# Inert lines in between

Inert lines do not show in the position of a scan nor in the search for a `let` block, so a
block of them can stand between any two lines of a module. The same line is moved as without
them, and only the number that is logged for it depends on how many of them precede it.
-/

namespace ConfigSnapshot
namespace NixModule

open Text

theorem hasLetBlock_insert {block : List Text} (h : ∀ line ∈ block, IsInert line)
    (front back : List Text) :
    hasLetBlock (front ++ (block ++ back)) = hasLetBlock (front ++ back) := by
  rw [hasLetBlock, hasLetBlock, List.map_append, List.map_append, List.map_append]
  apply Subsequence.occurs_insert
  intro word hword
  obtain ⟨line, hline, rfl⟩ := List.mem_map.mp hword
  have hinert := h line hline
  simpa using ⟨hinert.letWord, hinert.inWord⟩

namespace Position

/-- A target in front of inert lines is found as without them. -/
theorem scan_insert_of_some {letBlock : Bool} {p : Position} {index i : Nat} {front : List Text}
    (h : (p.scan letBlock index front).target = some i) (block back : List Text) :
    p.scan letBlock index (front ++ (block ++ back)) = p.scan letBlock index (front ++ back) := by
  rw [scan_append_of_some h, scan_append_of_some h]

/-- What comes after inert lines is found further down by as many lines. -/
theorem scan_insert_of_none {letBlock : Bool} {p : Position} {index : Nat}
    {front block : List Text} (h : (p.scan letBlock index front).target = none)
    (hblock : ∀ line ∈ block, IsInert line) (back : List Text) :
    p.scan letBlock index (front ++ (block ++ back)) =
      let finding := p.scan letBlock index (front ++ back)
      ⟨finding.events.map (Event.shift block.length), finding.target.map (· + block.length)⟩ := by
  have hinert := scan_of_isInert hblock letBlock (p.after letBlock front) (index + front.length)
  rw [scan_append_of_none h, scan_append_of_none h, scan_append_of_none (by rw [hinert.1]),
    hinert.1, hinert.2, scan_add]
  simp only [List.map_append, Event.map_shift_of_not_mem (config_not_mem_scan h),
    List.nil_append]

end Position

/-- A scan of a module with inert lines between two parts of it, the first one whole lines. -/
theorem scan_insert {front block : Text} (hfront : IsWhole front) (hblock : IsWhole block)
    (hinert : ∀ line ∈ lines block, IsInert line) (back : Text) :
    let finding := scan (front ++ back)
    let inserted := scan (front ++ (block ++ back))
    (∃ i, finding.target = some i ∧ i < (lines front).length ∧ inserted = finding) ∨
      (∀ i, finding.target = some i → (lines front).length ≤ i) ∧
        inserted.events = finding.events.map (Event.shift (lines block).length) ∧
          inserted.target = finding.target.map (· + (lines block).length) := by
  intro finding inserted
  have hfinding : finding =
      Position.start.scan (hasLetBlock (lines front ++ lines back)) 0
        (lines front ++ lines back) := by
    rw [show finding = scan (front ++ back) from rfl, scan, lines_append hfront]
  have hinserted : inserted =
      Position.start.scan (hasLetBlock (lines front ++ lines back)) 0
        (lines front ++ (lines block ++ lines back)) := by
    rw [show inserted = scan (front ++ (block ++ back)) from rfl, scan, lines_append hfront,
      lines_append hblock, hasLetBlock_insert hinert]
  cases htarget : (Position.start.scan (hasLetBlock (lines front ++ lines back)) 0
      (lines front)).target with
  | some i =>
      left
      refine ⟨i, ?_, ?_, ?_⟩
      · rw [hfinding, Position.scan_append_of_some htarget, htarget]
      · simpa using (Position.lt_of_target_scan htarget).2
      · rw [hinserted, hfinding, Position.scan_insert_of_some htarget]
  | none =>
      right
      have hshift := Position.scan_insert_of_none htarget hinert (lines back)
      rw [← hinserted, ← hfinding] at hshift
      refine ⟨?_, congrArg Finding.events hshift, congrArg Finding.target hshift⟩
      intro i hi
      rw [hfinding, Position.scan_append_of_none htarget] at hi
      simpa using (Position.lt_of_target_scan hi).1

/-- Inert lines between two parts of a module leave the move as it is, and of what is noticed
they change at most the line number. -/
theorem moveConfig_insert_inert {front block : Text} (hfront : IsWhole front)
    (hblock : IsWhole block) (hinert : ∀ line ∈ lines block, IsInert line) (back stem : Text) :
    let t := front ++ back
    let inserted := front ++ block ++ back
    (moveConfig inserted stem = none ↔ moveConfig t stem = none) ∧
      (moveConfig t stem = none → (scan inserted).events = (scan t).events) ∧
      ∀ i, (scan t).target = some i →
        (i < (lines front).length →
          (scan inserted).events = (scan t).events ∧
            ∃ front', moveConfig t stem = some (front' ++ back) ∧
              moveConfig inserted stem = some (front' ++ block ++ back)) ∧
        ((lines front).length ≤ i →
          (scan inserted).events = (scan t).events.map (Event.shift (lines block).length) ∧
            ∃ back', moveConfig t stem = some (front ++ back') ∧
              moveConfig inserted stem = some (front ++ block ++ back')) := by
  intro t inserted
  have hassoc : inserted = front ++ (block ++ back) := List.append_assoc front block back
  have hwhole : IsWhole (front ++ block) := hfront.append hblock
  rcases scan_insert hfront hblock hinert back with ⟨i, hi, hlt, hsame⟩ | ⟨hle, hevents, htarget⟩
  · rw [← hassoc] at hsame
    refine ⟨?_, fun _ ↦ congrArg Finding.events hsame, ?_⟩
    · rw [moveConfig_eq_none_iff_scan, moveConfig_eq_none_iff_scan, hsame]
    · intro j hj
      obtain rfl : i = j := Option.some.inj (hi.symm.trans hj)
      refine ⟨fun _ ↦ ?_, fun hge ↦ absurd hlt (Nat.not_lt_of_le hge)⟩
      have hi' : (scan (front ++ (block ++ back))).target = some i := by rw [← hassoc, hsame, hi]
      refine ⟨congrArg Finding.events hsame, ((lines front).modify i (moveLine stem)).flatten,
        moveConfig_append_of_lt hfront hi hlt stem, ?_⟩
      rw [hassoc, List.append_assoc]
      exact moveConfig_append_of_lt hfront hi' hlt stem
  · rw [← hassoc] at hevents htarget
    refine ⟨?_, ?_, ?_⟩
    · rw [moveConfig_eq_none_iff_scan, moveConfig_eq_none_iff_scan, htarget,
        Option.map_eq_none_iff]
    · intro hnone
      rw [moveConfig_eq_none_iff_scan] at hnone
      rw [hevents]
      exact Event.map_shift_of_not_mem (Position.config_not_mem_scan hnone) _
    · intro i hi
      refine ⟨fun hlt ↦ absurd hlt (Nat.not_lt_of_le (hle i hi)), fun _ ↦ ⟨hevents, ?_⟩⟩
      obtain ⟨j, rfl⟩ := Nat.exists_eq_add_of_le (hle i hi)
      refine ⟨_, moveConfig_append_of_le hfront hi stem, ?_⟩
      apply moveConfig_append_of_le hwhole
      rw [htarget, hi, Option.map_some, lines_append hfront, List.length_append,
        Nat.add_right_comm]

theorem moveConfig_insert_inert_comment :
    let front := "\x7b \x7d:\n\x7b\n".toList
    let block := "  # in\n\n".toList
    let back := "  config = a;\n\x7d\n".toList
    IsWhole front ∧ IsWhole block ∧ (∀ line ∈ lines block, IsInert line) ∧
      (scan (front ++ back)).target = some 2 ∧
        (scan (front ++ block ++ back)).events =
          (scan (front ++ back)).events.map (Event.shift 2) := by
  intro front block back
  have hfront : IsWhole front := by decide
  have hblock : IsWhole block := by decide
  have hinert : ∀ line ∈ lines block, IsInert line := by decide
  have htarget : (scan (front ++ back)).target = some 2 := by decide
  obtain ⟨-, -, hmoved⟩ := moveConfig_insert_inert hfront hblock hinert back "m".toList
  exact ⟨hfront, hblock, hinert, htarget, ((hmoved 2 htarget).2 (by decide)).1⟩

end NixModule
end ConfigSnapshot
