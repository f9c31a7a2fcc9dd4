import ConfigSnapshot.Proofs.NixModule.Target
import ConfigSnapshot.Proofs.NixModule.Noticed

/-!
# Scanning part by part

A scan of two blocks of lines is a scan of the first one, and if it finds no target there, a scan
of the second one from the position that the first one leads to. The index of the first line
counts only for the line number that is noticed, and inert lines count for that alone.
-/

namespace ConfigSnapshot
namespace NixModule

open Text

/-- The same event of a scan in which the lines have larger indices. -/
def Event.shift (n : Nat) : Event → Event
  | .config line => .config (line + n)
  | event => event

theorem Event.map_shift_of_not_mem {events : List Event} (h : ∀ line, .config line ∉ events)
    (n : Nat) : events.map (shift n) = events := by
  have hself : ∀ event ∈ events, event.shift n = event := by
    intro event hmem
    cases event with
    | brace count => rfl
    | letEnd => rfl
    | config line => exact absurd hmem (h line)
  rw [List.map_congr_left hself, List.map_id']

namespace Position

theorem scan_append_of_some {letBlock : Bool} {p : Position} {index i : Nat} {ls : List Text}
    (h : (p.scan letBlock index ls).target = some i) (more : List Text) :
    p.scan letBlock index (ls ++ more) = p.scan letBlock index ls := by
  induction ls generalizing p index with
  | nil => simp [scan] at h
  | cons line ls ih =>
      rw [List.cons_append, scan, scan]
      split
      · rfl
      · next hstep =>
          rw [scan, if_neg hstep] at h
          rw [ih h]

theorem scan_append_of_none {letBlock : Bool} {p : Position} {index : Nat} {ls : List Text}
    (h : (p.scan letBlock index ls).target = none) (more : List Text) :
    p.scan letBlock index (ls ++ more) =
      let later := (p.after letBlock ls).scan letBlock (index + ls.length) more
      ⟨(p.scan letBlock index ls).events ++ later.events, later.target⟩ := by
  induction ls generalizing p index with
  | nil => simp [scan]
  | cons line ls ih =>
      have hstep : ¬ (p.read letBlock line).isTarget = true := by
        intro hstep
        rw [scan, if_pos hstep] at h
        exact Option.some_ne_none index h
      rw [scan, if_neg hstep] at h
      have hlength : index + (line :: ls).length = index + 1 + ls.length := by
        rw [List.length_cons]
        omega
      rw [List.cons_append, scan, if_neg hstep, scan, if_neg hstep, ih h, after_cons, hlength]
      simp only [List.append_assoc]

theorem lt_of_target_scan {letBlock : Bool} {p : Position} {index i : Nat} {ls : List Text}
    (h : (p.scan letBlock index ls).target = some i) : index ≤ i ∧ i < index + ls.length := by
  rw [target_scan] at h
  obtain ⟨j, line, rfl, hline, -⟩ := mem_targets_iff.mp (List.mem_of_head? h)
  have hlt := (List.getElem?_eq_some_iff.mp hline).1
  omega

theorem scan_add (letBlock : Bool) (p : Position) (index n : Nat) (ls : List Text) :
    p.scan letBlock (index + n) ls =
      let finding := p.scan letBlock index ls
      ⟨finding.events.map (Event.shift n), finding.target.map (· + n)⟩ := by
  induction ls generalizing p index with
  | nil => rfl
  | cons line ls ih =>
      have hread := Event.map_shift_of_not_mem (config_not_mem_read letBlock p line) n
      have hindex : index + n + 1 = index + 1 + n := Nat.add_right_comm index n 1
      rw [scan, scan]
      split
      · simp [hread, Event.shift, hindex]
      · simp [hread, hindex, ih]

theorem scan_of_isInert {ls : List Text} (h : ∀ line ∈ ls, IsInert line) (letBlock : Bool)
    (p : Position) (index : Nat) :
    p.scan letBlock index ls = ⟨[], none⟩ ∧ p.after letBlock ls = p := by
  induction ls generalizing index with
  | nil => exact ⟨rfl, rfl⟩
  | cons line ls ih =>
      obtain ⟨hline, hrest⟩ := List.forall_mem_cons.mp h
      obtain ⟨hscan, hafter⟩ := ih hrest (index + 1)
      have hread := read_of_isInert hline letBlock p
      refine ⟨?_, ?_⟩
      · simp [scan, hread, hscan]
      · rw [after_cons, hread, hafter]

end Position

theorem modify_append_of_lt {α : Type u} {xs : List α} {i : Nat} (h : i < xs.length)
    (ys : List α) (f : α → α) : (xs ++ ys).modify i f = xs.modify i f ++ ys := by
  induction xs generalizing i with
  | nil => exact absurd h (Nat.not_lt_zero i)
  | cons x xs ih =>
      cases i with
      | zero => rfl
      | succ i =>
          rw [List.cons_append, List.modify_succ_cons, List.modify_succ_cons,
            ih (Nat.lt_of_succ_lt_succ h), List.cons_append]

theorem moveConfig_append_of_lt {front back : Text} (hfront : IsWhole front) {i : Nat}
    (hi : (scan (front ++ back)).target = some i) (hlt : i < (lines front).length)
    (stem : Text) :
    moveConfig (front ++ back) stem =
      some (((lines front).modify i (moveLine stem)).flatten ++ back) := by
  rw [moveConfig, hi, Option.map_some, lines_append hfront, modify_append_of_lt hlt,
    List.flatten_append, flatten_lines]

theorem moveConfig_append_of_le {front back : Text} (hfront : IsWhole front) {i : Nat}
    (hi : (scan (front ++ back)).target = some ((lines front).length + i)) (stem : Text) :
    moveConfig (front ++ back) stem =
      some (front ++ ((lines back).modify i (moveLine stem)).flatten) := by
  rw [moveConfig, hi, Option.map_some, lines_append hfront, List.modify, List.modify,
    List.modifyTailIdx_add, List.flatten_append, flatten_lines]

end NixModule
end ConfigSnapshot
