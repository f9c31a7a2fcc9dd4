import ConfigSnapshot.Proofs.NixModule.ConfigLine
import ConfigSnapshot.Proofs.Subsequence
import Mathlib.Order.Bounds.Defs

/-!
# Which line is moved

The position of a scan after some lines is told by counting: how many of them start with a
brace, and whether one of them holds only `in`. A scan that did not stop at its target would
meet a list of targets, those lines that meet the rule for the top-level assignment; the scan
stops at the first of them, and that line is moved.
-/

namespace ConfigSnapshot
namespace NixModule

open Text

namespace Position

/-- The position after some lines, whether or not there is a target among them. -/
def after (letBlock : Bool) (p : Position) (ls : List Text) : Position :=
  ls.foldl (fun q line ↦ (q.read letBlock line).position) p

/-- The indices of all targets, as a scan would meet them that went on behind each of them. -/
def targets (letBlock : Bool) (p : Position) (index : Nat) : List Text → List Nat
  | [] => []
  | line :: rest =>
      let step := p.read letBlock line
      let later := step.position.targets letBlock (index + 1) rest
      if step.isTarget then index :: later else later

theorem position_read (letBlock : Bool) (p : Position) (line : Text) :
    (p.read letBlock line).position =
      ⟨if startsWithBrace line then p.braces.succ else p.braces, p.pastLet || isIn line⟩ := by
  unfold read
  cases hpast : p.pastLet <;> cases hin : isIn line <;> simp

theorem isTarget_read_iff {letBlock : Bool} {p : Position} {line : Text} :
    (p.read letBlock line).isTarget = true ↔
      (p.pastLet = true ∨ letBlock = false) ∧ (p.read letBlock line).position.braces = .two ∧
        assignsConfig line = true := by
  rw [position_read]
  cases hconfig : assignsConfig line with
  | false => cases hpast : p.pastLet <;> cases hin : isIn line <;> simp [read, *]
  | true => simp [read, isIn_of_assignsConfig hconfig, hconfig]

theorem position_read_of_isTarget {letBlock : Bool} {p : Position} {line : Text}
    (h : (p.read letBlock line).isTarget = true) : (p.read letBlock line).position = p := by
  have hconfig := (isTarget_read_iff.mp h).2.2
  simp [position_read, startsWithBrace_of_assignsConfig hconfig, isIn_of_assignsConfig hconfig]

theorem read_of_isInert {line : Text} (h : IsInert line) (letBlock : Bool) (p : Position) :
    p.read letBlock line = ⟨p, [], false⟩ := by
  have hin : isIn line = false := by
    rw [Bool.eq_false_iff, ne_eq, isIn_iff]
    exact h.inWord
  simp [read, h.brace, hin, h.config]

@[simp] theorem after_nil (letBlock : Bool) (p : Position) : p.after letBlock [] = p :=
  rfl

@[simp] theorem after_cons (letBlock : Bool) (p : Position) (line : Text) (ls : List Text) :
    p.after letBlock (line :: ls) = (p.read letBlock line).position.after letBlock ls :=
  rfl

theorem after_concat (letBlock : Bool) (p : Position) (ls : List Text) (line : Text) :
    p.after letBlock (ls ++ [line]) = ((p.after letBlock ls).read letBlock line).position := by
  rw [after, List.foldl_append]
  rfl

theorem braces_after {p : Position} {n : Nat} (hp : p.braces = .ofLines n) (letBlock : Bool)
    (ls : List Text) :
    (p.after letBlock ls).braces = .ofLines (n + ls.countP startsWithBrace) := by
  induction ls generalizing p n with
  | nil => exact hp
  | cons line ls ih =>
      rw [after_cons, List.countP_cons]
      cases hbrace : startsWithBrace line with
      | false =>
          rw [ih (n := n) (by simp [position_read, hbrace, hp])]
          simp
      | true =>
          rw [ih (n := n + 1) (by simp [position_read, hbrace, hp])]
          simp only [if_true]
          congr 1
          omega

theorem pastLet_after (letBlock : Bool) (p : Position) (ls : List Text) :
    (p.after letBlock ls).pastLet = (p.pastLet || ls.any isIn) := by
  induction ls generalizing p with
  | nil => simp
  | cons line ls ih => rw [after_cons, ih, position_read, List.any_cons, Bool.or_assoc]

theorem target_scan (letBlock : Bool) (p : Position) (index : Nat) (ls : List Text) :
    (p.scan letBlock index ls).target = (p.targets letBlock index ls).head? := by
  induction ls generalizing p index with
  | nil => rfl
  | cons line ls ih =>
      rw [scan, targets]
      split
      · rfl
      · exact ih _ _

theorem mem_targets_iff {letBlock : Bool} {p : Position} {index i : Nat} {ls : List Text} :
    i ∈ p.targets letBlock index ls ↔
      ∃ j line, i = index + j ∧ ls[j]? = some line ∧
        ((p.after letBlock (ls.take j)).read letBlock line).isTarget = true := by
  induction ls generalizing p index with
  | nil => simp [targets]
  | cons line ls ih =>
      have hlater : i ∈ (p.read letBlock line).position.targets letBlock (index + 1) ls ↔
          ∃ j l, i = index + (j + 1) ∧ (line :: ls)[j + 1]? = some l ∧
            ((p.after letBlock ((line :: ls).take (j + 1))).read letBlock l).isTarget = true := by
        rw [ih]
        simp only [List.getElem?_cons_succ, List.take_succ_cons, after_cons]
        have hindex (j : Nat) : index + 1 + j = index + (j + 1) := by omega
        simp only [hindex]
      have hmem : i ∈ p.targets letBlock index (line :: ls) ↔
          (i = index ∧ (p.read letBlock line).isTarget = true) ∨
            i ∈ (p.read letBlock line).position.targets letBlock (index + 1) ls := by
        rw [targets]
        split
        · next htarget => simp [htarget]
        · next htarget => simp [htarget]
      rw [hmem, hlater]
      constructor
      · rintro (⟨rfl, htarget⟩ | ⟨j, l, hi, hl, htarget⟩)
        · exact ⟨0, line, rfl, rfl, htarget⟩
        · exact ⟨j + 1, l, hi, hl, htarget⟩
      · rintro ⟨j, l, hi, hl, htarget⟩
        cases j with
        | zero =>
            obtain rfl : line = l := by simpa using hl
            exact Or.inl ⟨hi, htarget⟩
        | succ j => exact Or.inr ⟨j, l, hi, hl, htarget⟩

theorem pairwise_targets (letBlock : Bool) (p : Position) (index : Nat) (ls : List Text) :
    (p.targets letBlock index ls).Pairwise (· < ·) := by
  induction ls generalizing p index with
  | nil => exact List.Pairwise.nil
  | cons line ls ih =>
      rw [targets]
      split
      · refine List.pairwise_cons.mpr ⟨?_, ih _ _⟩
        intro i hi
        obtain ⟨j, -, rfl, -⟩ := mem_targets_iff.mp hi
        omega
      · exact ih _ _

end Position

/-- The position after the first `n` lines of a module. -/
def positionAfter (t : Text) (n : Nat) : Position :=
  Position.start.after (hasLetBlock (lines t)) ((lines t).take n)

theorem positionAfter_succ {t : Text} {i : Nat} {line : Text} (h : (lines t)[i]? = some line) :
    positionAfter t (i + 1) =
      ((positionAfter t i).read (hasLetBlock (lines t)) line).position := by
  rw [positionAfter, List.take_add_one, h]
  exact Position.after_concat _ _ _ _

theorem braces_positionAfter (t : Text) (n : Nat) :
    (positionAfter t n).braces = .ofLines (((lines t).take n).countP startsWithBrace) := by
  rw [positionAfter, Position.braces_after (n := 0) rfl, Nat.zero_add]

theorem pastLet_positionAfter (t : Text) (n : Nat) :
    (positionAfter t n).pastLet = ((lines t).take n).any isIn := by
  rw [positionAfter, Position.pastLet_after]
  rfl

/-- The indices of all lines of a module that a scan would take for its target. -/
def targets (t : Text) : List Nat :=
  Position.start.targets (hasLetBlock (lines t)) 0 (lines t)

theorem target_scan (t : Text) : (scan t).target = (targets t).head? :=
  Position.target_scan _ _ _ _

theorem mem_targets_iff {t : Text} {i : Nat} :
    i ∈ targets t ↔
      ∃ line, (lines t)[i]? = some line ∧
        ((positionAfter t i).pastLet = true ∨ hasLetBlock (lines t) = false) ∧
          (positionAfter t (i + 1)).braces = .two ∧ assignsConfig line = true := by
  rw [targets, Position.mem_targets_iff]
  constructor
  · rintro ⟨j, line, rfl, hline, htarget⟩
    rw [Nat.zero_add]
    rw [Position.isTarget_read_iff] at htarget
    refine ⟨line, hline, htarget.1, ?_, htarget.2.2⟩
    rw [positionAfter_succ hline]
    exact htarget.2.1
  · rintro ⟨line, hline, hpast, hbraces, hconfig⟩
    rw [positionAfter_succ hline] at hbraces
    refine ⟨i, line, (Nat.zero_add i).symm, hline, ?_⟩
    exact Position.isTarget_read_iff.mpr ⟨hpast, hbraces, hconfig⟩

theorem pairwise_targets (t : Text) : (targets t).Pairwise (· < ·) :=
  Position.pairwise_targets _ _ _ _

theorem moveConfig_eq (t stem : Text) :
    moveConfig t stem =
      (targets t).head?.map fun i ↦ ((lines t).modify i (moveLine stem)).flatten := by
  rw [moveConfig, target_scan]

theorem assignsConfig_of_mem_targets {t : Text} {i : Nat} (h : i ∈ targets t) :
    ∃ line, (lines t)[i]? = some line ∧ assignsConfig line = true := by
  obtain ⟨line, hline, -, -, hconfig⟩ := mem_targets_iff.mp h
  exact ⟨line, hline, hconfig⟩

theorem assignsConfig_of_getElem? {t line : Text} {i : Nat} (h : i ∈ targets t)
    (hline : (lines t)[i]? = some line) : assignsConfig line = true := by
  obtain ⟨l, hl, hconfig⟩ := assignsConfig_of_mem_targets h
  rwa [Option.some.inj (hline.symm.trans hl)]

theorem assignsConfig_of_target {t : Text} {i : Nat} (h : (scan t).target = some i) :
    ∃ line, (lines t)[i]? = some line ∧ assignsConfig line = true :=
  assignsConfig_of_mem_targets (List.mem_of_head? (target_scan t ▸ h))

/-- The one line that a move changes, between those that it keeps. -/
theorem exists_lines_of_moveConfig {t stem u : Text} (h : moveConfig t stem = some u) :
    ∃ i line, (scan t).target = some i ∧ (lines t)[i]? = some line ∧ assignsConfig line = true ∧
      t = ((lines t).take i).flatten ++ (line ++ ((lines t).drop (i + 1)).flatten) ∧
        u = ((lines t).take i).flatten ++
          (moveLine stem line ++ ((lines t).drop (i + 1)).flatten) := by
  rw [moveConfig_eq] at h
  obtain ⟨i, hi, rfl⟩ := Option.map_eq_some_iff.mp h
  obtain ⟨line, hline, hconfig⟩ := assignsConfig_of_mem_targets (List.mem_of_head? hi)
  obtain ⟨hlt, hget⟩ := List.getElem?_eq_some_iff.mp hline
  refine ⟨i, line, ?_, hline, hconfig, ?_, ?_⟩
  · rw [target_scan, hi]
  · have hsplit : lines t = (lines t).take i ++ line :: (lines t).drop (i + 1) := by
      rw [← hget, List.getElem_cons_drop, List.take_append_drop]
    rw [← List.flatten_cons, ← List.flatten_append, ← hsplit, flatten_lines]
  · rw [List.modify_eq_take_cons_drop hlt, hget, List.flatten_append, List.flatten_cons]

end NixModule
end ConfigSnapshot
