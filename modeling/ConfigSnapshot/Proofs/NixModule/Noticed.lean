import ConfigSnapshot.NixModule.Move

/-!
# What a scan notices

Single lines are read for braces and for the end of the `let` block. The assignment of `config`
is noticed by the scan as a whole, once and with the number of the line that it stops at, which
is the line that a move changes.
-/

namespace ConfigSnapshot
namespace NixModule

open Text

theorem Position.config_not_mem_read (letBlock : Bool) (p : Position) (line : Text) (n : Nat) :
    Event.config n ∉ (p.read letBlock line).events := by
  unfold Position.read
  cases startsWithBrace line <;> cases p.pastLet <;> cases isIn line <;> simp

theorem Position.config_mem_scan_iff {letBlock : Bool} {p : Position} {index n : Nat}
    {ls : List Text} :
    .config n ∈ (p.scan letBlock index ls).events ↔
      ∃ i, (p.scan letBlock index ls).target = some i ∧ i + 1 = n := by
  induction ls generalizing p index with
  | nil => simp [scan]
  | cons line ls ih =>
      have hread := config_not_mem_read letBlock p line n
      rw [scan]
      split
      · simp [hread, eq_comm]
      · simp [hread, ih]

theorem Position.config_not_mem_scan {letBlock : Bool} {p : Position} {index : Nat}
    {ls : List Text} (h : (p.scan letBlock index ls).target = none) (n : Nat) :
    .config n ∉ (p.scan letBlock index ls).events := by
  rw [config_mem_scan_iff, h]
  rintro ⟨i, hi, -⟩
  exact Option.some_ne_none i hi.symm

/-- The line that is logged is the target, counted from one. -/
theorem config_mem_scan_iff {t : Text} {n : Nat} :
    .config n ∈ (scan t).events ↔ ∃ i, (scan t).target = some i ∧ i + 1 = n :=
  Position.config_mem_scan_iff

theorem moveConfig_eq_none_iff_scan {t stem : Text} :
    moveConfig t stem = none ↔ (scan t).target = none := by
  rw [moveConfig, Option.map_eq_none_iff]

theorem exists_config_iff {t : Text} (stem : Text) :
    (∃ n, .config n ∈ (scan t).events) ↔ (moveConfig t stem).isSome = true := by
  rw [moveConfig, Option.isSome_map, Option.isSome_iff_exists]
  constructor
  · rintro ⟨n, hn⟩
    obtain ⟨i, hi, -⟩ := config_mem_scan_iff.mp hn
    exact ⟨i, hi⟩
  · rintro ⟨i, hi⟩
    exact ⟨i + 1, config_mem_scan_iff.mpr ⟨i, hi, rfl⟩⟩

end NixModule
end ConfigSnapshot
