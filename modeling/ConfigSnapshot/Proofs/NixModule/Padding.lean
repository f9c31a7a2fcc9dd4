import ConfigSnapshot.Proofs.NixModule.Edit
import ConfigSnapshot.Proofs.Text.Padding
import Mathlib.Data.List.Forall2

/-!
# Blanks at the ends of lines

A scan looks at the first character of a line and at its trimmed form, and the edit of a move is
made in front of what ends the line. So padded lines are read like the lines themselves, and
moving and padding commute. In particular a module that ends its lines with carriage returns is
moved like one that does not.
-/

namespace ConfigSnapshot
namespace NixModule

open Text

/-- Nothing that a scan looks at tells the two lines apart. -/
structure ReadsAlike (line line' : Text) : Prop where
  brace : startsWithBrace line' = startsWithBrace line
  trimmed : trim line' = trim line

theorem Position.read_congr {line line' : Text} (h : ReadsAlike line line') (letBlock : Bool)
    (p : Position) : p.read letBlock line' = p.read letBlock line := by
  have hin : isIn line' = isIn line := by rw [isIn, isIn, h.trimmed]
  have hconfig : assignsConfig line' = assignsConfig line := by
    rw [assignsConfig, assignsConfig, h.trimmed]
  rw [read, read, hin, hconfig, h.brace]

theorem Position.scan_congr {ls ls' : List Text} (h : List.Forall₂ ReadsAlike ls ls')
    (letBlock : Bool) (p : Position) (index : Nat) :
    p.scan letBlock index ls' = p.scan letBlock index ls := by
  induction h generalizing p index with
  | nil => rfl
  | cons hline _ ih => rw [scan, scan, read_congr hline, ih]

theorem hasLetBlock_congr {ls ls' : List Text} (h : List.Forall₂ ReadsAlike ls ls') :
    hasLetBlock ls' = hasLetBlock ls := by
  have hwords : ls'.map trim = ls.map trim := by
    induction h with
    | nil => rfl
    | cons hline _ ih => rw [List.map_cons, List.map_cons, hline.trimmed, ih]
  rw [hasLetBlock, hasLetBlock, hwords]

theorem scan_congr {t t' : Text} (h : List.Forall₂ ReadsAlike (lines t) (lines t')) :
    scan t' = scan t := by
  rw [scan, scan, hasLetBlock_congr h, Position.scan_congr h]

theorem startsWithBrace_of_allBlank {t : Text} (h : AllBlank t) : startsWithBrace t = false := by
  have hfront := startsWithBrace_append h (x := ['c']) rfl (by decide)
  cases t with
  | nil => rfl
  | cons c t => exact hfront

theorem readsAlike_padLine {w : Text} (hw : AllBlank w) (line : Text) :
    ReadsAlike line (padLine w line) where
  brace := by
    obtain ⟨x, e, he, rfl, hpad⟩ := exists_padLine w line
    rw [hpad]
    cases x with
    | nil =>
        rw [List.nil_append, List.nil_append, startsWithBrace_of_allBlank (hw.append he),
          startsWithBrace_of_allBlank he]
    | cons c x => rfl
  trimmed := trim_padLine hw line

theorem forall₂_readsAlike_padLines {pads : Nat → Text} (hpads : ∀ i, IsPadding (pads i))
    (ls : List Text) : List.Forall₂ ReadsAlike ls (padLines pads ls) := by
  induction ls generalizing pads with
  | nil => exact .nil
  | cons line ls ih =>
      rw [padLines_cons]
      exact .cons (readsAlike_padLine (hpads 0).blank line) (ih fun i ↦ hpads (i + 1))

theorem scan_pad {pads : Nat → Text} (hpads : ∀ i, IsPadding (pads i)) (t : Text) :
    scan (pad pads t) = scan t := by
  apply scan_congr
  rw [lines_pad hpads]
  exact forall₂_readsAlike_padLines hpads (lines t)

theorem moveLine_padLine {line : Text} (h : assignsConfig line = true) (stem w : Text) :
    moveLine stem (padLine w line) = padLine w (moveLine stem line) := by
  obtain ⟨v, r, hv, rfl⟩ := exists_of_assignsConfig h
  have hrest : ' ' :: r ≠ [] := List.cons_ne_nil ' ' r
  rw [padLine_append (by simp), padLine_append hrest, moveLine_append hv, moveLine_append hv,
    padLine_append (by simp), padLine_append hrest]

theorem modify_padLines {ls : List Text} {i : Nat}
    (h : ∀ line, ls[i]? = some line → assignsConfig line = true) (pads : Nat → Text)
    (stem : Text) :
    (padLines pads ls).modify i (moveLine stem) = padLines pads (ls.modify i (moveLine stem)) := by
  apply List.ext_getElem?
  intro j
  rw [padLines, padLines, List.getElem?_modify, List.getElem?_mapIdx, List.getElem?_mapIdx,
    List.getElem?_modify]
  by_cases hij : i = j
  · subst hij
    cases hline : ls[i]? with
    | none => rfl
    | some line => simp [moveLine_padLine (h line hline)]
  · simp [hij]

theorem count_moveConfig {t stem u : Text} (hstem : '\n' ∉ stem)
    (h : moveConfig t stem = some u) : u.count '\n' = t.count '\n' := by
  obtain ⟨i, line, indent, r, -, -, -, -, ht, hu⟩ := exists_words_of_moveConfig h
  have hwords : "config =".toList.count '\n' = 0 := by decide
  have hkey := count_key stem
  rw [List.count_eq_zero_of_not_mem hstem] at hkey
  rw [ht, hu]
  simp only [List.count_append] at hkey ⊢
  omega

/-- The move of a padded module is the padded move. -/
theorem moveConfig_pad_eq {stem : Text} (hstem : '\n' ∉ stem) {pads : Nat → Text}
    (hpads : ∀ i, IsPadding (pads i)) (t : Text) :
    moveConfig (pad pads t) stem = (moveConfig t stem).map (pad pads) := by
  rw [moveConfig, scan_pad hpads, lines_pad hpads]
  cases ht : targets t with
  | nil =>
      rw [moveConfig_eq_none_iff.mpr ht, target_scan, ht]
      rfl
  | cons i later =>
      obtain ⟨u, hu, hlines, -⟩ := exists_moveConfig ht hstem
      have hassigns : ∀ line, (lines t)[i]? = some line → assignsConfig line = true :=
        fun line ↦ assignsConfig_of_getElem? (ht ▸ List.mem_cons_self)
      rw [target_scan, ht, hu, List.head?_cons, Option.map_some, Option.map_some,
        modify_padLines hassigns, ← hlines]
      rfl

theorem moveConfig_withReturns {stem : Text} (hstem : '\n' ∉ stem) (t : Text) :
    moveConfig (withReturns t) stem = (moveConfig t stem).map withReturns := by
  rw [withReturns_eq_pad, moveConfig_pad_eq hstem (isPadding_returns _)]
  cases hu : moveConfig t stem with
  | none => rfl
  | some u =>
      rw [Option.map_some, Option.map_some, withReturns_eq_pad, count_moveConfig hstem hu]

/-- Moving commutes with padding the ends of the lines, and the padding is not noticed. -/
theorem moveConfig_pad {stem : Text} (hstem : '\n' ∉ stem) {pads : Nat → Text}
    (hpads : ∀ i, IsPadding (pads i)) (t : Text) :
    lines (pad pads t) = ((lines t).mapIdx fun i line ↦ padLine (pads i) line) ∧
      moveConfig (pad pads t) stem = (moveConfig t stem).map (pad pads) ∧
      (scan (pad pads t)).events = (scan t).events ∧
      moveConfig (withReturns t) stem = (moveConfig t stem).map withReturns ∧
      (scan (withReturns t)).events = (scan t).events := by
  refine ⟨lines_pad hpads t, moveConfig_pad_eq hstem hpads t, ?_, moveConfig_withReturns hstem t,
    ?_⟩
  · rw [scan_pad hpads]
  · rw [withReturns_eq_pad, scan_pad (isPadding_returns _)]

theorem moveConfig_pad_mixed :
    let t := "\x7b \x7d:\n\x7b\n  config = a;\n\x7d".toList
    let pads := fun i : Nat ↦ if i = 2 then "\r".toList else "\u3000\t".toList
    let padded := "\x7b \x7d:\u3000\t\n\x7b\u3000\t\n  config = a;\r\n\x7d\u3000\t".toList
    '\n' ∉ "m".toList ∧ (∀ i, IsPadding (pads i)) ∧ pad pads t = padded ∧
      moveConfig padded "m".toList = some
        "\x7b \x7d:\u3000\t\n\x7b\u3000\t\n  config.snapshot.m = a;\r\n\x7d\u3000\t".toList := by
  intro t pads padded
  have hstem : '\n' ∉ "m".toList := by decide
  have hpads : ∀ i, IsPadding (pads i) := by
    intro i
    by_cases hi : i = 2
    · simpa [pads, hi] using IsPadding.mk (w := ['\r']) (by decide) (by decide)
    · simpa [pads, hi] using IsPadding.mk (w := ['\u3000', '\t']) (by decide) (by decide)
  have hpadded : pad pads t = padded := by decide
  obtain ⟨-, hmove, -⟩ := moveConfig_pad hstem hpads t
  rw [hpadded] at hmove
  exact ⟨hstem, hpads, hpadded, hmove.trans (by decide)⟩

end NixModule
end ConfigSnapshot
