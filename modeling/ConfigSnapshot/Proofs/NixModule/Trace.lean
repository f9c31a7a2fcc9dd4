import ConfigSnapshot.Proofs.NixModule.Eligible
import ConfigSnapshot.Proofs.NixModule.Noticed
import Mathlib.Data.List.Induction

/-!
# The trace of a scan

What a line shows can be told from the lines in front of it: a brace with its number among the
lines that start with one, or the first `in`. The trace of some lines is what each of them shows,
in their order, and what a scan notices is the trace of the lines that it reads, closed by the
assignment if it stops at one.
-/

namespace ConfigSnapshot
namespace NixModule

open Text

/-- What a line shows that comes after others. -/
def noticedAt (front : List Text) (line : Text) : List Event :=
  if startsWithBrace line then [.brace (.ofLines (front.countP startsWithBrace + 1))]
  else if isIn line && !front.any isIn then [.letEnd]
  else []

/-- What some lines show one after the other. -/
def trace (ls : List Text) : List Event :=
  (ls.mapIdx fun i line ↦ noticedAt (ls.take i) line).flatten

/-- The lines up to the one at the index, and with it, or all lines if there is no index. -/
def linesUpTo : Option Nat → List Text → List Text
  | none, ls => ls
  | some i, ls => ls.take (i + 1)

def Event.isBrace : Event → Bool
  | .brace _ => true
  | _ => false

theorem isIn_of_startsWithBrace {line : Text} (h : startsWithBrace line = true) :
    isIn line = false := by
  obtain ⟨rest, rfl⟩ := List.head?_eq_some_iff.mp (of_decide_eq_true h)
  have hsolid : IsSolid ['{'] := ⟨⟨'{', rfl, by decide⟩, ⟨'{', rfl, by decide⟩⟩
  have htrim := trim_append_solid (v := []) (by decide) hsolid rest
  rw [Bool.eq_false_iff, ne_eq, isIn_iff]
  intro hin
  have hhead := congrArg List.head? (htrim.symm.trans hin)
  simp at hhead

theorem trace_concat (ls : List Text) (line : Text) :
    trace (ls ++ [line]) = trace ls ++ noticedAt ls line := by
  have hfront : (ls.mapIdx fun i l ↦ noticedAt ((ls ++ [line]).take i) l) =
      ls.mapIdx fun i l ↦ noticedAt (ls.take i) l := by
    rw [List.mapIdx_eq_mapIdx_iff]
    intro i hi
    rw [List.take_append_of_le_length (Nat.le_of_lt hi)]
  rw [trace, List.mapIdx_concat, hfront, List.take_left' rfl, List.flatten_append,
    List.flatten_singleton, ← trace]

theorem filter_isBrace_trace (ls : List Text) :
    (trace ls).filter Event.isBrace =
      (List.range (ls.countP startsWithBrace)).map fun k ↦ .brace (.ofLines (k + 1)) := by
  induction ls using List.reverseRecOn with
  | nil => rfl
  | append_singleton ls line ih =>
      rw [trace_concat, List.filter_append, ih, List.countP_append, List.countP_singleton,
        noticedAt]
      split
      · next hbrace => rw [List.range_succ, List.map_append]; rfl
      · next hbrace => split <;> simp [Event.isBrace]

theorem count_letEnd_trace (ls : List Text) :
    (trace ls).count .letEnd = if ls.any isIn then 1 else 0 := by
  induction ls using List.reverseRecOn with
  | nil => rfl
  | append_singleton ls line ih =>
      rw [trace_concat, List.count_append, ih, List.any_append, List.any_cons, List.any_nil,
        Bool.or_false, noticedAt]
      cases hbrace : startsWithBrace line with
      | true => simp [isIn_of_startsWithBrace hbrace]
      | false => cases hseen : ls.any isIn <;> cases hin : isIn line <;> simp

namespace Position

/-- One line is noticed for what it shows. -/
theorem events_read_after (letBlock : Bool) (front : List Text) (line : Text) :
    ((start.after letBlock front).read letBlock line).events = noticedAt front line := by
  have hbraces : (start.after letBlock front).braces = .ofLines (front.countP startsWithBrace) := by
    rw [braces_after (n := 0) rfl, Nat.zero_add]
  have hpast : (start.after letBlock front).pastLet = front.any isIn := pastLet_after _ _ _
  rw [read, noticedAt, hbraces, hpast, BraceCount.ofLines_succ]
  cases hbrace : startsWithBrace line with
  | true => simp [isIn_of_startsWithBrace hbrace]
  | false => cases front.any isIn <;> cases isIn line <;> simp

/-- A scan that goes on after some lines adds the trace of what it reads to the trace of these. -/
theorem trace_append_events_scan (letBlock : Bool) (front ls : List Text) :
    trace front ++ ((start.after letBlock front).scan letBlock front.length ls).events =
      trace (linesUpTo ((start.after letBlock front).scan letBlock front.length ls).target
        (front ++ ls)) ++
          (((start.after letBlock front).scan letBlock front.length ls).target.map
            fun i ↦ .config (i + 1)).toList := by
  induction ls generalizing front with
  | nil => simp [scan, linesUpTo]
  | cons line ls ih =>
      have hread := events_read_after letBlock front line
      rw [scan]
      split
      · have hlines : linesUpTo (some front.length) (front ++ line :: ls) = front ++ [line] :=
          List.take_length_add_append 1
        simp only [hlines, trace_concat, hread, List.append_assoc, Option.map_some,
          Option.toList_some]
      · have hlater := ih (front ++ [line])
        rw [after_concat, List.length_append, List.length_singleton, trace_concat] at hlater
        simpa only [hread, List.append_assoc, List.singleton_append] using hlater

end Position

theorem events_scan_eq (t : Text) :
    (scan t).events =
      trace (linesUpTo (scan t).target (lines t)) ++
        ((scan t).target.map fun i ↦ .config (i + 1)).toList :=
  Position.trace_append_events_scan (hasLetBlock (lines t)) [] (lines t)

theorem filter_isBrace_scan (t : Text) :
    (scan t).events.filter Event.isBrace =
      (List.range ((linesUpTo (scan t).target (lines t)).countP startsWithBrace)).map
        fun k ↦ .brace (.ofLines (k + 1)) := by
  rw [events_scan_eq, List.filter_append, filter_isBrace_trace]
  cases (scan t).target with
  | none => exact List.append_nil _
  | some i => exact List.append_nil _

theorem count_letEnd_scan (t : Text) :
    (scan t).events.count .letEnd =
      if (linesUpTo (scan t).target (lines t)).any isIn then 1 else 0 := by
  rw [events_scan_eq, List.count_append, count_letEnd_trace]
  cases (scan t).target with
  | none => rfl
  | some i => rfl

/-- Both braces are noticed before the assignment. -/
theorem filter_isBrace_scan_of_target {t : Text} {i : Nat} (hi : (scan t).target = some i) :
    (scan t).events.filter Event.isBrace = [.brace .one, .brace .two] := by
  have hbraces := (isEligible_of_target hi).braces
  rw [filter_isBrace_scan, hi, linesUpTo, hbraces]
  rfl

/-- The end of a `let` block is noticed before the assignment. -/
theorem letEnd_sublist_scan {t : Text} {i : Nat} (hi : (scan t).target = some i)
    (hlet : HasLetIn t) : [Event.letEnd, .config (i + 1)].Sublist (scan t).events := by
  have hin : ∃ j < i, HoldsAt t "in" j :=
    (isEligible_of_target hi).letBlock.resolve_right (not_not_intro hlet)
  have hany : ((lines t).take (i + 1)).any isIn = true := by
    obtain ⟨j, hj, hholds⟩ := hin
    exact any_isIn_take_iff.mpr ⟨j, by omega, hholds⟩
  have hcount := count_letEnd_trace ((lines t).take (i + 1))
  rw [hany, if_pos rfl] at hcount
  have hmem : Event.letEnd ∈ trace ((lines t).take (i + 1)) := by
    rw [← List.count_pos_iff, hcount]
    exact Nat.one_pos
  rw [events_scan_eq, hi]
  exact (List.singleton_sublist.mpr hmem).append (List.Sublist.refl [Event.config (i + 1)])

/-- What is noticed in a module is the trace of the lines up to the one that is moved, or of all
lines if none is, and the number of the moved line at its end. -/
theorem scan_notices_trace (t stem : Text) :
    let scanned := linesUpTo (scan t).target (lines t)
    let events := (scan t).events
    events = trace scanned ++ ((scan t).target.map fun i ↦ Event.config (i + 1)).toList ∧
      events.filter Event.isBrace =
        (List.range (scanned.countP startsWithBrace)).map (fun k ↦ .brace (.ofLines (k + 1))) ∧
      events.count .letEnd = (if scanned.any isIn then 1 else 0) ∧
      ((∃ n, .config n ∈ events) ↔ (moveConfig t stem).isSome = true) ∧
      (moveConfig t stem = none → scanned = lines t) ∧
      ∀ u, moveConfig t stem = some u →
        ∃ i line, scanned = (lines t).take (i + 1) ∧ (lines t)[i]? = some line ∧
          moveLine stem line ≠ line ∧
          u = ((lines t).take i).flatten ++
            (moveLine stem line ++ ((lines t).drop (i + 1)).flatten) ∧
          events = trace scanned ++ [.config (i + 1)] ∧
          events.filter Event.isBrace = [.brace .one, .brace .two] ∧
          (HasLetIn t → [Event.letEnd, .config (i + 1)].Sublist events) := by
  intro scanned events
  refine ⟨events_scan_eq t, filter_isBrace_scan t, count_letEnd_scan t, exists_config_iff stem,
    fun hnone ↦ ?_, fun u hu ↦ ?_⟩
  · rw [moveConfig_eq_none_iff_scan] at hnone
    simp only [scanned, hnone, linesUpTo]
  · obtain ⟨i, line, hi, hline, hconfig, -, hmoved⟩ := exists_lines_of_moveConfig hu
    have hscanned : scanned = (lines t).take (i + 1) := by simp only [scanned, hi, linesUpTo]
    have hevents : events = trace scanned ++ [.config (i + 1)] := by
      have htrace := events_scan_eq t
      rw [hi] at htrace
      rw [hscanned]
      exact htrace
    exact ⟨i, line, hscanned, hline, moveLine_ne hconfig stem, hmoved, hevents,
      filter_isBrace_scan_of_target hi, letEnd_sublist_scan hi⟩

end NixModule
end ConfigSnapshot
