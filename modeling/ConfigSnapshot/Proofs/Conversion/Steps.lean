import ConfigSnapshot.Proofs.Conversion.Single
import ConfigSnapshot.Proofs.NixModule.Edit
import ConfigSnapshot.Proofs.NixModule.Noticed

/-!
# The steps of a run

A visit starts in the tree that is left by the visits before it, and this is the tree of a run
on the modules up to there. What its scan has noticed fits its report and fits what it changes:
there is an assignment to log if and only if the module is reported as one to convert, and the
line that is logged is the only one in which the file differs across the step.
-/

namespace ConfigSnapshot
namespace Conversion

open Text NixModule FileTree

/-- The tree that a run leaves after the first `k` modules. -/
def treeAfter (mode : Mode) (t : FileTree) (paths : List Bytes) (k : Nat) : FileTree :=
  (visitAll mode t (paths.take k)).1

section VisitAll

variable {mode : Mode} {t : FileTree} {path : Bytes} {paths : List Bytes} {k : Nat}
  {visit : Visit}

theorem treeAfter_zero (mode : Mode) (t : FileTree) (paths : List Bytes) :
    treeAfter mode t paths 0 = t :=
  rfl

theorem treeAfter_cons_succ {outcome : Outcome}
    (h : (visitModule t mode path).2.outcome = .ok outcome) :
    treeAfter mode t (path :: paths) (k + 1) =
      treeAfter mode (visitModule t mode path).1 paths k := by
  rw [treeAfter, List.take_succ_cons, visitAll_cons_of_ok h]
  rfl

theorem treeAfter_cons_one (mode : Mode) (t : FileTree) (path : Bytes) (paths : List Bytes) :
    treeAfter mode t (path :: paths) 1 = (visitModule t mode path).1 := by
  cases h : (visitModule t mode path).2.outcome with
  | error failure =>
      rw [treeAfter, List.take_succ_cons, visitAll_cons_of_error h]
  | ok outcome => rw [treeAfter_cons_succ h, treeAfter_zero]

theorem path_visitModule (mode : Mode) (t : FileTree) (path : Bytes) :
    (visitModule t mode path).2.path = path := by
  rcases exists_leadsTo_text_or t path with ⟨loc, text, hleads⟩ | hno
  · obtain ⟨front, name, -, -, -, hname⟩ := exists_name_of_leadsTo hleads
    rw [(visitModule_of_text mode hleads hname).1]
  · obtain ⟨fault, hvisit⟩ := exists_visitModule_of_no_text mode hno
    rw [hvisit]

/-- Each visit is a step between two trees of the run. -/
theorem visitModule_of_getElem?_visitAll (h : (visitAll mode t paths).2[k]? = some visit) :
    visitModule (treeAfter mode t paths k) mode visit.path =
      (treeAfter mode t paths (k + 1), visit) := by
  induction paths generalizing t k with
  | nil => cases h
  | cons path paths ih =>
      cases k with
      | zero =>
          have hvisit : (visitModule t mode path).2 = visit := by
            cases houtcome : (visitModule t mode path).2.outcome with
            | error failure =>
                rw [visitAll_cons_of_error houtcome] at h
                exact Option.some.inj h
            | ok outcome =>
                rw [visitAll_cons_of_ok houtcome] at h
                exact Option.some.inj h
          rw [treeAfter_zero, treeAfter_cons_one, ← hvisit, path_visitModule]
      | succ k =>
          cases houtcome : (visitModule t mode path).2.outcome with
          | error failure =>
              -- a run that fails at its first module has no later visit
              rw [visitAll_cons_of_error houtcome] at h
              cases h
          | ok outcome =>
              -- and otherwise the later visits are those of a run from the tree in between
              rw [visitAll_cons_of_ok houtcome, List.getElem?_cons_succ] at h
              rw [treeAfter_cons_succ houtcome, treeAfter_cons_succ houtcome]
              exact ih h

theorem treeAfter_length (mode : Mode) (t : FileTree) (paths : List Bytes) :
    treeAfter mode t paths (visitAll mode t paths).2.length = (visitAll mode t paths).1 := by
  induction paths generalizing t with
  | nil => rfl
  | cons path paths ih =>
      cases h : (visitModule t mode path).2.outcome with
      | error failure =>
          rw [visitAll_cons_of_error h]
          exact treeAfter_cons_one mode t path paths
      | ok outcome =>
          rw [visitAll_cons_of_ok h, List.length_cons, treeAfter_cons_succ h]
          exact ih _

end VisitAll

/-- The path leads to texts with equally many lines in both trees, and the line with this number,
counted from one, is the only one in which they differ. -/
def OnlyLineDiffers (before after : FileTree) (path : Bytes) (n : Nat) : Prop :=
  ∃ (loc : Location) (old new : String), before.LeadsTo path loc old.toUTF8 ∧
    after.LeadsTo path loc new.toUTF8 ∧
      (lines new.toList).length = (lines old.toList).length ∧
        ∀ j, (lines new.toList)[j]? ≠ (lines old.toList)[j]? ↔ j + 1 = n

/-- Whether it is printed that a module is converted or would be. -/
def Visit.announces (visit : Visit) : Bool :=
  visit.output = "Converted " ++ visit.path.display ++ "\n" ||
    visit.output = "Would convert " ++ visit.path.display ++ "\n"

/-- What a visit logs fits what it prints and what it does to the tree. -/
structure IsTraced (mode : Mode) (before after : FileTree) (visit : Visit) : Prop where
  config_iff : (∃ n, .config n ∈ visit.events) ↔ visit.announces = true
  changed_iff : after ≠ before ↔ mode = .write ∧ ∃ n, .config n ∈ visit.events
  line : mode = .write → '\n' ∉ snapshotKey visit.path → ∀ n, .config n ∈ visit.events →
    OnlyLineDiffers before after visit.path n

theorem head?_toList_append {s : String} (h : s.toList ≠ []) (u v : String) :
    (s ++ u ++ v).toList.head? = s.toList.head? := by
  obtain ⟨c, cs, hs⟩ := List.exists_cons_of_ne_nil h
  rw [String.toList_append, String.toList_append, hs]
  rfl

/-- Lines that start differently are different. -/
theorem append_ne_of_head? {s s' : String} (h : s.toList ≠ []) (h' : s'.toList ≠ [])
    (hne : s.toList.head? ≠ s'.toList.head?) (u v u' v' : String) :
    s ++ u ++ v ≠ s' ++ u' ++ v' := by
  intro heq
  rw [← head?_toList_append h u v, heq, head?_toList_append h'] at hne
  exact hne rfl

theorem append_ne_empty {s : String} (h : s.toList ≠ []) (u v : String) : s ++ u ++ v ≠ "" := by
  intro heq
  have hhead := head?_toList_append h u v
  rw [heq] at hhead
  exact h (List.head?_eq_none_iff.mp hhead.symm)

/-- What is printed tells whether there was something to move. -/
theorem announces_eq_of_output {visit : Visit} {mode : Mode} {moves : Bool}
    (h : visit.output = reportText mode moves visit.path) : visit.announces = moves := by
  rw [Visit.announces, h, Bool.eq_iff_iff, Bool.or_eq_true, decide_eq_true_eq, decide_eq_true_eq]
  cases moves with
  | true =>
      cases mode with
      | write => exact iff_of_true (Or.inl rfl) rfl
      | dryRun => exact iff_of_true (Or.inr rfl) rfl
  | false =>
      have hline : reportText mode false visit.path =
          "No changes made to " ++ visit.path.display ++ "\n" := by cases mode <;> rfl
      rw [hline]
      refine iff_of_false ?_ Bool.false_ne_true
      rintro (heq | heq)
      · exact append_ne_of_head? (by decide) (by decide) (by decide) _ _ _ _ heq
      · exact append_ne_of_head? (by decide) (by decide) (by decide) _ _ _ _ heq

section IsTraced

variable {mode : Mode} {t : FileTree} {path name : Bytes} {text : String} {loc : Location}

theorem isTraced_of_no_text (mode : Mode)
    (h : ∀ loc content, t.LeadsTo path loc content → ¬ content.IsValidUTF8) :
    IsTraced mode t (visitModule t mode path).1 (visitModule t mode path).2 := by
  obtain ⟨fault, hvisit⟩ := exists_visitModule_of_no_text mode h
  rw [hvisit]
  refine ⟨iff_of_false nofun ?_, iff_of_false (fun hne ↦ hne rfl) nofun,
    fun _ _ n hn ↦ absurd hn List.not_mem_nil⟩
  rw [Visit.announces, Bool.or_eq_true, decide_eq_true_eq, decide_eq_true_eq]
  rintro (heq | heq)
  · exact append_ne_empty (by decide) _ _ heq.symm
  · exact append_ne_empty (by decide) _ _ heq.symm

/-- The number that a scan logs is that of the line which the move changes. -/
theorem onlyLineDiffers_visitModule {n : Nat} (h : t.LeadsTo path loc text.toUTF8)
    (hname : Path.fileName? path = some name) (hstem : '\n' ∉ snapshotKey path)
    (hn : .config n ∈ (scan text.toList).events) :
    OnlyLineDiffers t (visitModule t .write path).1 path n := by
  obtain ⟨i, hi, rfl⟩ := config_mem_scan_iff.mp hn
  obtain ⟨moved, hmoved⟩ : ∃ u, moveConfig text.toList (snapshotKey path) = some u :=
    Option.isSome_iff_exists.mp ((exists_config_iff _).mp ⟨_, hn⟩)
  have hfeeds := length_lines_moveConfig hmoved
  rw [List.count_eq_zero_of_not_mem hstem, Nat.add_zero] at hfeeds
  rw [visitModule_write_of_some h hname hmoved]
  refine ⟨loc, text, String.ofList moved, h, ?_, ?_, ?_⟩
  · exact ⟨((rewritten_setContent t loc _).locate_eq path).trans h.locate,
      get?_setContent_self h.get?⟩
  · rw [String.toList_ofList, hfeeds]
  · intro j
    rw [String.toList_ofList, getElem?_lines_ne_iff hmoved hi hstem, Nat.add_right_cancel_iff]

theorem isTraced_of_text (mode : Mode) (h : t.LeadsTo path loc text.toUTF8)
    (hname : Path.fileName? path = some name) :
    IsTraced mode t (visitModule t mode path).1 (visitModule t mode path).2 := by
  obtain ⟨hvisit, -⟩ := visitModule_of_text mode h hname
  obtain ⟨hchanged, -⟩ := visitModule_changes_one_file mode h hname
  rw [hvisit]
  refine ⟨?_, ?_, ?_⟩
  · rw [exists_config_iff (snapshotKey path), announces_eq_of_output]
    exact line_eq_reportText mode _ path
  · rw [hchanged, exists_config_iff (snapshotKey path), Option.isSome_iff_exists]
  · rintro rfl hstem n hn
    exact onlyLineDiffers_visitModule h hname hstem hn

/-- Whatever a path leads to, what a visit of it logs fits what it does. -/
theorem isTraced_visitModule (t : FileTree) (mode : Mode) (path : Bytes) :
    IsTraced mode t (visitModule t mode path).1 (visitModule t mode path).2 := by
  rcases exists_leadsTo_text_or t path with ⟨loc, text, hleads⟩ | hno
  · obtain ⟨front, name, -, -, -, hname⟩ := exists_name_of_leadsTo hleads
    exact isTraced_of_text mode hleads hname
  · exact isTraced_of_no_text mode hno

end IsTraced

theorem map_path_of_reported {mode : Mode} {visits : List Visit} {paths : List Bytes}
    (h : List.Forall₂ (IsReported mode) visits paths) : visits.map Visit.path = paths := by
  induction h with
  | nil => rfl
  | cons hvisit _ ih => rw [List.map_cons, hvisit.path_eq, ih]

/-- What is printed of modules that were dealt with. -/
theorem output_of_reported {mode : Mode} {visits : List Visit} {paths : List Bytes}
    (h : List.Forall₂ (IsReported mode) visits paths) : ∀ visit ∈ visits,
      visit.outcome.isOk = true ∧ visit.output = reportText mode visit.moves visit.path := by
  induction h with
  | nil => exact fun _ hmem ↦ absurd hmem List.not_mem_nil
  | cons hvisit _ ih =>
      refine List.forall_mem_cons.mpr ⟨⟨by rw [hvisit.outcome_eq]; rfl, ?_⟩, ih⟩
      rw [hvisit.output_eq, hvisit.path_eq]

theorem map_announces_of_reported {mode : Mode} {visits : List Visit} {paths : List Bytes}
    (h : List.Forall₂ (IsReported mode) visits paths) :
    visits.map Visit.announces = visits.map Visit.moves :=
  List.map_congr_left fun visit hmem ↦
    announces_eq_of_output (output_of_reported h visit hmem).2

section IsRun

variable {t : FileTree} {mode : Mode} {dir : Bytes} {names done left : List Bytes}
  {visits : List Visit} {k : Nat} {visit : Visit}

theorem IsRun.step (h : IsRun t mode dir names done left visits) (hdir : t.isDirectory dir = true)
    (hk : (convertIn t mode dir).visits[k]? = some visit) :
    visitModule (treeAfter mode t (names.map (Path.join dir)) k) mode visit.path =
      (treeAfter mode t (names.map (Path.join dir)) (k + 1), visit) := by
  rw [convertIn_of_modulesIn mode hdir h.modulesIn] at hk
  exact visitModule_of_getElem?_visitAll hk

theorem IsRun.tree_eq (h : IsRun t mode dir names done left visits)
    (hdir : t.isDirectory dir = true) :
    (convertIn t mode dir).tree =
      treeAfter mode t (names.map (Path.join dir)) (convertIn t mode dir).visits.length := by
  rw [convertIn_of_modulesIn mode hdir h.modulesIn, treeAfter_length]

theorem IsRun.isTraced (h : IsRun t mode dir names done left visits)
    (hdir : t.isDirectory dir = true) (hk : (convertIn t mode dir).visits[k]? = some visit) :
    IsTraced mode (treeAfter mode t (names.map (Path.join dir)) k)
      (treeAfter mode t (names.map (Path.join dir)) (k + 1)) visit := by
  have htraced := isTraced_visitModule (treeAfter mode t (names.map (Path.join dir)) k) mode
    visit.path
  rwa [h.step hdir hk] at htraced

/-- The modules visited are the first ones, and all of them if the run is not stopped. -/
theorem IsRun.exists_left (h : IsRun t mode dir names done left visits) :
    names.map (Path.join dir) =
      (convertIn t mode dir).visits.map Visit.path ++ left.tail.map (Path.join dir) := by
  rw [h.visits_eq, h.names_eq, List.map_append, List.map_append, map_path_of_reported h.reported]
  cases left <;> simp [stopping, notTextVisit]

end IsRun

end Conversion
end ConfigSnapshot
