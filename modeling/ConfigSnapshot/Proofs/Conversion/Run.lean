import ConfigSnapshot.Proofs.Conversion.Listing
import ConfigSnapshot.Proofs.Conversion.Visit
import Mathlib.Data.List.Forall2

/-!
# Visiting modules in turn

Which of several modules hold text is settled before the first of them is visited, as a move
turns text into text and leads no path elsewhere. So the run gets as far as the first module
that holds none. Each module before it is reported once, and each file has been moved once for
every path among them that leads to it.
-/

namespace ConfigSnapshot
namespace Conversion

open Text NixModule FileTree

section IsMoved

variable {mode : Mode} {paths : List Bytes} {t u : FileTree}

theorem IsMoved.holdsText_eq (h : IsMoved mode paths t u) : u.holdsText = t.holdsText :=
  Rewritten.holdsText_eq h fun _ content ↦ isSome_fromUTF8?_moveContent _ content

theorem IsMoved.isModule_eq (h : IsMoved mode paths t u) : isModule u = isModule t :=
  isModule_eq_of_rewritten h

theorem IsMoved.stemsFor_eq (h : IsMoved mode paths t u) : stemsFor u = stemsFor t := by
  funext ps loc
  rw [stemsFor, stemsFor, Rewritten.reaches_eq h]

theorem IsMoved.cons {path : Bytes} {w : FileTree} (h : IsMoved mode [path] t u)
    (h' : IsMoved mode paths u w) : IsMoved mode (path :: paths) t w := by
  apply (Rewritten.trans h h').congr
  intro loc content _
  rw [h.stemsFor_eq, ← moveContent_append, ← Mode.moves_append, ← stemsFor_cons]

theorem IsMoved.get?_of_not_text (h : IsMoved mode paths t u) {loc : Location}
    {content : ByteArray} (hget : t.get? loc = some (.file content))
    (hnot : ¬ content.IsValidUTF8) : u.get? loc = t.get? loc := by
  have hnone : String.fromUTF8? content = none := by
    rw [← isSome_fromUTF8?_iff] at hnot
    simpa using hnot
  rw [Rewritten.get? h, hget, Option.map_some, Entry.mapContent_file,
    moveContent_of_not_text hnone]

theorem isMoved_nil (mode : Mode) (t : FileTree) : IsMoved mode [] t t := by
  apply (Rewritten.refl t).congr
  intro loc content _
  have hnone : mode.moves (stemsFor t [] loc) = [] := by cases mode <;> rfl
  rw [hnone, moveContent_nil]

end IsMoved

/-- Whether a visit has found something to move. -/
def Visit.moves (visit : Visit) : Bool :=
  match visit.outcome with
  | .ok .converted => true
  | .ok .unchanged | .error _ => false

/-- The visit of a module that did not fail. -/
structure IsReported (mode : Mode) (visit : Visit) (path : Bytes) : Prop where
  path_eq : visit.path = path
  report_eq : visit.report? = some ⟨mode.verdict visit.moves, path⟩
  outcome_eq : visit.outcome = .ok (outcomeOf visit.moves)

theorem IsReported.output_eq {mode : Mode} {visit : Visit} {path : Bytes}
    (h : IsReported mode visit path) : visit.output = reportText mode visit.moves path := by
  rw [Visit.output, h.report_eq, Option.elim_some, line_eq_reportText]

theorem isReported_mk (mode : Mode) (path : Bytes) (events : List Event) (moves : Bool) :
    IsReported mode
      ⟨path, events, some ⟨mode.verdict moves, path⟩, .ok (outcomeOf moves)⟩ path := by
  cases moves <;> exact ⟨rfl, rfl, rfl⟩

theorem visitModule_of_holdsText {t : FileTree} {path : Bytes} (mode : Mode)
    (hmodule : isModule t path = true) (htext : t.holdsText path = true) :
    IsReported mode (visitModule t mode path).2 path ∧
      IsMoved mode [path] t (visitModule t mode path).1 := by
  obtain ⟨name, loc, content, hname, hleads⟩ := exists_of_isModule hmodule
  rw [hleads.holdsText_eq] at htext
  obtain ⟨text, hcontent⟩ := Option.isSome_iff_exists.mp htext
  obtain rfl := eq_toUTF8_of_fromUTF8? hcontent
  obtain ⟨hvisit, hmoved⟩ := visitModule_of_text mode hleads hname
  refine ⟨?_, hmoved⟩
  rw [hvisit]
  exact isReported_mk mode path _ _

theorem visitModule_of_holdsText_eq_false {t : FileTree} {path : Bytes} (mode : Mode)
    (hmodule : isModule t path = true) (htext : t.holdsText path = false) :
    visitModule t mode path = (t, notTextVisit path) := by
  obtain ⟨name, loc, content, -, hleads⟩ := exists_of_isModule hmodule
  rw [hleads.holdsText_eq] at htext
  exact visitModule_of_not_text mode hleads (by simpa using htext)

theorem visitAll_cons_of_ok {t : FileTree} {mode : Mode} {path : Bytes} {paths : List Bytes}
    {outcome : Outcome} (h : (visitModule t mode path).2.outcome = .ok outcome) :
    visitAll mode t (path :: paths) =
      ((visitAll mode (visitModule t mode path).1 paths).1,
        (visitModule t mode path).2 :: (visitAll mode (visitModule t mode path).1 paths).2) := by
  simp only [visitAll, h]

theorem visitAll_cons_of_error {t : FileTree} {mode : Mode} {path : Bytes}
    {paths : List Bytes} {failure : Failure}
    (h : (visitModule t mode path).2.outcome = .error failure) :
    visitAll mode t (path :: paths) =
      ((visitModule t mode path).1, [(visitModule t mode path).2]) := by
  simp only [visitAll, h]

/-- The visits that end a run, by the modules that are left. -/
def stopping (left : List Bytes) : List Visit :=
  left.head?.toList.map notTextVisit

theorem visitAll_of_isModule (mode : Mode) {t : FileTree} {paths : List Bytes}
    (h : ∀ path ∈ paths, isModule t path = true) :
    IsMoved mode (paths.takeWhile t.holdsText) t (visitAll mode t paths).1 ∧
      ∃ visits, (visitAll mode t paths).2 = visits ++ stopping (paths.dropWhile t.holdsText) ∧
        List.Forall₂ (IsReported mode) visits (paths.takeWhile t.holdsText) := by
  induction paths generalizing t with
  | nil => exact ⟨isMoved_nil mode t, [], rfl, .nil⟩
  | cons path paths ih =>
      obtain ⟨hmodule, hrest⟩ := List.forall_mem_cons.mp h
      cases htext : t.holdsText path with
      | false =>
          have hvisit := visitModule_of_holdsText_eq_false mode hmodule htext
          have hfailed :
              (visitModule t mode path).2.outcome = .error (.reading path .notText) := by
            rw [hvisit]
            rfl
          rw [visitAll_cons_of_error hfailed, hvisit, List.takeWhile_cons_of_neg (by simp [htext]),
            List.dropWhile_cons_of_neg (by simp [htext])]
          exact ⟨isMoved_nil mode t, [], rfl, .nil⟩
      | true =>
          obtain ⟨hreported, hmoved⟩ := visitModule_of_holdsText mode hmodule htext
          -- the rest is visited in another tree, where each path is a module or a text as before
          have hlater : ∀ p ∈ paths, isModule (visitModule t mode path).1 p = true := by
            rw [hmoved.isModule_eq]
            exact hrest
          obtain ⟨htree, visits, hvisits, hall⟩ := ih hlater
          rw [hmoved.holdsText_eq] at htree hvisits hall
          rw [visitAll_cons_of_ok hreported.outcome_eq, List.takeWhile_cons_of_pos htext,
            List.dropWhile_cons_of_pos htext]
          refine ⟨hmoved.cons htree, (visitModule t mode path).2 :: visits, ?_, ?_⟩
          · rw [hvisits, List.cons_append]
          · exact .cons hreported hall

section Reported

variable {mode : Mode} {visits : List Visit} {paths : List Bytes}

theorem summarize_of_reported (h : List.Forall₂ (IsReported mode) visits paths) :
    summarize visits =
      .ok ⟨(visits.map Visit.moves).count true, (visits.map Visit.moves).count false⟩ := by
  induction h with
  | nil => rfl
  | @cons visit path visits paths hvisit _ ih =>
      simp only [summarize, hvisit.outcome_eq, ih, List.map_cons]
      cases visit.moves <;> simp [outcomeOf, Summary.add]

theorem summarize_stopping (h : List.Forall₂ (IsReported mode) visits paths) (path : Bytes)
    (left : List Bytes) :
    summarize (visits ++ stopping (path :: left)) = .error (.reading path .notText) := by
  induction h with
  | nil => rfl
  | cons hvisit _ ih => simp only [List.cons_append, summarize, hvisit.outcome_eq, ih]

theorem reports_stopping (h : List.Forall₂ (IsReported mode) visits paths) (left : List Bytes) :
    (visits ++ stopping left).filterMap Visit.report? =
      List.zipWith (fun moves path ↦ ⟨mode.verdict moves, path⟩) (visits.map Visit.moves)
        paths := by
  induction h with
  | nil => cases left <;> rfl
  | cons hvisit _ ih =>
      rw [List.cons_append, List.filterMap_cons_some hvisit.report_eq, ih]
      rfl

theorem output_stopping (h : List.Forall₂ (IsReported mode) visits paths) (left : List Bytes) :
    String.join ((visits ++ stopping left).map Visit.output) =
      String.join (List.zipWith (reportText mode) (visits.map Visit.moves) paths) := by
  induction h with
  | nil => cases left <;> rfl
  | cons hvisit _ ih =>
      rw [List.cons_append, List.map_cons, String.join_cons, hvisit.output_eq, ih]
      exact (String.join_cons).symm

end Reported

/-- A run on a directory: its modules by name, those before the first that holds no text, and
what came of them. -/
structure IsRun (t : FileTree) (mode : Mode) (dir : Bytes) (names done left : List Bytes)
    (visits : List Visit) : Prop where
  modulesIn : modulesIn t dir = .ok (names.map (Path.join dir))
  pairwise : names.Pairwise (· < ·)
  isName : ∀ name ∈ names, IsName name
  isModule : ∀ name ∈ names, isModule t (Path.join dir name) = true
  names_eq : names = done ++ left
  holdsText : ∀ name ∈ done, t.holdsText (Path.join dir name) = true
  head_left : ∀ name ∈ left.head?, t.holdsText (Path.join dir name) = false
  reported : List.Forall₂ (IsReported mode) visits (done.map (Path.join dir))
  visits_eq : (convertIn t mode dir).visits = visits ++ stopping (left.map (Path.join dir))
  result : (convertIn t mode dir).result =
    summarize (visits ++ stopping (left.map (Path.join dir)))
  tree : IsMoved mode (done.map (Path.join dir)) t (convertIn t mode dir).tree

section IsRun

variable {t : FileTree} {mode : Mode} {dir name : Bytes} {names done left : List Bytes}
  {visits : List Visit}

theorem IsRun.mem_of_done (h : IsRun t mode dir names done left visits) (hmem : name ∈ done) :
    name ∈ names :=
  h.names_eq ▸ List.mem_append_left left hmem

theorem IsRun.mem_of_cons (h : IsRun t mode dir names done (name :: left) visits) :
    name ∈ names :=
  h.names_eq ▸ List.mem_append_right done List.mem_cons_self

end IsRun

theorem convertIn_of_modulesIn {t : FileTree} {dir : Bytes} {paths : List Bytes} (mode : Mode)
    (hdir : t.isDirectory dir = true) (h : modulesIn t dir = .ok paths) :
    convertIn t mode dir = ⟨(visitAll mode t paths).1, (visitAll mode t paths).2,
      summarize (visitAll mode t paths).2⟩ := by
  simp only [convertIn, hdir, if_true, h]

theorem exists_isRun {t : FileTree} {dir : Bytes} (mode : Mode)
    (h : t.isDirectory dir = true) :
    ∃ names done left visits, IsRun t mode dir names done left visits := by
  obtain ⟨loc, hloc, hdir⟩ := isDirectory_iff.mp h
  obtain ⟨names, hmodules, hpairwise, hnames⟩ := exists_modulesIn hloc hdir
  have hisName : ∀ name ∈ names, IsName name := fun name hmem ↦ ((hnames name).mp hmem).1.1
  have hisModule : ∀ name ∈ names, isModule t (Path.join dir name) = true := by
    intro name hmem
    exact (isModule_join dir (hisName name hmem)).mpr ((hnames name).mp hmem).2
  let good (name : Bytes) : Bool := t.holdsText (Path.join dir name)
  have hpaths : ∀ path ∈ names.map (Path.join dir), isModule t path = true :=
    List.forall_mem_map.mpr hisModule
  obtain ⟨htree, visits, hvisits, hreported⟩ := visitAll_of_isModule mode hpaths
  rw [List.takeWhile_map] at htree hreported
  rw [List.dropWhile_map] at hvisits
  have hrun := convertIn_of_modulesIn mode h hmodules
  refine ⟨names, names.takeWhile good, names.dropWhile good, visits, hmodules, hpairwise, hisName,
    hisModule, List.takeWhile_append_dropWhile.symm, ?_, ?_, hreported, ?_, ?_, ?_⟩
  · intro name hmem
    exact List.all_eq_true.mp (List.all_takeWhile (p := good)) name hmem
  · intro name hmem
    have hhead := List.head?_dropWhile_not good names
    rw [Option.mem_def.mp hmem] at hhead
    exact hhead
  · rw [hrun]
    exact hvisits
  · rw [hrun]
    exact congrArg summarize hvisits
  · rw [hrun]
    exact htree

end Conversion
end ConfigSnapshot
