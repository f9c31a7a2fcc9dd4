import ConfigSnapshot.Proofs.Conversion.Contents
import ConfigSnapshot.Proofs.NixModule.Growth
import Mathlib.Algebra.GroupWithZero.Nat
import Mathlib.Data.Bool.Count

/-!
# Reports, counts and files

One line is printed for each module that a run deals with, and it fits what became of the
module: the counts are those of the lines, and a file grows by what is added by the moves of the
modules that lead to it and are said to be converted. As a move adds at least ten bytes, no later
one brings the old content back.
-/

namespace ConfigSnapshot
namespace Conversion

open Text NixModule FileTree

/-- Induction along the visits of modules: in a step the rest is visited in the tree that the
first visit leaves, and a module that holds no text is the last. -/
theorem visitAll_induction {mode : Mode}
    {motive : FileTree → List Bytes → FileTree × List Visit → Prop}
    (nil : ∀ t, motive t [] (t, []))
    (stop : ∀ t path paths, motive t (path :: paths) (t, [notTextVisit path]))
    (step : ∀ t path paths loc (text : String) moves all, t.LeadsTo path loc text.toUTF8 →
      moves = (moveConfig text.toList (snapshotKey path)).isSome →
        IsMoved mode [path] t (visitModule t mode path).1 →
          motive (visitModule t mode path).1 paths all →
            motive t (path :: paths) (all.1, ⟨path, (scan text.toList).events,
              some ⟨mode.verdict moves, path⟩, .ok (outcomeOf moves)⟩ :: all.2))
    {t : FileTree} {paths : List Bytes} (h : ∀ path ∈ paths, isModule t path = true) :
    motive t paths (visitAll mode t paths) := by
  induction paths generalizing t with
  | nil => exact nil t
  | cons path paths ih =>
      obtain ⟨hmodule, hrest⟩ := List.forall_mem_cons.mp h
      obtain ⟨name, loc, content, hname, hleads⟩ := exists_of_isModule hmodule
      cases hcontent : String.fromUTF8? content with
      | none =>
          have hvisit := visitModule_of_not_text mode hleads hcontent
          have hfailed :
              (visitModule t mode path).2.outcome = .error (.reading path .notText) := by
            rw [hvisit]
            rfl
          rw [visitAll_cons_of_error hfailed, hvisit]
          exact stop t path paths
      | some text =>
          obtain rfl := eq_toUTF8_of_fromUTF8? hcontent
          obtain ⟨hvisit, hmoved⟩ := visitModule_of_text mode hleads hname
          have houtcome : (visitModule t mode path).2.outcome =
              .ok (outcomeOf (moveConfig text.toList (snapshotKey path)).isSome) := by
            rw [hvisit]
          have hlater : ∀ p ∈ paths, isModule (visitModule t mode path).1 p = true := by
            rw [hmoved.isModule_eq]
            exact hrest
          rw [visitAll_cons_of_ok houtcome, hvisit]
          exact step t path paths loc text _ _ hleads rfl hmoved (ih hlater)

/-- Those of some paths that are marked. -/
def marked (marks : List Bool) (paths : List Bytes) : List Bytes :=
  ((marks.zip paths).filter Prod.fst).map Prod.snd

theorem marked_cons (mark : Bool) (marks : List Bool) (path : Bytes) (paths : List Bytes) :
    marked (mark :: marks) (path :: paths) =
      (if mark then [path] else []) ++ marked marks paths := by
  cases mark <;> rfl

/-- The paths of the visits that have found something to move. -/
def movedPaths (visits : List Visit) : List Bytes :=
  (visits.filter Visit.moves).map Visit.path

theorem movedPaths_cons (path : Bytes) (events : List Event) (report? : Option Report)
    (moves : Bool) (visits : List Visit) :
    movedPaths (⟨path, events, report?, .ok (outcomeOf moves)⟩ :: visits) =
      (if moves then [path] else []) ++ movedPaths visits := by
  cases moves <;> rfl

theorem movedPaths_stopping {mode : Mode} {visits : List Visit} {paths : List Bytes}
    (h : List.Forall₂ (IsReported mode) visits paths) (left : List Bytes) :
    movedPaths (visits ++ stopping left) = marked (visits.map Visit.moves) paths := by
  induction h with
  | nil => cases left <;> rfl
  | @cons visit path visits paths hvisit _ ih =>
      rw [List.map_cons, marked_cons, ← ih, movedPaths, List.cons_append, List.filter_cons]
      cases visit.moves with
      | false => rfl
      | true => exact congrArg (· :: movedPaths _) hvisit.path_eq

/-- Each file of the first tree has grown by moves under the stems for its location, and is the
same if there are none. -/
def IsGrown (stems : Location → List Text) (t u : FileTree) : Prop :=
  ∀ loc content, t.get? loc = some (.file content) →
    ∃ new, u.get? loc = some (.file new) ∧
      new.size = content.size + ((stems loc).map growth).sum ∧ (stems loc = [] → new = content)

section IsGrown

variable {stems more : Location → List Text} {t u w : FileTree}

theorem isGrown_refl (h : ∀ loc, stems loc = []) : IsGrown stems t t := by
  intro loc content hget
  exact ⟨content, hget, by simp [h], fun _ ↦ rfl⟩

theorem IsGrown.trans (h : IsGrown stems t u) (h' : IsGrown more u w) :
    IsGrown (fun loc ↦ stems loc ++ more loc) t w := by
  intro loc content hget
  obtain ⟨mid, hmid, hsize, hsame⟩ := h loc content hget
  obtain ⟨new, hnew, hsize', hsame'⟩ := h' loc mid hmid
  refine ⟨new, hnew, ?_, ?_⟩
  · rw [hsize', hsize, List.map_append, List.sum_append, Nat.add_assoc]
  · intro hnil
    obtain ⟨hstems, hmore⟩ := List.append_eq_nil_iff.mp hnil
    rw [hsame' hmore, hsame hstems]

/-- A file that has grown under some stem is not what it was. -/
theorem ne_iff_of_size_eq {content new : ByteArray} {keys : List Text}
    (hsize : new.size = content.size + (keys.map growth).sum) (hsame : keys = [] → new = content) :
    new ≠ content ↔ keys ≠ [] := by
  constructor
  · intro hne hnil
    exact hne (hsame hnil)
  · rintro hkeys rfl
    obtain ⟨key, rest, rfl⟩ := List.exists_cons_of_ne_nil hkeys
    have hpos := growth_pos key
    rw [List.map_cons, List.sum_cons] at hsize
    omega

/-- One visit makes the file at the end of its path grow if it has found something to move. -/
theorem IsMoved.isGrown {path : Bytes} {loc : Location} {text : String}
    (hleads : t.LeadsTo path loc text.toUTF8) (hu : IsMoved .write [path] t u) :
    IsGrown (stemsFor t (if (moveConfig text.toList (snapshotKey path)).isSome then [path] else []))
      t u := by
  intro l content hget
  refine ⟨moveContent (stemsFor t [path] l) content, ?_, ?_⟩
  · rw [Rewritten.get? hu, hget]
    rfl
  rw [stemsFor_singleton hleads.locate]
  cases hmove : moveConfig text.toList (snapshotKey path) with
  | none =>
      have hsame : moveContent (if l = loc then [snapshotKey path] else []) content = content := by
        split
        · next hl =>
            rw [hl, hleads.get?] at hget
            obtain rfl := Entry.file.inj (Option.some.inj hget)
            rw [moveContent_toUTF8, moveAll_cons, hmove, Option.getD_none]
            exact congrArg String.toUTF8 String.ofList_toList
        · exact moveContent_nil content
      rw [hsame]
      exact ⟨rfl, fun _ ↦ rfl⟩
  | some moved =>
      rw [Option.isSome_some, if_pos rfl, stemsFor_singleton hleads.locate]
      split
      · next hl =>
          rw [hl, hleads.get?] at hget
          obtain rfl := Entry.file.inj (Option.some.inj hget)
          rw [moveContent_toUTF8, moveAll_cons, hmove, Option.getD_some]
          refine ⟨?_, fun hnil ↦ absurd hnil (List.cons_ne_nil _ _)⟩
          rw [show moveAll moved [] = moved from rfl, size_toUTF8_ofList, size_moveConfig hmove,
            size_toList, List.map_singleton, List.sum_singleton]
      · rw [moveContent_nil]
        exact ⟨rfl, fun _ ↦ rfl⟩

end IsGrown

theorem isGrown_visitAll {t : FileTree} {paths : List Bytes}
    (h : ∀ path ∈ paths, isModule t path = true) :
    IsGrown (stemsFor t (movedPaths (visitAll .write t paths).2)) t
      (visitAll .write t paths).1 := by
  refine visitAll_induction (motive := fun t _ all ↦
    IsGrown (stemsFor t (movedPaths all.2)) t all.1) ?_ ?_ ?_ h
  · intro t
    exact isGrown_refl fun _ ↦ rfl
  · intro t path paths
    exact isGrown_refl fun _ ↦ rfl
  · intro t path paths loc text moves all hleads hmoves hmoved ih
    have hall := (hmoved.isGrown hleads).trans ih
    rw [← hmoves, hmoved.stemsFor_eq] at hall
    rw [movedPaths_cons]
    simpa only [← stemsFor_append] using hall

theorem visitAll_dryRun_tree (t : FileTree) (paths : List Bytes) :
    (visitAll .dryRun t paths).1 = t := by
  induction paths with
  | nil => rfl
  | cons path paths ih =>
      cases houtcome : (visitModule t .dryRun path).2.outcome with
      | error failure => rw [visitAll_cons_of_error houtcome, visitModule_dryRun_tree]
      | ok outcome => rw [visitAll_cons_of_ok houtcome, visitModule_dryRun_tree, ih]

/-- A dry run leaves the tree as it is, whatever the path. -/
theorem convertIn_dryRun_tree (t : FileTree) (dir : Bytes) :
    (convertIn t .dryRun dir).tree = t := by
  unfold convertIn
  split
  · cases modulesIn t dir with
    | error failure => rfl
    | ok paths => exact visitAll_dryRun_tree t paths
  · rfl

section IsRun

variable {t : FileTree} {mode : Mode} {dir : Bytes} {names done left : List Bytes}
  {visits : List Visit}

theorem IsRun.isModule_of_mem (h : IsRun t mode dir names done left visits) :
    ∀ path ∈ names.map (Path.join dir), Conversion.isModule t path = true :=
  List.forall_mem_map.mpr h.isModule

theorem IsRun.isGrown (h : IsRun t .write dir names done left visits)
    (hdir : t.isDirectory dir = true) :
    IsGrown (stemsFor t (marked (visits.map Visit.moves) (done.map (Path.join dir)))) t
      (convertIn t .write dir).tree := by
  rw [← movedPaths_stopping h.reported (left.map (Path.join dir)), ← h.visits_eq,
    convertIn_of_modulesIn .write hdir h.modulesIn]
  exact isGrown_visitAll h.isModule_of_mem

theorem IsRun.counts (h : IsRun t mode dir names done left visits) {summary : Summary}
    (hsummary : (convertIn t mode dir).result = .ok summary) :
    summary.converted + summary.unchanged = names.length ∧
      summary.converted = (visits.map Visit.moves).count true ∧
        summary.unchanged = (visits.map Visit.moves).count false := by
  cases left with
  | cons name rest =>
      rw [h.result_of_cons] at hsummary
      cases hsummary
  | nil =>
      rw [h.result_of_nil] at hsummary
      obtain rfl := Except.ok.inj hsummary
      refine ⟨?_, rfl, rfl⟩
      rw [List.count_true_add_count_false, h.length_moves, List.length_map, h.names_eq,
        List.append_nil]

end IsRun

theorem stemsFor_ne_nil_iff {t : FileTree} {paths : List Bytes} {loc : Location} :
    stemsFor t paths loc ≠ [] ↔ ∃ path ∈ paths, t.locate path = .ok loc := by
  rw [stemsFor, ne_eq, List.map_eq_nil_iff, List.filter_eq_nil_iff]
  simp only [reaches_iff, not_forall, not_not, exists_prop]

/-- What a run prints, counts and leaves in the tree agree on which modules had something to
move. -/
theorem convertIn_reports_agree {t : FileTree} {dir : Bytes} (mode : Mode)
    (hdir : t.isDirectory dir = true) :
    let run := convertIn t mode dir
    ∃ (modules left : List Bytes) (moved : List Bool),
      modulesIn t dir = .ok modules ∧ modules = run.processed ++ left ∧
        (left = [] ∧ (∃ summary, run.result = .ok summary) ∨
          ∃ path rest failure, left = path :: rest ∧
            (visitModule run.tree mode path).2.outcome = .error failure ∧
              run.result = .error failure) ∧
          moved.length = run.processed.length ∧
          run.output = String.join (List.zipWith (reportText mode) moved run.processed) ∧
          (∀ summary, run.result = .ok summary →
            summary.converted + summary.unchanged = modules.length ∧
              summary.converted = moved.count true ∧ summary.unchanged = moved.count false) ∧
          (mode = .write → ∀ loc content, t.get? loc = some (.file content) →
            let converted := marked moved run.processed
            ∃ new, run.tree.get? loc = some (.file new) ∧
              (new ≠ content ↔ ∃ path ∈ converted, t.locate path = .ok loc) ∧
                new.size = content.size + ((converted.filter (t.reaches loc)).map fun path ↦
                  10 + size (snapshotKey path)).sum) ∧
          (mode = .dryRun → run.tree = t) := by
  intro run
  obtain ⟨names, done, left, visits, h⟩ := exists_isRun mode hdir
  have hprocessed : run.processed = done.map (Path.join dir) := h.processed
  rw [hprocessed]
  refine ⟨names.map (Path.join dir), left.map (Path.join dir), visits.map Visit.moves, h.modulesIn,
    ?_, ?_, ?_, h.output, ?_, ?_, ?_⟩
  · rw [← List.map_append, ← h.names_eq]
  · cases left with
    | nil => exact Or.inl ⟨rfl, _, h.result_of_nil⟩
    | cons name rest =>
        refine Or.inr ⟨_, _, .reading (Path.join dir name) .notText, rfl, ?_, h.result_of_cons⟩
        rw [show visitModule run.tree mode (Path.join dir name) = _ from h.visit_of_cons]
        rfl
  · exact h.length_moves
  · intro summary hsummary
    rw [List.length_map]
    exact h.counts hsummary
  · rintro rfl loc content hget converted
    obtain ⟨new, hnew, hsize, hsame⟩ := h.isGrown hdir loc content hget
    refine ⟨new, hnew, ?_, ?_⟩
    · rw [ne_iff_of_size_eq hsize hsame, stemsFor_ne_nil_iff]
    · rw [hsize, stemsFor, List.map_map]
      rfl
  · rintro rfl
    exact convertIn_dryRun_tree t dir

/-- The two modules are one file, which has grown once for each of them. -/
theorem convertIn_reports_agree_linkedModules :
    linkedModules.isDirectory "m" = true ∧
      let run := convertIn linkedModules .write "m"
      run.output = "Converted m/a.nix\nConverted m/b.nix\n" ∧
        ∃ old new, linkedModules.get? [⟨"a.nix", by decide⟩, ⟨"m", by decide⟩] =
            some (.file old) ∧
          run.tree.get? [⟨"a.nix", by decide⟩, ⟨"m", by decide⟩] = some (.file new) ∧
            new ≠ old ∧ new.size = old.size + (11 + 11) := by
  have hdir : linkedModules.isDirectory "m" = true := by decide
  have hrun := convertIn_of_modulesIn .write hdir modulesIn_linkedModules
  have houtput : (convertIn linkedModules .write "m").output =
      "Converted m/a.nix\nConverted m/b.nix\n" := by
    rw [hrun]
    rfl
  have hprocessed : (convertIn linkedModules .write "m").processed =
      (["m/a.nix", "m/b.nix"] : List Bytes) := by
    rw [hrun]
    rfl
  obtain ⟨modules, left, moved, -, -, -, hlength, hprints, -, hfiles, -⟩ :=
    convertIn_reports_agree .write hdir
  rw [hprocessed] at hlength hprints hfiles
  -- both lines say that a module was converted
  obtain rfl : moved = [true, true] := by
    rw [houtput] at hprints
    match moved, hlength with
    | [first, second], _ =>
        cases first <;> cases second <;> first | rfl | exact absurd hprints (by decide)
  obtain ⟨new, hnew, hchanged, hsize⟩ :=
    hfiles rfl [⟨"a.nix", by decide⟩, ⟨"m", by decide⟩] _ rfl
  have hsum : (((["m/a.nix", "m/b.nix"] : List Bytes).filter
      (linkedModules.reaches [⟨"a.nix", by decide⟩, ⟨"m", by decide⟩])).map fun path ↦
        10 + size (snapshotKey path)).sum = 11 + 11 := by decide
  have hreaches : ∃ path ∈ (["m/a.nix", "m/b.nix"] : List Bytes),
      linkedModules.locate path = .ok [⟨"a.nix", by decide⟩, ⟨"m", by decide⟩] :=
    ⟨"m/a.nix", by decide, by decide⟩
  refine ⟨hdir, houtput, _, new, rfl, hnew, hchanged.mpr hreaches, ?_⟩
  rw [← hsum]
  exact hsize

end Conversion
end ConfigSnapshot
