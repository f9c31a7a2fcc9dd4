import ConfigSnapshot.Proofs.Conversion.Reports

/-!
# What a module is reported as

The verdict on a module is settled by the tree that the run starts on and by the modules before
it: what counts is whether the file at the end of its path still has an eligible line after the
moves for those of them that lead to the same file. In a dry run there are no such moves.
-/

namespace ConfigSnapshot
namespace Conversion

open Text NixModule FileTree

/-- The eligible lines of a file; what is no text has none. -/
def contentTargets (content : ByteArray) : List Nat :=
  match String.fromUTF8? content with
  | some text => targets text.toList
  | none => []

theorem contentTargets_toUTF8 (text : String) :
    contentTargets text.toUTF8 = targets text.toList := by
  rw [contentTargets, fromUTF8?_toUTF8]

theorem moveAll_of_targets_eq_nil {t : Text} (h : targets t = []) (stems : List Text) :
    moveAll t stems = t := by
  induction stems with
  | nil => rfl
  | cons stem stems ih =>
      rw [moveAll_cons, moveConfig_eq_none_iff.mpr h, Option.getD_none, ih]

/-- A file without an eligible line never gets one. -/
theorem contentTargets_moveContent_of_eq_nil {content : ByteArray} (h : contentTargets content = [])
    (stems : List Text) : contentTargets (moveContent stems content) = [] := by
  cases hcontent : String.fromUTF8? content with
  | none => rw [moveContent_of_not_text hcontent, h]
  | some text =>
      obtain rfl := eq_toUTF8_of_fromUTF8? hcontent
      rw [contentTargets_toUTF8] at h
      rw [moveContent_toUTF8, contentTargets_toUTF8, moveAll_of_targets_eq_nil h,
        String.toList_ofList, h]

theorem contentTargets_moveContent {stems : List Text} (hstems : ∀ s ∈ stems, '\n' ∉ s)
    (content : ByteArray) :
    contentTargets (moveContent stems content) = (contentTargets content).drop stems.length := by
  cases hcontent : String.fromUTF8? content with
  | none =>
      have hnone : contentTargets content = [] := by rw [contentTargets, hcontent]
      rw [moveContent_of_not_text hcontent, hnone, List.drop_nil]
  | some text =>
      obtain rfl := eq_toUTF8_of_fromUTF8? hcontent
      rw [moveContent_toUTF8, contentTargets_toUTF8, contentTargets_toUTF8, String.toList_ofList,
        (moveAll_of_not_mem text.toList hstems).1]

theorem isSome_moveConfig (t stem : Text) :
    (moveConfig t stem).isSome = !(targets t).isEmpty := by
  rw [moveConfig_eq, Option.isSome_map]
  cases targets t <;> rfl

/-- Whether the module at a path has an eligible line left after the moves for other modules. -/
def findsTarget (mode : Mode) (t : FileTree) (before : List Bytes) (path : Bytes) : Bool :=
  match t.locate path, t.read path with
  | .ok loc, .ok content =>
      !(contentTargets (moveContent (mode.moves (stemsFor t before loc)) content)).isEmpty
  | _, _ => false

section FindsTarget

variable {mode : Mode} {t u : FileTree} {path : Bytes} {loc : Location} {content : ByteArray}

theorem findsTarget_of_leadsTo (h : t.LeadsTo path loc content) (mode : Mode)
    (before : List Bytes) :
    findsTarget mode t before path =
      !(contentTargets (moveContent (mode.moves (stemsFor t before loc)) content)).isEmpty := by
  simp only [findsTarget, h.locate, h.read]

theorem findsTarget_dryRun (h : t.LeadsTo path loc content) (before : List Bytes) :
    findsTarget .dryRun t before path = !(contentTargets content).isEmpty := by
  rw [findsTarget_of_leadsTo h, Mode.moves, moveContent_nil]

/-- After one visit the later modules stand as if its module had come first among those before. -/
theorem IsMoved.findsTarget_eq {first : Bytes} (hu : IsMoved mode [first] t u)
    (h : t.LeadsTo path loc content) (before : List Bytes) :
    findsTarget mode u before path = findsTarget mode t (first :: before) path := by
  rw [findsTarget_of_leadsTo (h.rewritten hu), findsTarget_of_leadsTo h, hu.stemsFor_eq,
    ← moveContent_append, ← Mode.moves_append, ← stemsFor_cons]

end FindsTarget

/-- The reports on some modules, each of which is visited after those before it in the list. -/
def reportsOn (mode : Mode) (t : FileTree) (paths : List Bytes) : List Report :=
  paths.mapIdx fun k path ↦ ⟨mode.verdict (findsTarget mode t (paths.take k) path), path⟩

theorem map_path_reportsOn (mode : Mode) (t : FileTree) (paths : List Bytes) :
    (reportsOn mode t paths).map Report.path = paths := by
  apply List.ext_getElem?
  intro k
  rw [reportsOn, List.getElem?_map, List.getElem?_mapIdx]
  cases paths[k]? <;> rfl

theorem reportsOn_cons {mode : Mode} {t u : FileTree} {path : Bytes} {paths : List Bytes}
    (hu : IsMoved mode [path] t u) (h : ∀ p ∈ paths, isModule t p = true) :
    reportsOn mode t (path :: paths) =
      ⟨mode.verdict (findsTarget mode t [] path), path⟩ :: reportsOn mode u paths := by
  rw [reportsOn, List.mapIdx_cons, List.take_zero, reportsOn]
  congr 1
  rw [List.mapIdx_eq_mapIdx_iff]
  intro k hk
  obtain ⟨_, loc, content, -, hleads⟩ := exists_of_isModule (h _ (List.getElem_mem hk))
  rw [List.take_succ_cons, hu.findsTarget_eq hleads]

/-- The reports of a run are told by the tree that it starts on. -/
theorem exists_reportsOn (mode : Mode) {t : FileTree} {paths : List Bytes}
    (h : ∀ path ∈ paths, isModule t path = true) :
    ∃ visited, visited <+: paths ∧
      (visitAll mode t paths).2.filterMap Visit.report? = reportsOn mode t visited := by
  refine visitAll_induction (motive := fun t paths all ↦
    (∀ path ∈ paths, isModule t path = true) → ∃ visited, visited <+: paths ∧
      all.2.filterMap Visit.report? = reportsOn mode t visited) ?_ ?_ ?_ h h
  · intro t _
    exact ⟨[], List.nil_prefix, rfl⟩
  · intro t path paths _
    exact ⟨[], List.nil_prefix, rfl⟩
  · intro t path paths loc text moves all hleads hmoves hmoved ih hmodules
    obtain ⟨-, hrest⟩ := List.forall_mem_cons.mp hmodules
    obtain ⟨visited, hfront, hreports⟩ := ih (by rw [hmoved.isModule_eq]; exact hrest)
    have hfinds : findsTarget mode t [] path = moves := by
      rw [findsTarget_of_leadsTo hleads, hmoves, isSome_moveConfig,
        show mode.moves (stemsFor t [] loc) = [] by cases mode <;> rfl, moveContent_nil,
        contentTargets_toUTF8]
    have hvisited : ∀ p ∈ visited, isModule t p = true :=
      fun p hp ↦ hrest p (hfront.mem hp)
    refine ⟨path :: visited, (List.prefix_cons_inj path).mpr hfront, ?_⟩
    rw [reportsOn_cons hmoved hvisited, hfinds, ← hreports]
    rfl

theorem IsRun.reports_eq {t : FileTree} {mode : Mode} {dir : Bytes}
    {names done left : List Bytes} {visits : List Visit}
    (h : IsRun t mode dir names done left visits) (hdir : t.isDirectory dir = true) :
    (convertIn t mode dir).reports = reportsOn mode t (done.map (Path.join dir)) := by
  obtain ⟨visited, -, hreports⟩ := exists_reportsOn mode h.isModule_of_mem
  have hrun : (convertIn t mode dir).reports = reportsOn mode t visited := by
    rw [convertIn_of_modulesIn mode hdir h.modulesIn]
    exact hreports
  have hpaths := h.map_path_reports
  rw [hrun, map_path_reportsOn] at hpaths
  rw [hrun, hpaths]

end Conversion
end ConfigSnapshot
