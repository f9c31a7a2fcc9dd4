import ConfigSnapshot.Proofs.Conversion.Failure

/-!
# What a run leaves in the tree

A run that writes leaves every file with its first content, moved once under the stem of each
module dealt with that leads to the file. Files that no such module leads to keep their bytes,
and directories and links are what they were.
-/

namespace ConfigSnapshot
namespace Conversion

open Text NixModule FileTree

theorem snapshotKey_join (dir : Bytes) {name : Bytes} (h : IsName name) :
    snapshotKey (Path.join dir name) = (Path.stem name).toText :=
  snapshotKey_of_fileName? (Path.fileName?_join dir h)

/-- The stems of those names in a directory whose paths lead to a location. -/
def stemsAt (t : FileTree) (dir : Bytes) (names : List Bytes) (loc : Location) : List Text :=
  (names.filter fun name ↦ t.reaches loc (Path.join dir name)).map fun name ↦
    (Path.stem name).toText

theorem stemsFor_map_join (t : FileTree) (dir : Bytes) {names : List Bytes}
    (h : ∀ name ∈ names, IsName name) (loc : Location) :
    stemsFor t (names.map (Path.join dir)) loc = stemsAt t dir names loc := by
  rw [stemsFor, stemsAt, List.filter_map, List.map_map]
  apply List.map_congr_left
  intro name hmem
  exact snapshotKey_join dir (h name (List.mem_of_mem_filter hmem))

/-- The paths of the modules that a run dealt with, up to one at which it failed. -/
def Run.processed (run : Run) : List Bytes :=
  (run.visits.filter fun visit ↦ visit.outcome.isOk).map Visit.path

theorem processed_stopping {mode : Mode} {visits : List Visit} {paths : List Bytes}
    (h : List.Forall₂ (IsReported mode) visits paths) (left : List Bytes) :
    ((visits ++ stopping left).filter fun visit ↦ visit.outcome.isOk).map Visit.path = paths := by
  induction h with
  | nil => cases left <;> rfl
  | cons hvisit _ ih =>
      rw [List.cons_append, List.filter_cons_of_pos (by rw [hvisit.outcome_eq]; rfl),
        List.map_cons, ih, hvisit.path_eq]

section IsRun

variable {t : FileTree} {mode : Mode} {dir : Bytes} {names done left : List Bytes}
  {visits : List Visit}

theorem IsRun.processed (h : IsRun t mode dir names done left visits) :
    (convertIn t mode dir).processed = done.map (Path.join dir) := by
  rw [Run.processed, h.visits_eq]
  exact processed_stopping h.reported _

theorem IsRun.stemsFor_done (h : IsRun t mode dir names done left visits) (loc : Location) :
    stemsFor t (done.map (Path.join dir)) loc = stemsAt t dir done loc := by
  apply stemsFor_map_join t dir _ loc
  intro name hmem
  exact h.isName name (h.mem_of_done hmem)

/-- A file that a module dealt with leads to holds a text. -/
theorem IsRun.exists_text (h : IsRun t mode dir names done left visits) {loc : Location}
    {content : ByteArray} (hget : t.get? loc = some (.file content))
    (hstems : stemsAt t dir done loc ≠ []) : ∃ text : String, content = text.toUTF8 := by
  rw [stemsAt, ne_eq, List.map_eq_nil_iff] at hstems
  obtain ⟨name, hname⟩ := List.exists_mem_of_ne_nil _ hstems
  obtain ⟨hmem, hreaches⟩ := List.mem_filter.mp hname
  have hleads : t.LeadsTo (Path.join dir name) loc content := ⟨reaches_iff.mp hreaches, hget⟩
  have htext := h.holdsText name hmem
  rw [hleads.holdsText_eq] at htext
  obtain ⟨text, hcontent⟩ := Option.isSome_iff_exists.mp htext
  exact ⟨text, eq_toUTF8_of_fromUTF8? hcontent⟩

theorem IsRun.get?_tree (h : IsRun t .write dir names done left visits) (loc : Location) :
    (convertIn t .write dir).tree.get? loc =
      (t.get? loc).map (Entry.mapContent (moveContent (stemsAt t dir done loc))) := by
  rw [Rewritten.get? h.tree loc, h.stemsFor_done]
  rfl

theorem IsRun.visit_of_cons {name : Bytes}
    (h : IsRun t mode dir names done (name :: left) visits) :
    visitModule (convertIn t mode dir).tree mode (Path.join dir name) =
      ((convertIn t mode dir).tree, notTextVisit (Path.join dir name)) := by
  apply visitModule_of_holdsText_eq_false mode
  · rw [h.tree.isModule_eq]
    exact h.isModule name h.mem_of_cons
  · rw [h.tree.holdsText_eq]
    exact h.head_left name rfl

end IsRun

/-- The tree after a run that writes, whether it reached the last module or failed before. -/
theorem convertIn_write_contents (t : FileTree) (dir : Bytes)
    (hdir : t.isDirectory dir = true) :
    let run := convertIn t .write dir
    ∃ names done left : List Bytes,
      modulesIn t dir = .ok (names.map (Path.join dir)) ∧ names.Pairwise (· < ·) ∧
        names = done ++ left ∧ run.processed = done.map (Path.join dir) ∧
          (left = [] ∧ (∃ summary, run.result = .ok summary) ∨
            ∃ name rest failure, left = name :: rest ∧
              (visitModule run.tree .write (Path.join dir name)).2.outcome = .error failure ∧
                run.result = .error failure) ∧
            (∀ loc content, t.get? loc = some (.file content) →
              let stems := stemsAt t dir done loc
              (stems = [] → run.tree.get? loc = some (.file content)) ∧
                (stems ≠ [] → ∃ text : String, content = text.toUTF8 ∧
                  run.tree.get? loc =
                    some (.file (String.ofList (moveAll text.toList stems)).toUTF8))) ∧
              (∀ loc, (∀ content, t.get? loc ≠ some (.file content)) →
                run.tree.get? loc = t.get? loc) ∧
                run.tree.workDir = t.workDir := by
  intro run
  obtain ⟨names, done, left, visits, h⟩ := exists_isRun .write hdir
  refine ⟨names, done, left, h.modulesIn, h.pairwise, h.names_eq, h.processed, ?_, ?_, ?_,
    Rewritten.workDir h.tree⟩
  · cases left with
    | nil => exact Or.inl ⟨rfl, _, h.result_of_nil⟩
    | cons name rest =>
        refine Or.inr ⟨name, rest, .reading (Path.join dir name) .notText, rfl, ?_,
          h.result_of_cons⟩
        rw [h.visit_of_cons]
        rfl
  · intro loc content hget stems
    have hafter : run.tree.get? loc = some (.file (moveContent stems content)) := by
      rw [h.get?_tree, hget]
      rfl
    refine ⟨?_, ?_⟩
    · intro hnil
      rw [hafter, hnil, moveContent_nil]
    · intro hne
      obtain ⟨text, rfl⟩ := h.exists_text hget hne
      exact ⟨text, rfl, by rw [hafter, moveContent_toUTF8]⟩
  · intro loc hnone
    rw [h.get?_tree]
    cases hget : t.get? loc with
    | none => rfl
    | some entry =>
        cases entry with
        | directory => rfl
        | link target => rfl
        | file content => exact absurd hget (hnone content)

/-- A directory with a module, a link to it, and a module that holds no text. -/
def linkedModules : FileTree where
  entries :=
    [([⟨"m", by decide⟩], .directory),
      ([⟨"a.nix", by decide⟩, ⟨"m", by decide⟩],
        .file "\x7b \x7d:\n\x7b\n  config = a;\n  config = b;\n\x7d\n".toUTF8),
      ([⟨"b.nix", by decide⟩, ⟨"m", by decide⟩], .link "a.nix"),
      ([⟨"c.nix", by decide⟩, ⟨"m", by decide⟩], .file ⟨#[0xff]⟩)]
  workDir := []
  distinct := by decide
  rooted := by decide
  workDir_eq := rfl

/-- A directory with a module that has one eligible line, and a link to it. -/
def linkedModule : FileTree where
  entries :=
    [([⟨"m", by decide⟩], .directory),
      ([⟨"a.nix", by decide⟩, ⟨"m", by decide⟩],
        .file "\x7b \x7d:\n\x7b\n  config = a;\n\x7d\n".toUTF8),
      ([⟨"b.nix", by decide⟩, ⟨"m", by decide⟩], .link "a.nix")]
  workDir := []
  distinct := by decide
  rooted := by decide
  workDir_eq := rfl

theorem modulesIn_linkedModules :
    modulesIn linkedModules "m" = .ok ["m/a.nix", "m/b.nix", "m/c.nix"] := by
  have hlist : linkedModules.list "m" = .ok ["a.nix", "b.nix", "c.nix"] := by rfl
  have hfilter : ((["a.nix", "b.nix", "c.nix"] : List Bytes).map (Path.join "m")).filter
      (isModule linkedModules) = ["m/a.nix", "m/b.nix", "m/c.nix"] := by decide
  exact modulesIn_of_pairwise hlist hfilter (by decide)

theorem convertIn_write_contents_linkedModules :
    linkedModules.isDirectory "m" = true ∧
      let run := convertIn linkedModules .write "m"
      run.processed = (["m/a.nix", "m/b.nix"] : List Bytes) ∧
        run.tree.get? [⟨"a.nix", by decide⟩, ⟨"m", by decide⟩] =
          some (.file ("\x7b \x7d:\n\x7b\n  config.snapshot.a = a;\n" ++
            "  config.snapshot.b = b;\n\x7d\n").toUTF8) ∧
          run.tree.get? [⟨"b.nix", by decide⟩, ⟨"m", by decide⟩] = some (.link "a.nix") ∧
            run.tree.get? [⟨"c.nix", by decide⟩, ⟨"m", by decide⟩] =
              some (.file ⟨#[0xff]⟩) := by
  have hdir : linkedModules.isDirectory "m" = true := by decide
  have hrun : (convertIn linkedModules .write "m").processed =
      (["m/a.nix", "m/b.nix"] : List Bytes) := by
    simp only [convertIn, hdir, modulesIn_linkedModules, if_true]
    decide
  obtain ⟨names, done, left, -, -, -, hprocessed, -, hfiles, hothers, -⟩ :=
    convertIn_write_contents linkedModules "m" hdir
  obtain rfl : done = (["a.nix", "b.nix"] : List Bytes) := by
    apply (Path.join_injective "m").list_map
    exact hprocessed.symm.trans hrun
  refine ⟨hdir, hrun, ?_, ?_, ?_⟩
  · have hstems : stemsAt linkedModules "m" ["a.nix", "b.nix"]
        [⟨"a.nix", by decide⟩, ⟨"m", by decide⟩] = ["a".toList, "b".toList] := by decide
    have hmove : moveAll "\x7b \x7d:\n\x7b\n  config = a;\n  config = b;\n\x7d\n".toList
        ["a".toList, "b".toList] = ("\x7b \x7d:\n\x7b\n  config.snapshot.a = a;\n" ++
          "  config.snapshot.b = b;\n\x7d\n").toList := by decide
    have hfile := hfiles [⟨"a.nix", by decide⟩, ⟨"m", by decide⟩] _ rfl
    rw [hstems] at hfile
    obtain ⟨text, htext, hmoved⟩ := hfile.2 (List.cons_ne_nil _ _)
    rw [hmoved, ← String.toByteArray_inj.mp htext, hmove, String.ofList_toList]
  · exact hothers [⟨"b.nix", by decide⟩, ⟨"m", by decide⟩] (fun _ h ↦ by cases h)
  · exact (hfiles [⟨"c.nix", by decide⟩, ⟨"m", by decide⟩] ⟨#[0xff]⟩ rfl).1 (by decide)

end Conversion
end ConfigSnapshot
