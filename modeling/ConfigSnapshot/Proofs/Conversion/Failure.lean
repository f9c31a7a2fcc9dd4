import ConfigSnapshot.Proofs.Conversion.Run

/-!
# When a run fails

A run on a path that leads to no directory fails at once. Any other run fails if and only if the
tree it starts on has a module that holds no text, and then at the first such module.
-/

namespace ConfigSnapshot
namespace Conversion

open FileTree

/-- The path leads to a file whose content is not the UTF-8 form of a text. -/
def HoldsNoText (t : FileTree) (path : Bytes) : Prop :=
  ∃ loc content, t.LeadsTo path loc content ∧ ¬ content.IsValidUTF8

theorem holdsNoText_iff {t : FileTree} {path : Bytes} (h : isModule t path = true) :
    HoldsNoText t path ↔ t.holdsText path = false := by
  obtain ⟨name, loc, content, -, hleads⟩ := exists_of_isModule h
  rw [hleads.holdsText_eq, ← Bool.not_eq_true, isSome_fromUTF8?_iff]
  constructor
  · rintro ⟨l, c, hother, hnot⟩
    obtain ⟨rfl, rfl⟩ := hleads.unique hother
    exact hnot
  · intro hnot
    exact ⟨loc, content, hleads, hnot⟩

section IsRun

variable {t : FileTree} {mode : Mode} {dir name : Bytes} {names done left : List Bytes}
  {visits : List Visit}

theorem IsRun.not_holdsNoText (h : IsRun t mode dir names done left visits)
    (hmem : name ∈ done) : ¬ HoldsNoText t (Path.join dir name) := by
  rw [holdsNoText_iff (h.isModule name (h.mem_of_done hmem)), h.holdsText name hmem]
  exact Bool.true_eq_false.mp

theorem IsRun.holdsNoText_of_cons (h : IsRun t mode dir names done (name :: left) visits) :
    HoldsNoText t (Path.join dir name) := by
  rw [holdsNoText_iff (h.isModule name h.mem_of_cons)]
  exact h.head_left name rfl

/-- The names behind the first one that is left are later in order. -/
theorem IsRun.lt_of_cons (h : IsRun t mode dir names done (name :: left) visits)
    {other : Bytes} (hother : other ∈ left) : name < other := by
  have hpairwise := h.pairwise
  rw [h.names_eq, List.pairwise_append] at hpairwise
  obtain ⟨-, hleft, -⟩ := hpairwise
  exact List.rel_of_pairwise_cons hleft hother

theorem IsRun.first_of_cons (h : IsRun t mode dir names done (name :: left) visits)
    {other : Bytes} (hother : other ∈ names) (hnot : HoldsNoText t (Path.join dir other)) :
    other = name ∨ name < other := by
  rw [h.names_eq, List.mem_append, List.mem_cons] at hother
  rcases hother with hdone | rfl | hleft
  · exact absurd hnot (h.not_holdsNoText hdone)
  · exact Or.inl rfl
  · exact Or.inr (h.lt_of_cons hleft)

/-- The file that ends a run keeps its bytes, whatever was moved before. -/
theorem IsRun.get?_of_cons (h : IsRun t mode dir names done (name :: left) visits)
    {loc : Location} (hloc : t.locate (Path.join dir name) = .ok loc) :
    (convertIn t mode dir).tree.get? loc = t.get? loc := by
  obtain ⟨l, content, hleads, hnot⟩ := h.holdsNoText_of_cons
  obtain rfl := Except.ok.inj (hleads.locate.symm.trans hloc)
  exact h.tree.get?_of_not_text hleads.get? hnot

theorem IsRun.result_of_nil (h : IsRun t mode dir names done [] visits) :
    (convertIn t mode dir).result =
      .ok ⟨(visits.map Visit.moves).count true, (visits.map Visit.moves).count false⟩ := by
  rw [h.result, ← summarize_of_reported h.reported]
  exact congrArg summarize (List.append_nil visits)

theorem IsRun.result_of_cons (h : IsRun t mode dir names done (name :: left) visits) :
    (convertIn t mode dir).result = .error (.reading (Path.join dir name) .notText) := by
  rw [h.result]
  exact summarize_stopping h.reported _ _

theorem IsRun.length_moves (h : IsRun t mode dir names done left visits) :
    (visits.map Visit.moves).length = (done.map (Path.join dir)).length := by
  rw [List.length_map, h.reported.length_eq]

theorem IsRun.reports (h : IsRun t mode dir names done left visits) :
    (convertIn t mode dir).reports =
      List.zipWith (fun moves path ↦ ⟨mode.verdict moves, path⟩) (visits.map Visit.moves)
        (done.map (Path.join dir)) := by
  rw [Run.reports, h.visits_eq]
  exact reports_stopping h.reported _

theorem IsRun.map_path_reports (h : IsRun t mode dir names done left visits) :
    (convertIn t mode dir).reports.map Report.path = done.map (Path.join dir) := by
  rw [h.reports, ← List.map_uncurry_zip_eq_zipWith, List.map_map]
  exact List.map_snd_zip (Nat.le_of_eq h.length_moves.symm)

theorem IsRun.map_verdict_reports (h : IsRun t mode dir names done left visits) :
    (convertIn t mode dir).reports.map Report.verdict =
      (visits.map Visit.moves).map mode.verdict := by
  have hmoves := List.map_fst_zip (Nat.le_of_eq h.length_moves)
  rw [h.reports, ← List.map_uncurry_zip_eq_zipWith, List.map_map, ← hmoves, List.map_map, hmoves]
  rfl

/-- A run prints one line for each module before the one at which it stops. -/
theorem IsRun.output (h : IsRun t mode dir names done left visits) :
    (convertIn t mode dir).output =
      String.join (List.zipWith (reportText mode) (visits.map Visit.moves)
        (done.map (Path.join dir))) := by
  rw [Run.output, h.visits_eq]
  exact output_stopping h.reported _

end IsRun

theorem convertIn_of_isDirectory_eq_false {t : FileTree} {dir : Bytes}
    (h : t.isDirectory dir = false) (mode : Mode) :
    convertIn t mode dir = ⟨t, [], .error (.notADirectory dir)⟩ := by
  rw [convertIn, if_neg (by simp [h])]

/-- What makes a run on a path fail. -/
inductive FailsBy (t : FileTree) (dir : Bytes) : Failure → Prop
  | notADirectory (h : t.isDirectory dir = false) : FailsBy t dir (.notADirectory dir)
  | notText {modules : List Bytes} {path : Bytes} (modulesIn : modulesIn t dir = .ok modules)
      (mem : path ∈ modules) (holdsNoText : HoldsNoText t path) :
      FailsBy t dir (.reading path .notText)

/-- No run fails by anything else, as each module that is listed has a name and can be written. -/
theorem failsBy_of_result {t : FileTree} {mode : Mode} {dir : Bytes} {failure : Failure}
    (h : (convertIn t mode dir).result = .error failure) : FailsBy t dir failure := by
  cases hdir : t.isDirectory dir with
  | false =>
      rw [convertIn_of_isDirectory_eq_false hdir] at h
      obtain rfl := Except.error.inj h
      exact .notADirectory hdir
  | true =>
      obtain ⟨names, done, left, visits, hrun⟩ := exists_isRun mode hdir
      cases left with
      | nil =>
          rw [hrun.result_of_nil] at h
          cases h
      | cons name rest =>
          rw [hrun.result_of_cons] at h
          obtain rfl := Except.error.inj h
          exact .notText hrun.modulesIn (List.mem_map_of_mem hrun.mem_of_cons)
            hrun.holdsNoText_of_cons

theorem exists_result_of_failsBy {t : FileTree} {dir : Bytes} {failure : Failure}
    (mode : Mode) (h : FailsBy t dir failure) :
    ∃ failure, (convertIn t mode dir).result = .error failure := by
  cases hdir : t.isDirectory dir with
  | false => exact ⟨_, by rw [convertIn_of_isDirectory_eq_false hdir]⟩
  | true =>
      cases h with
      | notADirectory hno =>
          rw [hdir] at hno
          cases hno
      | @notText modules path hmodules hmem hnot =>
          obtain ⟨names, done, left, visits, hrun⟩ := exists_isRun mode hdir
          cases left with
          | cons name rest => exact ⟨_, hrun.result_of_cons⟩
          | nil =>
              obtain rfl := Except.ok.inj (hrun.modulesIn.symm.trans hmodules)
              obtain ⟨name, hname, rfl⟩ := List.mem_map.mp hmem
              rw [hrun.names_eq, List.append_nil] at hname
              exact absurd hnot (hrun.not_holdsNoText hname)

theorem exists_failsBy_iff {t : FileTree} {dir : Bytes} :
    (∃ failure, FailsBy t dir failure) ↔ t.isDirectory dir = false ∨
      ∃ modules, modulesIn t dir = .ok modules ∧ ∃ path ∈ modules, HoldsNoText t path := by
  constructor
  · rintro ⟨failure, hno | ⟨hmodules, hmem, hnot⟩⟩
    · exact Or.inl hno
    · exact Or.inr ⟨_, hmodules, _, hmem, hnot⟩
  · rintro (hno | ⟨modules, hmodules, path, hmem, hnot⟩)
    · exact ⟨_, .notADirectory hno⟩
    · exact ⟨_, .notText hmodules hmem hnot⟩

/-- Whether a run fails, where and with what is settled by the tree it starts on. -/
theorem convertIn_fails_at_first (t : FileTree) (mode : Mode) (dir : Bytes) :
    let run := convertIn t mode dir
    (t.isDirectory dir = false →
      run.result = .error (.notADirectory dir) ∧ run.visits = [] ∧ run.output = "" ∧
        run.tree = t) ∧
      (t.isDirectory dir = true →
        ∃ names : List Bytes, modulesIn t dir = .ok (names.map (Path.join dir)) ∧
          names.Pairwise (· < ·) ∧
            ((∃ failure, run.result = .error failure) ↔
              ∃ name ∈ names, HoldsNoText t (Path.join dir name)) ∧
              ∀ failure, run.result = .error failure →
                ∃ before name after moved, names = before ++ name :: after ∧
                  HoldsNoText t (Path.join dir name) ∧
                  (∀ other ∈ names, HoldsNoText t (Path.join dir other) →
                    other = name ∨ name < other) ∧
                  failure = .reading (Path.join dir name) .notText ∧
                  failure.headline = "reading module file " ++ (Path.join dir name).display ∧
                  failure.cause?.map Fault.message = some "stream did not contain valid UTF-8" ∧
                  moved.length = before.length ∧
                  run.output = String.join
                    (List.zipWith (reportText mode) moved (before.map (Path.join dir))) ∧
                  ∀ loc, t.locate (Path.join dir name) = .ok loc →
                    run.tree.get? loc = t.get? loc) := by
  intro run
  refine ⟨?_, ?_⟩
  · intro hdir
    have hrun : run = ⟨t, [], .error (.notADirectory dir)⟩ :=
      convertIn_of_isDirectory_eq_false hdir mode
    rw [hrun]
    exact ⟨rfl, rfl, rfl, rfl⟩
  · intro hdir
    obtain ⟨names, done, left, visits, h⟩ := exists_isRun mode hdir
    refine ⟨names, h.modulesIn, h.pairwise, ?_⟩
    cases left with
    | nil =>
        have hok : ∀ failure, run.result ≠ .error failure := by
          intro failure hfailure
          rw [h.result_of_nil] at hfailure
          cases hfailure
        refine ⟨⟨?_, ?_⟩, fun failure hfailure ↦ absurd hfailure (hok failure)⟩
        · rintro ⟨failure, hfailure⟩
          exact absurd hfailure (hok failure)
        · rintro ⟨name, hmem, hnot⟩
          rw [h.names_eq, List.append_nil] at hmem
          exact absurd hnot (h.not_holdsNoText hmem)
    | cons name after =>
        have hname := h.holdsNoText_of_cons
        refine ⟨⟨fun _ ↦ ⟨name, h.mem_of_cons, hname⟩, fun _ ↦ ⟨_, h.result_of_cons⟩⟩, ?_⟩
        intro failure hfailure
        rw [h.result_of_cons] at hfailure
        obtain rfl := Except.error.inj hfailure
        exact ⟨done, name, after, _, h.names_eq, hname,
          fun other hother hnot ↦ h.first_of_cons hother hnot, rfl, rfl, rfl,
          by rw [h.length_moves, List.length_map], h.output, fun loc hloc ↦ h.get?_of_cons hloc⟩

end Conversion
end ConfigSnapshot
