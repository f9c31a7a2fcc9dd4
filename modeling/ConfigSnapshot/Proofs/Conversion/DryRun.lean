import ConfigSnapshot.Proofs.Conversion.Verdicts

/-!
# What a dry run foretells

A dry run changes nothing, stops where a run that writes would stop, and names every module that
this one would convert. It also names modules that would be left unchanged, where several paths
lead to one file: each of them is judged by the file as it is, while a run that writes has used
up an eligible line for each of them.
-/

namespace ConfigSnapshot
namespace Conversion

open Text NixModule FileTree

/-- The verdict of a dry run for the verdict of a run that writes. -/
def Verdict.foretold : Verdict → Verdict
  | .converted => .wouldConvert
  | verdict => verdict

def Report.foretold (report : Report) : Report :=
  ⟨report.verdict.foretold, report.path⟩

/-- The first run has the result of the second, and its reports but for the wording. -/
def Foretells (dry real : Run) : Prop :=
  dry.result = real.result ∧ dry.reports = real.reports.map Report.foretold

theorem foretold_write (moves : Bool) :
    (Mode.write.verdict moves).foretold = Mode.dryRun.verdict moves := by
  cases moves <;> rfl

theorem verdict_injective (mode : Mode) : Function.Injective mode.verdict := by
  intro moves moves' h
  cases mode <;> cases moves <;> cases moves' <;> first | rfl | cases h

section Reports

variable {t : FileTree} {paths : List Bytes}

theorem findsTarget_dryRun_of_write {path : Bytes} {loc : Location} {content : ByteArray}
    {before : List Bytes} (h : t.LeadsTo path loc content)
    (hwrite : findsTarget .write t before path = true) :
    findsTarget .dryRun t before path = true := by
  rw [findsTarget_dryRun h]
  rw [findsTarget_of_leadsTo h] at hwrite
  cases hnil : contentTargets content with
  | cons i later => rfl
  | nil =>
      rw [contentTargets_moveContent_of_eq_nil hnil] at hwrite
      exact absurd hwrite Bool.false_ne_true

theorem foretold_mem_reportsOn (h : ∀ path ∈ paths, isModule t path = true) {report : Report}
    (hmem : report ∈ reportsOn .write t paths) (hconverted : report.verdict = .converted) :
    report.foretold ∈ reportsOn .dryRun t paths := by
  obtain ⟨k, hk, rfl⟩ := List.mem_mapIdx.mp hmem
  obtain ⟨_, loc, content, -, hleads⟩ := exists_of_isModule (h _ (List.getElem_mem hk))
  have hwrite : findsTarget .write t (paths.take k) paths[k] = true := by
    cases hfinds : findsTarget .write t (paths.take k) paths[k] with
    | true => rfl
    | false =>
        rw [hfinds] at hconverted
        cases hconverted
  have hdry := findsTarget_dryRun_of_write hleads hwrite
  refine List.mem_mapIdx.mpr ⟨k, hk, ?_⟩
  rw [hdry, hwrite]
  rfl

theorem length_stemsFor (loc : Location) :
    (stemsFor t paths loc).length = paths.countP (t.reaches loc) := by
  rw [stemsFor, List.length_map, List.countP_eq_length_filter]

theorem countP_take_lt {loc : Location} {k : Nat} (hk : k < paths.length)
    (h : t.reaches loc paths[k] = true) :
    (paths.take k).countP (t.reaches loc) < paths.countP (t.reaches loc) := by
  have hsplit : paths = paths.take k ++ paths[k] :: paths.drop (k + 1) := by
    rw [List.getElem_cons_drop, List.take_append_drop]
  have hcount := congrArg (List.countP (t.reaches loc)) hsplit
  rw [List.countP_append, List.countP_cons_of_pos h] at hcount
  omega

/-- Paths that lead to different files are judged alike in both modes. -/
theorem findsTarget_eq_of_countP_le_one (h : ∀ loc, paths.countP (t.reaches loc) ≤ 1)
    (hmodules : ∀ path ∈ paths, isModule t path = true) (k : Nat) (hk : k < paths.length) :
    findsTarget .dryRun t (paths.take k) paths[k] =
      findsTarget .write t (paths.take k) paths[k] := by
  obtain ⟨_, loc, content, -, hleads⟩ := exists_of_isModule (hmodules _ (List.getElem_mem hk))
  have hlt := countP_take_lt hk (reaches_iff.mpr hleads.locate)
  have hone := h loc
  have hnone : stemsFor t (paths.take k) loc = [] := by
    rw [← List.length_eq_zero_iff, length_stemsFor]
    omega
  rw [findsTarget_dryRun hleads, findsTarget_of_leadsTo hleads, hnone, Mode.moves,
    moveContent_nil]

theorem findsTarget_eq_iff {path : Bytes} {loc : Location} {content : ByteArray}
    {before : List Bytes} (h : t.LeadsTo path loc content)
    (hbefore : ∀ p ∈ before, '\n' ∉ snapshotKey p) :
    findsTarget .dryRun t before path = findsTarget .write t before path ↔
      (contentTargets content ≠ [] →
        before.countP (t.reaches loc) < (contentTargets content).length) := by
  have hstems : ∀ s ∈ stemsFor t before loc, '\n' ∉ s := by
    intro s hs
    obtain ⟨p, hp, rfl⟩ := List.mem_map.mp hs
    exact hbefore p (List.mem_of_mem_filter hp)
  rw [findsTarget_dryRun h, findsTarget_of_leadsTo h, Mode.moves,
    contentTargets_moveContent hstems, length_stemsFor]
  cases contentTargets content with
  | nil => simp
  | cons i later =>
      simp only [List.isEmpty_cons, Bool.not_false, ne_eq, reduceCtorEq, not_false_eq_true,
        forall_const, Bool.true_eq, Bool.not_eq_true', List.isEmpty_eq_false_iff,
        List.drop_eq_nil_iff, Nat.not_le]

/-- Two modes agree on all paths if no file is used up before the last path to it. -/
theorem forall_findsTarget_eq_iff (hmodules : ∀ path ∈ paths, isModule t path = true)
    (hpaths : ∀ path ∈ paths, '\n' ∉ snapshotKey path) :
    (∀ k (hk : k < paths.length),
        findsTarget .dryRun t (paths.take k) paths[k] =
          findsTarget .write t (paths.take k) paths[k]) ↔
      ∀ loc content, t.get? loc = some (.file content) → contentTargets content ≠ [] →
        paths.countP (t.reaches loc) ≤ (contentTargets content).length := by
  have hbefore (k : Nat) : ∀ p ∈ paths.take k, '\n' ∉ snapshotKey p :=
    fun p hp ↦ hpaths p (List.mem_of_mem_take hp)
  constructor
  · intro h loc content hget hne
    -- the count over the first `k` paths stays within the bound, by induction on `k`
    have hprefix (k : Nat) (hk : k ≤ paths.length) :
        (paths.take k).countP (t.reaches loc) ≤ (contentTargets content).length := by
      induction k with
      | zero => simp
      | succ k ih =>
          rw [List.take_succ_eq_append_getElem hk, List.countP_append, List.countP_singleton]
          split
          · next hreaches =>
              have hleads : t.LeadsTo paths[k] loc content := ⟨reaches_iff.mp hreaches, hget⟩
              exact (findsTarget_eq_iff hleads (hbefore k)).mp (h k hk) hne
          · exact ih (Nat.le_of_succ_le hk)
    have hall := hprefix paths.length (Nat.le_refl _)
    rwa [List.take_length] at hall
  · intro h k hk
    obtain ⟨_, loc, content, -, hleads⟩ := exists_of_isModule (hmodules _ (List.getElem_mem hk))
    rw [findsTarget_eq_iff hleads (hbefore k)]
    intro hne
    have hlt := countP_take_lt hk (reaches_iff.mpr hleads.locate)
    exact Nat.lt_of_lt_of_le hlt (h loc content hleads.get? hne)

end Reports

section IsRun

variable {t : FileTree} {dir : Bytes} {names done left : List Bytes}
  {visits visits' : List Visit} {mode mode' : Mode}

theorem IsRun.done_eq (h : IsRun t mode dir names done left visits) :
    done = names.takeWhile fun name ↦ t.holdsText (Path.join dir name) := by
  rw [h.names_eq, List.takeWhile_append_of_pos h.holdsText]
  cases left with
  | nil => exact (List.append_nil done).symm
  | cons name rest =>
      rw [List.takeWhile_cons_of_neg (by simp [h.head_left name rfl]), List.append_nil]

/-- How far a run gets does not depend on its mode. -/
theorem exists_isRun_both (hdir : t.isDirectory dir = true) :
    ∃ names done left visits visits', IsRun t .dryRun dir names done left visits ∧
      IsRun t .write dir names done left visits' := by
  obtain ⟨names, done, left, visits, h⟩ := exists_isRun .dryRun hdir
  obtain ⟨names', done', left', visits', h'⟩ := exists_isRun .write hdir
  obtain rfl : names = names' := by
    apply (Path.join_injective dir).list_map
    exact Except.ok.inj (h.modulesIn.symm.trans h'.modulesIn)
  obtain rfl : done = done' := h.done_eq.trans h'.done_eq.symm
  obtain rfl : left = left' := List.append_cancel_left (h.names_eq.symm.trans h'.names_eq)
  exact ⟨names, done, left, visits, visits', h, h'⟩

theorem IsRun.result_eq_error_iff (h : IsRun t mode dir names done left visits)
    (h' : IsRun t mode' dir names done left visits') (failure : Failure) :
    (convertIn t mode dir).result = .error failure ↔
      (convertIn t mode' dir).result = .error failure := by
  cases left with
  | cons name rest => rw [h.result_of_cons, h'.result_of_cons]
  | nil =>
      rw [h.result_of_nil, h'.result_of_nil]
      exact iff_of_false nofun nofun

/-- What the visits have found is told by the tree that the run starts on. -/
theorem IsRun.moves_eq (h : IsRun t mode dir names done left visits)
    (hdir : t.isDirectory dir = true) :
    visits.map Visit.moves = (done.map (Path.join dir)).mapIdx fun k path ↦
      findsTarget mode t ((done.map (Path.join dir)).take k) path := by
  apply (verdict_injective mode).list_map
  rw [← h.map_verdict_reports, h.reports_eq hdir, reportsOn]
  apply List.ext_getElem?
  intro k
  simp only [List.getElem?_map, List.getElem?_mapIdx, Option.map_map]
  rfl

theorem IsRun.foretells_iff (h : IsRun t .dryRun dir names done left visits)
    (h' : IsRun t .write dir names done left visits') :
    Foretells (convertIn t .dryRun dir) (convertIn t .write dir) ↔
      visits.map Visit.moves = visits'.map Visit.moves := by
  constructor
  · rintro ⟨-, hreports⟩
    have hverdicts : (visits.map Visit.moves).map Mode.dryRun.verdict =
        (visits'.map Visit.moves).map Mode.dryRun.verdict := by
      calc
        _ = ((convertIn t .write dir).reports.map Report.foretold).map Report.verdict := by
          rw [← hreports, h.map_verdict_reports]
        _ = ((convertIn t .write dir).reports.map Report.verdict).map Verdict.foretold := by
          rw [List.map_map, List.map_map]
          rfl
        _ = _ := by
          rw [h'.map_verdict_reports, List.map_map]
          exact List.map_congr_left fun moves _ ↦ foretold_write moves
    exact (verdict_injective .dryRun).list_map hverdicts
  · intro hmoves
    constructor
    · cases left with
      | cons name rest => rw [h.result_of_cons, h'.result_of_cons]
      | nil => rw [h.result_of_nil, h'.result_of_nil, hmoves]
    · rw [h.reports, h'.reports, hmoves, List.map_zipWith]
      congr 1
      funext moves path
      exact congrArg (Report.mk · path) (foretold_write moves).symm

end IsRun

/-- What a dry run tells of the run that writes, and when it tells all of it. -/
theorem convertIn_dryRun_foretells (t : FileTree) (dir : Bytes) :
    let dry := convertIn t .dryRun dir
    let real := convertIn t .write dir
    dry.tree = t ∧
      (∀ failure, dry.result = .error failure ↔ real.result = .error failure) ∧
      dry.reports.map Report.path = real.reports.map Report.path ∧
      (∀ report ∈ real.reports, report.verdict = .converted → report.foretold ∈ dry.reports) ∧
      (∃ announced moved : List Bool, announced.length = moved.length ∧
        dry.output = String.join (List.zipWith (reportText .dryRun) announced real.processed) ∧
          real.output = String.join (List.zipWith (reportText .write) moved real.processed) ∧
            (Foretells dry real ↔ announced = moved)) ∧
      ((∀ loc, real.processed.countP (t.reaches loc) ≤ 1) → Foretells dry real) ∧
      ((∀ path ∈ real.processed, '\n' ∉ snapshotKey path) →
        (Foretells dry real ↔
          ∀ loc content, t.get? loc = some (.file content) → contentTargets content ≠ [] →
            real.processed.countP (t.reaches loc) ≤ (contentTargets content).length)) := by
  intro dry real
  refine ⟨convertIn_dryRun_tree t dir, ?_⟩
  cases hdir : t.isDirectory dir with
  | false =>
      have hdry : dry = ⟨t, [], .error (.notADirectory dir)⟩ :=
        convertIn_of_isDirectory_eq_false hdir .dryRun
      have hreal : real = ⟨t, [], .error (.notADirectory dir)⟩ :=
        convertIn_of_isDirectory_eq_false hdir .write
      rw [hdry, hreal]
      have hforetells : Foretells ⟨t, [], .error (.notADirectory dir)⟩
          ⟨t, [], .error (.notADirectory dir)⟩ := ⟨rfl, rfl⟩
      refine ⟨fun failure ↦ Iff.rfl, rfl, ?_, ?_, fun _ ↦ hforetells, fun _ ↦ ?_⟩
      · intro report hmem
        exact absurd hmem List.not_mem_nil
      · exact ⟨[], [], rfl, rfl, rfl, iff_of_true hforetells rfl⟩
      · exact iff_of_true hforetells fun loc content _ _ ↦ Nat.zero_le _
  | true =>
      obtain ⟨names, done, left, visits, visits', h, h'⟩ := exists_isRun_both hdir
      have hprocessed : real.processed = done.map (Path.join dir) := h'.processed
      have hmodules : ∀ path ∈ done.map (Path.join dir), isModule t path = true := by
        intro path hmem
        obtain ⟨name, hname, rfl⟩ := List.mem_map.mp hmem
        exact h'.isModule name (h'.mem_of_done hname)
      have hforetells : Foretells dry real ↔ ∀ k (hk : k < (done.map (Path.join dir)).length),
          findsTarget .dryRun t ((done.map (Path.join dir)).take k) (done.map (Path.join dir))[k] =
            findsTarget .write t ((done.map (Path.join dir)).take k)
              (done.map (Path.join dir))[k] := by
        rw [h.foretells_iff h', h.moves_eq hdir, h'.moves_eq hdir, List.mapIdx_eq_mapIdx_iff]
      rw [hprocessed]
      refine ⟨h.result_eq_error_iff h', ?_, ?_, ?_, ?_, ?_⟩
      · exact h.map_path_reports.trans h'.map_path_reports.symm
      · intro report hmem hconverted
        rw [show real.reports = _ from h'.reports_eq hdir] at hmem
        rw [show dry.reports = _ from h.reports_eq hdir]
        exact foretold_mem_reportsOn hmodules hmem hconverted
      · exact ⟨_, _, h.length_moves.trans h'.length_moves.symm, h.output, h'.output,
          h.foretells_iff h'⟩
      · intro hone
        exact hforetells.mpr (findsTarget_eq_of_countP_le_one hone hmodules)
      · intro hpaths
        rw [hforetells, forall_findsTarget_eq_iff hmodules hpaths]

theorem convertIn_dryRun_foretells_linkedModules :
    (∀ path ∈ (convertIn linkedModules .write "m").processed, '\n' ∉ snapshotKey path) ∧
      ¬ (∀ loc, (convertIn linkedModules .write "m").processed.countP
        (linkedModules.reaches loc) ≤ 1) ∧
      Foretells (convertIn linkedModules .dryRun "m") (convertIn linkedModules .write "m") := by
  have hdir : linkedModules.isDirectory "m" = true := by decide
  have hprocessed : (convertIn linkedModules .write "m").processed =
      (["m/a.nix", "m/b.nix"] : List Bytes) := by
    rw [convertIn_of_modulesIn .write hdir modulesIn_linkedModules]
    decide
  obtain ⟨-, -, -, -, -, -, hiff⟩ := convertIn_dryRun_foretells linkedModules "m"
  rw [hprocessed] at hiff ⊢
  have hkeys : ∀ path ∈ (["m/a.nix", "m/b.nix"] : List Bytes), '\n' ∉ snapshotKey path := by decide
  refine ⟨hkeys, fun hone ↦ ?_, (hiff hkeys).mpr fun loc content hget _ ↦ ?_⟩
  · have htwo := hone [⟨"a.nix", by decide⟩, ⟨"m", by decide⟩]
    exact absurd htwo (by decide)
  · have hlocate : ∀ path ∈ (["m/a.nix", "m/b.nix"] : List Bytes),
        linkedModules.locate path = .ok [⟨"a.nix", by decide⟩, ⟨"m", by decide⟩] := by decide
    by_cases hloc : loc = [⟨"a.nix", by decide⟩, ⟨"m", by decide⟩]
    · subst hloc
      obtain rfl := Entry.file.inj (Option.some.inj hget)
      decide
    · have hnone :
          (["m/a.nix", "m/b.nix"] : List Bytes).countP (linkedModules.reaches loc) = 0 := by
        rw [List.countP_eq_zero]
        intro path hmem hreaches
        rw [reaches_iff, hlocate path hmem] at hreaches
        exact hloc (Except.ok.inj hreaches).symm
      rw [hnone]
      exact Nat.zero_le _

theorem modulesIn_linkedModule : modulesIn linkedModule "m" = .ok ["m/a.nix", "m/b.nix"] := by
  have hlist : linkedModule.list "m" = .ok ["a.nix", "b.nix"] := by rfl
  have hfilter : ((["a.nix", "b.nix"] : List Bytes).map (Path.join "m")).filter
      (isModule linkedModule) = ["m/a.nix", "m/b.nix"] := by decide
  exact modulesIn_of_pairwise hlist hfilter (by decide)

/-- A dry run announces two conversions where a run that writes makes one. -/
theorem not_foretells_linkedModule :
    (convertIn linkedModule .dryRun "m").result = .ok ⟨2, 0⟩ ∧
      (convertIn linkedModule .write "m").result = .ok ⟨1, 1⟩ ∧
      (convertIn linkedModule .dryRun "m").reports =
        [⟨.wouldConvert, "m/a.nix"⟩, ⟨.wouldConvert, "m/b.nix"⟩] ∧
      (convertIn linkedModule .write "m").reports =
        [⟨.converted, "m/a.nix"⟩, ⟨.unchanged, "m/b.nix"⟩] ∧
      ¬ ∀ t dir, Foretells (convertIn t .dryRun dir) (convertIn t .write dir) := by
  have hdir : linkedModule.isDirectory "m" = true := by decide
  have hdry := convertIn_of_modulesIn .dryRun hdir modulesIn_linkedModule
  have hreal := convertIn_of_modulesIn .write hdir modulesIn_linkedModule
  have hdryResult : (convertIn linkedModule .dryRun "m").result = .ok ⟨2, 0⟩ := by
    rw [hdry]
    rfl
  have hrealResult : (convertIn linkedModule .write "m").result = .ok ⟨1, 1⟩ := by
    rw [hreal]
    rfl
  refine ⟨hdryResult, hrealResult, ?_, ?_, fun h ↦ ?_⟩
  · rw [hdry]
    decide
  · rw [hreal]
    decide
  · have hsame := (h linkedModule "m").1
    rw [hdryResult, hrealResult] at hsame
    cases hsame

end Conversion
end ConfigSnapshot
