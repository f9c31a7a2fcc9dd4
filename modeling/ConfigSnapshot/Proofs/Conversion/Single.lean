import ConfigSnapshot.Proofs.Conversion.Contents
import ConfigSnapshot.Proofs.FileTree.Named
import ConfigSnapshot.Proofs.NixModule.Growth
import ConfigSnapshot.Proofs.Path.Last

/-!
# One module by its path

A path that leads to a text ends in a name, so a visit that gets past reading knows the stem to
move under. It is the stem of the path's own name, also where links lead on from there, and all
that can change is the content of the file at the end.
-/

namespace ConfigSnapshot
namespace Conversion

open Text NixModule FileTree

section Visit

variable {t : FileTree} {path name : Bytes} {text : String} {loc : Location}

theorem exists_visitModule_of_no_text (mode : Mode)
    (h : ∀ loc content, t.LeadsTo path loc content → ¬ content.IsValidUTF8) :
    ∃ fault, visitModule t mode path = (t, ⟨path, [], none, .error (.reading path fault)⟩) := by
  cases hread : t.readText path with
  | error fault => exact ⟨fault, by simp only [visitModule, hread]⟩
  | ok text =>
      obtain ⟨loc, hleads⟩ := exists_leadsTo_of_readText hread
      exact absurd text.isValidUTF8 (h loc _ hleads)

theorem exists_name_of_leadsTo {content : ByteArray} (h : t.LeadsTo path loc content) :
    ∃ front name : Bytes, path = front ++ name ∧
      (front = [] ∨ Path.endsInSeparator front = true) ∧ IsName name ∧
        Path.fileName? path = some name := by
  obtain ⟨front, name, hpath, hfront, -, hlast⟩ := Path.exists_getLast?_segments path
  have hleaf : t.get? loc ≠ some .directory := by simp [h.get?]
  have hname := isName_of_locate h.locate hleaf hlast
  exact ⟨front, name, hpath, hfront, hname, Path.fileName?_of_getLast?_segments hlast hname⟩

/-- What a visit of a text leaves: the tree as it was, or the moved text in the file. -/
theorem visitModule_tree_cases (mode : Mode) (h : t.LeadsTo path loc text.toUTF8)
    (hname : Path.fileName? path = some name) :
    let moved := moveConfig text.toList (snapshotKey path)
    (¬ (mode = .write ∧ ∃ u, moved = some u) ∧ (visitModule t mode path).1 = t) ∨
      ∃ u, mode = .write ∧ moved = some u ∧
        (visitModule t mode path).1 = t.setContent loc (String.ofList u).toUTF8 := by
  intro moved
  cases mode with
  | dryRun => exact Or.inl ⟨by simp, visitModule_dryRun_tree t path⟩
  | write =>
      cases hmove : moveConfig text.toList (snapshotKey path) with
      | none =>
          refine Or.inl ⟨?_, by rw [visitModule_of_none .write h hname hmove]⟩
          rintro ⟨-, u, hu⟩
          rw [show moved = none from hmove] at hu
          cases hu
      | some u =>
          exact Or.inr ⟨u, rfl, hmove, by rw [visitModule_write_of_some h hname hmove]⟩

theorem visitModule_changes_one_file (mode : Mode) (h : t.LeadsTo path loc text.toUTF8)
    (hname : Path.fileName? path = some name) :
    let after := (visitModule t mode path).1
    let moved := moveConfig text.toList (snapshotKey path)
    (after ≠ t ↔ mode = .write ∧ ∃ u, moved = some u) ∧
      (∀ u, mode = .write → moved = some u →
        after.get? loc = some (.file (String.ofList u).toUTF8)) ∧
      (∀ l, l ≠ loc → after.get? l = t.get? l) ∧
      ∀ final p, after.resolve final p = t.resolve final p := by
  intro after moved
  rcases visitModule_tree_cases mode h hname with ⟨hnot, hkept⟩ | ⟨u, hmode, hu, hset⟩
  · rw [show after = t from hkept]
    refine ⟨iff_of_false (fun hne ↦ hne rfl) hnot, ?_, fun _ _ ↦ rfl, fun _ _ ↦ rfl⟩
    intro u hmode hu
    exact absurd ⟨hmode, u, hu⟩ hnot
  · rw [show after = t.setContent loc (String.ofList u).toUTF8 from hset]
    have hne : (String.ofList u).toUTF8 ≠ text.toUTF8 := by
      intro heq
      apply ne_of_moveConfig hu
      rw [← String.toByteArray_inj.mp heq, String.toList_ofList]
    refine ⟨iff_of_true (setContent_ne_self h.get? hne) ⟨hmode, u, hu⟩, ?_, ?_, ?_⟩
    · intro w _ hw
      obtain rfl := Option.some.inj (hu.symm.trans hw)
      exact get?_setContent_self h.get?
    · intro l hl
      exact get?_setContent_of_ne hl
    · exact (rewritten_setContent t loc _).resolve_eq

/-- What a visit does to the one file that its path leads to, and that it does nothing else. -/
theorem visitModule_by_path (t : FileTree) (mode : Mode) (path : Bytes) :
    let after := (visitModule t mode path).1
    let visit := (visitModule t mode path).2
    ((∀ loc content, t.LeadsTo path loc content → ¬ content.IsValidUTF8) →
        after = t ∧ visit.report? = none ∧ visit.output = "" ∧
          ∃ failure fault, visit.outcome = .error failure ∧ failure = .reading path fault ∧
            failure.headline = "reading module file " ++ path.display) ∧
      (∀ loc content, t.LeadsTo path loc content → content.IsValidUTF8 →
        ∃ (front name : Bytes) (text : String), path = front ++ name ∧
          (front = [] ∨ Path.endsInSeparator front = true) ∧
          Path.separator ∉ name ∧ name ≠ [] ∧ name ≠ "." ∧ name ≠ ".." ∧
          Path.fileName? path = some name ∧ content = text.toUTF8 ∧
          let moved := moveConfig text.toList (Path.stem name).toText
          visit.report? = some ⟨mode.verdict moved.isSome, path⟩ ∧
            visit.output = reportText mode moved.isSome path ∧
            (visit.outcome = .ok .converted ∧ (∃ u, moved = some u) ∨
              visit.outcome = .ok .unchanged ∧ moved = none) ∧
            (after ≠ t ↔ mode = .write ∧ ∃ u, moved = some u) ∧
            (∀ u, mode = .write → moved = some u →
              after.get? loc = some (.file (String.ofList u).toUTF8)) ∧
            (∀ l, l ≠ loc → after.get? l = t.get? l) ∧
            ∀ l target, t.resolve .keep path = .ok (.present l) →
              t.get? l = some (.link target) →
                after.resolve .keep path = .ok (.present l) ∧
                  after.get? l = some (.link target)) ∧
      ∀ p, visit.outcome ≠ .error (.unnamed p) := by
  intro after visit
  rcases exists_leadsTo_text_or t path with ⟨loc, text, hleads⟩ | hno
  · obtain ⟨front, name, hpath, hfront, hname, hfile⟩ := exists_name_of_leadsTo hleads
    obtain ⟨hvisit, -⟩ := visitModule_of_text mode hleads hfile
    rw [snapshotKey_of_fileName? hfile] at hvisit
    refine ⟨fun hno ↦ absurd text.isValidUTF8 (hno loc _ hleads), ?_, ?_⟩
    · intro loc' content' hleads' _
      obtain ⟨rfl, rfl⟩ := hleads.unique hleads'
      refine ⟨front, name, text, hpath, hfront, hname.2.2.1, ?_, ?_, ?_, hfile, rfl, ?_⟩
      · rintro rfl
        exact absurd hname.1 (by decide)
      · rintro rfl
        exact absurd hname.1 (by decide)
      · rintro rfl
        exact absurd hname.2.1 (by decide)
      · intro moved
        obtain ⟨hchanged, hmoved, hothers, hresolve⟩ :=
          visitModule_changes_one_file mode hleads hfile
        rw [snapshotKey_of_fileName? hfile] at hchanged hmoved
        rw [show visit = _ from hvisit]
        refine ⟨rfl, line_eq_reportText mode moved.isSome path, ?_, hchanged, hmoved, hothers, ?_⟩
        · cases hmove : moveConfig text.toList (Path.stem name).toText with
          | none => exact Or.inr ⟨rfl, hmove⟩
          | some u => exact Or.inl ⟨rfl, u, hmove⟩
        · intro l target hl hlink
          have hne : l ≠ loc := by
            rintro rfl
            rw [hleads.get?] at hlink
            cases hlink
          exact ⟨(hresolve .keep path).trans hl, (hothers l hne).trans hlink⟩
    · intro p
      rw [show visit = _ from hvisit]
      nofun
  · obtain ⟨fault, hvisit⟩ := exists_visitModule_of_no_text mode hno
    refine ⟨fun _ ↦ ?_, fun loc content hleads hvalid ↦ absurd hvalid (hno loc content hleads), ?_⟩
    · rw [show after = _ from congrArg Prod.fst hvisit,
        show visit = _ from congrArg Prod.snd hvisit]
      exact ⟨rfl, rfl, rfl, _, fault, rfl, rfl, rfl⟩
    · intro p
      rw [show visit = _ from congrArg Prod.snd hvisit]
      nofun

end Visit

/-- A module that is reached through a link is moved under the name of the link, which stays. -/
theorem visitModule_by_path_linkedModules :
    let after := (visitModule linkedModules .write "m/b.nix").1
    (visitModule linkedModules .write "m/b.nix").2.output = "Converted m/b.nix\n" ∧
      after.get? [⟨"b.nix", by decide⟩, ⟨"m", by decide⟩] = some (.link "a.nix") ∧
      after.get? [⟨"a.nix", by decide⟩, ⟨"m", by decide⟩] =
        some (.file ("\x7b \x7d:\n\x7b\n  config.snapshot.b = a;\n" ++
          "  config = b;\n\x7d\n").toUTF8) := by
  obtain ⟨-, hread, -⟩ := visitModule_by_path linkedModules .write "m/b.nix"
  have hleads : linkedModules.LeadsTo "m/b.nix" [⟨"a.nix", by decide⟩, ⟨"m", by decide⟩]
      "\x7b \x7d:\n\x7b\n  config = a;\n  config = b;\n\x7d\n".toUTF8 :=
    ⟨by decide, rfl⟩
  obtain ⟨front, name, text, -, -, -, -, -, -, hname, htext, -, houtput, -, -, hmoved, -, hlink⟩ :=
    hread _ _ hleads (String.isValidUTF8 _)
  obtain rfl : name = "b.nix" := Option.some.inj (hname.symm.trans (by decide))
  obtain rfl := String.toByteArray_inj.mp htext
  refine ⟨houtput.trans (by decide), (hlink _ "a.nix" (by decide) rfl).2, ?_⟩
  have hafter := hmoved ("\x7b \x7d:\n\x7b\n  config.snapshot.b = a;\n" ++
    "  config = b;\n\x7d\n").toList rfl (by decide)
  rwa [String.ofList_toList] at hafter

end Conversion
end ConfigSnapshot
