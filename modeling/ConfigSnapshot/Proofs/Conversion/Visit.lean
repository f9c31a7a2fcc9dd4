import ConfigSnapshot.Conversion.Run
import ConfigSnapshot.Proofs.FileTree.Rewritten
import ConfigSnapshot.Proofs.NixModule.Chain

/-!
# Visiting one module

A visit of a file that holds text gets a report and does not fail. In the tree it moves the
content of that one file, once, under the key of the path. A file that holds no text is where a
visit fails, and it leaves the tree as it is.
-/

namespace ConfigSnapshot
namespace Conversion

open Text NixModule FileTree

/-- The key under which the module at a path is moved. -/
def snapshotKey (path : Bytes) : Text :=
  (Path.fileName? path).elim [] fun name ↦ (Path.stem name).toText

theorem snapshotKey_of_fileName? {path name : Bytes} (h : Path.fileName? path = some name) :
    snapshotKey path = (Path.stem name).toText := by
  rw [snapshotKey, h, Option.elim_some]

/-- A file's content after one move for each stem; what is no text stays as it is. -/
def moveContent (stems : List Text) (content : ByteArray) : ByteArray :=
  match String.fromUTF8? content with
  | some text => (String.ofList (moveAll text.toList stems)).toUTF8
  | none => content

theorem moveContent_toUTF8 (stems : List Text) (text : String) :
    moveContent stems text.toUTF8 = (String.ofList (moveAll text.toList stems)).toUTF8 := by
  rw [moveContent, fromUTF8?_toUTF8]

theorem moveContent_of_not_text {content : ByteArray} (h : String.fromUTF8? content = none)
    (stems : List Text) : moveContent stems content = content := by
  rw [moveContent, h]

theorem moveContent_nil (content : ByteArray) : moveContent [] content = content := by
  cases h : String.fromUTF8? content with
  | none => exact moveContent_of_not_text h []
  | some text =>
      obtain rfl := eq_toUTF8_of_fromUTF8? h
      rw [moveContent_toUTF8]
      exact congrArg String.toUTF8 String.ofList_toList

theorem moveContent_append (stems more : List Text) (content : ByteArray) :
    moveContent (stems ++ more) content = moveContent more (moveContent stems content) := by
  cases h : String.fromUTF8? content with
  | none => simp only [moveContent_of_not_text h]
  | some text =>
      obtain rfl := eq_toUTF8_of_fromUTF8? h
      rw [moveContent_toUTF8, moveContent_toUTF8, moveContent_toUTF8, moveAll_append,
        String.toList_ofList]

theorem isSome_fromUTF8?_moveContent (stems : List Text) (content : ByteArray) :
    (String.fromUTF8? (moveContent stems content)).isSome =
      (String.fromUTF8? content).isSome := by
  cases h : String.fromUTF8? content with
  | none => rw [moveContent_of_not_text h, h]
  | some text =>
      obtain rfl := eq_toUTF8_of_fromUTF8? h
      rw [moveContent_toUTF8, fromUTF8?_toUTF8]
      rfl

/-- The stems under which the file at a location is moved, one for each path that leads to it. -/
def stemsFor (t : FileTree) (paths : List Bytes) (loc : Location) : List Text :=
  (paths.filter (t.reaches loc)).map snapshotKey

/-- What is left of the moves in a mode: a dry run moves nothing. -/
def Mode.moves : Mode → List Text → List Text
  | .write, stems => stems
  | .dryRun, _ => []

/-- The tree after the moves for some paths. -/
def IsMoved (mode : Mode) (paths : List Bytes) (t u : FileTree) : Prop :=
  Rewritten (fun loc ↦ moveContent (mode.moves (stemsFor t paths loc))) t u

theorem stemsFor_append (t : FileTree) (paths more : List Bytes) (loc : Location) :
    stemsFor t (paths ++ more) loc = stemsFor t paths loc ++ stemsFor t more loc := by
  rw [stemsFor, List.filter_append, List.map_append, stemsFor, stemsFor]

theorem stemsFor_cons (t : FileTree) (path : Bytes) (paths : List Bytes) (loc : Location) :
    stemsFor t (path :: paths) loc = stemsFor t [path] loc ++ stemsFor t paths loc :=
  stemsFor_append t [path] paths loc

theorem Mode.moves_append (mode : Mode) (stems more : List Text) :
    mode.moves (stems ++ more) = mode.moves stems ++ mode.moves more := by
  cases mode <;> rfl

/-- What is reported of a module, by whether there is something to move. -/
def Mode.verdict : Mode → Bool → Verdict
  | _, false => .unchanged
  | .write, true => .converted
  | .dryRun, true => .wouldConvert

def outcomeOf (moves : Bool) : Outcome :=
  if moves then .converted else .unchanged

/-- The line that is printed for a module, by whether there is something to move. -/
def reportText (mode : Mode) (moves : Bool) (path : Bytes) : String :=
  match moves, mode with
  | true, .write => "Converted " ++ path.display ++ "\n"
  | true, .dryRun => "Would convert " ++ path.display ++ "\n"
  | false, _ => "No changes made to " ++ path.display ++ "\n"

theorem line_eq_reportText (mode : Mode) (moves : Bool) (path : Bytes) :
    Report.line ⟨mode.verdict moves, path⟩ = reportText mode moves path := by
  cases mode <;> cases moves <;> rfl

theorem visitModule_dryRun_tree (t : FileTree) (path : Bytes) :
    (visitModule t .dryRun path).1 = t := by
  unfold visitModule
  cases t.readText path with
  | error fault => rfl
  | ok text =>
      cases Path.fileName? path with
      | none => rfl
      | some name =>
          cases hmove : moveConfig text.toList (Path.stem name).toText <;> simp only [hmove]

section Visit

variable {t : FileTree} {path : Bytes} {loc : Location}

theorem exists_of_isModule (h : isModule t path = true) :
    ∃ name loc content, Path.fileName? path = some name ∧ t.LeadsTo path loc content := by
  rw [isModule, Bool.and_eq_true, Option.any_eq_true] at h
  obtain ⟨⟨name, hname, -⟩, hfile⟩ := h
  obtain ⟨loc, content, hleads⟩ := isFile_iff.mp hfile
  exact ⟨name, loc, content, hname, hleads⟩

theorem isModule_eq_of_rewritten {f : Location → ByteArray → ByteArray} {u : FileTree}
    (h : Rewritten f t u) : isModule u = isModule t := by
  funext path
  rw [isModule, isModule, h.isFile_eq]

theorem stemsFor_singleton (h : t.locate path = .ok loc) (l : Location) :
    stemsFor t [path] l = if l = loc then [snapshotKey path] else [] := by
  by_cases hl : l = loc
  · rw [if_pos hl, hl, stemsFor, List.filter_cons_of_pos (reaches_iff.mpr h)]
    rfl
  · have hreach : ¬ t.reaches l path = true := by
      rw [reaches_iff, h, Except.ok.injEq]
      exact Ne.symm hl
    rw [if_neg hl, stemsFor, List.filter_cons_of_neg hreach]
    rfl

theorem isMoved_dryRun (t : FileTree) (paths : List Bytes) : IsMoved .dryRun paths t t :=
  (Rewritten.refl t).congr fun _ content _ ↦ (moveContent_nil content).symm

/-- A change of the one file at the end of the path is the move if the new content is the moved
text. -/
theorem isMoved_of_rewritten {u : FileTree} {f : Location → ByteArray → ByteArray}
    {text : String} (h : t.LeadsTo path loc text.toUTF8) (hu : Rewritten f t u)
    (hloc : f loc text.toUTF8 =
      (String.ofList ((moveConfig text.toList (snapshotKey path)).getD text.toList)).toUTF8)
    (hother : ∀ l content, l ≠ loc → f l content = content) : IsMoved .write [path] t u := by
  apply hu.congr
  intro l content hget
  rw [Mode.moves, stemsFor_singleton h.locate]
  split
  · next hl =>
      rw [hl, h.get?] at hget
      obtain rfl := Entry.file.inj (Option.some.inj hget)
      rw [hl, hloc, moveContent_toUTF8]
      rfl
  · next hl =>
      rw [moveContent_nil]
      exact hother l content hl

theorem isMoved_of_none {text : String} (h : t.LeadsTo path loc text.toUTF8)
    (hnone : moveConfig text.toList (snapshotKey path) = none) : IsMoved .write [path] t t := by
  apply isMoved_of_rewritten h (Rewritten.refl t) _ fun _ _ _ ↦ rfl
  rw [hnone, Option.getD_none, String.ofList_toList]

theorem isMoved_of_some {text : String} {moved : Text} (h : t.LeadsTo path loc text.toUTF8)
    (hsome : moveConfig text.toList (snapshotKey path) = some moved) :
    IsMoved .write [path] t (t.setContent loc (String.ofList moved).toUTF8) := by
  apply isMoved_of_rewritten h (rewritten_setContent t loc _) _ fun _ _ hl ↦ if_neg hl
  rw [hsome, Option.getD_some]
  exact if_pos rfl

section Text

variable {name : Bytes} {text : String} {moved : Text}

theorem visitModule_of_none (mode : Mode) (h : t.LeadsTo path loc text.toUTF8)
    (hname : Path.fileName? path = some name)
    (hnone : moveConfig text.toList (snapshotKey path) = none) :
    visitModule t mode path =
      (t, ⟨path, (scan text.toList).events, some ⟨.unchanged, path⟩, .ok .unchanged⟩) := by
  rw [snapshotKey_of_fileName? hname] at hnone
  simp only [visitModule, h.readText_eq_ok (fromUTF8?_toUTF8 text), hname, hnone]

theorem visitModule_write_of_some (h : t.LeadsTo path loc text.toUTF8)
    (hname : Path.fileName? path = some name)
    (hsome : moveConfig text.toList (snapshotKey path) = some moved) :
    visitModule t .write path = (t.setContent loc (String.ofList moved).toUTF8,
      ⟨path, (scan text.toList).events, some ⟨.converted, path⟩, .ok .converted⟩) := by
  rw [snapshotKey_of_fileName? hname] at hsome
  simp only [visitModule, h.readText_eq_ok (fromUTF8?_toUTF8 text), hname, hsome,
    h.write (String.ofList moved).toUTF8]

theorem visitModule_dryRun_of_some (h : t.LeadsTo path loc text.toUTF8)
    (hname : Path.fileName? path = some name)
    (hsome : moveConfig text.toList (snapshotKey path) = some moved) :
    visitModule t .dryRun path =
      (t, ⟨path, (scan text.toList).events, some ⟨.wouldConvert, path⟩, .ok .converted⟩) := by
  rw [snapshotKey_of_fileName? hname] at hsome
  simp only [visitModule, h.readText_eq_ok (fromUTF8?_toUTF8 text), hname, hsome]

/-- All that a visit of a file with a text does. -/
theorem visitModule_of_text (mode : Mode) (h : t.LeadsTo path loc text.toUTF8)
    (hname : Path.fileName? path = some name) :
    let moves := (moveConfig text.toList (snapshotKey path)).isSome
    (visitModule t mode path).2 =
        ⟨path, (scan text.toList).events, some ⟨mode.verdict moves, path⟩, .ok (outcomeOf moves)⟩ ∧
      IsMoved mode [path] t (visitModule t mode path).1 := by
  cases hmove : moveConfig text.toList (snapshotKey path) with
  | none =>
      rw [visitModule_of_none mode h hname hmove]
      cases mode with
      | write => exact ⟨rfl, isMoved_of_none h hmove⟩
      | dryRun => exact ⟨rfl, isMoved_dryRun t [path]⟩
  | some moved =>
      cases mode with
      | write =>
          rw [visitModule_write_of_some h hname hmove]
          exact ⟨rfl, isMoved_of_some h hmove⟩
      | dryRun =>
          rw [visitModule_dryRun_of_some h hname hmove]
          exact ⟨rfl, isMoved_dryRun t [path]⟩

end Text

/-- A visit that fails because the file holds no text. -/
def notTextVisit (path : Bytes) : Visit :=
  ⟨path, [], none, .error (.reading path .notText)⟩

theorem visitModule_of_not_text (mode : Mode) {content : ByteArray}
    (h : t.LeadsTo path loc content) (htext : String.fromUTF8? content = none) :
    visitModule t mode path = (t, notTextVisit path) := by
  simp only [visitModule, h.readText_eq_error htext, notTextVisit]

end Visit

end Conversion
end ConfigSnapshot
