import ConfigSnapshot.FileTree.Access

/-!
# The file at a path

What is read and written by a path that leads to a file. The content is a text if it is the
UTF-8 form of one, and it is the form of at most one text.
-/

namespace ConfigSnapshot
namespace FileTree

theorem fromUTF8?_toUTF8 (text : String) : String.fromUTF8? text.toUTF8 = some text := by
  have hvalid : text.toUTF8.IsValidUTF8 := text.isValidUTF8
  exact dif_pos hvalid

theorem eq_toUTF8_of_fromUTF8? {content : ByteArray} {text : String}
    (h : String.fromUTF8? content = some text) : content = text.toUTF8 := by
  unfold String.fromUTF8? at h
  split at h
  · next hvalid =>
      obtain rfl := Option.some.inj h
      rfl
  · cases h

theorem isSome_fromUTF8?_iff {content : ByteArray} :
    (String.fromUTF8? content).isSome = true ↔ content.IsValidUTF8 := by
  unfold String.fromUTF8?
  split
  · next hvalid => simp [hvalid]
  · next hvalid => simp [hvalid]

/-- Whether a text can be read by the path. -/
def holdsText (t : FileTree) (path : Bytes) : Bool :=
  (t.readText path).isOk

/-- Whether the path leads to this location. -/
def reaches (t : FileTree) (loc : Location) (path : Bytes) : Bool :=
  match t.locate path with
  | .ok l => l = loc
  | .error _ => false

theorem reaches_iff {t : FileTree} {loc : Location} {path : Bytes} :
    t.reaches loc path = true ↔ t.locate path = .ok loc := by
  unfold reaches
  split
  · next l hl => simp [hl]
  · next fault hl => simp [hl]

/-- The path leads to a file with this content. -/
structure LeadsTo (t : FileTree) (path : Bytes) (loc : Location) (content : ByteArray) :
    Prop where
  locate : t.locate path = .ok loc
  get? : t.get? loc = some (.file content)

theorem isFile_iff {t : FileTree} {path : Bytes} :
    t.isFile path = true ↔ ∃ loc content, t.LeadsTo path loc content := by
  constructor
  · intro h
    unfold isFile at h
    split at h
    · next loc hlocate =>
        split at h
        · next content hget => exact ⟨loc, content, hlocate, hget⟩
        · exact absurd h Bool.false_ne_true
    · exact absurd h Bool.false_ne_true
  · rintro ⟨loc, content, hlocate, hget⟩
    simp [isFile, hlocate, hget]

theorem isDirectory_iff {t : FileTree} {path : Bytes} :
    t.isDirectory path = true ↔ ∃ loc, t.locate path = .ok loc ∧ t.isDirectoryAt loc = true := by
  unfold isDirectory
  split
  · next loc hlocate => simp [hlocate]
  · next fault hlocate => simp [hlocate]

theorem resolve_eq_of_locate {t : FileTree} {path : Bytes} {loc : Location}
    (h : t.locate path = .ok loc) : t.resolve .follow path = .ok (.present loc) := by
  unfold locate at h
  split at h
  · next hresolve =>
      obtain rfl := Except.ok.inj h
      exact hresolve
  · cases h
  · cases h

section LeadsTo

variable {t : FileTree} {path : Bytes} {loc : Location} {content : ByteArray}

theorem LeadsTo.unique {loc' : Location} {content' : ByteArray}
    (h : t.LeadsTo path loc content) (h' : t.LeadsTo path loc' content') :
    loc = loc' ∧ content = content' := by
  have hloc := h.locate.symm.trans h'.locate
  obtain rfl := Except.ok.inj hloc
  have hget := h.get?.symm.trans h'.get?
  exact ⟨rfl, Entry.file.inj (Option.some.inj hget)⟩

theorem LeadsTo.write (h : t.LeadsTo path loc content) (new : ByteArray) :
    t.write path new = .ok (t.setContent loc new) := by
  have hdir : t.isDirectoryAt loc = false := by simp [isDirectoryAt, h.get?]
  simp [FileTree.write, resolve_eq_of_locate h.locate, hdir]

theorem LeadsTo.read (h : t.LeadsTo path loc content) : t.read path = .ok content := by
  simp [FileTree.read, h.locate, h.get?]

theorem LeadsTo.readText_eq_ok (h : t.LeadsTo path loc content) {text : String}
    (htext : String.fromUTF8? content = some text) : t.readText path = .ok text := by
  simp [readText, h.read, htext]

theorem LeadsTo.readText_eq_error (h : t.LeadsTo path loc content)
    (htext : String.fromUTF8? content = none) : t.readText path = .error .notText := by
  simp [readText, h.read, htext]

theorem LeadsTo.holdsText_eq (h : t.LeadsTo path loc content) :
    t.holdsText path = (String.fromUTF8? content).isSome := by
  cases htext : String.fromUTF8? content with
  | none =>
      rw [holdsText, h.readText_eq_error htext]
      rfl
  | some text =>
      rw [holdsText, h.readText_eq_ok htext]
      rfl

end LeadsTo

theorem exists_leadsTo_of_read {t : FileTree} {path : Bytes} {content : ByteArray}
    (h : t.read path = .ok content) : ∃ loc, t.LeadsTo path loc content := by
  unfold FileTree.read at h
  split at h
  · next loc hlocate =>
      split at h
      · next hget =>
          obtain rfl := Except.ok.inj h
          exact ⟨loc, hlocate, hget⟩
      · cases h
      · cases h
  · cases h

theorem exists_leadsTo_of_readText {t : FileTree} {path : Bytes} {text : String}
    (h : t.readText path = .ok text) : ∃ loc, t.LeadsTo path loc text.toUTF8 := by
  unfold readText at h
  split at h
  · next content hread =>
      split at h
      · next htext =>
          obtain rfl := Except.ok.inj h
          rw [← eq_toUTF8_of_fromUTF8? htext]
          exact exists_leadsTo_of_read hread
      · cases h
  · cases h

/-- A path leads to a text, or to nothing that is one. -/
theorem exists_leadsTo_text_or (t : FileTree) (path : Bytes) :
    (∃ loc, ∃ text : String, t.LeadsTo path loc text.toUTF8) ∨
      ∀ loc content, t.LeadsTo path loc content → ¬ content.IsValidUTF8 := by
  by_cases htext : ∃ loc content, t.LeadsTo path loc content ∧ content.IsValidUTF8
  · obtain ⟨loc, content, hleads, hvalid⟩ := htext
    obtain ⟨text, hcontent⟩ := Option.isSome_iff_exists.mp (isSome_fromUTF8?_iff.mpr hvalid)
    exact Or.inl ⟨loc, text, eq_toUTF8_of_fromUTF8? hcontent ▸ hleads⟩
  · exact Or.inr fun loc content hleads hvalid ↦ htext ⟨loc, content, hleads, hvalid⟩

end FileTree
end ConfigSnapshot
