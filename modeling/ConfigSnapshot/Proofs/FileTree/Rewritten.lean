import ConfigSnapshot.Proofs.FileTree.Content

/-!
# Trees with other contents

A tree is rewritten if the contents of its files have changed and nothing else: its directories,
its links and their targets are the same. Paths then lead where they led, so whatever is read or
written by path next is in the same place as before.
-/

namespace ConfigSnapshot

/-- The entry with the content of a file changed; other entries have none. -/
def Entry.mapContent (f : ByteArray → ByteArray) : Entry → Entry
  | .file content => .file (f content)
  | entry => entry

namespace Entry

@[simp] theorem mapContent_file (f : ByteArray → ByteArray) (content : ByteArray) :
    (Entry.file content).mapContent f = .file (f content) :=
  rfl

theorem mapContent_id (entry : Entry) : entry.mapContent (fun content ↦ content) = entry := by
  cases entry <;> rfl

theorem mapContent_mapContent (f g : ByteArray → ByteArray) (entry : Entry) :
    (entry.mapContent f).mapContent g = entry.mapContent fun content ↦ g (f content) := by
  cases entry <;> rfl

theorem mapContent_const (content : ByteArray) (entry : Entry) :
    entry.mapContent (fun _ ↦ content) = entry.withContent content := by
  cases entry <;> rfl

theorem mapContent_eq_directory_iff {f : ByteArray → ByteArray} {entry : Entry} :
    entry.mapContent f = .directory ↔ entry = .directory := by
  cases entry <;> simp [mapContent]

end Entry

namespace FileTree

/-- The second tree is the first with each content changed as its location tells. -/
structure Rewritten (f : Location → ByteArray → ByteArray) (t u : FileTree) : Prop where
  workDir : u.workDir = t.workDir
  get? (loc : Location) : u.get? loc = (t.get? loc).map (Entry.mapContent (f loc))

theorem Rewritten.refl (t : FileTree) : Rewritten (fun _ content ↦ content) t t where
  workDir := rfl
  get? loc := by cases t.get? loc <;> simp [Entry.mapContent_id]

theorem Rewritten.trans {f g : Location → ByteArray → ByteArray} {t u w : FileTree}
    (h : Rewritten f t u) (h' : Rewritten g u w) :
    Rewritten (fun loc content ↦ g loc (f loc content)) t w where
  workDir := h'.workDir.trans h.workDir
  get? loc := by
    rw [h'.get?, h.get?, Option.map_map]
    congr 1
    funext entry
    exact Entry.mapContent_mapContent (f loc) (g loc) entry

theorem Rewritten.congr {f g : Location → ByteArray → ByteArray} {t u : FileTree}
    (h : Rewritten f t u)
    (hfg : ∀ loc content, t.get? loc = some (.file content) → f loc content = g loc content) :
    Rewritten g t u where
  workDir := h.workDir
  get? loc := by
    rw [h.get?]
    cases hentry : t.get? loc with
    | none => rfl
    | some entry =>
        cases entry with
        | file content =>
            simp only [Option.map_some, Entry.mapContent_file, hfg loc content hentry]
        | directory => rfl
        | link target => rfl

theorem rewritten_setContent (t : FileTree) (loc : Location) (content : ByteArray) :
    Rewritten (fun l old ↦ if l = loc then content else old) t (t.setContent loc content) where
  workDir := rfl
  get? l := by
    rw [get?_setContent]
    congr 1
    funext entry
    split
    · exact (Entry.mapContent_const content entry).symm
    · exact (Entry.mapContent_id entry).symm

section SetContent

variable {t : FileTree} {loc l : Location} {old new : ByteArray}

theorem get?_setContent_self (h : t.get? loc = some (.file old)) :
    (t.setContent loc new).get? loc = some (.file new) := by
  simp [get?_setContent, h, Entry.withContent]

theorem get?_setContent_of_ne (h : l ≠ loc) : (t.setContent loc new).get? l = t.get? l := by
  simp [get?_setContent, h]

theorem setContent_ne_self (h : t.get? loc = some (.file old)) (hne : new ≠ old) :
    t.setContent loc new ≠ t := by
  intro heq
  have hself : (t.setContent loc new).get? loc = some (.file new) := get?_setContent_self h
  rw [heq, h] at hself
  exact hne (Entry.file.inj (Option.some.inj hself)).symm

end SetContent

section Rewritten

variable {f : Location → ByteArray → ByteArray} {t u : FileTree}

theorem Rewritten.isDirectoryAt_eq (h : Rewritten f t u) (loc : Location) :
    u.isDirectoryAt loc = t.isDirectoryAt loc := by
  have hiff : u.get? loc = some .directory ↔ t.get? loc = some .directory := by
    rw [h.get?]
    cases t.get? loc <;> simp [Entry.mapContent_eq_directory_iff]
  unfold isDirectoryAt
  rw [decide_eq_decide]
  exact hiff

theorem Rewritten.walkUpTo_eq (h : Rewritten f t u) (final : FinalLink)
    (onLink : Location → Bytes → List Bytes → Except Fault Place) (here : Location)
    (segments : List Bytes) :
    u.walkUpTo final onLink here segments = t.walkUpTo final onLink here segments := by
  -- what happens at a link is given from outside and the same for both trees, so the segments
  -- are all there is to the recursion here
  induction segments generalizing here with
  | nil => rfl
  | cons segment rest ih =>
      simp only [walkUpTo, h.isDirectoryAt_eq, ih]
      cases Name.ofBytes? segment with
      | none => rfl
      | some name =>
          have hget := h.get? (name :: here)
          cases hentry : t.get? (name :: here) with
          | none =>
              rw [hentry] at hget
              simp [hget, hentry]
          | some entry =>
              rw [hentry] at hget
              cases entry <;> simp [hget, hentry, Entry.mapContent]

theorem Rewritten.walk_eq (h : Rewritten f t u) (final : FinalLink) (links : Nat)
    (here : Location) (segments : List Bytes) :
    u.walk final links here segments = t.walk final links here segments := by
  induction links generalizing here segments with
  | zero => exact h.walkUpTo_eq final _ here segments
  | succ links ih => simp only [walk, h.walkUpTo_eq, ih]

theorem Rewritten.resolve_eq (h : Rewritten f t u) (final : FinalLink) (path : Bytes) :
    u.resolve final path = t.resolve final path := by
  simp only [resolve, h.walk_eq, h.workDir]

theorem Rewritten.locate_eq (h : Rewritten f t u) (path : Bytes) :
    u.locate path = t.locate path := by
  simp only [locate, h.resolve_eq]

theorem Rewritten.reaches_eq (h : Rewritten f t u) (loc : Location) :
    u.reaches loc = t.reaches loc := by
  funext path
  simp only [reaches, h.locate_eq]

theorem Rewritten.isFile_eq (h : Rewritten f t u) (path : Bytes) :
    u.isFile path = t.isFile path := by
  unfold isFile
  rw [h.locate_eq]
  cases t.locate path with
  | error fault => rfl
  | ok loc =>
      simp only [h.get?]
      cases t.get? loc with
      | none => rfl
      | some entry => cases entry <;> rfl

/-- A change that keeps texts apart from other contents does so for what paths lead to. -/
theorem Rewritten.holdsText_eq (h : Rewritten f t u)
    (hf : ∀ loc content,
      (String.fromUTF8? (f loc content)).isSome = (String.fromUTF8? content).isSome) :
    u.holdsText = t.holdsText := by
  funext path
  unfold holdsText readText FileTree.read
  rw [h.locate_eq]
  cases t.locate path with
  | error fault => rfl
  | ok loc =>
      simp only [h.get?]
      cases t.get? loc with
      | none => rfl
      | some entry =>
          cases entry with
          | directory => rfl
          | link target => rfl
          | file content =>
              have hsome := hf loc content
              simp only [Option.map_some, Entry.mapContent_file]
              cases hnew : String.fromUTF8? (f loc content) <;>
                cases hold : String.fromUTF8? content <;> simp_all [Except.isOk, Except.toBool]

end Rewritten

theorem LeadsTo.rewritten {f : Location → ByteArray → ByteArray} {t u : FileTree}
    {path : Bytes} {loc : Location} {content : ByteArray} (h : t.LeadsTo path loc content)
    (hu : Rewritten f t u) : u.LeadsTo path loc (f loc content) where
  locate := (hu.locate_eq path).trans h.locate
  get? := by rw [hu.get?, h.get?, Option.map_some, Entry.mapContent_file]

end FileTree
end ConfigSnapshot
