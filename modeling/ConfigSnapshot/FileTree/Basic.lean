import ConfigSnapshot.Path.Basic

/-!
# File trees

Directories, regular files and symbolic links, each under a name in a directory. A tree is kept
as its entries by location, the root being a directory that needs no entry; `get?` is the view
that the other operations are described by. Every location is listed once, lies in a directory
of the tree, and so does the working directory.
-/

namespace ConfigSnapshot

/-- The bytes of the longest name. -/
def maxNameSize : Nat := 255

/-- A name is a segment of a path that stands for an entry and is short enough. -/
def IsName (b : Bytes) : Prop :=
  Path.isIdle b = false ∧ Path.isUpward b = false ∧ Path.separator ∉ b ∧ 0 ∉ b ∧
    b.length ≤ maxNameSize

instance (b : Bytes) : Decidable (IsName b) :=
  inferInstanceAs (Decidable (_ ∧ _))

/-- The name of an entry in its directory. -/
abbrev Name := { b : Bytes // IsName b }

def Name.ofBytes? (b : Bytes) : Option Name :=
  if h : IsName b then some ⟨b, h⟩ else none

/-- The names that lead to a place from the root, the innermost first; none for the root. -/
abbrev Location := List Name

inductive Entry
  | directory
  | file (content : ByteArray)
  | link (target : Bytes)

instance : DecidableEq Entry
  | .directory, .directory => isTrue rfl
  | .file c, .file d =>
      decidable_of_iff (c.data = d.data)
        ⟨fun h ↦ congrArg Entry.file (ByteArray.ext h), fun h ↦ by rw [Entry.file.inj h]⟩
  | .link s, .link t => decidable_of_iff (s = t) ⟨congrArg Entry.link, Entry.link.inj⟩
  | .directory, .file _ | .directory, .link _ | .file _, .directory | .file _, .link _
  | .link _, .directory | .link _, .file _ => isFalse (by simp)

/-- A file with other content; other entries have none to replace. -/
def Entry.withContent (content : ByteArray) : Entry → Entry
  | .file _ => .file content
  | entry => entry

@[simp] theorem Entry.withContent_eq_directory_iff {content : ByteArray} {entry : Entry} :
    entry.withContent content = .directory ↔ entry = .directory := by
  cases entry <;> simp [withContent]

namespace FileTree

/-- The entry that a list of entries has at a location. -/
def entryAt (entries : List (Location × Entry)) : Location → Option Entry
  | [] => some .directory
  | name :: dir => entries.lookup (name :: dir)

@[simp] theorem entryAt_nil (entries : List (Location × Entry)) :
    entryAt entries [] = some .directory :=
  rfl

theorem lookup_map (f : Location → Entry → Entry) (entries : List (Location × Entry))
    (loc : Location) :
    (entries.map fun e ↦ (e.1, f e.1 e.2)).lookup loc = (entries.lookup loc).map (f loc) := by
  induction entries with
  | nil => rfl
  | cons e entries ih =>
      obtain ⟨l, entry⟩ := e
      rw [List.map_cons, List.lookup_cons, List.lookup_cons]
      cases hb : loc == l with
      | false => exact ih
      | true => rw [eq_of_beq hb]; rfl

theorem lookup_filter (entries : List (Location × Entry)) {loc gone : Location}
    (h : loc ≠ gone) :
    (entries.filter fun e ↦ e.1 ≠ gone).lookup loc = entries.lookup loc := by
  induction entries with
  | nil => rfl
  | cons e entries ih =>
      obtain ⟨l, entry⟩ := e
      by_cases hg : l = gone
      · have hb : (loc == l) = false := beq_eq_false_iff_ne.2 (hg ▸ h)
        rw [List.filter_cons_of_neg (by simpa using hg), List.lookup_cons, hb, ih]
      · rw [List.filter_cons_of_pos (by simpa using hg), List.lookup_cons, List.lookup_cons, ih]

theorem lookup_eq_none_iff {entries : List (Location × Entry)} {loc : Location} :
    entries.lookup loc = none ↔ loc ∉ entries.map Prod.fst := by
  induction entries with
  | nil => simp
  | cons e entries ih =>
      obtain ⟨l, entry⟩ := e
      rw [List.lookup_cons, List.map_cons, List.mem_cons, not_or]
      cases hb : loc == l with
      | false => simp [ih, beq_eq_false_iff_ne.1 hb]
      | true => simp [eq_of_beq hb]

end FileTree

/-- Entries by location, each once and each in a directory, and a working directory. -/
structure FileTree where
  entries : List (Location × Entry)
  workDir : Location
  distinct : (entries.map Prod.fst).Nodup
  rooted : ∀ e ∈ entries, e.1 ≠ [] ∧ FileTree.entryAt entries e.1.tail = some .directory
  workDir_eq : FileTree.entryAt entries workDir = some .directory

namespace FileTree

/-- The tree with these entries, if they make one. -/
def ofEntries? (entries : List (Location × Entry)) (workDir : Location) : Option FileTree :=
  if h : (entries.map Prod.fst).Nodup ∧
      (∀ e ∈ entries, e.1 ≠ [] ∧ entryAt entries e.1.tail = some .directory) ∧
      entryAt entries workDir = some .directory then
    some ⟨entries, workDir, h.1, h.2.1, h.2.2⟩
  else none

/-- What is at a location. -/
def get? (t : FileTree) (loc : Location) : Option Entry :=
  entryAt t.entries loc

def isDirectoryAt (t : FileTree) (loc : Location) : Bool :=
  t.get? loc = some .directory

/-- The names in a directory, in no order that matters. -/
def namesIn (t : FileTree) (dir : Location) : List Name :=
  t.entries.filterMap fun e ↦
    match e.1 with
    | [] => none
    | name :: parent => if parent = dir then some name else none

@[simp] theorem get?_root (t : FileTree) : t.get? [] = some .directory :=
  rfl

@[simp] theorem get?_workDir (t : FileTree) : t.get? t.workDir = some .directory :=
  t.workDir_eq

/-- The tree with other content in the file at a location. -/
def setContent (t : FileTree) (loc : Location) (content : ByteArray) : FileTree :=
  let change (l : Location) (e : Entry) : Entry := if l = loc then e.withContent content else e
  have entryAt_map (l : Location) :
      entryAt (t.entries.map fun e ↦ (e.1, change e.1 e.2)) l = some .directory ↔
        entryAt t.entries l = some .directory := by
    cases l with
    | nil => simp
    | cons name dir =>
        simp only [entryAt, lookup_map]
        cases t.entries.lookup (name :: dir) with
        | none => simp
        | some e => by_cases h : name :: dir = loc <;> simp [change, h]
  { entries := t.entries.map fun e ↦ (e.1, change e.1 e.2)
    workDir := t.workDir
    distinct := by
      have h := t.distinct
      rwa [List.map_map]
    rooted := by
      intro e he
      obtain ⟨old, hold, rfl⟩ := List.mem_map.1 he
      exact ⟨(t.rooted old hold).1, (entryAt_map _).2 (t.rooted old hold).2⟩
    workDir_eq := (entryAt_map _).2 t.workDir_eq }

theorem get?_setContent (t : FileTree) (loc l : Location) (content : ByteArray) :
    (t.setContent loc content).get? l =
      (t.get? l).map fun e ↦ if l = loc then e.withContent content else e := by
  cases l with
  | nil => simp only [get?_root, Option.map_some, Entry.withContent, ite_self]
  | cons name dir =>
      simp only [get?, entryAt, setContent]
      exact lookup_map (fun l e ↦ if l = loc then e.withContent content else e) t.entries _

@[simp] theorem workDir_setContent (t : FileTree) (loc : Location) (content : ByteArray) :
    (t.setContent loc content).workDir = t.workDir :=
  rfl

/-- The tree with one more entry, in a directory that has none of that name. -/
def insert (t : FileTree) (dir : Location) (name : Name) (entry : Entry)
    (isDirectory : t.get? dir = some .directory) (isVacant : t.get? (name :: dir) = none) :
    FileTree :=
  have entryAt_cons (l : Location) (h : entryAt t.entries l = some .directory) :
      entryAt ((name :: dir, entry) :: t.entries) l = some .directory := by
    cases l with
    | nil => rfl
    | cons n d =>
        have hne : n :: d ≠ name :: dir := by
          intro heq
          rw [get?, ← heq, h] at isVacant
          exact Option.some_ne_none _ isVacant
        have hb : (n :: d == name :: dir) = false := beq_eq_false_iff_ne.2 hne
        rw [entryAt, List.lookup_cons, hb]
        exact h
  { entries := (name :: dir, entry) :: t.entries
    workDir := t.workDir
    distinct := by
      rw [List.map_cons, List.nodup_cons]
      exact ⟨lookup_eq_none_iff.1 isVacant, t.distinct⟩
    rooted := by
      intro e he
      rcases List.mem_cons.1 he with rfl | hold
      · exact ⟨List.cons_ne_nil _ _, entryAt_cons _ isDirectory⟩
      · exact ⟨(t.rooted e hold).1, entryAt_cons _ (t.rooted e hold).2⟩
    workDir_eq := entryAt_cons _ t.workDir_eq }

theorem get?_insert (t : FileTree) (dir : Location) (name : Name) (entry : Entry)
    (hd : t.get? dir = some .directory) (hv : t.get? (name :: dir) = none) (l : Location) :
    (t.insert dir name entry hd hv).get? l = if l = name :: dir then some entry else t.get? l := by
  cases l with
  | nil => simp
  | cons n d =>
      simp only [get?, entryAt, insert, List.lookup_cons]
      by_cases h : n :: d = name :: dir
      · rw [h]
        simp
      · have hb : (n :: d == name :: dir) = false := beq_eq_false_iff_ne.2 h
        rw [hb, if_neg h]

/-- The tree without the entry at a location, which is no directory. -/
def erase (t : FileTree) (loc : Location) (isLeaf : t.get? loc ≠ some .directory) : FileTree :=
  have entryAt_filter (l : Location) (h : entryAt t.entries l = some .directory) :
      entryAt (t.entries.filter fun e ↦ e.1 ≠ loc) l = some .directory := by
    have hne : l ≠ loc := by
      intro heq
      rw [get?, ← heq] at isLeaf
      exact isLeaf h
    cases l with
    | nil => rfl
    | cons n d =>
        rw [entryAt, lookup_filter t.entries hne]
        exact h
  { entries := t.entries.filter fun e ↦ e.1 ≠ loc
    workDir := t.workDir
    distinct := t.distinct.sublist (List.filter_sublist.map _)
    rooted := by
      intro e he
      have hold := List.mem_filter.1 he |>.1
      exact ⟨(t.rooted e hold).1, entryAt_filter _ (t.rooted e hold).2⟩
    workDir_eq := entryAt_filter _ t.workDir_eq }

end FileTree
end ConfigSnapshot
