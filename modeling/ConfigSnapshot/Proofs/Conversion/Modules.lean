import ConfigSnapshot.Proofs.Conversion.Listing
import ConfigSnapshot.Proofs.Conversion.Visit
import ConfigSnapshot.Proofs.FileTree.Joined

/-!
# Which modules a directory has

The modules of a directory are its entries whose names have the ending and whose paths lead to
regular files, in the order of the bytes of their names. Nothing else about the directory plays a
role: the system may give its entries in any order, and what lies deeper is not looked at.
-/

namespace ConfigSnapshot
namespace Path

theorem le_join_antisymm (dir : Bytes) {m n : Bytes} (hm : IsName m) (hn : IsName n)
    (hmn : le (join dir m) (join dir n) = true) (hnm : le (join dir n) (join dir m) = true) :
    m = n := by
  rw [le_join_iff dir hm hn] at hmn
  rw [le_join_iff dir hn hm] at hnm
  exact List.le_antisymm hmn hnm

theorem sort_map_join_perm (dir : Bytes) {names names' : List Bytes}
    (hnames : ∀ name ∈ names, IsName name) (h : names.Perm names') :
    sort (names.map (join dir)) = sort (names'.map (join dir)) := by
  have hperm := (sort_perm (names.map (join dir))).trans
    ((h.map (join dir)).trans (sort_perm (names'.map (join dir))).symm)
  refine List.Perm.eq_of_pairwise ?_ (pairwise_sort _) (pairwise_sort _) hperm
  intro p q hp hq hpq hqp
  obtain ⟨m, hm, rfl⟩ := List.mem_map.mp ((sort_perm _).mem_iff.mp hp)
  obtain ⟨n, hn, rfl⟩ := List.mem_map.mp ((sort_perm _).mem_iff.mp hq)
  rw [le_join_antisymm dir (hnames m hm) (hnames n (h.mem_iff.mpr hn)) hpq hqp]

theorem endsInSeparator_join (dir : Bytes) {name : Bytes} (h : IsName name) :
    endsInSeparator (join dir name) = false := by
  obtain ⟨front, -, hfront⟩ := exists_join_eq dir
  have hne : name ≠ [] := by
    rintro rfl
    exact absurd h.1 (by decide)
  have hlast : name.getLast hne ≠ separator := fun heq ↦
    h.2.2.1 (heq ▸ List.getLast_mem hne)
  rw [endsInSeparator, hfront, List.getLast?_append, List.getLast?_cons,
    List.getLast?_eq_some_getLast hne]
  simpa using hlast

theorem join_join (dir : Bytes) {name : Bytes} (h : IsName name) (more : Bytes) :
    join (join dir name) more = join dir (name ++ separator :: more) := by
  rw [join, endsInSeparator_join dir h, if_neg Bool.false_ne_true, join, join]
  split <;> simp

end Path

namespace FileTree

theorem mem_namesIn_iff {t : FileTree} {dir : Location} {name : Name} :
    name ∈ t.namesIn dir ↔ t.get? (name :: dir) ≠ none := by
  rw [namesIn_eq, get?, entryAt, ne_eq, lookup_eq_none_iff, Classical.not_not,
    List.mem_filterMap]
  constructor
  · rintro ⟨loc, hmem, hname⟩
    rwa [← nameIn?_eq_some_iff.mp hname]
  · intro hmem
    exact ⟨name :: dir, hmem, nameIn?_eq_some_iff.mpr rfl⟩

theorem list_eq {t : FileTree} {dir : Bytes} {loc : Location} (hloc : t.locate dir = .ok loc)
    (hdir : t.isDirectoryAt loc = true) :
    t.list dir = .ok ((t.namesIn loc).map Subtype.val) := by
  simp [list, hloc, hdir]

theorem isName_of_mem_map_namesIn {t : FileTree} {loc : Location} {name : Bytes}
    (h : name ∈ (t.namesIn loc).map Subtype.val) : IsName name := by
  obtain ⟨entry, -, rfl⟩ := List.mem_map.mp h
  exact entry.property

section Alike

variable {t u : FileTree}

/-- Trees with the same entries, in whatever order they are listed. -/
theorem rewritten_of_get?_eq (hworkDir : u.workDir = t.workDir)
    (hget : ∀ loc, u.get? loc = t.get? loc) : Rewritten (fun _ content ↦ content) t u where
  workDir := hworkDir
  get? loc := (hget loc).trans ((Rewritten.refl t).get? loc)

theorem perm_namesIn (hget : ∀ loc, u.get? loc = t.get? loc) (dir : Location) :
    (u.namesIn dir).Perm (t.namesIn dir) := by
  rw [List.perm_ext_iff_of_nodup (u.nodup_namesIn dir) (t.nodup_namesIn dir)]
  intro name
  rw [mem_namesIn_iff, mem_namesIn_iff, hget]

end Alike

end FileTree

namespace Conversion

open FileTree

/-- The paths of the modules among the entries of a directory, given in some order. -/
def modulesAmong (t : FileTree) (dir : Bytes) (listed : List Bytes) : List Bytes :=
  Path.sort ((listed.map (Path.join dir)).filter (isModule t))

theorem modulesIn_of_list {t : FileTree} {dir : Bytes} {listed : List Bytes}
    (h : t.list dir = .ok listed) : modulesIn t dir = .ok (modulesAmong t dir listed) := by
  simp only [modulesIn, h, modulesAmong]

theorem modulesAmong_perm {t : FileTree} {dir : Bytes} {listed listed' : List Bytes}
    (hnames : ∀ name ∈ listed, IsName name) (h : listed.Perm listed') :
    modulesAmong t dir listed = modulesAmong t dir listed' := by
  rw [modulesAmong, modulesAmong, List.filter_map, List.filter_map]
  exact Path.sort_map_join_perm dir (fun name hmem ↦ hnames name (List.mem_of_mem_filter hmem))
    (h.filter _)

theorem modulesIn_eq_of_get?_eq {t u : FileTree} {dir : Bytes} {loc : Location}
    (hloc : t.locate dir = .ok loc) (hdir : t.isDirectoryAt loc = true)
    (hworkDir : u.workDir = t.workDir) (hget : ∀ l, u.get? l = t.get? l) :
    modulesIn u dir = modulesIn t dir := by
  have hsame := rewritten_of_get?_eq hworkDir hget
  have hlist := list_eq ((hsame.locate_eq dir).trans hloc) ((hsame.isDirectoryAt_eq loc).trans hdir)
  have hperm := (perm_namesIn hget loc).map Subtype.val
  rw [modulesIn_of_list hlist, modulesIn_of_list (list_eq hloc hdir),
    ← modulesAmong_perm (fun _ ↦ isName_of_mem_map_namesIn) hperm, modulesAmong, modulesAmong,
    isModule_eq_of_rewritten hsame]

/-- The names of the modules of a directory: what they are, that there are no others, and that
the order in which the system gives the entries has no part in it. -/
theorem modulesIn_lists_entries {t : FileTree} {dir : Bytes} (h : t.isDirectory dir = true) :
    ∃ (loc : Location) (names : List Bytes), t.locate dir = .ok loc ∧
      modulesIn t dir = .ok (names.map (Path.join dir)) ∧
      names.Pairwise (· < ·) ∧ (names.map (Path.join dir)).Nodup ∧
      (∀ name, name ∈ names ↔ (∃ hname : IsName name, t.get? (⟨name, hname⟩ :: loc) ≠ none) ∧
        (".nix" : Bytes) <:+ name ∧
          ∃ l content, t.LeadsTo (Path.join dir name) l content) ∧
      (∀ (name : Name) content, t.get? (name :: loc) = some (.file content) →
        (".nix" : Bytes) <:+ name.val →
          (Path.join dir name.val).length < pathSizeLimit → name.val ∈ names) ∧
      (∀ name : Name, t.get? (name :: loc) = some .directory → name.val ∉ names) ∧
      (∀ name fault, t.locate (Path.join dir name) = .error fault → name ∉ names) ∧
      (∀ name more, IsName name →
        Path.join (Path.join dir name) more ∉ names.map (Path.join dir)) ∧
      (∀ listed : List Bytes, listed.Perm ((t.namesIn loc).map Subtype.val) →
        modulesAmong t dir listed = names.map (Path.join dir)) ∧
      ∀ u : FileTree, u.workDir = t.workDir → (∀ l, u.get? l = t.get? l) →
        modulesIn u dir = modulesIn t dir := by
  obtain ⟨loc, hloc, hdir⟩ := isDirectory_iff.mp h
  obtain ⟨names, hmodules, hpairwise, hmem⟩ := exists_modulesIn hloc hdir
  have hnames (name : Bytes) : name ∈ names ↔
      (∃ hname : IsName name, t.get? (⟨name, hname⟩ :: loc) ≠ none) ∧
        (".nix" : Bytes) <:+ name ∧
          ∃ l content, t.LeadsTo (Path.join dir name) l content := by
    rw [hmem, isFile_iff, isModuleName_iff]
    simp only [mem_namesIn_iff]
  refine ⟨loc, names, hloc, hmodules, hpairwise, ?_, hnames, ?_, ?_, ?_, ?_, ?_, ?_⟩
  · exact (hpairwise.imp Std.ne_of_lt).map (Path.join dir)
      fun _ _ hne heq ↦ hne (Path.join_injective dir heq)
  · intro name content hget hsuffix hsize
    refine (hnames name.val).mpr ⟨⟨name.property, by simp [hget]⟩, hsuffix, ?_⟩
    exact isFile_iff.mp (isFile_join_of_file hloc hdir hget hsize)
  · intro name hget hname
    have hfile := isFile_iff.mpr ((hnames name.val).mp hname).2.2
    rw [isFile_join_of_directory hloc hdir hget] at hfile
    exact Bool.false_ne_true hfile
  · intro name fault hfault hname
    obtain ⟨-, -, l, content, hleads⟩ := (hnames name).mp hname
    rw [hleads.locate] at hfault
    cases hfault
  · intro name more hname hpath
    obtain ⟨entry, hentry, heq⟩ := List.mem_map.mp hpath
    obtain ⟨⟨hisName, -⟩, -⟩ := (hnames entry).mp hentry
    rw [Path.join_join dir hname] at heq
    -- a name has no slash in it
    apply hisName.2.2.1
    rw [Path.join_injective dir heq]
    simp
  · intro listed hperm
    have hlisted : ∀ name ∈ listed, IsName name :=
      fun name hlist ↦ isName_of_mem_map_namesIn (hperm.mem_iff.mp hlist)
    rw [modulesAmong_perm hlisted hperm]
    exact Except.ok.inj ((modulesIn_of_list (list_eq hloc hdir)).symm.trans hmodules)
  · exact fun u ↦ modulesIn_eq_of_get?_eq hloc hdir

/-- A directory with a file, a link to it, a hidden file and one without the dot of the ending, a
directory with a file in it, and links that lead nowhere. -/
def mixedEntries : FileTree where
  entries :=
    [([⟨"d", by decide⟩], .directory),
      ([⟨"h.nix", by decide⟩, ⟨"d", by decide⟩], .directory),
      ([⟨"x.nix", by decide⟩, ⟨"h.nix", by decide⟩, ⟨"d", by decide⟩], .file "".toUTF8),
      ([⟨"g.nix", by decide⟩, ⟨"d", by decide⟩], .link "f.nix"),
      ([⟨"nix", by decide⟩, ⟨"d", by decide⟩], .file "".toUTF8),
      ([⟨"j.nix", by decide⟩, ⟨"d", by decide⟩], .link "j.nix"),
      ([⟨"f.nix", by decide⟩, ⟨"d", by decide⟩], .file "".toUTF8),
      ([⟨"i.nix", by decide⟩, ⟨"d", by decide⟩], .link "gone"),
      ([⟨".h.nix", by decide⟩, ⟨"d", by decide⟩], .file "".toUTF8)]
  workDir := []
  distinct := by decide
  rooted := by decide
  workDir_eq := rfl

/-- The entries can be taken in the order of their names, in which nothing is left to sort. -/
theorem modulesIn_lists_entries_mixed :
    mixedEntries.isDirectory "d/.//" = true ∧
      modulesIn mixedEntries "d/.//" = .ok ["d/.//.h.nix", "d/.//f.nix", "d/.//g.nix"] := by
  have hdir : mixedEntries.isDirectory "d/.//" = true := by decide
  obtain ⟨loc, names, hloc, hmodules, -, -, -, -, -, -, -, hany, -⟩ := modulesIn_lists_entries hdir
  obtain rfl : loc = [⟨"d", by decide⟩] :=
    Except.ok.inj (hloc.symm.trans (by decide))
  let listed : List Bytes := [".h.nix", "f.nix", "g.nix", "h.nix", "i.nix", "j.nix", "nix"]
  have hamong := hany listed (by decide)
  have hfilter : (listed.map (Path.join "d/.//")).filter (isModule mixedEntries) =
      ["d/.//.h.nix", "d/.//f.nix", "d/.//g.nix"] := by decide
  rw [modulesAmong, hfilter, Path.sort, List.mergeSort_of_pairwise (by decide)] at hamong
  exact ⟨hdir, hmodules.trans (congrArg Except.ok hamong.symm)⟩

end Conversion
end ConfigSnapshot
