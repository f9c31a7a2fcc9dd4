import ConfigSnapshot.Conversion.Run
import ConfigSnapshot.Proofs.FileTree.Content
import ConfigSnapshot.Proofs.Path.Join
import ConfigSnapshot.Proofs.Text.Bytes
import Mathlib.Data.List.Nodup

/-!
# The modules of a directory

A directory has each name once, so the paths of its modules are in strict order, and this is the
order of the bytes of their names. Listing a directory never fails.
-/

namespace ConfigSnapshot
namespace FileTree

/-- The name of an entry of the directory, told by its location. -/
def nameIn? (dir : Location) : Location → Option Name
  | [] => none
  | name :: parent => if parent = dir then some name else none

theorem nameIn?_eq_some_iff {dir loc : Location} {name : Name} :
    nameIn? dir loc = some name ↔ loc = name :: dir := by
  cases loc with
  | nil => simp [nameIn?]
  | cons n parent => simp [nameIn?, and_comm]

theorem namesIn_eq (t : FileTree) (dir : Location) :
    t.namesIn dir = (t.entries.map Prod.fst).filterMap (nameIn? dir) := by
  rw [List.filterMap_map]
  rfl

theorem nodup_namesIn (t : FileTree) (dir : Location) : (t.namesIn dir).Nodup := by
  rw [namesIn_eq]
  apply List.Nodup.filterMap _ t.distinct
  intro loc loc' name hname hname'
  rw [Option.mem_def, nameIn?_eq_some_iff] at hname hname'
  rw [hname, hname']

end FileTree

namespace Conversion

theorem utf8Size_of_mem_ending : ∀ c ∈ ".nix".toList, c.utf8Size = 1 := by
  simp [Char.utf8Size]

/-- The ending is there in the bytes of a name where it is there in its text. -/
theorem isModuleName_iff {name : Bytes} :
    isModuleName name = true ↔ (".nix" : Bytes) <:+ name := by
  rw [isModuleName, List.isSuffixOf_iff_suffix]
  constructor
  · rintro ⟨base, hbase⟩
    obtain ⟨front, hfront, -⟩ := Bytes.exists_eq_append_ofText utf8Size_of_mem_ending hbase.symm
    exact ⟨front, hfront.symm⟩
  · rintro ⟨front, rfl⟩
    exact ⟨Bytes.toText front, (Bytes.toText_append_ofText utf8Size_of_mem_ending front).symm⟩

theorem isModule_join {t : FileTree} (dir : Bytes) {name : Bytes} (h : IsName name) :
    isModule t (Path.join dir name) = true ↔
      isModuleName name = true ∧ t.isFile (Path.join dir name) = true := by
  rw [isModule, Path.fileName?_join dir h, Option.any_some, Bool.and_eq_true]

/-- The paths of entries of one directory are put in order by their names. -/
theorem exists_sort_eq_map_join (dir : Bytes) {names : List Bytes} (hnodup : names.Nodup)
    (hnames : ∀ name ∈ names, IsName name) :
    ∃ sorted : List Bytes, Path.sort (names.map (Path.join dir)) = sorted.map (Path.join dir) ∧
      sorted.Pairwise (· < ·) ∧ sorted.Perm names := by
  -- paths are what is sorted, so the names are taken back from them afterwards
  let sorted := (Path.sort (names.map (Path.join dir))).filterMap Path.fileName?
  have hperm := Path.sort_perm (names.map (Path.join dir))
  have hname (path : Bytes) (h : path ∈ Path.sort (names.map (Path.join dir))) :
      (Path.fileName? path).map (Path.join dir) = some path := by
    obtain ⟨name, hmem, rfl⟩ := List.mem_map.mp (hperm.mem_iff.mp h)
    rw [Path.fileName?_join dir (hnames name hmem), Option.map_some]
  have hsorted : Path.sort (names.map (Path.join dir)) = sorted.map (Path.join dir) := by
    rw [List.map_filterMap, List.filterMap_congr hname, List.filterMap_some]
  have hback : (names.map (Path.join dir)).filterMap Path.fileName? = names := by
    rw [List.filterMap_map]
    exact (List.filterMap_congr fun name h ↦ Path.fileName?_join dir (hnames name h)).trans
      List.filterMap_some
  have hpermNames : sorted.Perm names := by
    have h := hperm.filterMap Path.fileName?
    rwa [hback] at h
  refine ⟨sorted, hsorted, ?_, hpermNames⟩
  have hle := Path.pairwise_sort (names.map (Path.join dir))
  rw [hsorted, List.pairwise_map] at hle
  have hne : sorted.Pairwise (· ≠ ·) := hpermNames.nodup_iff.mpr hnodup
  apply (hle.and hne).imp_of_mem
  intro m n hm hn h
  have hmn := (Path.le_join_iff dir (hnames m (hpermNames.mem_iff.mp hm))
    (hnames n (hpermNames.mem_iff.mp hn))).mp h.1
  exact (List.le_iff_lt_or_eq.mp hmn).resolve_right h.2

/-- The modules of a listing that has them in order are only picked out. -/
theorem modulesIn_of_pairwise {t : FileTree} {dir : Bytes} {listed paths : List Bytes}
    (hlist : t.list dir = .ok listed)
    (hfilter : (listed.map (Path.join dir)).filter (isModule t) = paths)
    (hpairwise : paths.Pairwise fun p q ↦ Path.le p q = true) :
    modulesIn t dir = .ok paths := by
  have hsort : Path.sort paths = paths := List.mergeSort_of_pairwise hpairwise
  simp only [modulesIn, hlist, hfilter, hsort]

/-- The modules of a directory by their names, in the order of their bytes. -/
theorem exists_modulesIn {t : FileTree} {dir : Bytes} {loc : Location}
    (hloc : t.locate dir = .ok loc) (hdir : t.isDirectoryAt loc = true) :
    ∃ names : List Bytes, modulesIn t dir = .ok (names.map (Path.join dir)) ∧
      names.Pairwise (· < ·) ∧
        ∀ name, name ∈ names ↔ (∃ h : IsName name, ⟨name, h⟩ ∈ t.namesIn loc) ∧
          isModuleName name = true ∧ t.isFile (Path.join dir name) = true := by
  let entries := (t.namesIn loc).map Subtype.val
  let modules := entries.filter fun name ↦ isModule t (Path.join dir name)
  have hentries (name : Bytes) :
      name ∈ entries ↔ ∃ h : IsName name, ⟨name, h⟩ ∈ t.namesIn loc := by
    simp [entries]
  have hnames : ∀ name ∈ modules, IsName name := by
    intro name hmem
    exact ((hentries name).mp (List.mem_of_mem_filter hmem)).1
  have hnodup : modules.Nodup :=
    ((t.nodup_namesIn loc).map Subtype.val_injective).filter _
  obtain ⟨sorted, hsorted, hpairwise, hperm⟩ := exists_sort_eq_map_join dir hnodup hnames
  refine ⟨sorted, ?_, hpairwise, ?_⟩
  · have hlist : t.list dir = .ok entries := by simp [FileTree.list, hloc, hdir, entries]
    have hfilter : (entries.map (Path.join dir)).filter (isModule t) =
        modules.map (Path.join dir) := List.filter_map
    simp only [modulesIn, hlist, hfilter, hsorted]
  · intro name
    rw [hperm.mem_iff, List.mem_filter, hentries]
    constructor
    · rintro ⟨⟨h, hmem⟩, hmodule⟩
      exact ⟨⟨h, hmem⟩, (isModule_join dir h).mp hmodule⟩
    · rintro ⟨⟨h, hmem⟩, hmodule⟩
      exact ⟨⟨h, hmem⟩, (isModule_join dir h).mpr hmodule⟩

end Conversion
end ConfigSnapshot
