import ConfigSnapshot.Proofs.FileTree.Rewritten

/-!
# Paths that end in a name

A step that goes nowhere or upwards ends in a directory. So a path that leads to anything else,
through whatever links, has the name of an entry as its last segment.
-/

namespace ConfigSnapshot
namespace FileTree

theorem get?_tail_of_ne_none {t : FileTree} {loc : Location} (h : t.get? loc ≠ none) :
    t.get? loc.tail = some .directory := by
  cases loc with
  | nil => rfl
  | cons name dir =>
      have hmem : name :: dir ∈ t.entries.map Prod.fst :=
        Classical.not_not.mp (mt lookup_eq_none_iff.mpr h)
      obtain ⟨e, he, hloc⟩ := List.mem_map.mp hmem
      have hparent := (t.rooted e he).2
      rw [hloc] at hparent
      exact hparent

theorem isName_of_ofBytes? {s : Bytes} {name : Name} (h : Name.ofBytes? s = some name) :
    IsName s := by
  unfold Name.ofBytes? at h
  split at h
  · assumption
  · cases h

section Walk

variable {t : FileTree} {final : FinalLink} {loc here : Location} {last : Bytes}
  {onLink : Location → Bytes → List Bytes → Except Fault Place}

theorem isName_of_walkUpTo_singleton (hleaf : t.get? loc ≠ some .directory)
    (h : t.walkUpTo final onLink here [last] = .ok (.present loc)) : IsName last := by
  simp only [walkUpTo] at h
  split at h
  · cases h
  · next hdir =>
      have hhere : t.get? here = some .directory := by simpa [isDirectoryAt] using hdir
      split at h
      · obtain rfl := Place.present.inj (Except.ok.inj h)
        exact absurd hhere hleaf
      · split at h
        · obtain rfl := Place.present.inj (Except.ok.inj h)
          exact absurd (get?_tail_of_ne_none (by simp [hhere])) hleaf
        · split at h
          · cases h
          · next hname => exact isName_of_ofBytes? hname

/-- The last segment of a walk up to a link, if the segments after each link end in a name. -/
theorem isName_of_walkUpTo {segments : List Bytes} (hleaf : t.get? loc ≠ some .directory)
    (hlink : ∀ dir target rest, onLink dir target rest = .ok (.present loc) →
      rest.getLast? = some last → IsName last)
    (h : t.walkUpTo final onLink here segments = .ok (.present loc))
    (hlast : segments.getLast? = some last) : IsName last := by
  induction segments generalizing here with
  | nil => cases hlast
  | cons segment rest ih =>
      cases rest with
      | nil =>
          obtain rfl : segment = last := by simpa using hlast
          exact isName_of_walkUpTo_singleton hleaf h
      | cons next rest =>
          rw [List.getLast?_cons_cons] at hlast
          rw [walkUpTo] at h
          split at h
          · cases h
          · split at h
            · exact ih h hlast
            · split at h
              · exact ih h hlast
              · split at h
                · cases h
                · split at h
                  · cases h
                  · exact hlink _ _ _ h hlast
                  · exact ih h hlast

theorem isName_of_walk {links : Nat} {segments : List Bytes}
    (hleaf : t.get? loc ≠ some .directory)
    (h : t.walk final links here segments = .ok (.present loc))
    (hlast : segments.getLast? = some last) : IsName last := by
  induction links generalizing here segments with
  | zero => exact isName_of_walkUpTo hleaf (fun _ _ _ hloop ↦ by cases hloop) h hlast
  | succ links ih =>
      apply isName_of_walkUpTo hleaf _ h hlast
      intro dir target rest hrest hend
      split at hrest
      · cases hrest
      · apply ih hrest
        -- what a link stands for comes before the segments after it
        rw [List.getLast?_append, hend, Option.some_or]

end Walk

/-- A path that leads somewhere is one that the system takes, and its segments are walked. -/
theorem walk_of_locate {t : FileTree} {path : Bytes} {loc : Location}
    (h : t.locate path = .ok loc) :
    0 ∉ path ∧ path ≠ [] ∧ path.length < pathSizeLimit ∧
      t.walk .follow maxLinks (if Path.isAbsolute path then [] else t.workDir)
        (Path.segments path) = .ok (.present loc) := by
  have hresolve := resolve_eq_of_locate h
  unfold resolve at hresolve
  split at hresolve
  · cases hresolve
  · next hnul =>
      split at hresolve
      · cases hresolve
      · next hne =>
          split at hresolve
          · cases hresolve
          · next hsize => exact ⟨hnul, hne, Nat.lt_of_not_le hsize, hresolve⟩

theorem isName_of_locate {t : FileTree} {path last : Bytes} {loc : Location}
    (h : t.locate path = .ok loc) (hleaf : t.get? loc ≠ some .directory)
    (hlast : (Path.segments path).getLast? = some last) : IsName last :=
  isName_of_walk hleaf (walk_of_locate h).2.2.2 hlast

end FileTree
end ConfigSnapshot
