import ConfigSnapshot.Proofs.FileTree.Named
import ConfigSnapshot.Proofs.Path.Join

/-!
# Where the path of an entry leads

A walk along more segments goes on where the walk along the first of them ended, with the links
that it has left. So the path of an entry, which is the path of its directory with the name behind
it, leads to the entry itself unless the entry is a link. It can still be too long to be followed.
-/

namespace ConfigSnapshot
namespace FileTree

section Walk

variable {t : FileTree} {here loc : Location} {segment : Bytes} {front : List Bytes}
  {onLink : Location → Bytes → List Bytes → Except Fault Place}

/-- A first step after which a place is reached goes to the next location or follows a link, and
does so whatever segments come after it. -/
theorem walkUpTo_cons_cases {rest : List Bytes}
    (h : t.walkUpTo .follow onLink here (segment :: rest) = .ok (.present loc)) :
    (∃ next, ∀ more, t.walkUpTo .follow onLink here (segment :: more) =
        t.walkUpTo .follow onLink next more) ∨
      ∃ target, ∀ more, t.walkUpTo .follow onLink here (segment :: more) =
        onLink here target more := by
  by_cases hdir : t.isDirectoryAt here = true
  · by_cases hidle : Path.isIdle segment = true
    · exact Or.inl ⟨here, fun more ↦ by simp only [walkUpTo, hdir, hidle, if_true]; rfl⟩
    · by_cases hup : Path.isUpward segment = true
      · refine Or.inl ⟨here.tail, fun more ↦ ?_⟩
        rw [walkUpTo, if_neg (by simp [hdir]), if_neg hidle, if_pos hup]
      · cases hname : Name.ofBytes? segment with
        | none => simp [walkUpTo, hdir, hidle, hup, hname] at h
        | some name =>
            cases hget : t.get? (name :: here) with
            | none =>
                simp only [walkUpTo, hdir, hidle, hup, hname, hget] at h
                cases rest <;> simp at h
            | some entry =>
                cases entry with
                | link target =>
                    exact Or.inr ⟨target, fun more ↦ by
                      simp [walkUpTo, hdir, hidle, hup, hname, hget]⟩
                | file content =>
                    exact Or.inl ⟨name :: here, fun more ↦ by
                      simp [walkUpTo, hdir, hidle, hup, hname, hget]⟩
                | directory =>
                    exact Or.inl ⟨name :: here, fun more ↦ by
                      simp [walkUpTo, hdir, hidle, hup, hname, hget]⟩
  · simp [walkUpTo, hdir] at h

theorem exists_walkUpTo_append
    (hstop : ∃ links, ∀ more, t.walkUpTo .follow onLink loc more = t.walk .follow links loc more)
    (hlink : ∀ dir target rest, onLink dir target rest = .ok (.present loc) →
      ∃ links, ∀ more, onLink dir target (rest ++ more) = t.walk .follow links loc more)
    (h : t.walkUpTo .follow onLink here front = .ok (.present loc)) :
    ∃ links, ∀ more, t.walkUpTo .follow onLink here (front ++ more) =
      t.walk .follow links loc more := by
  induction front generalizing here with
  | nil =>
      obtain rfl := Place.present.inj (Except.ok.inj h)
      exact hstop
  | cons segment rest ih =>
      simp only [List.cons_append]
      rcases walkUpTo_cons_cases h with ⟨next, hnext⟩ | ⟨target, htarget⟩
      · simp only [hnext] at h ⊢
        exact ih h
      · simp only [htarget] at h ⊢
        exact hlink here target rest h

/-- A walk that has reached a location goes on from there. -/
theorem exists_walk_append {links : Nat}
    (h : t.walk .follow links here front = .ok (.present loc)) :
    ∃ left, ∀ more, t.walk .follow links here (front ++ more) = t.walk .follow left loc more := by
  induction links generalizing here front with
  | zero => exact exists_walkUpTo_append ⟨0, fun _ ↦ rfl⟩ (fun _ _ _ hloop ↦ by cases hloop) h
  | succ links ih =>
      refine exists_walkUpTo_append ⟨links + 1, fun _ ↦ rfl⟩ ?_ h
      intro dir target rest hrest
      split at hrest
      · cases hrest
      · next hne =>
          simp only [if_neg hne, ← List.append_assoc]
          exact ih hrest

theorem walkUpTo_of_append_idle
    (hlink : ∀ dir target rest, onLink dir target (rest ++ [[]]) = .ok (.present loc) →
      onLink dir target rest = .ok (.present loc))
    (h : t.walkUpTo .follow onLink here (front ++ [[]]) = .ok (.present loc)) :
    t.walkUpTo .follow onLink here front = .ok (.present loc) := by
  induction front generalizing here with
  | nil =>
      rw [List.nil_append, walkUpTo] at h
      split at h
      · cases h
      · exact h
  | cons segment rest ih =>
      rcases walkUpTo_cons_cases h with ⟨next, hnext⟩ | ⟨target, htarget⟩
      · rw [List.cons_append, hnext] at h
        rw [hnext]
        exact ih h
      · rw [List.cons_append, htarget] at h
        rw [htarget]
        exact hlink here target rest h

/-- A slash at the end of a path asks for a directory and is no step of its own. -/
theorem walk_of_append_idle {links : Nat}
    (h : t.walk .follow links here (front ++ [[]]) = .ok (.present loc)) :
    t.walk .follow links here front = .ok (.present loc) := by
  induction links generalizing here front with
  | zero => exact walkUpTo_of_append_idle (fun _ _ _ hloop ↦ by cases hloop) h
  | succ links ih =>
      refine walkUpTo_of_append_idle ?_ h
      intro dir target rest hrest
      split at hrest
      · cases hrest
      · next hne =>
          rw [if_neg hne]
          rw [← List.append_assoc] at hrest
          exact ih hrest

end Walk

section Join

variable {t : FileTree} {dir : Bytes} {loc : Location}

/-- The path of an entry leads where a walk from the directory to the entry does. -/
theorem exists_resolve_join (hloc : t.locate dir = .ok loc) :
    ∃ links, ∀ name, IsName name → (Path.join dir name).length < pathSizeLimit →
      t.resolve .follow (Path.join dir name) = t.walk .follow links loc [name] := by
  obtain ⟨hnul, hne, -, hwalk⟩ := walk_of_locate hloc
  obtain ⟨front, -, hfront, hjoin⟩ := Path.exists_segments_join dir
  have hfrontWalk : t.walk .follow maxLinks (if Path.isAbsolute dir then [] else t.workDir)
      front = .ok (.present loc) := by
    rcases hfront with hfront | hfront
    · rwa [hfront] at hwalk
    · rw [hfront] at hwalk
      exact walk_of_append_idle hwalk
  obtain ⟨links, hlinks⟩ := exists_walk_append hfrontWalk
  refine ⟨links, fun name hname hsize ↦ ?_⟩
  have hnulJoin := Path.not_mem_join (by decide) hnul hname.2.2.2.1
  rw [resolve, if_neg hnulJoin, if_neg (Path.join_ne_nil dir name),
    if_neg (Nat.not_le_of_lt hsize), Path.isAbsolute_join hne, hjoin name hname]
  exact hlinks [name]

/-- An entry that is no link is where its path leads. -/
theorem locate_join_of_entry {name : Name} {entry : Entry} (hloc : t.locate dir = .ok loc)
    (hdir : t.isDirectoryAt loc = true) (hget : t.get? (name :: loc) = some entry)
    (hentry : ∀ target, entry ≠ .link target)
    (hsize : (Path.join dir name.val).length < pathSizeLimit) :
    t.locate (Path.join dir name.val) = .ok (name :: loc) := by
  obtain ⟨links, hlinks⟩ := exists_resolve_join hloc
  have hstep (onLink : Location → Bytes → List Bytes → Except Fault Place) :
      t.walkUpTo .follow onLink loc [name.val] = .ok (.present (name :: loc)) := by
    have hname : Name.ofBytes? name.val = some name := dif_pos name.property
    cases entry with
    | link target => exact absurd rfl (hentry target)
    | file content => simp [walkUpTo, hdir, name.property.1, name.property.2.1, hname, hget]
    | directory => simp [walkUpTo, hdir, name.property.1, name.property.2.1, hname, hget]
  have hwalk : t.walk .follow links loc [name.val] = .ok (.present (name :: loc)) := by
    cases links with
    | zero => exact hstep _
    | succ links => exact hstep _
  rw [locate, hlinks name.val name.property hsize, hwalk]

theorem isFile_join_of_file {name : Name} {content : ByteArray} (hloc : t.locate dir = .ok loc)
    (hdir : t.isDirectoryAt loc = true) (hget : t.get? (name :: loc) = some (.file content))
    (hsize : (Path.join dir name.val).length < pathSizeLimit) :
    t.isFile (Path.join dir name.val) = true := by
  have hlocate := locate_join_of_entry hloc hdir hget (by simp) hsize
  exact isFile_iff.mpr ⟨name :: loc, content, hlocate, hget⟩

theorem isFile_join_of_directory {name : Name} (hloc : t.locate dir = .ok loc)
    (hdir : t.isDirectoryAt loc = true) (hget : t.get? (name :: loc) = some .directory) :
    t.isFile (Path.join dir name.val) = false := by
  rw [Bool.eq_false_iff, ne_eq, isFile_iff]
  rintro ⟨l, content, hleads⟩
  have hsize := (walk_of_locate hleads.locate).2.2.1
  have hlocate := locate_join_of_entry hloc hdir hget (by simp) hsize
  obtain rfl := Except.ok.inj (hlocate.symm.trans hleads.locate)
  rw [hleads.get?] at hget
  cases hget

end Join

end FileTree
end ConfigSnapshot
