import ConfigSnapshot.FileTree.Basic
import ConfigSnapshot.Path.Order

/-!
# Paths of entries

The path of an entry is the path of its directory with the entry's name behind it. It ends in
that name, and for the entries of one directory the order of the paths is the order of the bytes
of their names.
-/

namespace ConfigSnapshot
namespace Path

theorem segments_append_separator (front back : Bytes) :
    segments (front ++ separator :: back) = segments front ++ segments back :=
  List.splitOn_append_cons_self front back

theorem segments_of_not_mem {path : Bytes} (h : separator ∉ path) : segments path = [path] :=
  List.splitOn_eq_singleton h

/-- A slash at the end of the path of a directory is the one in front of the name. -/
theorem exists_join_eq (dir : Bytes) :
    ∃ front, (dir = front ∨ dir = front ++ [separator]) ∧
      ∀ name, join dir name = front ++ separator :: name := by
  cases hend : endsInSeparator dir with
  | true =>
      have hlast : dir.getLast? = some separator := by
        simpa [endsInSeparator] using hend
      obtain ⟨front, rfl⟩ := List.getLast?_eq_some_iff.mp hlast
      refine ⟨front, Or.inr rfl, fun name ↦ ?_⟩
      rw [join, if_pos hend, List.append_assoc]
      rfl
  | false => exact ⟨dir, Or.inl rfl, fun name ↦ by rw [join, if_neg (by simp [hend])]⟩

theorem join_injective (dir : Bytes) : Function.Injective (join dir) := by
  intro m n h
  obtain ⟨front, -, hfront⟩ := exists_join_eq dir
  rw [hfront, hfront, List.append_cancel_left_eq, List.cons.injEq] at h
  exact h.2

theorem join_ne_nil (dir name : Bytes) : join dir name ≠ [] := by
  obtain ⟨front, -, hfront⟩ := exists_join_eq dir
  rw [hfront]
  simp

theorem isAbsolute_join {dir : Bytes} (h : dir ≠ []) (name : Bytes) :
    isAbsolute (join dir name) = isAbsolute dir := by
  obtain ⟨front, hdir, hfront⟩ := exists_join_eq dir
  rw [isAbsolute, isAbsolute, hfront]
  rcases hdir with rfl | rfl
  · cases dir with
    | nil => exact absurd rfl h
    | cons b rest => rfl
  · cases front <;> rfl

theorem not_mem_join {dir name : Bytes} {b : UInt8} (hb : b ≠ separator) (hdir : b ∉ dir)
    (hname : b ∉ name) : b ∉ join dir name := by
  obtain ⟨front, hfront, hjoin⟩ := exists_join_eq dir
  rw [hjoin, List.mem_append, List.mem_cons, not_or, not_or]
  refine ⟨?_, hb, hname⟩
  rcases hfront with rfl | rfl
  · exact hdir
  · rw [List.mem_append, not_or] at hdir
    exact hdir.1

theorem exists_segments_join (dir : Bytes) :
    ∃ front : List Bytes, front ≠ [] ∧
      (segments dir = front ∨ segments dir = front ++ [[]]) ∧
        ∀ name, IsName name → segments (join dir name) = front ++ [name] := by
  obtain ⟨front, hdir, hfront⟩ := exists_join_eq dir
  refine ⟨segments front, List.splitOn_ne_nil separator front, ?_, ?_⟩
  · refine hdir.imp (fun hdir ↦ by rw [hdir]) fun hdir ↦ ?_
    rw [hdir, segments_append_separator, segments_of_not_mem List.not_mem_nil]
  · intro name hname
    rw [hfront, segments_append_separator, segments_of_not_mem hname.2.2.1]

theorem fileName?_of_getLast?_segments {path name : Bytes}
    (h : (segments path).getLast? = some name) (hname : IsName name) :
    fileName? path = some name := by
  obtain ⟨front, hfront⟩ := List.getLast?_eq_some_iff.mp h
  have hlast : ((segments path).filter (!isIdle ·)).getLast? = some name := by
    rw [hfront, List.filter_append, List.filter_cons_of_pos (by simp [hname.1])]
    simp
  rw [fileName?, hlast, Option.filter_some, hname.2.1]
  rfl

theorem fileName?_join (dir : Bytes) {name : Bytes} (h : IsName name) :
    fileName? (join dir name) = some name := by
  obtain ⟨front, -, -, hfront⟩ := exists_segments_join dir
  apply fileName?_of_getLast?_segments _ h
  rw [hfront name h, List.getLast?_concat]

theorem exists_components_join (dir : Bytes) :
    ∃ front, ∀ name, IsName name → components (join dir name) = front ++ [.name name] := by
  obtain ⟨text, -, htext⟩ := exists_join_eq dir
  obtain ⟨front, hne, -, hfront⟩ := exists_segments_join dir
  obtain ⟨first, rest, rfl⟩ := List.exists_cons_of_ne_nil hne
  refine ⟨(if (text ++ [separator]).head? = some separator then [.root]
    else if first = [dot] then [.current] else []) ++
      (first :: rest).filterMap Component.ofSegment?, ?_⟩
  intro name hname
  have habsolute : isAbsolute (join dir name) =
      decide ((text ++ [separator]).head? = some separator) := by
    rw [isAbsolute, htext]
    cases text <;> rfl
  have hlast : Component.ofSegment? name = some (.name name) := by
    rw [Component.ofSegment?, if_neg (by simp [hname.1]), if_neg (by simp [hname.2.1])]
  rw [components, habsolute, hfront name hname, List.filterMap_append, List.append_assoc]
  simp [hlast]

theorem append_singleton_lt_iff (front : List Bytes) {x y : Bytes} :
    front ++ [x] < front ++ [y] ↔ x < y := by
  induction front with
  | nil => simp [List.cons_lt_cons_iff]
  | cons z front ih => simp [ih]

/-- The order of the paths of entries is that of their names. -/
theorem le_join_iff (dir : Bytes) {m n : Bytes} (hm : IsName m) (hn : IsName n) :
    le (join dir m) (join dir n) = true ↔ m ≤ n := by
  obtain ⟨front, hfront⟩ := exists_components_join dir
  rw [le_iff, ← List.not_lt, ← List.not_lt, key, key, hfront m hm, hfront n hn, List.map_append,
    List.map_append, List.map_singleton, List.map_singleton, append_singleton_lt_iff,
    Component.key, Component.key, List.cons_lt_cons_iff]
  simp

end Path
end ConfigSnapshot
