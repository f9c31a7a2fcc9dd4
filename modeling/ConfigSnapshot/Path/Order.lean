import ConfigSnapshot.Path.Basic

/-!
# The order of paths

Paths are compared component by component, from the left. The root comes before a leading `.`,
that before a step upwards, and that before any name; names are compared byte by byte.
-/

namespace ConfigSnapshot
namespace Path

/-- What a path is made of. -/
inductive Component
  | root
  | current
  | parent
  | name (bytes : Bytes)
  deriving DecidableEq, Repr

namespace Component

/-- Keys compare as the components do. -/
def key : Component → Bytes
  | .root => [0]
  | .current => [1]
  | .parent => [2]
  | .name bytes => 3 :: bytes

/-- The component that a segment stands for, if it stands for any. -/
def ofSegment? (segment : Bytes) : Option Component :=
  if isIdle segment then none
  else if isUpward segment then some .parent
  else some (.name segment)

end Component

/-- The components of a path. A `.` counts only at the very front. -/
def components (path : Bytes) : List Component :=
  let front : List Component :=
    if isAbsolute path then [.root]
    else if (segments path).head? = some [dot] then [.current]
    else []
  front ++ (segments path).filterMap Component.ofSegment?

/-- Paths compare as their keys do. -/
def key (path : Bytes) : List Bytes :=
  (components path).map Component.key

/-- Whether a path does not come after another. -/
def le (p q : Bytes) : Bool :=
  key p ≤ key q

/-- The paths in order. -/
def sort (paths : List Bytes) : List Bytes :=
  paths.mergeSort le

theorem le_iff {p q : Bytes} : le p q = true ↔ key p ≤ key q :=
  decide_eq_true_iff

/-- Sorting moves paths about and does nothing else. -/
theorem sort_perm (paths : List Bytes) : (sort paths).Perm paths :=
  List.mergeSort_perm paths le

theorem pairwise_sort (paths : List Bytes) :
    (sort paths).Pairwise fun p q ↦ le p q = true := by
  refine List.pairwise_mergeSort ?_ ?_ paths
  · intro p q r hpq hqr
    exact le_iff.mpr (List.le_trans (le_iff.mp hpq) (le_iff.mp hqr))
  · intro p q
    rw [Bool.or_eq_true, le_iff, le_iff]
    exact List.le_total (key p) (key q)

end Path
end ConfigSnapshot
