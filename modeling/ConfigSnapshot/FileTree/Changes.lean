import ConfigSnapshot.FileTree.Basic

/-!
# Changes

Which files have other content in one tree than in another.
-/

namespace ConfigSnapshot
namespace FileTree

/-- The files of the second tree whose content is not what the first one has there. -/
def changes (before after : FileTree) : List (Location × ByteArray) :=
  after.entries.filterMap fun e ↦
    match e.2 with
    | .file content => if before.get? e.1 = some e.2 then none else some (e.1, content)
    | _ => none

/-- The path from the directory `dir` down to a location below it. -/
def pathBelow? (dir loc : Location) : Option Bytes :=
  if dir <:+ loc then
    some ([Path.separator].intercalate
      ((loc.take (loc.length - dir.length)).reverse.map Subtype.val))
  else none

/-- The changed files below the working directory, by their paths from there. -/
def changesInWorkDir (before after : FileTree) : List (Bytes × ByteArray) :=
  (before.changes after).filterMap fun change ↦
    (pathBelow? before.workDir change.1).map fun path ↦ (path, change.2)

end FileTree
end ConfigSnapshot
