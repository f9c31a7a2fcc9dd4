import ConfigSnapshot.FileTree.Access

/-!
# Building and rearranging a tree
-/

namespace ConfigSnapshot
namespace FileTree

/-- A tree with nothing in it, whose working directory is the root. -/
def empty : FileTree where
  entries := []
  workDir := []
  distinct := List.nodup_nil
  rooted := by simp
  workDir_eq := rfl

/-- A tree with nothing but an empty working directory. -/
def scratch : FileTree where
  entries := [([⟨"work", by decide⟩], .directory)]
  workDir := [⟨"work", by decide⟩]
  distinct := by decide
  rooted := by decide
  workDir_eq := by decide

/-- Goes down along segments and makes each directory that is missing. A link that leads nowhere
is in the way of one. -/
def makeDirectoriesFrom (t : FileTree) (here : Location) : List Bytes → Except Fault FileTree
  | [] => .ok t
  | segment :: rest =>
      match t.walk .keep maxLinks here [segment], t.walk .follow maxLinks here [segment] with
      | .ok (.vacant dir name), _ =>
          match t.create dir name .directory with
          | .ok t => t.makeDirectoriesFrom (name :: dir) rest
          | .error fault => .error fault
      | _, .ok (.present loc) => t.makeDirectoriesFrom loc rest
      | _, .ok (.vacant _ _) => .error .alreadyExists
      | _, .error fault => .error fault

/-- The tree with a directory at the path, and those above it. -/
def makeDirectories (t : FileTree) (path : Bytes) : Except Fault FileTree :=
  t.makeDirectoriesFrom (if Path.isAbsolute path then [] else t.workDir) (Path.segments path)

/-- The tree with the directory that a path leads to as its working directory. -/
def enter (t : FileTree) (path : Bytes) : Except Fault FileTree :=
  match t.locate path with
  | .ok loc =>
      if h : t.get? loc = some .directory then .ok { t with workDir := loc, workDir_eq := h }
      else .error .notDirectory
  | .error fault => .error fault

/-- The tree with a link at a free path. -/
def makeLink (t : FileTree) (path target : Bytes) : Except Fault FileTree :=
  match t.resolve .keep path with
  | .ok (.vacant dir name) => t.create dir name (.link target)
  | .ok (.present _) => .error .alreadyExists
  | .error fault => .error fault

/-- The tree without the file or link at a path. -/
def remove (t : FileTree) (path : Bytes) : Except Fault FileTree :=
  match t.resolve .keep path with
  | .ok (.present loc) =>
      if h : t.get? loc = some .directory then .error .isDirectory else .ok (t.erase loc h)
  | .ok (.vacant _ _) => .error .notFound
  | .error fault => .error fault

/-- The location after what was at or below `source` has gone to `target`. -/
def relocated (source target loc : Location) : Location :=
  if source <:+ loc then loc.take (loc.length - source.length) ++ target else loc

/-- Whether what is at `target`, if there is anything, can make room for what is at `source`: an
empty directory for a directory, and anything else for anything else. -/
def makesRoom (t : FileTree) (source target : Location) : Bool :=
  match t.get? target with
  | none => true
  | some .directory => t.isDirectoryAt source && (t.namesIn target).isEmpty
  | some _ => !t.isDirectoryAt source

/-- The tree after a move. A directory cannot go below itself. -/
def move (t : FileTree) (source target : Location) : Except Fault FileTree :=
  if source = target then .ok t
  else if !t.makesRoom source target then .error .alreadyExists
  else
    let kept := t.entries.filter fun e ↦ e.1 ≠ target
    match ofEntries? (kept.map fun e ↦ (relocated source target e.1, e.2))
        (relocated source target t.workDir) with
    | some t => .ok t
    | none => .error .invalidMove

/-- Where the entry is that a path names by its last segment. Slashes at its end are no step into
the entry, and a path that ends in `.` or `..` names none. -/
def placeNamed (t : FileTree) (path : Bytes) : Except Fault Place :=
  let bare := Path.withoutEndSeparators path
  if (Path.segments bare).getLast?.any fun last ↦ last = [Path.dot] || Path.isUpward last then
    .error .invalidMove
  else t.resolve .keep bare

/-- The tree with the entry at a path moved to another path. Slashes at the end of either path
ask for a directory. -/
def rename (t : FileTree) (path newPath : Bytes) : Except Fault FileTree :=
  match t.placeNamed path with
  | .ok (.present source) =>
      if !t.isDirectoryAt source && (Path.endsInSeparator path || Path.endsInSeparator newPath) then
        .error .notDirectory
      else
        match t.placeNamed newPath with
        | .ok (.present target) => t.move source target
        | .ok (.vacant dir name) => t.move source (name :: dir)
        | .error fault => .error fault
  | .ok (.vacant _ _) => .error .notFound
  | .error fault => .error fault

end FileTree
end ConfigSnapshot
