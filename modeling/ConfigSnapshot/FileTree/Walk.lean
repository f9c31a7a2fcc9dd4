import ConfigSnapshot.FileTree.Basic
import ConfigSnapshot.FileTree.Fault

/-!
# Where a path leads

A path is walked segment by segment, from the root if it starts with a slash and from the
working directory if not. A step can only be taken in a directory; a step upwards from the root
stays there. At a symbolic link the walk goes on with the link's target in place of its name,
for at most `maxLinks` links in all.
-/

namespace ConfigSnapshot

/-- The number of symbolic links that one walk may follow. -/
def maxLinks : Nat := 40

/-- A path has to have fewer bytes than this. -/
def pathSizeLimit : Nat := 4096

/-- What becomes of a symbolic link that a path ends in. -/
inductive FinalLink
  | follow
  | keep
  deriving DecidableEq

/-- Where a path leads: to something in the tree, or to a name that is free in its directory. -/
inductive Place
  | present (loc : Location)
  | vacant (dir : Location) (name : Name)
  deriving DecidableEq

namespace FileTree

/-- The walk from a location along segments, up to the first link to be followed, where `onLink`
takes over with the link's directory, its target and the segments after it. -/
def walkUpTo (t : FileTree) (final : FinalLink)
    (onLink : Location → Bytes → List Bytes → Except Fault Place) :
    Location → List Bytes → Except Fault Place
  | here, [] => .ok (.present here)
  | here, segment :: rest =>
      if !t.isDirectoryAt here then .error .notDirectory
      else if Path.isIdle segment then t.walkUpTo final onLink here rest
      else if Path.isUpward segment then t.walkUpTo final onLink here.tail rest
      else
        match Name.ofBytes? segment with
        | none => .error .nameTooLong
        | some name =>
            match t.get? (name :: here) with
            | none => if rest.isEmpty then .ok (.vacant here name) else .error .notFound
            | some (.link target) =>
                if rest.isEmpty && final = .keep then .ok (.present (name :: here))
                else onLink here target rest
            | some _ => t.walkUpTo final onLink (name :: here) rest

/-- The walk along segments that may follow so many links. -/
def walk (t : FileTree) (final : FinalLink) :
    Nat → Location → List Bytes → Except Fault Place
  | 0 => t.walkUpTo final fun _ _ _ ↦ .error .linkLoop
  | links + 1 =>
      t.walkUpTo final fun dir target rest ↦
        if target = [] then .error .notFound
        else
          t.walk final links (if Path.isAbsolute target then [] else dir)
            (Path.segments target ++ rest)

/-- Where a path leads. -/
def resolve (t : FileTree) (final : FinalLink) (path : Bytes) : Except Fault Place :=
  if 0 ∈ path then .error .nulInPath
  else if path = [] then .error .notFound
  else if pathSizeLimit ≤ path.length then .error .nameTooLong
  else
    t.walk final maxLinks (if Path.isAbsolute path then [] else t.workDir) (Path.segments path)

/-- The location of what a path leads to, all links followed. -/
def locate (t : FileTree) (path : Bytes) : Except Fault Location :=
  match t.resolve .follow path with
  | .ok (.present loc) => .ok loc
  | .ok (.vacant _ _) => .error .notFound
  | .error fault => .error fault

end FileTree
end ConfigSnapshot
