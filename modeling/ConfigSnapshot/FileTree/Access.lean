import ConfigSnapshot.FileTree.Walk

/-!
# Reading and writing by path
-/

namespace ConfigSnapshot
namespace FileTree

/-- Whether a path leads to a directory. -/
def isDirectory (t : FileTree) (path : Bytes) : Bool :=
  match t.locate path with
  | .ok loc => t.isDirectoryAt loc
  | .error _ => false

/-- Whether a path leads to a regular file. -/
def isFile (t : FileTree) (path : Bytes) : Bool :=
  match t.locate path with
  | .ok loc =>
      match t.get? loc with
      | some (.file _) => true
      | _ => false
  | .error _ => false

/-- The names in the directory that a path leads to. -/
def list (t : FileTree) (path : Bytes) : Except Fault (List Bytes) :=
  match t.locate path with
  | .ok loc =>
      if t.isDirectoryAt loc then .ok ((t.namesIn loc).map Subtype.val)
      else .error .notDirectory
  | .error fault => .error fault

/-- The content of the file that a path leads to. -/
def read (t : FileTree) (path : Bytes) : Except Fault ByteArray :=
  match t.locate path with
  | .ok loc =>
      match t.get? loc with
      | some (.file content) => .ok content
      | some .directory => .error .isDirectory
      | _ => .error .notFound
  | .error fault => .error fault

/-- The content of the file that a path leads to, as text. -/
def readText (t : FileTree) (path : Bytes) : Except Fault String :=
  match t.read path with
  | .ok content =>
      match String.fromUTF8? content with
      | some text => .ok text
      | none => .error .notText
  | .error fault => .error fault

/-- The tree with one more entry. -/
def create (t : FileTree) (dir : Location) (name : Name) (entry : Entry) :
    Except Fault FileTree :=
  if h : t.get? dir = some .directory ∧ t.get? (name :: dir) = none then
    .ok (t.insert dir name entry h.1 h.2)
  else .error .alreadyExists

/-- The tree after a file is written: one that exists keeps its place and gets the content, also
behind links, and one that does not is made. -/
def write (t : FileTree) (path : Bytes) (content : ByteArray) : Except Fault FileTree :=
  match t.resolve .follow path with
  | .ok (.present loc) =>
      if t.isDirectoryAt loc then .error .isDirectory else .ok (t.setContent loc content)
  | .ok (.vacant dir name) => t.create dir name (.file content)
  | .error fault => .error fault

end FileTree
end ConfigSnapshot
