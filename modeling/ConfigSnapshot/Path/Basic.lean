import ConfigSnapshot.Text.Bytes

/-!
# Paths

A path is cut into segments at its slashes. Empty segments and `.` name nothing, `..` names the
directory above, and any other segment names an entry of a directory.
-/

namespace ConfigSnapshot
namespace Path

def separator : UInt8 := '/'.toUInt8

def dot : UInt8 := '.'.toUInt8

/-- What lies between the slashes of a path. -/
def segments (path : Bytes) : List Bytes :=
  path.splitOn separator

def isAbsolute (path : Bytes) : Bool :=
  path.head? = some separator

/-- Whether the path has a slash at its end. -/
def endsInSeparator (path : Bytes) : Bool :=
  path.getLast? = some separator

/-- The path without the slashes at its end. -/
def withoutEndSeparators (path : Bytes) : Bytes :=
  (path.reverse.dropWhile (· = separator)).reverse

/-- Whether the segment stands for no step at all. -/
def isIdle (segment : Bytes) : Bool :=
  segment = [] || segment = [dot]

/-- Whether the segment stands for a step upwards. -/
def isUpward (segment : Bytes) : Bool :=
  segment = [dot, dot]

/-- The name that the path ends in, if it ends in one and not in a step upwards. -/
def fileName? (path : Bytes) : Option Bytes :=
  ((segments path).filter (!isIdle ·)).getLast?.filter (!isUpward ·)

/-- The path of an entry of the directory at `dir`. -/
def join (dir name : Bytes) : Bytes :=
  if endsInSeparator dir then dir ++ name else dir ++ separator :: name

/-- The name up to its last dot. A name without a dot, or with its only dot in front, has no
extension to take away. -/
def stem (name : Bytes) : Bytes :=
  match name.reverse.dropWhile (· ≠ dot) with
  | [] | [_] => name
  | _ :: front => front.reverse

end Path
end ConfigSnapshot
