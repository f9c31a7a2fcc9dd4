import ConfigSnapshot.Command.Run
import ConfigSnapshot.FileTree.Changes
import ConfigSnapshot.FileTree.Edit
import Std.Time.Format

/-!
# The command on the disk

The part of the disk that a run can reach is read into a tree, the run is worked out on the
tree, and the files that it has changed there are written back.
-/

namespace ConfigSnapshot
namespace Disk

/-- The tree with the directories on the way to an absolute path without links. -/
def withDirectory (t : FileTree) (path : Bytes) : FileTree :=
  (t.makeDirectories path).toOption.getD t

/-- The tree with a link to an absolute path, unless the path leads there by itself. -/
def withLink (t : FileTree) (path target : Bytes) : FileTree :=
  if path = target then t else (t.makeLink path target).toOption.getD t

/-- The tree with a file at an absolute path without links. -/
def withFile (t : FileTree) (path : Bytes) (content : ByteArray) : FileTree :=
  (t.write path content).toOption.getD t

/-- Reads the way along segments from a directory, and gives the directory at its end. -/
def readWay (t : FileTree) (here : Bytes) : List Bytes → IO (FileTree × Bytes)
  | [] => pure (withDirectory t here, here)
  | segment :: rest => do
      let path := Path.join here segment
      let there : Bytes := (← IO.FS.realPath path.display).toString
      let t := withDirectory t there
      if Path.isIdle segment || Path.isUpward segment then readWay t there rest
      else readWay (withLink t path there) there rest

/-- Reads the file that a name in a directory leads to; other names are passed over. -/
def readModule (t : FileTree) (dir name : Bytes) : IO FileTree := do
  let path := Path.join dir name
  let file? ← try
      let real ← IO.FS.realPath path.display
      match (← real.metadata).type with
      | .file => pure (some real)
      | _ => pure none
    catch _ => pure none
  match file? with
  | none => return t
  | some real =>
      let t := (real.parent.map fun p ↦ withDirectory t p.toString).getD t
      return withLink (withFile t real.toString (← IO.FS.readBinFile real)) path real.toString

/-- Reads the modules in a directory. The names that the system gives are texts here. -/
def read (dir : String) : IO FileTree := do
  let workDir ← IO.currentDir
  let t := withDirectory .empty workDir.toString
  let t := (t.enter workDir.toString).toOption.getD t
  if !(← (workDir / dir).isDir) then return t
  let start : Bytes := if Path.isAbsolute dir then "/" else workDir.toString
  let mut (t, real) ← readWay t start (Path.segments dir)
  for entry in ← (workDir / dir).readDir do
    if Conversion.isModuleName entry.fileName then t ← readModule t real entry.fileName
  return t

/-- Writes the files that differ between two trees. -/
def write (before after : FileTree) : IO Unit :=
  for change in before.changes after do
    if let some path := FileTree.pathBelow? [] change.1 then
      IO.FS.writeBinFile ("/" ++ path.display) change.2

/-- The time in the log's form. How long a conversion takes is not measured. -/
def clock : IO Log.Clock := do
  let now ← Std.Time.Timestamp.now
  let time := Std.Time.DateTime.ofTimestamp now Std.Time.TimeZone.ZoneRules.UTC
  return ⟨time.format "uuuu-MM-dd'T'HH:mm:ss.SSSSSS'Z'", "0ns"⟩

/-- The surroundings of the process. Hints on wrong usage are not given. -/
def surroundings : IO Command.Surroundings := do
  let advice : Command.Advice := ⟨"", "nixops4-snapshot-convert [OPTIONS] [MODULES_DIRECTORY]"⟩
  return ⟨← clock, ← (← IO.getStderr).isTty, fun _ _ ↦ advice⟩

end Disk
end ConfigSnapshot

open ConfigSnapshot in
def main (arguments : List String) : IO UInt32 := do
  let before ← match Command.parse arguments with
    | .ok (.run ⟨_, _, _, _, _, _, some dir⟩) => Disk.read dir
    | _ => pure .empty
  let answer := Command.run (← Disk.surroundings) before arguments
  Disk.write before answer.tree
  (← IO.getStdout).putStr answer.stdout
  (← IO.getStderr).putStr answer.stderr
  return answer.exitCode.toUInt32
