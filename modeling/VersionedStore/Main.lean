import Std.Time.DateTime.Timestamp
import VersionedStore.Tool.Run

/-!
# The command line

A command runs on a tree of files.  What it may read is taken into a tree, the command runs there,
and the changes of the tree are carried out on the disk.
-/

namespace VersionedStore.Disk

/-- The text of a way on the disk. -/
def place (w : Way) : String := "/" ++ "/".intercalate w

def isAbsence : IO.Error → Bool
  | .noFileOrDirectory .. | .invalidArgument .. => true
  | .inappropriateType _ code _ => code = 20
  | _ => false

def isDirectory : IO.Error → Bool
  | .inappropriateType _ code _ => code = 21
  | _ => false

/-- What stands at the end of a way. -/
def entry? (w : Way) : IO (Option Entry) := do
  try
    let bytes ← IO.FS.readBinFile (place w)
    return some (.file bytes.toList)
  catch e =>
    if isDirectory e then return some .directory
    else if isAbsence e then return none
    else throw e

/-- Takes what stands at the ends of ways into a tree. -/
def survey (t : FileTree) (ways : List Way) : IO FileTree :=
  ways.foldlM (fun t w => do return ((← entry? w).map (t.put w)).getD t) t

/-- Puts an entry at the end of a way, a file by way of a temporary one. -/
def put (w : Way) : Entry → IO Unit
  | .directory => IO.FS.createDir (place w)
  | .file bytes => do
    let temporary := place w ++ ".tmp"
    IO.FS.writeBinFile temporary ⟨bytes.toArray⟩
    IO.FS.rename temporary (place w)

/-- Carries the changes from a tree to another out. -/
def carryOut (before after : FileTree) : IO Unit := do
  for (w, _) in before.entries do
    if (after.lookup w).isNone then IO.FS.removeFile (place w)
  for (w, e) in after.entries do
    if before.lookup w ≠ some e then put w e

end VersionedStore.Disk

open VersionedStore

/-- Runs the command of the arguments. -/
def main (args : List String) : IO UInt32 := do
  let here := (Path.ofString (← IO.currentDir).toString).pieces.filter (! Path.isSilent ·)
  let root ← Disk.survey { here } (FileTree.waysFrom [] here)
  let configured ← Disk.survey root ((Tool.files args root).flatMap root.ways)
  let before ← Disk.survey configured ((Tool.files args configured).flatMap root.ways)
  let now ← Std.Time.Timestamp.now
  let (result, after) := Tool.run args now.toMillisecondsSinceUnixEpoch.toInt.toNat before
  Disk.carryOut before after
  IO.print result.out
  IO.eprint result.err
  return UInt32.ofNat result.code
