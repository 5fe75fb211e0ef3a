import VersionedStore.Files.Tree
import VersionedStore.StoreError

/-!
# Writing all or nothing

A file is written under another name first and then takes its place, so that the old contents stay
until the new ones are complete.  The directory of the file is made if it is not there.
-/

namespace VersionedStore.FileTree

def writeError (what : String) (p : Path) (e : FileError) : StoreError :=
  .writeFailure (what ++ " '" ++ p.text ++ "': " ++ e.message)

/-- Makes the directory of a path, unless it is the working directory. -/
def makeParent (t : FileTree) (p : Path) : Except StoreError Unit × FileTree :=
  match p.parent? with
  | none => (.ok (), t)
  | some dir =>
    if dir.isEmpty then (.ok (), t)
    else
      match makeDirectories t dir with
      | (.ok (), t') => (.ok (), t')
      | (.error e, t') => (.error (writeError "Failed to create directory" dir e), t')

def WriteStep.failure : WriteStep → String
  | create => "Failed to create temp file"
  | fill => "Failed to write temp file"
  | sync => "Failed to sync temp file"

/-- Writes the temporary file of a path and puts it in the place of the file. -/
def replace (t : FileTree) (p : Path) (bytes : List UInt8) : Except StoreError Unit × FileTree :=
  match write t p.temporary bytes with
  | (.error (step, e), t') => (.error (writeError step.failure p.temporary e), t')
  | (.ok (), t') =>
    match rename t' p.temporary p with
    | .error e => (.error (writeError "Failed to replace" p e), t')
    | .ok t'' => (.ok (), t'')

/-- Writes a file by way of its temporary file. -/
def writeAtomically (t : FileTree) (p : Path) (bytes : List UInt8) :
    Except StoreError Unit × FileTree :=
  match makeParent t p with
  | (.error e, t') => (.error e, t')
  | (.ok (), t') => replace t' p bytes

end VersionedStore.FileTree
