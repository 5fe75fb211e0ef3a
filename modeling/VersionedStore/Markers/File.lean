import VersionedStore.Files.Atomic
import VersionedStore.Markers.Basic

/-!
# Markers in files

Every marker is a file of a directory, named for the marker.  Only names that stay inside the
directory are taken.
-/

namespace VersionedStore.FileMarkers

/-- A character of a marker's name. -/
def isKeyChar (c : Char) : Bool := c.isAlphanum || c = '_' || c = '-' || c = '.'

/-- A name that is the name of a file in any directory. -/
def isKey (key : String) : Bool :=
  !key.isEmpty && key.toList.all isKeyChar && key ≠ "." && key ≠ ".."

def path (dir : Path) (key : String) : Except StoreError Path :=
  if isKey key then .ok (dir.child key) else .error (.io ("Invalid marker key '" ++ key ++ "'"))

/-- The value of a marker; a file that is not there is a marker that is not set. -/
def get (dir : Path) (key : String) (t : FileTree) : Except StoreError (Option String) :=
  match path dir key with
  | .error e => .error e
  | .ok p =>
    match t.readText p with
    | .ok value => .ok (some value)
    | .error .notFound => .ok none
    | .error e => .error (.io ("Failed to read marker '" ++ p.text ++ "': " ++ e.message))

def set (dir : Path) (key value : String) (t : FileTree) : Except StoreError Unit × FileTree :=
  match path dir key with
  | .error e => (.error e, t)
  | .ok p => t.writeAtomically p (Text.bytes value)

/-- The files of a directory as markers. -/
def markers (dir : Path) : Markers FileTree where
  get key t := (get dir key t, t)
  set key value t := set dir key value t

end VersionedStore.FileMarkers
