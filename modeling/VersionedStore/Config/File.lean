import VersionedStore.Config
import VersionedStore.Files.Tree

/-!
# Configuration files

A configuration that is read from a file of its own.
-/

namespace VersionedStore.Config

def ofFile (t : FileTree) (path : Path) : Except StoreError Config :=
  match t.readText path with
  | .ok text => parse text
  | .error e => .error (.io ("Failed to read config '" ++ path.text ++ "': " ++ e.message))

end VersionedStore.Config
