import VersionedStore.Files.Atomic
import VersionedStore.Json.Reader
import VersionedStore.Storage.Basic

/-!
# Storage in a file

A document in a file of its own, as JSON over several lines.  A file that is missing or empty holds
no entries.  Every writing replaces the whole file; one that cannot be read is replaced as if it
were empty.
-/

namespace VersionedStore.FileStorage

/-- The document of a file's bytes, or why there is none. -/
def parse (path : Path) (bytes : List UInt8) : Except StoreError Object :=
  if bytes.isEmpty then .ok []
  else
    match Json.readDocument (Json.Input.ofBytes bytes) with
    | .ok (.object members) => .ok members
    | .ok v =>
      .error (.readFailure ("State file '" ++ path.text ++ "' holds a " ++
        Value.typeName (some v) ++ " instead of an object"))
    | .error e =>
      .error (.readFailure ("Failed to parse state file '" ++ path.text ++ "': " ++ e.message))

def readDocument (path : Path) (t : FileTree) : Except StoreError Object :=
  match t.read path with
  | .ok bytes => parse path bytes
  | .error .notFound => .ok []
  | .error e =>
    .error (.readFailure ("Failed to read state file '" ++ path.text ++ "': " ++ e.message))

/-- The bytes that a document is stored as. -/
def print (document : Object) : List UInt8 := Text.encode (Json.prettyChars 0 (.object document))

/-- The document that a writing starts from. -/
def base (path : Path) (t : FileTree) : Object :=
  match readDocument path t with
  | .ok document => document
  | .error _ => []

/-- Whether the directory of the file is there or can be made; it is made. -/
def isAvailable (path : Path) (t : FileTree) : Bool × FileTree :=
  match t.makeParent path with
  | (.ok (), t') => (true, t')
  | (.error _, t') => (false, t')

/-- A file as a storage. -/
def storage (path : Path) : Storage FileTree where
  isAvailable := isAvailable path
  get keys t := ((readDocument path t).map (·.select keys), t)
  set entries t := t.writeAtomically path (print ((base path t).merge entries))

end VersionedStore.FileStorage
