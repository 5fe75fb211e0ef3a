import VersionedStore.Files.Path
import VersionedStore.Table
import VersionedStore.Text.Utf8

/-!
# File trees

The files and directories below a root.  A tree is a table of the ways to its entries, and the
operations on it are those of a file system, with its ways of failing.

* `lookup`: the entry at a place, which all statements about a tree are made with;
* `locate`: the place that a path leads to;
* `read`, `write`, `makeDirectory`, `rename`, `remove`: the operations;
* `makeDirectories`: a directory with all that lie on its way;
* `lookup_put`, `lookup_erase`: what a change does to the entry of every place.

What stands in a tree makes an operation fail in the same way every time.  A device can also break
off any writing, with part of the bytes in the file; its faults stand ready in the tree.  The writer
hears of such a fault when it goes on writing, and not if there was nothing more to write.

There are files and directories only: links, permissions and what other programs do to the files are
left out.
-/

namespace VersionedStore

/-- A file with its bytes, or a directory. -/
inductive Entry
  | directory
  | file (bytes : List UInt8)
  deriving DecidableEq, Repr

/-- Why an operation on files fails. -/
inductive FileError
  | notFound
  | busy
  | occupied
  | notDirectory
  | isDirectory
  | nameTooLong
  /-- A name that no file can have. -/
  | nulInName
  /-- Bytes that were to be text. -/
  | notText
  /-- The device is full. -/
  | noSpace
  /-- The device does not answer. -/
  | noAnswer
  deriving DecidableEq, Repr

def FileError.message : FileError → String
  | notFound => "No such file or directory (os error 2)"
  | busy => "Device or resource busy (os error 16)"
  | occupied => "File exists (os error 17)"
  | notDirectory => "Not a directory (os error 20)"
  | isDirectory => "Is a directory (os error 21)"
  | nameTooLong => "File name too long (os error 36)"
  | nulInName => "file name contained an unexpected NUL byte"
  | notText => "stream did not contain valid UTF-8"
  | noSpace => "No space left on device (os error 28)"
  | noAnswer => "Input/output error (os error 5)"

/-- A fault of the device while a file is filled. -/
inductive DeviceFault
  /-- Only so many bytes are taken. -/
  | torn (taken : Nat) (error : FileError)
  /-- All bytes are taken and cannot be made to last. -/
  | unsynced (error : FileError)
  deriving DecidableEq, Repr

/-- The names on the way from the root. -/
abbrev Way := List String

/-- What there is below a root. -/
structure FileTree where
  entries : Table Way Entry := []
  /-- The working directory. -/
  here : Way := []
  /-- What befalls the next writings, one after another; those after the last go well. -/
  faults : List (Option DeviceFault) := []
  deriving DecidableEq

namespace FileTree

/-- The entry at the end of a way; the root is always there. -/
def lookup (t : FileTree) (w : Way) : Option Entry :=
  if w = [] then some .directory else t.entries.get? w

/-- The tree with an entry put at the end of a way. -/
def put (t : FileTree) (w : Way) (e : Entry) : FileTree := { t with entries := t.entries.put w e }

/-- The tree without the entry at the end of a way. -/
def erase (t : FileTree) (w : Way) : FileTree := { t with entries := t.entries.erase w }

theorem lookup_put {w : Way} (hw : w ≠ []) (t : FileTree) (e : Entry) (v : Way) :
    (t.put w e).lookup v = if v = w then some e else t.lookup v := by
  unfold lookup put
  by_cases hv : v = []
  · subst hv
    simp [hw.symm]
  · simp [hv, Table.get?_put]

theorem lookup_erase {w : Way} (hw : w ≠ []) (t : FileTree) (v : Way) :
    (t.erase w).lookup v = if v = w then none else t.lookup v := by
  unfold lookup erase
  by_cases hv : v = []
  · subst hv
    simp [hw.symm]
  · simp [hv, Table.get?_erase]

/-! ### Places -/

/-- The greatest length of a name, in bytes. -/
def maxName : Nat := 255

/-- The greatest length of a path, in bytes. -/
def maxPath : Nat := 4095

/-- A name that is too long for a file. -/
def isTooLong (name : String) : Bool := maxName < name.utf8ByteSize

/-- Where a path leads. -/
inductive Place
  /-- A name in a directory, present or not; `slash` tells whether the path goes on after it. -/
  | named (dir : Way) (name : String) (slash : Bool)
  /-- A directory that the path reaches by dots, or without any name. -/
  | reached (dir : Way)
  deriving DecidableEq, Repr

/-- The directory where a path begins: the root if the path starts with a slash. -/
def start (t : FileTree) (p : Path) : Way := if p.isAbsolute then [] else t.here

/-- The ways that lie before a path from a directory on, whatever stands there. -/
def waysFrom : Way → List String → List Way
  | _, [] => []
  | here, p :: ps =>
    if Path.isSilent p then waysFrom here ps
    else if p = ".." then waysFrom here.dropLast ps
    else (here ++ [p]) :: waysFrom (here ++ [p]) ps

/-- The ways that lie before a path. -/
def ways (t : FileTree) (p : Path) : List Way := waysFrom (t.start p) p.pieces

/-- Goes on from a directory, through directories only. -/
def walk (t : FileTree) : Way → List String → Except FileError Way
  | here, [] => .ok here
  | here, p :: ps =>
    if Path.isSilent p then walk t here ps
    else if p = ".." then walk t here.dropLast ps
    else if isTooLong p then .error .nameTooLong
    else
      match t.lookup (here ++ [p]) with
      | none => .error .notFound
      | some (.file _) => .error .notDirectory
      | some .directory => walk t (here ++ [p]) ps

/-- The place of a path. -/
def locate (t : FileTree) (p : Path) : Except FileError Place :=
  if p.text.toList.any (· = '\x00') then .error .nulInName
  else if p.isEmpty then .error .notFound
  else if maxPath < p.text.utf8ByteSize then .error .nameTooLong
  else
    let slash := p.pieces.getLast? = some ""
    match p.pieces.reverse.dropWhile (· = "") with
    | [] => .ok (.reached [])
    | last :: up =>
      match walk t (t.start p) up.reverse with
      | .error e => .error e
      | .ok dir =>
        if last = "." then .ok (.reached dir)
        else if last = ".." then .ok (.reached dir.dropLast)
        else if isTooLong last then .error .nameTooLong
        else .ok (.named dir last slash)

/-! ### Operations -/

/-- The bytes of a file. -/
def read (t : FileTree) (p : Path) : Except FileError (List UInt8) :=
  match locate t p with
  | .error e => .error e
  | .ok (.reached _) => .error .isDirectory
  | .ok (.named dir name slash) =>
    match t.lookup (dir ++ [name]) with
    | none => .error .notFound
    | some .directory => .error .isDirectory
    | some (.file bytes) => if slash then .error .notDirectory else .ok bytes

def readText (t : FileTree) (p : Path) : Except FileError String :=
  match read t p with
  | .error e => .error e
  | .ok bytes =>
    match Text.decode? bytes with
    | some cs => .ok (String.ofList cs)
    | none => .error .notText

def isDirectory (t : FileTree) (p : Path) : Bool :=
  match locate t p with
  | .error _ => false
  | .ok (.reached _) => true
  | .ok (.named dir name _) => t.lookup (dir ++ [name]) = some .directory

/-- The steps of writing a file. -/
inductive WriteStep
  | create
  | fill
  | sync
  deriving DecidableEq, Repr

/-- Opens a file for writing: it is made if it is not there, and emptied. -/
def create (t : FileTree) (p : Path) : Except FileError (Way × FileTree) :=
  match locate t p with
  | .error e => .error e
  | .ok (.reached _) => .error .isDirectory
  | .ok (.named dir name slash) =>
    if slash || t.lookup (dir ++ [name]) = some .directory then .error .isDirectory
    else .ok (dir ++ [name], t.put (dir ++ [name]) (.file []))

/-- What the device takes of the bytes that are written next. -/
def taken (t : FileTree) (bytes : List UInt8) : List UInt8 :=
  match t.faults.head?.join with
  | some (.torn k _) => bytes.take k
  | _ => bytes

/-- How many bytes are handed to the device at a time. -/
def pieceSize : Nat := 0x200000

/-- Whether the writer hears that the device broke off.  It hears so of one piece when it hands over
the next one, and never of the last piece. -/
def isTold (size taken : Nat) : Bool := (taken / pieceSize + 1) * pieceSize < size

/-- Fills a file that was opened, as far as the device lets it. -/
def fill (t : FileTree) (w : Way) (bytes : List UInt8) :
    Except (WriteStep × FileError) Unit × FileTree :=
  let filled := ({ t with faults := t.faults.tail } : FileTree).put w (.file (t.taken bytes))
  match t.faults.head?.join with
  | none => (.ok (), filled)
  | some (.torn k e) => (if isTold bytes.length k then .error (.fill, e) else .ok (), filled)
  | some (.unsynced e) => (.error (.sync, e), filled)

/-- Writes a file, which is made if it is not there, or tells the step that failed. -/
def write (t : FileTree) (p : Path) (bytes : List UInt8) :
    Except (WriteStep × FileError) Unit × FileTree :=
  match create t p with
  | .error e => (.error (.create, e), t)
  | .ok (w, t') => fill t' w bytes

/-- Makes a directory. -/
def makeDirectory (t : FileTree) (p : Path) : Except FileError FileTree :=
  match locate t p with
  | .error e => .error e
  | .ok (.reached _) => .error .occupied
  | .ok (.named dir name _) =>
    if (t.lookup (dir ++ [name])).isSome then .error .occupied
    else .ok (t.put (dir ++ [name]) .directory)

/-- Makes the first of the given directories after those that lie on its way. -/
def makeFirst (t : FileTree) : List Path → Except FileError Unit × FileTree
  | [] => (.ok (), t)
  | p :: ps =>
    match makeDirectory t p with
    | .ok t' => (.ok (), t')
    | .error .notFound =>
      match makeFirst t ps with
      | (.error e, t') => (.error e, t')
      | (.ok (), t') =>
        match makeDirectory t' p with
        | .ok t'' => (.ok (), t'')
        | .error e => (if isDirectory t' p then .ok () else .error e, t')
    | .error e => (if isDirectory t p then .ok () else .error e, t)

/-- Makes a directory and the directories on its way, as far as they are not there.  Those that were
made stay even if the last one cannot be made. -/
def makeDirectories (t : FileTree) (p : Path) : Except FileError Unit × FileTree :=
  makeFirst t p.ancestors

/-- Puts a file in the place of another, or in a free one. -/
def rename (t : FileTree) (source target : Path) : Except FileError FileTree :=
  match locate t source, locate t target with
  | .error e, _ => .error e
  | _, .error e => .error e
  | .ok (.reached _), _ => .error .busy
  | _, .ok (.reached _) => .error .busy
  | .ok (.named dir name _), .ok (.named dir' name' slash) =>
    match t.lookup (dir ++ [name]) with
    | none => .error .notFound
    | some e =>
      if slash then .error .notDirectory
      else if t.lookup (dir' ++ [name']) = some .directory then .error .isDirectory
      else .ok ((t.erase (dir ++ [name])).put (dir' ++ [name']) e)

/-- Removes a file. -/
def remove (t : FileTree) (p : Path) : Except FileError FileTree :=
  match locate t p with
  | .error e => .error e
  | .ok (.reached _) => .error .isDirectory
  | .ok (.named dir name _) =>
    match t.lookup (dir ++ [name]) with
    | none => .error .notFound
    | some .directory => .error .isDirectory
    | some (.file _) => .ok (t.erase (dir ++ [name]))

end FileTree

end VersionedStore
