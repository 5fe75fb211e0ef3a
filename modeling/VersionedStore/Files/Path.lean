/-!
# Paths

A path is the list of what stands between the slashes of its text.  Pieces that are empty or a
single dot lead nowhere, and the operations that take the last name off a path look past them.

* `fileName?`, `parent?`: the last name and the way to it;
* `child`, `withFileName`: a name put at the end;
* `ancestors`: a path with all that lies on its way.
-/

namespace VersionedStore

/-- What stands between the slashes of a path; a path that starts with a slash starts with an empty
piece. -/
structure Path where
  pieces : List String
  deriving DecidableEq, Repr

namespace Path

/-- Splits a text at its slashes. -/
def split : List Char → List (List Char)
  | [] => [[]]
  | c :: cs =>
    if c = '/' then [] :: split cs
    else
      match split cs with
      | p :: ps => (c :: p) :: ps
      | [] => [[c]]

def ofString (s : String) : Path := ⟨(split s.toList).map String.ofList⟩

def text (p : Path) : String := "/".intercalate p.pieces

/-- A piece that leads nowhere. -/
def isSilent (piece : String) : Bool := piece = "" || piece = "."

/-- A path read backwards, without the pieces at its end that lead nowhere.  The first piece
stays. -/
def trim : List String → List String
  | p :: q :: ps => if isSilent p then trim (q :: ps) else p :: q :: ps
  | ps => ps

/-- The last name of a path. -/
def fileName? (p : Path) : Option String :=
  match trim p.pieces.reverse with
  | [] => none
  | [q] => if isSilent q || q = ".." then none else some q
  | q :: _ => if q = ".." then none else some q

/-- The path without its last piece. -/
def parent? (p : Path) : Option Path :=
  match trim p.pieces.reverse with
  | [] => none
  | [q] => if q = "" then none else some ⟨[""]⟩
  | _ :: up =>
    match trim up with
    | [""] => some ⟨["", ""]⟩
    | up => some ⟨up.reverse⟩

/-- The path of nothing at all, which is where the way of a relative path begins. -/
def isEmpty (p : Path) : Bool := p.pieces.all (· = "") && p.pieces.length ≤ 1

def isAbsolute (p : Path) : Bool := p.pieces.head? = some "" && 2 ≤ p.pieces.length

/-- The path of a name inside a directory. -/
def child (p : Path) (name : String) : Path :=
  match p.pieces.reverse with
  | "" :: up => ⟨up.reverse ++ [name]⟩
  | _ => ⟨p.pieces ++ [name]⟩

/-- The path with its last name replaced, or with a name added if it has none. -/
def withFileName (p : Path) (name : String) : Path :=
  match p.fileName?, p.parent? with
  | some _, some up => up.child name
  | _, _ => p.child name

/-- The paths on the way to a path read backwards, itself first. -/
def ancestorsFrom : List String → List Path
  | [] => []
  | [p] => if p = "" then [] else [⟨[p]⟩]
  | p :: q :: ps =>
    if isSilent p then ancestorsFrom (q :: ps)
    else ⟨(p :: q :: ps).reverse⟩ :: ancestorsFrom (q :: ps)

/-- A path and the paths on its way, the longest first. -/
def ancestors (p : Path) : List Path := ancestorsFrom p.pieces.reverse

/-- The path of the file that is written before it takes the place of another. -/
def temporary (p : Path) : Path := p.withFileName (p.fileName?.getD "" ++ ".tmp")

end Path

end VersionedStore
