import VersionedStore.Json.ReadError
import VersionedStore.Text.Utf8

/-!
# What is left to read

A JSON text is read from its front.  What is left of it after a reading is kept together with the
proof that it is shorter (`Rest`), or not longer (`Tail`), and readings one after another are put
together by the operations below.  This is why every loop over a text ends.

* `Tail.all`, `Tail.after`, `Rest.after`: nothing was read; a symbol was read before;
* `Tail.trans`, `Tail.rest`, `Rest.trans`: a reading goes on from what another one left;
* `next?`: the first symbol that is not blank, which `Rest.putBack` puts back.
-/

namespace VersionedStore.Json

open Text (Symbol)

/-- A text to be read. -/
abbrev Input := List Symbol

def Input.ofString (s : String) : Input := s.toList.map .char

def Input.ofBytes (bs : List UInt8) : Input := Text.symbols bs

/-- What is left of a text after some of it was read. -/
structure Rest (s : Input) where
  input : Input
  length_lt : input.length < s.length

/-- What is left of a text, all of it perhaps. -/
structure Tail (s : Input) where
  input : Input
  length_le : input.length ≤ s.length

namespace Tail

variable {s : Input}

/-- All of a text is left. -/
def all (s : Input) : Tail s := ⟨s, Nat.le_refl _⟩

/-- What is left of a text is left after a symbol in front of it. -/
def after (x : Symbol) (t : Tail s) : Rest (x :: s) := ⟨t.input, Nat.lt_succ_of_le t.length_le⟩

/-- What is left of what is left. -/
def trans (t : Tail s) (u : Tail t.input) : Tail s :=
  ⟨u.input, Nat.le_trans u.length_le t.length_le⟩

/-- What is left of what is left, after some more was read. -/
def rest (t : Tail s) (r : Rest t.input) : Rest s :=
  ⟨r.input, Nat.lt_of_lt_of_le r.length_lt t.length_le⟩

end Tail

namespace Rest

variable {s : Input}

/-- That some of the text was read is forgotten. -/
def tail (r : Rest s) : Tail s := ⟨r.input, Nat.le_of_lt r.length_lt⟩

/-- What is left of a text is left after a symbol in front of it. -/
def after (x : Symbol) (r : Rest s) : Rest (x :: s) := r.tail.after x

/-- What is left of what is left. -/
def trans (r : Rest s) (t : Tail r.input) : Rest s :=
  ⟨t.input, Nat.lt_of_le_of_lt t.length_le r.length_lt⟩

/-- What is left with the symbol that was read last put back. -/
def putBack (x : Symbol) (r : Rest s) : Tail s := ⟨x :: r.input, r.length_lt⟩

end Rest

/-- Reads something from the front of a text. -/
abbrev Reader (α : Type) := (s : Input) → Except ReadError (α × Rest s)

/-! ### Blanks -/

/-- The four blanks of the format. -/
def isSpace (x : Symbol) : Bool :=
  x = .char ' ' || x = .char '\n' || x = .char '\t' || x = .char '\r'

/-- The first symbol that is not blank, and what is left after it. -/
def next? : (s : Input) → Option (Symbol × Rest s)
  | [] => none
  | x :: s =>
    if isSpace x then (next? s).map fun (y, r) => (y, r.after x)
    else some (x, (Tail.all s).after x)

theorem next?_cons {x : Symbol} (h : isSpace x = false) (s : Input) :
    next? (x :: s) = some (x, (Tail.all s).after x) := by
  simp [next?, h]

end VersionedStore.Json
