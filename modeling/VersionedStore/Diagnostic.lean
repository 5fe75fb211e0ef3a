import VersionedStore.StoreError

/-!
# Diagnostics

Failures that are reported and not returned, in the order in which they came up, and the latch that
lets only the first failure of a streak be reported.
-/

namespace VersionedStore

/-- A reported failure: the error, the operation it came up in and the version it concerns. -/
structure Diagnostic where
  error : StoreError
  operation : String
  version : Option Version
  deriving DecidableEq, Repr

namespace Diagnostic

def message (d : Diagnostic) : String := d.error.message

/-- How a version is shown that may be absent. -/
def versionText : Option Version → String
  | none => "None"
  | some v => "Some(" ++ StoreError.versionText v ++ ")"

/-- The failure as the named texts of a log event. -/
def fields (d : Diagnostic) : List (String × String) :=
  [("kind", d.error.kind), ("operation", d.operation), ("version", versionText d.version),
   ("message", d.message)]

def countKind (kind : String) (ds : List Diagnostic) : Nat := ds.countP (·.error.kind = kind)

end Diagnostic

/-- A latch is open until it is tripped. -/
structure Latch where
  latched : Bool := false
  deriving DecidableEq, Repr

namespace Latch

/-- Closes the latch, and tells whether it was open. -/
def trip (l : Latch) : Bool × Latch := (!l.latched, ⟨true⟩)

def reset (_ : Latch) : Latch := ⟨false⟩

@[simp] theorem trip_fst (l : Latch) : l.trip.1 = !l.latched := rfl

end Latch

end VersionedStore
