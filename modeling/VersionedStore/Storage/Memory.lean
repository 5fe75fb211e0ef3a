import VersionedStore.Storage.Basic

/-!
# Storage in memory

A document that is kept as it is.  The next readings or writings can be made to fail, and all calls
are counted, those that fail among them.
-/

namespace VersionedStore

/-- A document in memory. -/
structure Memory where
  entries : Object := []
  available : Bool := true
  /-- How many of the next readings fail. -/
  readFaults : Nat := 0
  /-- How many of the next writings fail. -/
  writeFaults : Nat := 0
  gets : Nat := 0
  sets : Nat := 0
  deriving DecidableEq

namespace Memory

/-- A memory that cannot be used. -/
def unavailable : Memory := { available := false }

def failReads (m : Memory) (count : Nat) : Memory := { m with readFaults := count }

def failWrites (m : Memory) (count : Nat) : Memory := { m with writeFaults := count }

def wipe (m : Memory) : Memory := { m with entries := [] }

def get (keys : Option (List String)) (m : Memory) : Except StoreError Object × Memory :=
  let counted := { m with gets := m.gets + 1 }
  if m.readFaults = 0 then (.ok (m.entries.select keys), counted)
  else (.error (.readFailure "injected memory adapter read failure"),
    { counted with readFaults := m.readFaults - 1 })

def set (entries : Object) (m : Memory) : Except StoreError Unit × Memory :=
  let counted := { m with sets := m.sets + 1 }
  if m.writeFaults = 0 then (.ok (), { counted with entries := m.entries.merge entries })
  else (.error (.writeFailure "injected memory adapter write failure"),
    { counted with writeFaults := m.writeFaults - 1 })

/-- The memory as a storage. -/
def storage : Storage Memory where
  isAvailable m := (m.available, m)
  get := get
  set := set

end Memory

end VersionedStore
