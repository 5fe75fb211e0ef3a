import VersionedStore.Json.Value
import VersionedStore.Part
import VersionedStore.StoreError

/-!
# Storages

A storage keeps a document in a world `σ`.  It may refuse any reading or writing, and what it does
then is up to it.
-/

namespace VersionedStore

/-- Where a document is kept. -/
structure Storage (σ : Type) where
  /-- Whether the storage can be used at all. -/
  isAvailable : σ → Bool × σ
  /-- The entries under the given keys, or all of them. -/
  get : Option (List String) → σ → Except StoreError Object × σ
  /-- Puts entries to those that are there. -/
  set : Object → σ → Except StoreError Unit × σ

namespace Storage

variable {τ σ : Type}

def inside (part : Part τ σ) (s : Storage σ) : Storage τ where
  isAvailable := part.lift s.isAvailable
  get keys := part.lift (s.get keys)
  set entries := part.lift (s.set entries)

end Storage

/-- Errors that stand ready as the next answers. -/
structure Script where
  reads : List StoreError := []
  writes : List StoreError := []
  deriving Repr

namespace Script

def nextRead (s : Script) : Option StoreError × Script :=
  (s.reads.head?, { s with reads := s.reads.tail })

def nextWrite (s : Script) : Option StoreError × Script :=
  (s.writes.head?, { s with writes := s.writes.tail })

end Script

/-- A storage that answers with prepared errors as long as there are some.  It is always
available. -/
def Storage.scripted {σ : Type} (inner : Storage σ) : Storage (Script × σ) where
  isAvailable w := (true, w)
  get keys w :=
    match w.1.nextRead with
    | (some e, script) => (.error e, (script, w.2))
    | (none, _) => Part.snd.lift (inner.get keys) w
  set entries w :=
    match w.1.nextWrite with
    | (some e, script) => (.error e, (script, w.2))
    | (none, _) => Part.snd.lift (inner.set entries) w

end VersionedStore
