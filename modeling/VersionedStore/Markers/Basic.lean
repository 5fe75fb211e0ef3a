import VersionedStore.Storage.Basic
import VersionedStore.Table

/-!
# Markers

Short texts under names of their own, kept beside the document: when a state was first seen, and
whether the user has consented to a recovery.
-/

namespace VersionedStore

/-- Where markers are kept. -/
structure Markers (σ : Type) where
  /-- The value of a marker, if it is set. -/
  get : String → σ → Except StoreError (Option String) × σ
  /-- Sets a marker. -/
  set : String → String → σ → Except StoreError Unit × σ

namespace Markers

variable {τ σ : Type}

def inside (part : Part τ σ) (m : Markers σ) : Markers τ where
  get key := part.lift (m.get key)
  set key value := part.lift (m.set key value)

/-- Markers that can be read only; setting one does nothing. -/
def readOnly (m : Markers σ) : Markers σ := { m with set := fun _ _ w => (.ok (), w) }

/-- Markers that answer with prepared errors as long as there are some. -/
def scripted (inner : Markers σ) : Markers (Script × σ) where
  get key w :=
    match w.1.nextRead with
    | (some e, script) => (.error e, (script, w.2))
    | (none, _) => Part.snd.lift (inner.get key) w
  set key value w :=
    match w.1.nextWrite with
    | (some e, script) => (.error e, (script, w.2))
    | (none, _) => Part.snd.lift (inner.set key value) w

def memory : Markers (Table String String) where
  get key t := (.ok (t.get? key), t)
  set key value t := (.ok (), t.put key value)

end Markers

end VersionedStore
