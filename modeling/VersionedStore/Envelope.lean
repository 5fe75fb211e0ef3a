import VersionedStore.Json.ReadError
import VersionedStore.StoreError

/-!
# Envelopes

A state under its schema version, and the document it is kept in.  A document may hold more than an
envelope, and its version may also stand in an array of one item.

* `Envelope.ofDocument`, `Envelope.toDocument`: from and to the stored document;
* `ofDocument_toDocument`: an envelope is read back from its document.
-/

namespace VersionedStore

/-- A state with the version of its schema. -/
structure Envelope where
  version : Version
  data : Object
  deriving DecidableEq

namespace Envelope

open Json

def dataKey : String := "data"

def metaKey : String := "meta"

def versionKey : String := "version"

theorem dataKey_ne_metaKey : dataKey ≠ metaKey := by decide

def metaRecord (v : Version) : Value := .object [(versionKey, .ofVersion v)]

/-- The document of an envelope. -/
def toDocument (e : Envelope) : Object :=
  [(dataKey, .object e.data), (metaKey, metaRecord e.version)]

/-! ### Reading -/

def readVersion : Value → Except ReadError Version
  | .number (.integer n _) =>
    if 0 ≤ n ∧ n ≤ 0xffffffff then .ok (UInt32.ofNat n.toNat) else .error (.outOfRange n "u32")
  | v => .error (.wrongType (found v) "u32")

/-- A value as the record of a version: an object with the version's key, or an array of the version
alone. -/
def readMeta : Value → Except ReadError Version
  | .object ms =>
    match Table.get? ms versionKey with
    | some v => readVersion v
    | none => .error (.missingField versionKey)
  | .array [] => .error (.wrongLength 0 "struct StateMeta with 1 element")
  | .array (v :: vs) =>
    match readVersion v with
    | .ok n =>
      if vs.isEmpty then .ok n else .error (.wrongLength (vs.length + 1) "fewer elements in array")
    | .error e => .error e
  | v => .error (.wrongType (found v) "struct StateMeta")

def readData : Value → Except ReadError Object
  | .object ms => .ok ms
  | v => .error (.wrongType (found v) "a map")

/-- An envelope from the state and the version that were found.  The version is missed first. -/
def assemble : Option Version → Option Object → Except ReadError Envelope
  | none, _ => .error (.missingField metaKey)
  | some _, none => .error (.missingField dataKey)
  | some v, some d => .ok ⟨v, d⟩

/-- Reads a value that may be absent. -/
def readOptional {α : Type} (read : Value → Except ReadError α) :
    Option Value → Except ReadError (Option α)
  | none => .ok none
  | some v =>
    match read v with
    | .ok a => .ok (some a)
    | .error e => .error e

/-- The envelope in a document.  What is there is read before anything is missed, the state
first. -/
def decode (document : Object) : Except ReadError Envelope :=
  match readOptional readData (document.get? dataKey) with
  | .error e => .error e
  | .ok data =>
    match readOptional readMeta (document.get? metaKey) with
    | .error e => .error e
    | .ok version => assemble version data

/-- The envelope in a document; a document without one is corrupted. -/
def ofDocument (document : Object) : Except StoreError Envelope :=
  match decode document with
  | .ok e => .ok e
  | .error e => .error (.corruption ("stored document is not an envelope: " ++ e.message))

/-! ### Text and parts -/

def controller? (e : Envelope) (name : String) : Option Value := e.data.get? name

/-- The text of an envelope, its version first. -/
def compact (e : Envelope) : String :=
  Json.compact (.object [(metaKey, metaRecord e.version), (dataKey, .object e.data)])

/-! ### Reading back -/

@[simp] theorem readVersion_ofVersion (v : Version) : readVersion (.ofVersion v) = .ok v := by
  have h := v.toNat_lt
  have h' : (0 : Int) ≤ v.toNat ∧ (v.toNat : Int) ≤ 0xffffffff := by omega
  unfold Value.ofVersion readVersion
  simp only [if_pos h', Int.toNat_natCast, UInt32.ofNat_toNat]

@[simp] theorem readMeta_metaRecord (v : Version) : readMeta (metaRecord v) = .ok v := by
  unfold metaRecord readMeta
  simp only [Table.get?_cons, if_true, readVersion_ofVersion]

@[simp] theorem get?_toDocument_data (e : Envelope) :
    Table.get? e.toDocument dataKey = some (.object e.data) := by
  unfold toDocument
  rw [Table.get?_cons, if_pos rfl]

@[simp] theorem get?_toDocument_meta (e : Envelope) :
    Table.get? e.toDocument metaKey = some (metaRecord e.version) := by
  unfold toDocument
  rw [Table.get?_cons, if_neg dataKey_ne_metaKey, Table.get?_cons, if_pos rfl]

theorem readOptional_some {α : Type} {read : Value → Except ReadError α} {v : Value} {a : α}
    (h : read v = .ok a) : readOptional read (some v) = .ok (some a) := by
  unfold readOptional
  simp only [h]

theorem decode_of_get? {document : Object} {e : Envelope}
    (hd : document.get? dataKey = some (.object e.data))
    (hm : document.get? metaKey = some (metaRecord e.version)) : decode document = .ok e := by
  have hd' : readOptional readData (document.get? dataKey) = .ok (some e.data) := by
    rw [hd]; exact readOptional_some rfl
  have hm' : readOptional readMeta (document.get? metaKey) = .ok (some e.version) := by
    rw [hm]; exact readOptional_some (readMeta_metaRecord _)
  unfold decode
  rw [hd', hm']
  rfl

theorem ofDocument_of_decode {document : Object} {e : Envelope} (h : decode document = .ok e) :
    ofDocument document = .ok e := by
  simp only [ofDocument, h]

theorem ofDocument_toDocument (e : Envelope) : ofDocument e.toDocument = .ok e :=
  ofDocument_of_decode (decode_of_get? (get?_toDocument_data e) (get?_toDocument_meta e))

end Envelope

end VersionedStore
