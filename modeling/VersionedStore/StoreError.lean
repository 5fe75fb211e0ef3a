/-!
# Errors of the store

Every way in which the store refuses or fails, each with a kind that programs compare, a text that
people read, and whether it is a mistake in the use of the store.
-/

namespace VersionedStore

/-- The number of a schema version. -/
abbrev Version := UInt32

/-- A cause of failure. -/
inductive StoreError
  | unavailable
  | readFailure (detail : String)
  | writeFailure (detail : String)
  | corruption (detail : String)
  | migrationFault (version : Version) (reason : String)
  | metadataUnset
  | metadataTwice
  | missingState
  | invalidState (typeName : String)
  | duplicateVersion (version : Version)
  | outOfOrder (version latest : Version)
  | alreadyBootstrapped
  | serialization (detail : String)
  | io (detail : String)
  deriving DecidableEq, Repr

namespace StoreError

def kind : StoreError → String
  | unavailable => "AdapterUnavailable"
  | readFailure _ => "StorageReadFailure"
  | writeFailure _ => "StorageWriteFailure"
  | corruption _ => "CorruptionDetected"
  | migrationFault _ _ => "MigrationTransformFault"
  | metadataUnset => "MetadataNotConfigured"
  | metadataTwice => "MetadataAlreadyConfigured"
  | missingState => "MissingState"
  | invalidState _ => "InvalidState"
  | duplicateVersion _ => "DuplicateVersion"
  | outOfOrder _ _ => "OutOfOrder"
  | alreadyBootstrapped => "AlreadyBootstrapped"
  | serialization _ => "Serialization"
  | io _ => "IoError"

def versionText (v : Version) : String := Nat.repr v.toNat

def message : StoreError → String
  | unavailable => "Storage adapter is not available"
  | readFailure s => "Storage read failure: " ++ s
  | writeFailure s => "Storage write failure: " ++ s
  | corruption s => "State corruption detected: " ++ s
  | migrationFault v r => "Migration " ++ versionText v ++ " fault: " ++ r
  | metadataUnset => "Metadata must be configured on the gateway before persisting state"
  | metadataTwice => "Metadata has already been configured on this gateway"
  | missingState => "Updated state is missing"
  | invalidState s => "Updated state must be an object keyed by controller, got " ++ s
  | duplicateVersion v =>
    "Migration targeting version " ++ versionText v ++ " is already registered"
  | outOfOrder v l =>
    "Migration targeting version " ++ versionText v ++ " must be greater than " ++ versionText l
  | alreadyBootstrapped => "State has already been bootstrapped in this process"
  | serialization s => "Serialization error: " ++ s
  | io s => "I/O error: " ++ s

/-- Whether the caller made a mistake, as opposed to something having failed. -/
def isConfiguration : StoreError → Bool
  | metadataUnset | metadataTwice | missingState | invalidState _ | duplicateVersion _
  | outOfOrder _ _ | alreadyBootstrapped => true
  | _ => false

/-- An error that came up in reading the storage. -/
def asReadFailure : StoreError → StoreError
  | readFailure s => readFailure s
  | e => readFailure e.message

/-- An error that came up in writing to the storage. -/
def asWriteFailure : StoreError → StoreError
  | writeFailure s => writeFailure s
  | e => writeFailure e.message

@[simp] theorem kind_asReadFailure (e : StoreError) :
    e.asReadFailure.kind = "StorageReadFailure" := by
  cases e <;> rfl

@[simp] theorem kind_asWriteFailure (e : StoreError) :
    e.asWriteFailure.kind = "StorageWriteFailure" := by
  cases e <;> rfl

end StoreError

end VersionedStore
