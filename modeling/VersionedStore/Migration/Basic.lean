import VersionedStore.Envelope

/-!
# Migrations

A migration brings a state to the version it targets.  What becomes of one attempt depends on the
envelope alone.
-/

namespace VersionedStore

/-- What a migration makes of an envelope. -/
inductive Verdict
  /-- A new state. -/
  | migrated (data : Object)
  /-- The state suits the new version as it is. -/
  | unchanged
  /-- The state is not of the shape that the migration needs. -/
  | malformed (reason : String)
  /-- An error on the way. -/
  | failed (error : StoreError)
  /-- A breakdown, with its message if there is one. -/
  | panicked (message : Option String)
  deriving DecidableEq

/-- A step of the schema: the version it leads to, what it is for, and what it does. -/
structure Migration where
  target : Version
  description : String := ""
  transform : Envelope → Verdict

namespace Verdict

/-- The state after an attempt on the given one, or the reason why it failed. -/
def outcome (data : Object) : Verdict → Except String Object
  | migrated d => .ok d
  | unchanged => .ok data
  | malformed reason => .error reason
  | failed e => .error e.message
  | panicked message => .error ("transform panicked: " ++ message.getD "unknown panic")

end Verdict

namespace Migration

/-- The state that a migration makes of an envelope's, or the reason of its fault. -/
def attempt (m : Migration) (e : Envelope) : Except String Object := (m.transform e).outcome e.data

def listing (m : Migration) : String :=
  "MigrationUnit \x7b target_version: " ++ StoreError.versionText m.target ++ ", description: " ++
    Text.quoted m.description ++ " \x7d"

end Migration

end VersionedStore
