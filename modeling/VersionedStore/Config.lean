import VersionedStore.Json.Reader
import VersionedStore.Migration.Run
import VersionedStore.Text.Blank

/-!
# Configurations

The names of the two markers, the policy for faults and whether a migrated state is written back.  A
configuration is read while its text is read, so of two faults the first in the text is the one that
is reported; fields that are absent keep their defaults, and fields that are unknown are passed
over.

* `Config.parse`: the configuration of a text, if it is a valid one;
* `Config.validate`: the two names are not blank and not the same;
* `Config.compact`: the text of a configuration.
-/

namespace VersionedStore

/-- What can be set about a store. -/
structure Config where
  /-- The marker that tells when a state was first seen. -/
  existenceKey : String := "state_existed"
  /-- The marker that tells of the user's consent to a recovery. -/
  recoveryKey : String := "user_opted_in_to_restore"
  /-- What a migration run does after a fault. -/
  onFault : OnFault := .halt
  /-- Whether a state is written back after a migration. -/
  writeBack : Bool := true
  deriving DecidableEq, Repr

namespace Config

open Json

/-! ### Fields -/

def existenceField : String := "existence_marker_key"

def recoveryField : String := "recovery_opt_in_key"

def onFaultField : String := "fault_policy"

def writeBackField : String := "write_back_after_migration"

/-- The text of a configuration. -/
def compact (c : Config) : String :=
  Json.compact (.object
    [(existenceField, .string c.existenceKey), (recoveryField, .string c.recoveryKey),
     (onFaultField, .string c.onFault.name), (writeBackField, .bool c.writeBack)])

/-- Both markers have names that show, and different ones. -/
def validate (c : Config) : Except StoreError Unit :=
  if Text.allBlank c.existenceKey || Text.allBlank c.recoveryKey then
    .error (.serialization "Marker keys must not be empty")
  else if c.existenceKey = c.recoveryKey then
    .error (.serialization "Existence and recovery markers must use different keys")
  else .ok ()

/-! ### Reading a field -/

/-- Reads a value without parts that is of the wanted kind. -/
def readTyped {α : Type} (expected : String) (pick : Value → Option α) : Reader α := fun s =>
  match next? s with
  | none => .error .endInValue
  | some (.char '[', _) => .error (.wrongType .sequence expected)
  | some (.char '\x7b', _) => .error (.wrongType .map expected)
  | some (x, r₁) => do
    let (v, r) ← readScalar (r₁.putBack x).input
    match pick v with
    | some a => .ok (a, (r₁.putBack x).rest r)
    | none => .error (.wrongType (found v) expected)

def pickString : Value → Option String
  | .string s => some s
  | _ => none

def pickBool : Value → Option Bool
  | .bool b => some b
  | _ => none

def pickNull : Value → Option Unit
  | .null => some ()
  | _ => none

def policyOfName (name : String) : Except ReadError OnFault :=
  if name = OnFault.halt.name then .ok .halt
  else if name = OnFault.skip.name then .ok .skip
  else .error (.unknownVariant name [OnFault.halt.name, OnFault.skip.name])

/-- Reads the name of a policy after its opening quotation mark. -/
def readPolicyName : Reader OnFault := fun s => do
  let (name, r) ← readString s
  let policy ← policyOfName name
  .ok (policy, r)

/-- Reads the value and the closing bracket of an object that is a policy. -/
def readPolicyEnd (s : Input) : Except ReadError (Rest s) := do
  let (_, r₁) ← readAfterColon (readTyped "unit" pickNull) s
  match next? r₁.input with
  | none => .error .endInObject
  | some (.char '\x7d', r) => .ok (r₁.trans r.tail)
  | some _ => .error .valueExpected

/-- Reads an object that is a policy, after its opening bracket: the name is the only key, and its
value is null. -/
def readPolicyObject : Reader OnFault := fun s =>
  match next? s with
  | none => .error .endInObject
  | some (.char '"', r₁) => do
    let (policy, r₂) ← readPolicyName r₁.input
    let r ← readPolicyEnd r₂.input
    .ok (policy, r₁.trans (r₂.trans r.tail).tail)
  | some (.char '\x7d', _) => .error .valueExpected
  | some _ => .error .keyExpected

/-- Reads a policy: its name, or an object whose only key is the name and whose value is null. -/
def readPolicy : Reader OnFault := fun s =>
  match next? s with
  | none => .error .endInValue
  | some (.char '"', r₁) => do
    let (policy, r) ← readPolicyName r₁.input
    .ok (policy, r₁.trans r.tail)
  | some (.char '\x7b', r₁) => do
    let (policy, r) ← readPolicyObject r₁.input
    .ok (policy, r₁.trans r.tail)
  | some _ => .error .valueExpected

def readText : Reader String := readTyped "a string" pickString

def readFlag : Reader Bool := readTyped "a boolean" pickBool

/-! ### Reading an object -/

/-- The fields that were found so far. -/
structure Draft where
  existenceKey : Option String := none
  recoveryKey : Option String := none
  onFault : Option OnFault := none
  writeBack : Option Bool := none

def Draft.config (d : Draft) : Config :=
  let absent : Config := {}
  ⟨d.existenceKey.getD absent.existenceKey, d.recoveryKey.getD absent.recoveryKey,
   d.onFault.getD absent.onFault, d.writeBack.getD absent.writeBack⟩

/-- Reads the value of a field that must not have been found before. -/
def readNew {α : Type} (name : String) (earlier : Option α) (value : Reader α) : Reader α :=
  fun s =>
  if earlier.isSome then .error (.duplicateField name) else readAfterColon value s

/-- Reads what follows a key. -/
def readField (d : Draft) (key : String) : Reader Draft := fun s => do
  if key = existenceField then
    let (k, r) ← readNew key d.existenceKey readText s
    .ok ({ d with existenceKey := some k }, r)
  else if key = recoveryField then
    let (k, r) ← readNew key d.recoveryKey readText s
    .ok ({ d with recoveryKey := some k }, r)
  else if key = onFaultField then
    let (p, r) ← readNew key d.onFault readPolicy s
    .ok ({ d with onFault := some p }, r)
  else if key = writeBackField then
    let (b, r) ← readNew key d.writeBack readFlag s
    .ok ({ d with writeBack := some b }, r)
  else
    let r₁ ← readColon s
    let r ← skipValue r₁.input
    .ok (d, r₁.trans r.tail)

/-! ### Reading an array -/

/-- Reads the next field of an array, or gives its default where the array ends before it. -/
def readNext {α : Type} (first : Bool) (absent : α) (value : Reader α) (s : Input) :
    Except ReadError (α × Tail s) :=
  match next? s with
  | none => .error .endInArray
  | some (.char ']', _) => .ok (absent, .all s)
  | some (x, r₁) =>
    if first then do
      let (a, r) ← value (r₁.putBack x).input
      .ok (a, ((r₁.putBack x).rest r).tail)
    else if x = .char ',' then
      match next? r₁.input with
      | none => .error .endInValue
      | some (.char ']', _) => .error .trailingComma
      | some (y, r₂) => do
        let (a, r) ← value (r₂.putBack y).input
        .ok (a, (r₁.trans ((r₂.putBack y).rest r).tail).tail)
    else .error .itemEndExpected

/-- Reads the end of an array that has all its fields. -/
def readClosing (s : Input) : Except ReadError (Rest s) :=
  match next? s with
  | none => .error .endInArray
  | some (.char ']', r) => .ok r
  | some (.char ',', r) =>
    match next? r.input with
    | some (.char ']', _) => .error .trailingComma
    | _ => .error .trailingCharacters
  | some _ => .error .trailingCharacters

/-- Reads the fields of an array in their order, after its opening bracket. -/
def readFields (s : Input) : Except ReadError (Config × Rest s) := do
  let absent : Config := {}
  let (existenceKey, t₁) ← readNext true absent.existenceKey readText s
  let (recoveryKey, t₂) ← readNext false absent.recoveryKey readText t₁.input
  let (onFault, t₃) ← readNext false absent.onFault readPolicy t₂.input
  let (writeBack, t₄) ← readNext false absent.writeBack readFlag t₃.input
  let r ← readClosing t₄.input
  .ok (⟨existenceKey, recoveryKey, onFault, writeBack⟩, t₁.rest (t₂.rest (t₃.rest (t₄.rest r))))

/-! ### Whole configurations -/

/-- Reads a configuration: an object of its fields, or an array of them in order. -/
def read : Reader Config := fun s =>
  match next? s with
  | none => .error .endInValue
  | some (.char '[', r₁) => do
    let (c, r) ← readFields r₁.input
    .ok (c, r₁.trans r.tail)
  | some (.char '\x7b', r₁) => do
    let (d, r) ← readMembers readField {} r₁.input
    .ok (d.config, r₁.trans r.tail)
  | some (x, r₁) =>
    match readScalar (r₁.putBack x).input with
    | .ok (v, _) => .error (.wrongType (found v) "struct StoreConfig")
    | .error e => .error e

/-- The valid configuration of a text. -/
def parse (text : String) : Except StoreError Config :=
  match readAll read (Input.ofString text) with
  | .error e => .error (.serialization e.message)
  | .ok c =>
    match c.validate with
    | .ok () => .ok c
    | .error e => .error e

theorem validate_of_parse {text : String} {c : Config} (h : parse text = .ok c) :
    c.validate = .ok () := by
  unfold parse at h
  split at h
  · cases h
  · split at h
    · rename_i hv
      cases h
      exact hv
    · cases h

end Config

end VersionedStore
