import VersionedStore.Config
import VersionedStore.Markers.Basic

/-!
# Gateways

A gateway stands between an application and its storage for the lifetime of a process.  It tells a
fresh install from lost data by a marker, remembers that it met corruption, and from then on writes
only with the user's recorded consent.  Failed writings do not stop the application: the first of a
streak is reported, and the state is handed over again with the next.

* `Gateway.start`: a gateway over a world, after asking whether the storage can be used;
* `Gateway.load`: the stored envelope, or a fresh install, or corruption;
* `Gateway.persist`: writes a state under the version that was configured;
* `Gateway.consent`, `Gateway.hasConsent`: the marker of the user's consent.

All operations take the world that the gateway holds and give back the world after them, with what
was reported so far.
-/

namespace VersionedStore

/-- The storage and the markers of a world. -/
structure Ports (σ : Type) where
  storage : Storage σ
  markers : Markers σ

/-- A gateway with the world it works on and all that was reported so far, oldest first. -/
structure Gateway (σ : Type) where
  config : Config
  /-- Whether the storage could be used at the start. -/
  ready : Bool
  /-- Whether corruption was met. -/
  corrupted : Bool := false
  /-- Latched inside a streak of failed writings. -/
  failing : Latch := {}
  /-- The version that states are written under. -/
  metadata : Option Version := none
  /-- The envelope that was last read. -/
  recent : Option Envelope := none
  world : σ
  log : List Diagnostic

/-- What a load found. -/
inductive Loaded
  | envelope (e : Envelope)
  | freshInstall
  | corrupted
  deriving DecidableEq

/-- What became of a state that was handed over. -/
inductive Persisted
  | written
  /-- Corruption was met and the user has not consented to a recovery. -/
  | skipped
  | failed
  deriving DecidableEq, Repr

def Persisted.name : Persisted → String
  | written => "Written"
  | skipped => "SkippedCorruption"
  | failed => "Failed"

namespace Gateway

variable {σ : Type}

def report (g : Gateway σ) (error : StoreError) (operation : String) (version : Option Version) :
    Gateway σ :=
  { g with log := g.log ++ [⟨error, operation, version⟩] }

/-- A gateway over a world. -/
def start (io : Ports σ) (config : Config) (world : σ) (log : List Diagnostic) : Gateway σ :=
  let (available, world) := io.storage.isAvailable world
  let g : Gateway σ := { config, ready := available, world, log }
  if available then g else g.report .unavailable "open" none

/-- Sets the version that states are written under, once. -/
def setMetadata (g : Gateway σ) (version : Version) : Except StoreError Unit × Gateway σ :=
  match g.metadata with
  | some _ => (.error .metadataTwice, g)
  | none => (.ok (), { g with metadata := some version })

/-! ### Markers -/

def getMarker (io : Ports σ) (g : Gateway σ) (key : String) :
    Except StoreError (Option String) × Gateway σ :=
  let (r, world) := io.markers.get key g.world
  (r, { g with world })

def setMarker (io : Ports σ) (g : Gateway σ) (key value : String) :
    Except StoreError Unit × Gateway σ :=
  let (r, world) := io.markers.set key value g.world
  (r, { g with world })

def consentValue : String := "true"

/-- Records the user's consent to a recovery. -/
def consent (io : Ports σ) (g : Gateway σ) : Except StoreError Unit × Gateway σ :=
  g.setMarker io g.config.recoveryKey consentValue

/-- Whether a consent is recorded; a marker that cannot be read records none. -/
def hasConsent (io : Ports σ) (g : Gateway σ) : Bool × Gateway σ :=
  match g.getMarker io g.config.recoveryKey with
  | (.ok value, g) => (value = some consentValue, g)
  | (.error _, g) => (false, g)

/-- Records when a state was first seen, unless that is recorded.  A failure to do so is let
pass. -/
def recordExistence (io : Ports σ) (now : Nat) (g : Gateway σ) : Gateway σ :=
  match g.getMarker io g.config.existenceKey with
  | (.ok (some _), g) => g
  | (_, g) => (g.setMarker io g.config.existenceKey (Nat.repr now)).2

/-! ### Loading -/

/-- Meets corruption in a load. -/
def corrupt (g : Gateway σ) (error : StoreError) : Loaded × Gateway σ :=
  (.corrupted, { g with corrupted := true }.report error "load" none)

/-- Tells a fresh install from lost data after the storage was found empty. -/
def classifyEmpty (io : Ports σ) (g : Gateway σ) : Loaded × Gateway σ :=
  match g.getMarker io g.config.existenceKey with
  | (.ok none, g) => (.freshInstall, g)
  | (.ok (some firstSeen), g) =>
    g.corrupt (.corruption ("storage is empty but state was first observed at " ++ firstSeen))
  | (.error e, g) => g.corrupt e

/-- Takes the envelope from the document that the storage holds. -/
def loadDocument (io : Ports σ) (now : Nat) (g : Gateway σ) (document : Object) :
    Loaded × Gateway σ :=
  let g := g.recordExistence io now
  match Envelope.ofDocument document with
  | .ok e => (.envelope e, { g with recent := some e })
  | .error e => g.corrupt e

/-- Loads the stored envelope.  `now` is the clock, in milliseconds. -/
def load (io : Ports σ) (now : Nat) (g : Gateway σ) : Loaded × Gateway σ :=
  if g.ready then
    match io.storage.get none g.world with
    | (.error e, world) => { g with world }.corrupt e.asReadFailure
    | (.ok document, world) =>
      if document.isEmpty then { g with world, recent := none }.classifyEmpty io
      else { g with world }.loadDocument io now document
  else (.freshInstall, g)

/-! ### Persisting -/

def writeDocument (io : Ports σ) (g : Gateway σ) (version : Version) (document : Object) :
    Persisted × Gateway σ :=
  match io.storage.set document g.world with
  | (.ok (), world) => (.written, { g with world, failing := g.failing.reset })
  | (.error e, world) =>
    let (first, failing) := g.failing.trip
    let g := { g with world, failing }
    (.failed, if first then g.report e.asWriteFailure "persist" (some version) else g)

/-- Whether nothing stands against a writing: no corruption was met, or the user has consented. -/
def isOpen (io : Ports σ) (g : Gateway σ) : Bool × Gateway σ :=
  if g.corrupted then g.hasConsent io else (true, g)

/-- Persists a state: an object, under the version that was configured. -/
def persist (io : Ports σ) (g : Gateway σ) (state : Value) :
    Except StoreError Persisted × Gateway σ :=
  if !g.ready then (.error .unavailable, g)
  else
    match state with
    | .null => (.error .missingState, g)
    | .object data =>
      match g.metadata with
      | none => (.error .metadataUnset, g)
      | some version =>
        match g.isOpen io with
        | (false, g) => (.ok .skipped, g)
        | (true, g) =>
          let (r, g) := g.writeDocument io version (Envelope.toDocument ⟨version, data⟩)
          (.ok r, g)
    | v => (.error (.invalidState (Value.typeName (some v))), g)

end Gateway

end VersionedStore
