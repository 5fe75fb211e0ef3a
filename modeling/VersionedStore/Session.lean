import VersionedStore.Gateway
import VersionedStore.Migration.FirstVisit

/-!
# Sessions

A session is one run of an application over its store: a gateway, the chain of migrations that the
application knows and the state it starts from where there is none.  It is bootstrapped once; after
that the application hands its states over.

* `Session.start`: a session over a world;
* `Session.bootstrap`: loads what is stored, takes it through the chain and writes it back;
* `Session.persist`, `Session.recover`: hand a state over, the second with the user's consent to
  replace what is corrupted.
-/

namespace VersionedStore

/-- A run of an application over its store. -/
structure Session (σ : Type) where
  gateway : Gateway σ
  chain : Chain
  onFault : OnFault
  /-- The state of a fresh install. -/
  initial : Object
  bootstrapped : Bool := false

/-- What a session starts with. -/
inductive Outcome
  | fresh (state : Object) (version : Version)
  | loaded (report : Report) (writeBack : Option Persisted)
  | corrupted
  deriving DecidableEq

namespace Outcome

def state? : Outcome → Option Object
  | fresh state _ => some state
  | loaded report _ => some report.envelope.data
  | corrupted => none

def version? : Outcome → Option Version
  | fresh _ version => some version
  | loaded report _ => some report.envelope.version
  | corrupted => none

/-- Whether the store awaits a recovery. -/
def isCorrupted : Outcome → Bool
  | corrupted => true
  | _ => false

end Outcome

namespace Session

variable {σ : Type}

/-- A session over a world. -/
def start (io : Ports σ) (chain : Chain) (config : Config) (initial : Object) (world : σ)
    (log : List Diagnostic) : Session σ :=
  { gateway := Gateway.start io config world log, chain, onFault := config.onFault, initial }

def withGateway (s : Session σ) (g : Gateway σ) : Session σ := { s with gateway := g }

/-- Configures the version that states are written under, and ends a bootstrap with an outcome. -/
def settle (s : Session σ) (version : Version) (outcome : Outcome) :
    Except StoreError Outcome × Session σ :=
  match s.gateway.setMetadata version with
  | (.ok (), g) => (.ok outcome, s.withGateway g)
  | (.error e, g) => (.error e, s.withGateway g)

/-- Writes a migrated state back, if its version changed and the configuration wants it. -/
def writeBack (io : Ports σ) (s : Session σ) (report : Report) :
    Except StoreError (Option Persisted) × Session σ :=
  if report.versionChanged && s.gateway.config.writeBack then
    match s.gateway.persist io (.object report.envelope.data) with
    | (.ok r, g) => (.ok (some r), s.withGateway g)
    | (.error e, g) => (.error e, s.withGateway g)
  else (.ok none, s)

/-- Takes a loaded envelope through the chain. -/
def migrate (io : Ports σ) (s : Session σ) (e : Envelope) : Except StoreError Outcome × Session σ :=
  let (report, ds) := s.chain.run s.onFault e
  let s := s.withGateway { s.gateway with log := s.gateway.log ++ ds }
  match s.gateway.setMetadata report.envelope.version with
  | (.error e, g) => (.error e, s.withGateway g)
  | (.ok (), g) =>
    match (s.withGateway g).writeBack io report with
    | (.ok written, s) => (.ok (.loaded report written), s)
    | (.error e, s) => (.error e, s)

/-- Loads what is stored and brings it to the version of the chain. -/
def loadAndMigrate (io : Ports σ) (now : Nat) (s : Session σ) :
    Except StoreError Outcome × Session σ :=
  match s.gateway.load io now with
  | (.freshInstall, g) =>
    (s.withGateway g).settle s.chain.current (.fresh s.initial s.chain.current)
  | (.corrupted, g) => (s.withGateway g).settle s.chain.current .corrupted
  | (.envelope e, g) => (s.withGateway g).migrate io e

/-- Bootstraps a session, which is done once. -/
def bootstrap (io : Ports σ) (now : Nat) (s : Session σ) : Except StoreError Outcome × Session σ :=
  if s.bootstrapped then (.error .alreadyBootstrapped, s)
  else { s with bootstrapped := true }.loadAndMigrate io now

/-- Hands a state over. -/
def persist (io : Ports σ) (s : Session σ) (state : Value) :
    Except StoreError Persisted × Session σ :=
  let (r, g) := s.gateway.persist io state
  (r, s.withGateway g)

/-- Hands a state over after recording the user's consent to a recovery. -/
def recover (io : Ports σ) (s : Session σ) (state : Value) :
    Except StoreError Persisted × Session σ :=
  match s.gateway.consent io with
  | (.error e, g) => (.error e, s.withGateway g)
  | (.ok (), g) => (s.withGateway g).persist io state

end Session

end VersionedStore
