import VersionedStore.Diagnostic
import VersionedStore.Migration.Chain

/-!
# Running a chain

An envelope is taken through the migrations past its version, one after another.  A migration that
fails leaves the state alone and is reported; then the run halts, or goes on as if the migration had
been there.

* `runFrom`: the run over a list of migrations;
* `Chain.run`: the run over those that an envelope needs.
-/

namespace VersionedStore

/-- What a run does after a fault. -/
inductive OnFault
  | halt
  | skip
  deriving DecidableEq, Repr

def OnFault.name : OnFault → String
  | halt => "Halt"
  | skip => "SkipUnit"

/-- A migration that failed, and why. -/
structure Fault where
  version : Version
  reason : String
  deriving DecidableEq, Repr

def Fault.diagnostic (f : Fault) : Diagnostic :=
  ⟨.migrationFault f.version f.reason, "migrate", some f.version⟩

/-- What a run did: the envelope it reached, the versions that were applied and the faults, each in
order, and whether it stopped at a fault. -/
structure Report where
  envelope : Envelope
  fromVersion : Version
  applied : List Version := []
  faults : List Fault := []
  halted : Bool := false
  deriving DecidableEq

/-- Whether the run reached another version than it started from. -/
def Report.versionChanged (r : Report) : Bool := r.envelope.version ≠ r.fromVersion

/-- Continues a run over the given migrations, and lists what is reported on the way. -/
def runFrom (policy : OnFault) : List Migration → Report → Report × List Diagnostic
  | [], r => (r, [])
  | m :: ms, r =>
    match m.attempt r.envelope with
    | .ok data =>
      runFrom policy ms { r with envelope := ⟨m.target, data⟩, applied := r.applied ++ [m.target] }
    | .error reason =>
      let fault : Fault := ⟨m.target, reason⟩
      let r' := { r with faults := r.faults ++ [fault] }
      match policy with
      | .halt => ({ r' with halted := true }, [fault.diagnostic])
      | .skip =>
        let (last, ds) := runFrom policy ms { r' with envelope := ⟨m.target, r.envelope.data⟩ }
        (last, fault.diagnostic :: ds)

/-- Takes an envelope through the migrations past its version. -/
def Chain.run (c : Chain) (policy : OnFault) (e : Envelope) : Report × List Diagnostic :=
  runFrom policy (c.pending e.version) ⟨e, e.version, [], [], false⟩

end VersionedStore
