import VersionedStore.Proofs.Gateway.Request
import VersionedStore.Proofs.Session.Succession

/-!
# Users of a world

A world is used by gateways of their own and by sessions, one after another: each user ends where
the next one starts.  Between any two requests the world may change on its own.

* `User.perform`: a user is asked something;
* `User.events`, `User.after`: what happens in a run, and the user at its end;
* `User.Event.LoadsAt`: what is stored is loaded at a time.
-/

namespace VersionedStore

variable {σ : Type}

/-- Whoever uses a world. -/
inductive User (σ : Type)
  /-- A gateway without a session. -/
  | plain (g : Gateway σ)
  | session (s : Session σ)

namespace User

inductive Request
  | plain (request : VersionedStore.Request)
  | session (request : Session.Request)

inductive Step (σ : Type)
  /-- The user ends and a gateway is opened over its world. -/
  | startGateway (config : Config)
  /-- The user ends and a session starts over its world. -/
  | startSession (chain : Chain) (config : Config) (initial : Object)
  | use (request : Request)
  /-- The world changes on its own. -/
  | disturb (f : σ → σ)

/-- The gateway that stands between the user and the world. -/
def gateway : User σ → Gateway σ
  | plain g => g
  | session s => s.gateway

/-- The user after a request; what is not for such a user is passed over. -/
def perform (io : Ports σ) : User σ → Request → User σ
  | plain g, .plain request => plain (g.perform io request).2
  | session s, .session request => session (s.perform io request).2
  | u, _ => u

/-- The user over a world that has changed. -/
def disturbed (f : σ → σ) : User σ → User σ
  | plain g => plain { g with world := f g.world }
  | session s => session (s.disturbed f)

structure Event (σ : Type) where
  before : User σ
  request : Request

/-- The user after an event. -/
def Event.after (io : Ports σ) (e : Event σ) : User σ := e.before.perform io e.request

/-- What is stored is loaded: by a gateway that is asked to, or by a session that is bootstrapped
for the first time. -/
inductive Event.LoadsAt (now : Nat) : Event σ → Prop
  | plain {g} : LoadsAt now ⟨.plain g, .plain (.load now)⟩
  | session {s} (new : s.bootstrapped = false) :
      LoadsAt now ⟨.session s, .session (.bootstrap now)⟩

def step (io : Ports σ) (u : User σ) : Step σ → Option (Event σ) × User σ
  | .startGateway config => (none, plain (.start io config u.gateway.world u.gateway.log))
  | .startSession chain config initial =>
    (none, session (.start io chain config initial u.gateway.world u.gateway.log))
  | .use request => (some ⟨u, request⟩, u.perform io request)
  | .disturb f => (none, u.disturbed f)

/-- What happens in a run, oldest first. -/
def events (io : Ports σ) (u : User σ) (steps : List (Step σ)) : List (Event σ) :=
  History.events (step io) u steps

/-- The user at the end of a run. -/
def after (io : Ports σ) (u : User σ) (steps : List (Step σ)) : User σ :=
  History.after (step io) u steps

/-- **Sound:** a session that was not bootstrapped has no version to write under. -/
def Sound : User σ → Prop
  | plain _ => True
  | session s => s.Sound

theorem Sound.perform {u : User σ} (h : u.Sound) (io : Ports σ) (request : Request) :
    (u.perform io request).Sound := by
  cases u <;> cases request
  · trivial
  · trivial
  · exact h
  · exact (Session.performs_of_perform h rfl).sound h

theorem Sound.step {u : User σ} (h : u.Sound) (io : Ports σ) (i : Step σ) :
    (u.step io i).2.Sound := by
  cases i with
  | startGateway config => trivial
  | startSession chain config initial => exact Session.sound_start io chain config initial _ _
  | use request => exact h.perform io request
  | disturb f =>
    cases u with
    | plain g => trivial
    | session s => exact h

end User

end VersionedStore
