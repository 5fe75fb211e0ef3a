import VersionedStore.Proofs.History
import VersionedStore.Proofs.Session.Request

/-!
# Sessions one after another

A world is handed on from session to session: each ends where the next one starts, with a chain, a
configuration and an initial state of its own.  Between any two requests the world may change on its
own.

* `Session.events`, `Session.after`: what happens in a run, and the session at its end;
* `Session.Preserved`: a property of the history and the session that every step keeps;
* `Preserved.after`, `Preserved.at_event`: it holds at the end of every run, and before each of its
  events for the history up to there.
-/

namespace VersionedStore.Session

variable {σ : Type}

inductive Step (σ : Type)
  /-- The session ends and another one starts over its world. -/
  | restart (chain : Chain) (config : Config) (initial : Object)
  | use (request : Request)
  /-- The world changes on its own. -/
  | disturb (f : σ → σ)

/-- The step belongs to the session that is there. -/
def Step.Stays : Step σ → Prop
  | .restart .. => False
  | _ => True

/-- The session that starts over the world of an earlier one. -/
def restarted (io : Ports σ) (s : Session σ) (chain : Chain) (config : Config) (initial : Object) :
    Session σ :=
  start io chain config initial s.gateway.world s.gateway.log

/-- The session over a world that has changed. -/
def disturbed (s : Session σ) (f : σ → σ) : Session σ :=
  s.withGateway { s.gateway with world := f s.gateway.world }

def event (io : Ports σ) (s : Session σ) (request : Request) : Event io :=
  ⟨s, request, (s.perform io request).1, (s.perform io request).2, rfl⟩

def step (io : Ports σ) (s : Session σ) : Step σ → Option (Event io) × Session σ
  | .restart chain config initial => (none, s.restarted io chain config initial)
  | .use request => (some (s.event io request), (s.event io request).after)
  | .disturb f => (none, s.disturbed f)

/-- What happens in a run, oldest first. -/
def events (io : Ports σ) (s : Session σ) (steps : List (Step σ)) : List (Event io) :=
  History.events (step io) s steps

/-- The session at the end of a run. -/
def after (io : Ports σ) (s : Session σ) (steps : List (Step σ)) : Session σ :=
  History.after (step io) s steps

theorem events_append (io : Ports σ) (s : Session σ) (steps later : List (Step σ)) :
    s.events io (steps ++ later) = s.events io steps ++ (s.after io steps).events io later :=
  History.events_append s steps later

theorem after_append (io : Ports σ) (s : Session σ) (steps later : List (Step σ)) :
    s.after io (steps ++ later) = (s.after io steps).after io later :=
  History.after_append s steps later

/-! ### Properties that every step keeps -/

/-- **A property that every step of a run keeps.**  It speaks of what has happened so far and of the
session as it is now. -/
structure Preserved (io : Ports σ) (steps : List (Step σ))
    (P : List (Event io) → Session σ → Prop) : Prop where
  restart : ∀ {es s chain config initial}, .restart chain config initial ∈ steps → P es s →
    P es (s.restarted io chain config initial)
  use : ∀ {es} {e : Event io}, e.before.Performs io e.request e.answer e.after → P es e.before →
    P (es ++ [e]) e.after
  disturb : ∀ {es s f}, .disturb f ∈ steps → P es s → P es (s.disturbed f)

variable {io : Ports σ} {s : Session σ} {steps : List (Step σ)}
  {P : List (Event io) → Session σ → Prop}

theorem Preserved.keeps (h : Preserved io steps P) :
    History.Keeps (step io) steps fun es s => s.Sound ∧ P es s := by
  rintro es s i hi ⟨hs, hP⟩
  cases i with
  | restart chain config initial =>
    simp only [step, Option.toList_none, List.append_nil]
    exact ⟨sound_start io chain config initial _ _, h.restart hi hP⟩
  | use request =>
    have hperforms := (s.event io request).performs hs
    exact ⟨hperforms.sound hs, h.use hperforms hP⟩
  | disturb f =>
    simp only [step, Option.toList_none, List.append_nil]
    exact ⟨hs, h.disturb hi hP⟩

theorem Preserved.after (h : Preserved io steps P) (hs : s.Sound) (hP : P [] s) :
    (s.after io steps).Sound ∧ P (s.events io steps) (s.after io steps) :=
  h.keeps.after ⟨hs, hP⟩

theorem before_of_step {i : Step σ} {e : Event io} (h : (s.step io i).1 = some e) :
    e.before = s := by
  cases i with
  | restart | disturb => cases h
  | use request =>
    obtain rfl := Option.some.inj h
    rfl

/-- **It holds before every event**, for the history up to there. -/
theorem Preserved.at_event (h : Preserved io steps P) (hs : s.Sound) (hP : P [] s)
    {past future : List (Event io)} {e : Event io} (he : s.events io steps = past ++ e :: future) :
    e.before.Sound ∧ P past e.before ∧ e.before.Performs io e.request e.answer e.after := by
  obtain ⟨s', i, -, ⟨hsound, hpast⟩, hstep⟩ := h.keeps.at_event ⟨hs, hP⟩ he
  obtain rfl := before_of_step hstep
  exact ⟨hsound, hpast, e.performs hsound⟩

end VersionedStore.Session
