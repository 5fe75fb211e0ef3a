import VersionedStore.Proofs.Gateway.Request
import VersionedStore.Proofs.History

/-!
# Installations

An installation is a world with all the gateways that were ever opened over it.  Old gateways can
still be used after new ones were opened, in any order, and between any two requests the world may
change on its own.

* `Installation.events`, `Installation.after`: what happens in a run, and what is left of it;
* `Installation.Preserved`: a property of the history and the installation that every step keeps;
* `Preserved.after`, `Preserved.at_event`: it holds at the end of every run, and before each of its
  events for the history up to there.
-/

namespace VersionedStore

variable {σ : Type}

/-- A world with the gateways that were opened over it, the first one first. -/
structure Installation (σ : Type) where
  gateways : List (Gateway σ)
  world : σ
  log : List Diagnostic

inductive Step (σ : Type)
  /-- One more gateway is opened. -/
  | start (config : Config)
  /-- A request is handed to the gateway of a number. -/
  | use (number : Nat) (request : Request)
  /-- The world changes on its own. -/
  | disturb (f : σ → σ)

namespace Installation

/-- A world over which no gateway was opened. -/
def bare (world : σ) (log : List Diagnostic) : Installation σ := ⟨[], world, log⟩

/-- A gateway of the installation, over the world as it is now. -/
def resume (i : Installation σ) (g : Gateway σ) : Gateway σ :=
  { g with world := i.world, log := i.log }

def opened (io : Ports σ) (i : Installation σ) (config : Config) : Installation σ :=
  let g := Gateway.start io config i.world i.log
  ⟨i.gateways ++ [g], g.world, g.log⟩

/-- The installation after an event. -/
def put {io : Ports σ} (i : Installation σ) (e : Event io) : Installation σ :=
  ⟨i.gateways.set e.number e.after, e.after.world, e.after.log⟩

def event (io : Ports σ) (i : Installation σ) (number : Nat) (g : Gateway σ) (request : Request) :
    Event io :=
  ⟨number, i.resume g, request, ((i.resume g).perform io request).1,
    ((i.resume g).perform io request).2, rfl⟩

/-- One step.  A request for a gateway that was never opened is passed over. -/
def step (io : Ports σ) (i : Installation σ) : Step σ → Option (Event io) × Installation σ
  | .start config => (none, i.opened io config)
  | .use number request =>
    match i.gateways[number]? with
    | none => (none, i)
    | some g => (some (i.event io number g request), i.put (i.event io number g request))
  | .disturb f => (none, { i with world := f i.world })

/-- What happens in a run, oldest first. -/
def events (io : Ports σ) : Installation σ → List (Step σ) → List (Event io)
  | _, [] => []
  | i, s :: ss => (i.step io s).1.toList ++ events io (i.step io s).2 ss

/-- The installation after a run. -/
def after (io : Ports σ) (i : Installation σ) (steps : List (Step σ)) : Installation σ :=
  steps.foldl (fun i s => (i.step io s).2) i

theorem of_gateways_put {io : Ports σ} {i : Installation σ} {e : Event io} {g g' : Gateway σ}
    {n : Nat} (hg : i.gateways[e.number]? = some g) (hg' : (i.put e).gateways[n]? = some g') :
    e.number = n ∧ g' = e.after ∨ e.number ≠ n ∧ i.gateways[n]? = some g' := by
  have hput : (i.gateways.set e.number e.after)[n]? = some g' := hg'
  by_cases hn : e.number = n
  · have hlt : e.number < i.gateways.length := (List.getElem?_eq_some_iff.mp hg).1
    rw [← hn, List.getElem?_set_self hlt] at hput
    exact .inl ⟨hn, (Option.some.inj hput).symm⟩
  · rw [List.getElem?_set_ne hn] at hput
    exact .inr ⟨hn, hput⟩

/-! ### Properties that every step keeps -/

/-- **A property that every step of a run keeps.**  It speaks of what has happened so far and of the
installation as it is now. -/
structure Preserved (io : Ports σ) (steps : List (Step σ))
    (P : List (Event io) → Installation σ → Prop) : Prop where
  start : ∀ {es i config}, .start config ∈ steps → P es i → P es (i.opened io config)
  use : ∀ {es i g} {e : Event io}, i.gateways[e.number]? = some g → e.before = i.resume g →
    P es i → P (es ++ [e]) (i.put e)
  disturb : ∀ {es i f}, .disturb f ∈ steps → P es i → P es { i with world := f i.world }

variable {io : Ports σ} {steps : List (Step σ)} {P : List (Event io) → Installation σ → Prop}

theorem events_eq (io : Ports σ) (i : Installation σ) (steps : List (Step σ)) :
    i.events io steps = History.events (step io) i steps := by
  induction steps generalizing i with
  | nil => rfl
  | cons s ss ih => rw [events, ih, History.events]

theorem Preserved.keeps (h : Preserved io steps P) : History.Keeps (step io) steps P := by
  intro es i s hs hi
  cases s with
  | start config => simpa [Installation.step] using h.start hs hi
  | use number request =>
    rcases hg : i.gateways[number]? with _ | g
    · simpa [Installation.step, hg] using hi
    · simpa [Installation.step, hg] using h.use (e := i.event io number g request) hg rfl hi
  | disturb f => simpa [Installation.step] using h.disturb hs hi

theorem before_of_step {i : Installation σ} {s : Step σ} {e : Event io}
    (h : (i.step io s).1 = some e) :
    ∃ g, i.gateways[e.number]? = some g ∧ e.before = i.resume g := by
  cases s with
  | start config => cases h
  | use number request =>
    unfold step at h
    rcases hg : i.gateways[number]? with _ | g
    · simp [hg] at h
    · simp only [hg, Option.some.injEq] at h
      subst h
      exact ⟨g, hg, rfl⟩
  | disturb f => cases h

theorem Preserved.after (h : Preserved io steps P) {es : List (Event io)} {i : Installation σ}
    (hi : P es i) : P (es ++ i.events io steps) (i.after io steps) := by
  rw [events_eq]
  exact h.keeps.after hi

/-- **It holds before every event**, for the history up to there; and the event is one of a gateway
of the installation that is there. -/
theorem Preserved.at_event (h : Preserved io steps P) {es : List (Event io)} {i : Installation σ}
    (hi : P es i) {past future : List (Event io)} {e : Event io}
    (he : i.events io steps = past ++ e :: future) :
    ∃ i' g, P (es ++ past) i' ∧ i'.gateways[e.number]? = some g ∧ e.before = i'.resume g := by
  rw [events_eq] at he
  obtain ⟨i', s, -, hP, hs⟩ := h.keeps.at_event hi he
  obtain ⟨g, hg, hb⟩ := before_of_step hs
  exact ⟨i', g, hP, hg, hb⟩

end Installation

end VersionedStore
