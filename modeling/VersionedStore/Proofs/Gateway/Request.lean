import VersionedStore.Proofs.Gateway.Operations

/-!
# Requests to a gateway

The operations of a gateway as data, so that a run is a list of requests, and what each of them can
come to.

* `Gateway.perform`: a request is carried out;
* `Gateway.Performs`, `Gateway.performs_of_perform`: the ways of a request;
* `Event`: a request that was carried out, with the gateway before and after it.
-/

namespace VersionedStore

variable {σ : Type}

inductive Request
  | setMetadata (version : Version)
  | load (now : Nat)
  | persist (state : Value)
  | consent

inductive Answer
  | configured (r : Except StoreError Unit)
  | loaded (r : Loaded)
  | persisted (r : Except StoreError Persisted)
  | consented (r : Except StoreError Unit)

namespace Gateway

/-- Carries out a request. -/
def perform (io : Ports σ) (g : Gateway σ) : Request → Answer × Gateway σ
  | .setMetadata version => (.configured (g.setMetadata version).1, (g.setMetadata version).2)
  | .load now => (.loaded (g.load io now).1, (g.load io now).2)
  | .persist state => (.persisted (g.persist io state).1, (g.persist io state).2)
  | .consent => (.consented (g.consent io).1, (g.consent io).2)

/-- **The ways of a request**, with its answer and the gateway it leaves. -/
inductive Performs (io : Ports σ) (g : Gateway σ) : Request → Answer → Gateway σ → Prop
  | configured {version} (metadata : g.metadata = none) :
      Performs io g (.setMetadata version) (.configured (.ok ()))
        { g with metadata := some version }
  | configuredTwice {version earlier} (metadata : g.metadata = some earlier) :
      Performs io g (.setMetadata version) (.configured (.error .metadataTwice)) g
  | loaded {now r g'} (h : Loads io now g r g') : Performs io g (.load now) (.loaded r) g'
  | persisted {state r g'} (h : Persists io g state r g') :
      Performs io g (.persist state) (.persisted r) g'
  | consented {r w} (set : io.markers.set g.config.recoveryKey consentValue g.world = (r, w)) :
      Performs io g .consent (.consented r) { g with world := w }

variable {io : Ports σ} {g g' : Gateway σ} {request : Request} {answer : Answer}

theorem performs_of_perform (h : g.perform io request = (answer, g')) :
    Performs io g request answer g' := by
  cases request with
  | setMetadata version =>
    obtain ⟨rfl, rfl⟩ := Prod.mk.inj h
    unfold setMetadata
    rcases hm : g.metadata with _ | earlier
    · exact .configured hm
    · exact .configuredTwice hm
  | load now =>
    obtain ⟨rfl, rfl⟩ := Prod.mk.inj h
    exact .loaded (loads_of_load rfl)
  | persist state =>
    obtain ⟨rfl, rfl⟩ := Prod.mk.inj h
    exact .persisted (persists_of_persist rfl)
  | consent =>
    obtain ⟨rfl, rfl⟩ := Prod.mk.inj h
    exact .consented rfl

theorem Performs.frame (h : Performs io g request answer g') :
    g'.config = g.config ∧ g'.ready = g.ready := by
  cases h with
  | loaded h => exact ⟨h.frame.1, h.frame.2.1⟩
  | persisted h => exact ⟨h.frame.1, h.frame.2.1⟩
  | _ => exact ⟨rfl, rfl⟩

theorem Performs.corrupted_iff (h : Performs io g request answer g') :
    g'.corrupted = true ↔ g.corrupted = true ∨ answer = .loaded .corrupted := by
  cases h with
  | loaded h =>
    rw [h.corrupted_iff]
    exact or_congr_right ⟨fun hr => hr ▸ rfl, fun ha => Answer.loaded.inj ha⟩
  | persisted h =>
    rw [h.frame.2.2.2.1]
    exact ⟨Or.inl, fun h => h.resolve_right nofun⟩
  | _ => exact ⟨Or.inl, fun h => h.resolve_right nofun⟩

end Gateway

/-- A request that was carried out: the gateway before it and after it, and the answer. -/
structure Event (io : Ports σ) where
  /-- The number of the gateway. -/
  number : Nat
  before : Gateway σ
  request : Request
  answer : Answer
  after : Gateway σ
  performed : before.perform io request = (answer, after)

namespace Event

variable {io : Ports σ}

theorem performs (e : Event io) : e.before.Performs io e.request e.answer e.after :=
  Gateway.performs_of_perform e.performed

theorem loads {e : Event io} {now : Nat} (h : e.request = .load now) :
    ∃ r, e.answer = .loaded r ∧ e.before.Loads io now r e.after := by
  have hp := e.performs
  rw [h] at hp
  generalize ha : e.answer = answer at hp
  cases hp with
  | loaded hl => exact ⟨_, rfl, hl⟩

theorem persists {e : Event io} {state : Value} (h : e.request = .persist state) :
    ∃ r, e.answer = .persisted r ∧ e.before.Persists io state r e.after := by
  have hp := e.performs
  rw [h] at hp
  generalize ha : e.answer = answer at hp
  cases hp with
  | persisted hl => exact ⟨_, rfl, hl⟩

end Event

end VersionedStore
