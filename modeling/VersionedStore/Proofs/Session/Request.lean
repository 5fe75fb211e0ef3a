import VersionedStore.Proofs.Session.Operations

/-!
# Requests to a session

The operations of a session as data, so that a run is a list of requests, and what each of them can
come to.

* `Session.perform`: a request is carried out;
* `Session.Performs`, `Session.performs_of_perform`: the ways of a request;
* `Session.Event`: a request that was carried out, with the session before and after it.
-/

namespace VersionedStore.Session

variable {σ : Type}

inductive Request
  | bootstrap (now : Nat)
  | persist (state : Value)
  | recover (state : Value)

inductive Answer
  | booted (r : Except StoreError Outcome)
  | persisted (r : Except StoreError Persisted)

/-- Carries out a request. -/
def perform (io : Ports σ) (s : Session σ) : Request → Answer × Session σ
  | .bootstrap now => (.booted (s.bootstrap io now).1, (s.bootstrap io now).2)
  | .persist state => (.persisted (s.persist io state).1, (s.persist io state).2)
  | .recover state => (.persisted (s.recover io state).1, (s.recover io state).2)

/-- **The ways of a request**, with its answer and the session it leaves. -/
inductive Performs (io : Ports σ) (s : Session σ) : Request → Answer → Session σ → Prop
  | booted {now r s'} (h : s.Boots io now r s') : Performs io s (.bootstrap now) (.booted r) s'
  | persisted {state r g} (h : s.gateway.Persists io state r g) :
      Performs io s (.persist state) (.persisted r) (s.withGateway g)
  | refused {state e w}
      (set : io.markers.set s.gateway.config.recoveryKey Gateway.consentValue s.gateway.world =
        (.error e, w)) :
      Performs io s (.recover state) (.persisted (.error e))
        (s.withGateway { s.gateway with world := w })
  | recovered {state w r g}
      (set : io.markers.set s.gateway.config.recoveryKey Gateway.consentValue s.gateway.world =
        (.ok (), w))
      (h : { s.gateway with world := w }.Persists io state r g) :
      Performs io s (.recover state) (.persisted r) (s.withGateway g)

variable {io : Ports σ} {s s' : Session σ} {request : Request} {answer : Answer}

theorem performs_of_recover {state : Value} {r : Except StoreError Persisted}
    (h : s.recover io state = (r, s')) : s.Performs io (.recover state) (.persisted r) s' := by
  unfold recover Gateway.consent Gateway.setMarker at h
  rcases hm : io.markers.set s.gateway.config.recoveryKey Gateway.consentValue s.gateway.world with
    ⟨e | _, w⟩ <;> simp only [hm] at h
  · obtain ⟨rfl, rfl⟩ := Prod.mk.inj h
    exact .refused hm
  · obtain ⟨g, hpersists, rfl⟩ := persists_of_persist h
    exact .recovered hm hpersists

theorem performs_of_perform (hs : s.Sound) (h : s.perform io request = (answer, s')) :
    s.Performs io request answer s' := by
  cases request with
  | bootstrap now =>
    obtain ⟨rfl, rfl⟩ := Prod.mk.inj h
    exact .booted (boots_of_bootstrap hs rfl)
  | persist state =>
    obtain ⟨rfl, rfl⟩ := Prod.mk.inj h
    exact .persisted (Gateway.persists_of_persist rfl)
  | recover state =>
    obtain ⟨rfl, rfl⟩ := Prod.mk.inj h
    exact performs_of_recover rfl

/-! ### What is left alone -/

theorem Boots.frame {now : Nat} {r : Except StoreError Outcome} (h : s.Boots io now r s') :
    s'.chain = s.chain ∧ s'.onFault = s.onFault ∧ s'.bootstrapped = true := by
  cases h with
  | again done => exact ⟨rfl, rfl, done⟩
  | _ => exact ⟨rfl, rfl, rfl⟩

theorem Performs.frame (h : s.Performs io request answer s') :
    s'.chain = s.chain ∧ s'.onFault = s.onFault := by
  cases h with
  | booted h => exact ⟨h.frame.1, h.frame.2.1⟩
  | _ => exact ⟨rfl, rfl⟩

theorem Boots.config_eq {now : Nat} {r : Except StoreError Outcome} (h : s.Boots io now r s') :
    s'.gateway.config = s.gateway.config := by
  cases h with
  | again => rfl
  | fresh _ load | corrupted _ load | kept _ load => exact load.frame.1
  | writtenBack _ load _ _ persist => exact persist.frame.1.trans load.frame.1

theorem Performs.config_eq (h : s.Performs io request answer s') :
    s'.gateway.config = s.gateway.config := by
  cases h with
  | booted h => exact h.config_eq
  | persisted h => exact h.frame.1
  | refused => rfl
  | recovered _ h => exact h.frame.1

theorem Performs.handover_frame (h : s.Performs io request answer s')
    (hne : ∀ now, request ≠ .bootstrap now) :
    s'.bootstrapped = s.bootstrapped ∧ s'.gateway.metadata = s.gateway.metadata := by
  cases h with
  | booted => exact absurd rfl (hne _)
  | persisted h => exact ⟨rfl, h.frame.2.2.1⟩
  | refused => exact ⟨rfl, rfl⟩
  | recovered _ h => exact ⟨rfl, h.frame.2.2.1⟩

theorem Performs.sound (h : s.Performs io request answer s') (hs : s.Sound) : s'.Sound := by
  intro hnew
  by_cases hboot : ∃ now, request = .bootstrap now
  · obtain ⟨now, rfl⟩ := hboot
    cases h with
    | booted h =>
      rw [h.frame.2.2] at hnew
      cases hnew
  · obtain ⟨hbootstrapped, hmetadata⟩ := h.handover_frame fun now hnow => hboot ⟨now, hnow⟩
    rw [hmetadata]
    exact hs (hbootstrapped.symm.trans hnew)

/-- A request that was carried out: the session before it and after it, and the answer. -/
structure Event (io : Ports σ) where
  before : Session σ
  request : Request
  answer : Answer
  after : Session σ
  performed : before.perform io request = (answer, after)

/-- The event is a bootstrap, the first one of its session or a repeated one. -/
def Event.IsBootstrap (e : Event io) : Prop := ∃ now, e.request = .bootstrap now

theorem Event.performs (e : Event io) (hs : e.before.Sound) :
    e.before.Performs io e.request e.answer e.after :=
  performs_of_perform hs e.performed

end VersionedStore.Session
