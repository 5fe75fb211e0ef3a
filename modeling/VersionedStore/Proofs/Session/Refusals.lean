import VersionedStore.Proofs.Gateway.Effects
import VersionedStore.Proofs.Session.WriteBack

/-!
# Requests that are refused

A bootstrap is refused if there was one before, and for nothing else.  A recovery is refused for
what a persist is refused for; the user's consent is on record by then, since it is what the persist
asks for.

* `first_bootstrap_is_never_refused`: the statement for all runs of a session, over any ports;
* `Session.consented`: what a recovery leaves that is refused;
* `refused_recovery_leaves_the_consent`: the statement for all sessions, over any ports.
-/

namespace VersionedStore.Session

variable {σ : Type}

/-! ### Bootstraps -/

theorem Stamped.refuses {io : Ports σ} {chain : Chain} {past : List (Event io)} {b x : Event io}
    (h : Stamped chain past x.before) (hp : x.before.Performs io x.request x.answer x.after)
    (hmem : b ∈ past) (hb : b.IsBootstrap) (hx : x.IsBootstrap) :
    x.answer = .booted (.error .alreadyBootstrapped) ∧ x.after = x.before := by
  obtain ⟨now, r, hanswer, hboots⟩ := hp.boots hx
  obtain ⟨rfl, hafter⟩ := hboots.of_bootstrapped (h.kept b hmem hb).1
  exact ⟨hanswer, hafter⟩

/-- **The first bootstrap of a session is never refused, and every other one does nothing.**  Over
any ports, however they fail and whatever happens to their world, and whatever was asked of the
session before, the first bootstrap has an outcome: neither is its version refused nor what it
writes back.  Every later one is answered that there was one, and leaves the session with its world
as it is.  This is said of all chains, and so of those whose migrations look at a world: each run of
such a chain is one of a chain to the same versions. -/
theorem first_bootstrap_is_never_refused (io : Ports σ) (chain : Chain) (config : Config)
    (initial : Object) (world : σ) (log : List Diagnostic) {steps : List (Step σ)}
    (hs : ∀ x ∈ steps, x.Stays) :
    (∀ (ω : Type) (answers : Answers ω) (policy : OnFault) (e : Envelope) (w : ω), ∃ other : Chain,
      other.targets = chain.targets ∧ other.run policy e = (chain.runIn answers policy e w).1) ∧
    ∀ past b later,
      (start io chain config initial world log).events io steps = past ++ b :: later →
      (∀ x ∈ past, ¬ x.IsBootstrap) → b.IsBootstrap →
      (∃ outcome, b.answer = .booted (.ok outcome)) ∧
      ∀ x ∈ later, x.IsBootstrap →
        x.answer = .booted (.error .alreadyBootstrapped) ∧ x.after = x.before := by
  refine ⟨fun ω answers policy e w => chain.exists_run_eq answers policy e w, ?_⟩
  intro past b later hes hpast hb
  have hsound : (start io chain config initial world log).Sound :=
    sound_start io chain config initial world log
  have hinit : Stamped chain ([] : List (Event io)) (start io chain config initial world log) :=
    stamped_start ..
  have hkeeps : Preserved io steps (Stamped chain) := preserved_stamped hs
  constructor
  · obtain ⟨-, hstamped, hp⟩ := hkeeps.at_event hsound hinit hes
    obtain ⟨outcome, hanswer, -⟩ := hstamped.bootstrap hp hpast hb
    exact ⟨outcome, hanswer⟩
  · intro x hx hboot
    obtain ⟨between, future, rfl⟩ := List.append_of_mem hx
    rw [← List.cons_append, ← List.append_assoc] at hes
    obtain ⟨-, hstamped, hp⟩ := hkeeps.at_event hsound hinit hes
    exact hstamped.refuses hp (by simp) hb hboot

/-- A recovery without a state comes too early, the storage then fails, and the session is
bootstrapped twice. -/
def bootingTwice : List (Step (Memory × Table String String)) :=
  [.use (.recover .null), .disturb fun w => (w.1.failReads 1, w.2), .use (.bootstrap 5),
    .use (.persist (.object [])), .use (.bootstrap 6)]

theorem first_bootstrap_is_never_refused_unreadable :
    let io := Ports.beside Memory.storage .memory
    ∃ a b c d : Event io, (start io .faulty {} [] ({}, []) []).events io bootingTwice =
      [a, b, c, d] ∧
      a.answer = .persisted (.error .missingState) ∧ (∃ outcome, b.answer = .booted (.ok outcome)) ∧
      d.answer = .booted (.error .alreadyBootstrapped) ∧ d.after = d.before := by
  intro io
  have hs : ∀ x ∈ bootingTwice, x.Stays := by
    intro x hx
    simp only [bootingTwice, List.mem_cons, List.not_mem_nil, or_false] at hx
    rcases hx with rfl | rfl | rfl | rfl | rfl <;> trivial
  have hrun : ∃ a b c d : Event io,
      (start io .faulty {} [] ({}, []) []).events io bootingTwice = [a, b, c, d] ∧
        a.request = .recover .null ∧ b.request = .bootstrap 5 ∧ d.request = .bootstrap 6 ∧
        a.answer = .persisted (.error .missingState) := ⟨_, _, _, _, rfl, rfl, rfl, rfl, rfl⟩
  obtain ⟨a, b, c, d, hes, ha, hb, hd, hmissing⟩ := hrun
  have ha' : ¬ a.IsBootstrap := by
    rintro ⟨now, hnow⟩
    cases ha.symm.trans hnow
  obtain ⟨-, hall⟩ := first_bootstrap_is_never_refused io .faulty {} [] ({}, []) [] hs
  obtain ⟨hfirst, hlater⟩ := hall [a] b [c, d] hes (by simpa using ha') ⟨5, hb⟩
  obtain ⟨hanswer, hafter⟩ := hlater d (by simp) ⟨6, hd⟩
  exact ⟨a, b, c, d, hes, hmissing, hfirst, hanswer, hafter⟩

/-! ### Recoveries -/

section Recovery

variable {io : Ports σ} {s s' : Session σ} {state : Value}

/-- The session after the user's consent was handed to its markers, and nothing else was done. -/
def consented (io : Ports σ) (s : Session σ) : Session σ :=
  s.disturbed fun w => (io.markers.set s.gateway.config.recoveryKey Gateway.consentValue w).2

theorem Performs.recovery_error_iff {r : Except StoreError Persisted}
    (h : s.Performs io (.recover state) (.persisted r) s') {e : StoreError} : r = .error e ↔
      (io.markers.set s.gateway.config.recoveryKey Gateway.consentValue s.gateway.world).1 =
        .error e ∨
      (io.markers.set s.gateway.config.recoveryKey Gateway.consentValue s.gateway.world).1 =
        .ok () ∧
        s.gateway.refusal? state = some e := by
  cases h with
  | refused set => simp [set]
  | recovered set h =>
    rw [h.error_iff, set]
    simp [Gateway.refusal?]

theorem Performs.eq_consented {e : StoreError}
    (h : s.Performs io (.recover state) (.persisted (.error e)) s') : s' = s.consented io := by
  have hworld {r : Except StoreError Unit} {w : σ}
      (set : io.markers.set s.gateway.config.recoveryKey Gateway.consentValue s.gateway.world =
        (r, w)) :
      s.withGateway { s.gateway with world := w } = s.consented io := by
    obtain rfl : w = (io.markers.set _ _ _).2 := congrArg Prod.snd set.symm
    rfl
  cases h with
  | refused set => exact hworld set
  | recovered set h =>
    rw [h.eq_of_error]
    exact hworld set

theorem consented_not_skipped {view : σ → String → Option String} (hf : io.markers.Faithful view)
    (s : Session σ) (state : Value) : ((s.consented io).persist io state).1 ≠ .ok .skipped := by
  intro hskipped
  obtain ⟨g, hp, -⟩ := persists_of_persist (Prod.ext hskipped rfl :
    (s.consented io).persist io state = (.ok .skipped, _))
  cases hp with
  | skipped _ _ shut =>
    have hread := congrArg Prod.fst shut.read
    have hview : view (s.consented io).gateway.world s.gateway.config.recoveryKey =
        some Gateway.consentValue := (hf.view_set ..).trans (if_pos rfl)
    rw [hf.get_ok] at hread
    exact shut.no_consent (hread.symm.trans (congrArg Except.ok hview))

end Recovery

/-- **A recovery that is refused leaves the user's consent on record, and nothing else.**  Over any
ports, whatever was asked of a session before: a recovery is refused exactly if the markers refuse
the consent, or else for the first thing that stands against its state.  Then the session, its
gateway and its log are as before, and of all calls one was made, which sets the marker of the
consent; so every part of the world that markers leave alone is as it was, what is stored among it.
If the markers refused the consent and left the world alone, everything is as it was.  If they keep
what they are told, the consent is on record and the other markers are as before; and if they can be
read too, no state that is handed over next is skipped. -/
theorem refused_recovery_leaves_the_consent (io : Ports σ) (s : Session σ) (state : Value) :
    let recovery := s.recover io state
    let setting := io.markers.set s.gateway.config.recoveryKey "true" s.gateway.world
    (∀ e, recovery.1 = .error e ↔
      setting.1 = .error e ∨ setting.1 = .ok () ∧ s.gateway.refusal? state = some e) ∧
    ∀ e, recovery.1 = .error e →
      recovery.2 = s.withGateway { s.gateway with world := setting.2 } ∧
      (∀ (α : Type) (part : σ → α), (∀ key value w, part (io.markers.set key value w).2 = part w) →
        part recovery.2.gateway.world = part s.gateway.world) ∧
      (setting = (.error e, s.gateway.world) → recovery.2 = s) ∧
      (∀ view, io.markers.Durable view → ∀ key, view recovery.2.gateway.world key =
        if key = s.gateway.config.recoveryKey then some "true" else view s.gateway.world key) ∧
      ∀ view, io.markers.Faithful view → ∀ next, (recovery.2.persist io next).1 ≠ .ok .skipped := by
  intro recovery setting
  have h : s.Performs io (.recover state) (.persisted recovery.1) recovery.2 :=
    performs_of_recover rfl
  refine ⟨fun e => h.recovery_error_iff, fun e he => ?_⟩
  rw [he] at h
  have heq : recovery.2 = s.consented io := h.eq_consented
  rw [heq]
  refine ⟨rfl, fun α part hpart => hpart .., fun hsame => ?_, fun view hd key => hd.view_set ..,
    fun view hf => consented_not_skipped hf s⟩
  show s.withGateway { s.gateway with world := setting.2 } = s
  rw [hsame]
  rfl

/-- A recovery without a state, over a corrupted store, is refused; but the next state is written,
which would have been skipped.  One before the bootstrap is refused too, and recorded. -/
theorem refused_recovery_is_recorded :
    let io := Ports.beside Memory.storage .memory
    let boot := (start io .shipped {} [] ({ entries := [("junk", .null)] }, []) []).bootstrap io 5
    let recovery := boot.2.recover io .null
    let early := (start io .shipped {} [] ({}, []) []).recover io (.object [])
    boot.1 = .ok .corrupted ∧ recovery.1 = .error .missingState ∧
      boot.2.gateway.world.2.get? "user_opted_in_to_restore" = none ∧
      recovery.2.gateway.world.2.get? "user_opted_in_to_restore" = some "true" ∧
      (boot.2.persist io (.object [])).1 = .ok .skipped ∧
      (recovery.2.persist io (.object [])).1 = .ok .written ∧
      early.1 = .error .metadataUnset ∧
      early.2.gateway.world.2.get? "user_opted_in_to_restore" = some "true" := by
  decide +kernel

end VersionedStore.Session
