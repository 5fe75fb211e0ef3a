import VersionedStore.Proofs.Gateway.Memory

/-!
# What a persist changes

A state is refused before anything is done with it, or the persist has an outcome.  Whatever it
comes to, it touches what its answer tells of and leaves the rest alone.

* `Gateway.refusal?`: what stands against a state, the first thing of four;
* `Persists.error_iff`, `Persists.eq_of_error`: a state is refused for that alone, and then nothing
  was done;
* `persist_changes_only_what_it_answers`: the statement for all gateways over a memory.
-/

namespace VersionedStore.Gateway

variable {σ ρ : Type}

/-- **What a state is refused for**, the first that applies: a storage that cannot be used, no state
at all, a state that is no object, and no version to write it under. -/
def refusal? (g : Gateway σ) (state : Value) : Option StoreError :=
  if !g.ready then some .unavailable
  else if state = .null then some .missingState
  else if state.object?.isNone then some (.invalidState (Value.typeName (some state)))
  else if g.metadata.isNone then some .metadataUnset
  else none

theorem refusal?_object {g : Gateway σ} {version : Version} (ready : g.ready = true)
    (metadata : g.metadata = some version) (data : Object) : g.refusal? (.object data) = none := by
  simp [refusal?, ready, metadata, Value.object?]

section Refusal

variable {io : Ports σ} {g g' : Gateway σ} {state : Value}

/-- **A state is refused for what stands against it**, and for nothing else. -/
theorem Persists.error_iff {r : Except StoreError Persisted} (h : Persists io g state r g')
    {e : StoreError} : r = .error e ↔ g.refusal? state = some e := by
  cases h with
  | unsupported ready => simp [refusal?, ready]
  | missing ready => simp [refusal?, ready]
  | invalid ready ne none => simp [refusal?, ready, ne, none]
  | unset ready metadata => simp [refusal?, ready, metadata, Value.object?]
  | skipped ready metadata | written ready metadata | failed ready metadata =>
    simp [refusal?_object ready metadata]

/-- **A state that is refused** leaves the gateway and its world as they are. -/
theorem Persists.eq_of_error {e : StoreError} (h : Persists io g state (.error e) g') : g' = g := by
  cases h <;> rfl

end Refusal

/-! ### Over a memory -/

section Memory

variable {markers : Markers ρ} {g g' : Gateway (Memory × ρ)} {state : Value}

theorem Persists.kept_of_skipped
    (h : Persists (.beside Memory.storage markers) g state (.ok .skipped) g') :
    g'.world.1 = g.world.1 ∧ g'.failing = g.failing ∧ g'.log = g.log := by
  cases h with
  | skipped _ _ shut => exact ⟨shut.storage_eq, rfl, rfl⟩

theorem Persists.get?_written
    (h : Persists (.beside Memory.storage markers) g state (.ok .written) g') :
    ∃ data version, state = .object data ∧ g.metadata = some version ∧
      g'.world.1.entries = g.world.1.entries.merge (Envelope.toDocument ⟨version, data⟩) ∧
      Envelope.HeldBy ⟨version, data⟩ g'.world.1.entries ∧
      ∀ key, key ≠ Envelope.dataKey → key ≠ Envelope.metaKey →
        g'.world.1.entries.get? key = g.world.1.entries.get? key := by
  obtain ⟨data, version, hstate, hversion, hentries⟩ := h.entries_written
  refine ⟨data, version, hstate, hversion, hentries, ?_, fun key hdata hmeta => ?_⟩
  · rw [hentries]
    exact Envelope.heldBy_merge _ _
  · have hkey : key ∉ Table.keys (Envelope.toDocument ⟨version, data⟩) := by
      simp [Envelope.toDocument, Table.keys, hdata, hmeta]
    rw [hentries, Table.get?_merge_of_notMem hkey]

theorem Persists.view_eq_of_get {r : Except StoreError Persisted} {α : Type} {view : ρ → α}
    (h : Persists (.beside Memory.storage markers) g state r g')
    (hview : ∀ key w, view (markers.get key w).2 = view w) : view g'.world.2 = view g.world.2 := by
  rcases h.markers_cases with hw | hw <;> rw [hw]
  exact hview _ _

end Memory

/-- **A persist changes only what it answers.**  Over any memory, with any failures armed, and any
markers, whatever was done with the gateway before: a state is refused exactly for the first of four
things that stands against it, and then the gateway, its log and its world are as before, so that
nothing was called; a state that is skipped touches neither the memory, nor the latch, nor the log;
a state that is skipped or fails leaves the entries; and a state that was written is merged into
them with its version, which leaves every other key.  What the gateway knows and what the markers
hold stays in every case, and the markers are read at most once and never set. -/
theorem persist_changes_only_what_it_answers (markers : Markers ρ) (g : Gateway (Memory × ρ))
    (state : Value) :
    let answer := (g.persist (.beside Memory.storage markers) state).1
    let after := (g.persist (.beside Memory.storage markers) state).2
    (∀ e, answer = .error e ↔ g.refusal? state = some e) ∧
    (∀ e, answer = .error e → after = g) ∧
    (answer = .ok .skipped → after.world.1 = g.world.1 ∧ after.failing = g.failing ∧
      after.log = g.log) ∧
    (answer = .ok .skipped ∨ answer = .ok .failed → after.world.1.entries = g.world.1.entries) ∧
    (answer = .ok .written → ∃ data version, state = .object data ∧ g.metadata = some version ∧
      after.world.1.entries = g.world.1.entries.merge (Envelope.toDocument ⟨version, data⟩) ∧
      after.world.1.entries.get? "data" = some (.object data) ∧
      after.world.1.entries.get? "meta" = some (.object [("version", .ofVersion version)]) ∧
      ∀ key, key ≠ "data" → key ≠ "meta" →
        after.world.1.entries.get? key = g.world.1.entries.get? key) ∧
    (after.corrupted = g.corrupted ∧ after.metadata = g.metadata ∧ after.recent = g.recent) ∧
    (after.world.2 = g.world.2 ∨ after.world.2 = (markers.get g.config.recoveryKey g.world.2).2) ∧
    ∀ (α : Type) (view : ρ → α), (∀ key w, view (markers.get key w).2 = view w) →
      view after.world.2 = view g.world.2 := by
  intro answer after
  have h : Persists (.beside Memory.storage markers) g state answer after := persists_of_persist rfl
  obtain ⟨-, -, hmetadata, hcorrupted, hrecent⟩ := h.frame
  refine ⟨fun e => h.error_iff, fun e he => ?_, fun hr => ?_, fun hr => h.entries_kept ?_,
    fun hr => ?_, ⟨hcorrupted, hmetadata, hrecent⟩, h.markers_cases,
    fun α view hview => h.view_eq_of_get hview⟩
  · exact (he ▸ h).eq_of_error
  · exact (hr ▸ h).kept_of_skipped
  · rcases hr with hr | hr <;> rw [hr] <;> nofun
  · obtain ⟨data, version, hstate, hversion, hentries, hheld, hother⟩ := (hr ▸ h).get?_written
    exact ⟨data, version, hstate, hversion, hentries, hheld.data, hheld.version, hother⟩

end VersionedStore.Gateway
