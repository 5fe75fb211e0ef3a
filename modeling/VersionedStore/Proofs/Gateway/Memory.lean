import VersionedStore.Proofs.Envelope
import VersionedStore.Proofs.Gateway.Request
import VersionedStore.Storage.Memory

/-!
# Gateways over a memory

What a request does to the document of a memory, whatever the markers are.

* `Loads.of_decoded`, `Loads.decodes`: a load that can read finds the envelope that the document is
  decoded to;
* `Performs.entries_written`, `Performs.entries_kept`: a state that was written is merged into the
  document, and every other request leaves the document alone.
-/

namespace VersionedStore

namespace Memory

variable {m m' : Memory}

theorem frame_of_get {keys : Option (List String)} {r : Except StoreError Object}
    (h : get keys m = (r, m')) : m'.entries = m.entries ∧ m'.available = m.available := by
  unfold get at h
  split at h <;> cases h <;> exact ⟨rfl, rfl⟩

theorem entries_of_get {document : Object} (h : (get none m).1 = .ok document) :
    document = m.entries := by
  unfold get at h
  split at h <;> cases h
  rfl

theorem get_of_readable (h : m.readFaults = 0) :
    get none m = (.ok m.entries, { m with gets := m.gets + 1 }) := by
  unfold get
  rw [if_pos h]
  rfl

theorem set_of_writable (h : m.writeFaults = 0) (entries : Object) :
    ∃ m', set entries m = (.ok (), m') := by
  unfold set
  rw [if_pos h]
  exact ⟨_, rfl⟩

theorem merge_of_set {entries : Object} (h : set entries m = (.ok (), m')) :
    m'.entries = m.entries.merge entries := by
  unfold set at h
  split at h <;> cases h
  rfl

theorem entries_of_set_error {entries : Object} {e : StoreError}
    (h : set entries m = (.error e, m')) : m'.entries = m.entries := by
  unfold set at h
  split at h <;> cases h
  rfl

theorem device_of_set {entries : Object} {r : Except StoreError Unit}
    (h : set entries m = (r, m')) :
    m'.available = m.available ∧ m'.readFaults = m.readFaults := by
  unfold set at h
  split at h <;> cases h <;> exact ⟨rfl, rfl⟩

end Memory

namespace Gateway

variable {ρ : Type} {markers : Markers ρ} {now : Nat} {g g' : Gateway (Memory × ρ)}
  {request : Request} {answer : Answer}

theorem Loads.memory_frame {r : Loaded} (h : Loads (.beside Memory.storage markers) now g r g') :
    g'.world.1.entries = g.world.1.entries ∧ g'.world.1.available = g.world.1.available := by
  by_cases ready : g.ready = true
  · rw [h.storage_eq ready]
    exact Memory.frame_of_get rfl
  · cases h with
    | unsupported => exact ⟨rfl, rfl⟩
    | _ => contradiction

/-- A load finds the envelope that the document is decoded to, if the memory can be read. -/
theorem Loads.of_decoded {r : Loaded} {e : Envelope} {document : Object}
    (h : Loads (.beside Memory.storage markers) now g r g') (ready : g.ready = true)
    (read : (Memory.get none g.world.1).1 = .ok document)
    (he : Envelope.ofDocument g.world.1.entries = .ok e) : r = .envelope e := by
  rw [← Memory.entries_of_get read] at he
  exact h.of_document ready read he

theorem Loads.of_heldBy {r : Loaded} {e : Envelope} {document : Object}
    (h : Loads (.beside Memory.storage markers) now g r g') (ready : g.ready = true)
    (read : (Memory.get none g.world.1).1 = .ok document) (he : e.HeldBy g.world.1.entries) :
    r = .envelope e :=
  h.of_decoded ready read he.ofDocument

/-- An envelope that was loaded is the one that the document is decoded to. -/
theorem Loads.decodes {e : Envelope}
    (h : Loads (.beside Memory.storage markers) now g (.envelope e) g') :
    Envelope.ofDocument g.world.1.entries = .ok e := by
  cases h with
  | decoded _ read _ decode =>
    have hdoc := Memory.entries_of_get (congrArg Prod.fst (Ports.get_beside read).1)
    rw [← hdoc]
    exact decode

theorem Loads.entries_of_fresh (h : Loads (.beside Memory.storage markers) now g .freshInstall g')
    (ready : g.ready = true) : g.world.1.entries = [] := by
  cases h with
  | unsupported hr => rw [hr] at ready; cases ready
  | fresh _ read => exact (Memory.entries_of_get (congrArg Prod.fst (Ports.get_beside read).1)).symm

/-! ### Persisting -/

theorem Persists.entries_written {state : Value}
    (h : Persists (.beside Memory.storage markers) g state (.ok .written) g') :
    ∃ data version, state = .object data ∧ g.metadata = some version ∧
      g'.world.1.entries = g.world.1.entries.merge (Envelope.toDocument ⟨version, data⟩) := by
  obtain ⟨data, version, hstate, hversion, hset⟩ := h.set_written
  exact ⟨data, version, hstate, hversion, Memory.merge_of_set hset⟩

theorem Persists.entries_kept {state : Value} {r : Except StoreError Persisted}
    (h : Persists (.beside Memory.storage markers) g state r g') (hne : r ≠ .ok .written) :
    g'.world.1.entries = g.world.1.entries := by
  cases h with
  | unsupported | missing | invalid | unset => rfl
  | skipped _ _ shut => rw [shut.storage_eq]
  | written => exact absurd rfl hne
  | failed _ _ opened write =>
    rw [← opened.storage_eq]
    split <;> exact Memory.entries_of_set_error (Ports.set_beside write).1

theorem Persists.device_frame {state : Value} {r : Except StoreError Persisted}
    (h : Persists (.beside Memory.storage markers) g state r g') :
    g'.world.1.available = g.world.1.available ∧ g'.world.1.readFaults = g.world.1.readFaults := by
  cases h with
  | unsupported | missing | invalid | unset => exact ⟨rfl, rfl⟩
  | skipped _ _ shut => rw [shut.storage_eq]; exact ⟨rfl, rfl⟩
  | written _ _ opened write =>
    rw [← opened.storage_eq]
    exact Memory.device_of_set (Ports.set_beside write).1
  | failed _ _ opened write =>
    rw [← opened.storage_eq]
    split <;> exact Memory.device_of_set (Ports.set_beside write).1

/-! ### Requests -/

theorem Performs.available_eq
    (h : Performs (.beside Memory.storage markers) g request answer g') :
    g'.world.1.available = g.world.1.available := by
  cases h with
  | configured | configuredTwice => rfl
  | loaded h => exact h.memory_frame.2
  | consented set => rw [(Ports.setMarker_beside set).2]
  | persisted h => exact h.device_frame.1

/-- **A state that was written** is an object, under a version that was configured, and is merged
into the document. -/
theorem Performs.entries_written
    (h : Performs (.beside Memory.storage markers) g request (.persisted (.ok .written)) g') :
    ∃ data version, request = .persist (.object data) ∧ g.metadata = some version ∧
      g'.world.1.entries = g.world.1.entries.merge (Envelope.toDocument ⟨version, data⟩) := by
  cases h with
  | persisted h =>
    obtain ⟨data, version, rfl, hmetadata, hentries⟩ := h.entries_written
    exact ⟨data, version, rfl, hmetadata, hentries⟩

/-- **Every other request** leaves the document alone. -/
theorem Performs.entries_kept
    (h : Performs (.beside Memory.storage markers) g request answer g')
    (hne : answer ≠ .persisted (.ok .written)) : g'.world.1.entries = g.world.1.entries := by
  cases h with
  | configured | configuredTwice => rfl
  | loaded h => exact h.memory_frame.1
  | consented set => rw [(Ports.setMarker_beside set).2]
  | persisted h => exact h.entries_kept fun hr => hne (congrArg Answer.persisted hr)

end Gateway

end VersionedStore
