import VersionedStore.Proofs.Ports

/-!
# What a gateway can do

Everything that a load and a persist can come to, one constructor for each way through them, with
what was read and written on that way and the gateway that is left.

* `Loads`, `loads_of_load`: the ways of a load;
* `Persists`, `persists_of_persist`: the ways of a persist;
* `Open`, `Shut`: what lets a state pass on to the storage, and what stops it.

The frame lemmas say what each of them leaves alone.
-/

namespace VersionedStore

variable {σ ρ : Type}

namespace Gateway

variable {io : Ports σ} {now : Nat} {g g' : Gateway σ}

theorem getMarker_eq {key : String} {r : Except StoreError (Option String)} {w : σ}
    (h : io.markers.get key g.world = (r, w)) :
    g.getMarker io key = (r, { g with world := w }) := by
  unfold getMarker
  rw [h]

theorem recordExistence_eq (io : Ports σ) (now : Nat) (g : Gateway σ) :
    g.recordExistence io now =
      { g with world := io.markers.markExistence g.config.existenceKey now g.world } := by
  unfold recordExistence getMarker setMarker Markers.markExistence
  rcases io.markers.get g.config.existenceKey g.world with ⟨_ | _ | _, w⟩ <;> rfl

/-! ### Opening -/

theorem start_frame (io : Ports σ) (config : Config) (world : σ) (log : List Diagnostic) :
    (start io config world log).config = config ∧
      (start io config world log).ready = (io.storage.isAvailable world).1 ∧
      (start io config world log).world = (io.storage.isAvailable world).2 ∧
      (start io config world log).corrupted = false ∧
      (start io config world log).metadata = none := by
  unfold start
  rcases io.storage.isAvailable world with ⟨_ | _, w⟩ <;> exact ⟨rfl, rfl, rfl, rfl, rfl⟩

/-! ### Loading -/

/-- **The ways of a load**, with what it finds and the gateway it leaves. -/
inductive Loads (io : Ports σ) (now : Nat) (g : Gateway σ) : Loaded → Gateway σ → Prop
  | unsupported (ready : g.ready = false) : Loads io now g .freshInstall g
  | unreadable {e w} (ready : g.ready = true)
      (read : io.storage.get none g.world = (.error e, w)) :
      Loads io now g .corrupted
        ({ g with world := w, corrupted := true }.report e.asReadFailure "load" none)
  | fresh {w w'} (ready : g.ready = true) (read : io.storage.get none g.world = (.ok [], w))
      (marker : io.markers.get g.config.existenceKey w = (.ok none, w')) :
      Loads io now g .freshInstall { g with world := w', recent := none }
  | lost {w w' seen} (ready : g.ready = true)
      (read : io.storage.get none g.world = (.ok [], w))
      (marker : io.markers.get g.config.existenceKey w = (.ok (some seen), w')) :
      Loads io now g .corrupted
        ({ g with world := w', recent := none, corrupted := true }.report
          (.corruption ("storage is empty but state was first observed at " ++ seen)) "load" none)
  | unmarked {w w' e} (ready : g.ready = true)
      (read : io.storage.get none g.world = (.ok [], w))
      (marker : io.markers.get g.config.existenceKey w = (.error e, w')) :
      Loads io now g .corrupted
        ({ g with world := w', recent := none, corrupted := true }.report e "load" none)
  | decoded {w document e} (ready : g.ready = true)
      (read : io.storage.get none g.world = (.ok document, w)) (ne : document ≠ [])
      (decode : Envelope.ofDocument document = .ok e) :
      Loads io now g (.envelope e)
        { g with world := io.markers.markExistence g.config.existenceKey now w, recent := some e }
  | undecoded {w document e} (ready : g.ready = true)
      (read : io.storage.get none g.world = (.ok document, w)) (ne : document ≠ [])
      (decode : Envelope.ofDocument document = .error e) :
      Loads io now g .corrupted
        ({ g with
            world := io.markers.markExistence g.config.existenceKey now w
            corrupted := true }.report e "load" none)

theorem loads_of_classifyEmpty {w : σ} {r : Loaded} (ready : g.ready = true)
    (read : io.storage.get none g.world = (.ok [], w))
    (h : { g with world := w, recent := none }.classifyEmpty io = (r, g')) :
    Loads io now g r g' := by
  unfold classifyEmpty at h
  rcases hm : io.markers.get g.config.existenceKey w with ⟨e | _ | seen, w'⟩ <;>
    rw [getMarker_eq hm] at h <;> obtain ⟨rfl, rfl⟩ := Prod.mk.inj h
  · exact .unmarked ready read hm
  · exact .fresh ready read hm
  · exact .lost ready read hm

theorem loads_of_loadDocument {w : σ} {document : Object} {r : Loaded} (ready : g.ready = true)
    (read : io.storage.get none g.world = (.ok document, w)) (ne : document ≠ [])
    (h : { g with world := w }.loadDocument io now document = (r, g')) : Loads io now g r g' := by
  unfold loadDocument at h
  rw [recordExistence_eq] at h
  rcases hd : Envelope.ofDocument document with e | e <;> simp only [hd] at h <;>
    obtain ⟨rfl, rfl⟩ := Prod.mk.inj h
  · exact .undecoded ready read ne hd
  · exact .decoded ready read ne hd

theorem loads_of_load {r : Loaded} (h : g.load io now = (r, g')) : Loads io now g r g' := by
  unfold load at h
  by_cases hready : g.ready = true
  swap
  · rw [if_neg hready] at h
    obtain ⟨rfl, rfl⟩ := Prod.mk.inj h
    exact .unsupported (eq_false_of_ne_true hready)
  rw [if_pos hready] at h
  rcases hread : io.storage.get none g.world with ⟨e | document, w⟩ <;> rw [hread] at h
  · obtain ⟨rfl, rfl⟩ := Prod.mk.inj h
    exact .unreadable hready hread
  by_cases hd : document = []
  · subst hd
    exact loads_of_classifyEmpty hready hread h
  · dsimp only at h
    rw [if_neg fun he => hd (List.isEmpty_iff.mp he)] at h
    exact loads_of_loadDocument hready hread hd h

theorem Loads.ready {r : Loaded} (h : Loads io now g r g') (hr : r ≠ .freshInstall) :
    g.ready = true := by
  cases h with
  | unsupported => exact absurd rfl hr
  | unreadable ready | fresh ready | lost ready | unmarked ready | decoded ready
  | undecoded ready => exact ready

theorem Loads.of_get {r : Loaded} (h : Loads io now g r g') (ready : g.ready = true)
    {document : Object} {w : σ} (hget : io.storage.get none g.world = (.ok document, w))
    {e : Envelope} (he : Envelope.ofDocument document = .ok e) :
    r = .envelope e ∧ g' =
      { g with
        world := io.markers.markExistence g.config.existenceKey now w
        recent := some e } := by
  cases h with
  | unsupported hr => rw [hr] at ready; cases ready
  | unreadable _ read => cases hget.symm.trans read
  | fresh _ read | lost _ read | unmarked _ read =>
    obtain ⟨hdocument, -⟩ := Prod.mk.inj (hget.symm.trans read)
    rw [Except.ok.inj hdocument] at he
    cases he
  | decoded _ read _ decode =>
    obtain ⟨hdocument, rfl⟩ := Prod.mk.inj (hget.symm.trans read)
    obtain rfl := Except.ok.inj hdocument
    obtain rfl := Except.ok.inj (he.symm.trans decode)
    exact ⟨rfl, rfl⟩
  | undecoded _ read _ decode =>
    obtain ⟨hdocument, -⟩ := Prod.mk.inj (hget.symm.trans read)
    obtain rfl := Except.ok.inj hdocument
    cases he.symm.trans decode

/-! ### Persisting -/

/-- What lets a state pass on to the storage, which is then in the world `w`: no corruption was met,
or the marker of the user's consent says so at this very reading. -/
def Open (io : Ports σ) (g : Gateway σ) (w : σ) : Prop :=
  (g.corrupted = false ∧ w = g.world) ∨
    (g.corrupted = true ∧
      io.markers.get g.config.recoveryKey g.world = (.ok (some consentValue), w))

/-- What stops a state: corruption was met, and the marker of the user's consent says anything
else. -/
structure Shut (io : Ports σ) (g : Gateway σ) (answer : Except StoreError (Option String)) (w : σ) :
    Prop where
  corrupted : g.corrupted = true
  read : io.markers.get g.config.recoveryKey g.world = (answer, w)
  no_consent : answer ≠ .ok (some consentValue)

theorem isOpen_cases (io : Ports σ) (g : Gateway σ) :
    (∃ w, g.Open io w ∧ g.isOpen io = (true, { g with world := w })) ∨
      ∃ answer w, g.Shut io answer w ∧ g.isOpen io = (false, { g with world := w }) := by
  unfold isOpen hasConsent
  by_cases hc : g.corrupted = true
  swap
  · rw [if_neg hc]
    exact Or.inl ⟨g.world, Or.inl ⟨eq_false_of_ne_true hc, rfl⟩, rfl⟩
  rw [if_pos hc]
  rcases hm : io.markers.get g.config.recoveryKey g.world with ⟨e | value, w⟩ <;>
    rw [getMarker_eq hm]
  · exact Or.inr ⟨.error e, w, ⟨hc, hm, nofun⟩, rfl⟩
  by_cases hv : value = some consentValue
  · subst hv
    exact Or.inl ⟨w, Or.inr ⟨hc, hm⟩, by simp⟩
  · exact Or.inr ⟨.ok value, w, ⟨hc, hm, fun h => hv (Except.ok.inj h)⟩, by simp [hv]⟩

/-- **The ways of a persist**, with its result and the gateway it leaves. -/
inductive Persists (io : Ports σ) (g : Gateway σ) :
    Value → Except StoreError Persisted → Gateway σ → Prop
  | unsupported {state} (ready : g.ready = false) : Persists io g state (.error .unavailable) g
  | missing (ready : g.ready = true) : Persists io g .null (.error .missingState) g
  | invalid {state} (ready : g.ready = true) (ne : state ≠ .null) (none : state.object? = none) :
      Persists io g state (.error (.invalidState (Value.typeName (some state)))) g
  | unset {data} (ready : g.ready = true) (metadata : g.metadata = none) :
      Persists io g (.object data) (.error .metadataUnset) g
  | skipped {data version answer w} (ready : g.ready = true) (metadata : g.metadata = some version)
      (shut : g.Shut io answer w) :
      Persists io g (.object data) (.ok .skipped) { g with world := w }
  | written {data version w w'} (ready : g.ready = true) (metadata : g.metadata = some version)
      (opened : g.Open io w)
      (write : io.storage.set (Envelope.toDocument ⟨version, data⟩) w = (.ok (), w')) :
      Persists io g (.object data) (.ok .written) { g with world := w', failing := g.failing.reset }
  | failed {data version w e w'} (ready : g.ready = true) (metadata : g.metadata = some version)
      (opened : g.Open io w)
      (write : io.storage.set (Envelope.toDocument ⟨version, data⟩) w = (.error e, w')) :
      Persists io g (.object data) (.ok .failed)
        (if g.failing.trip.1 then
          { g with world := w', failing := g.failing.trip.2 }.report e.asWriteFailure "persist"
            (some version)
        else { g with world := w', failing := g.failing.trip.2 })

theorem persists_object {data : Object} {r : Except StoreError Persisted} (ready : g.ready = true)
    (h : g.persist io (.object data) = (r, g')) : Persists io g (.object data) r g' := by
  unfold persist at h
  simp only [ready, Bool.not_true, Bool.false_eq_true, if_false] at h
  rcases hm : g.metadata with _ | version <;> simp only [hm] at h
  · obtain ⟨rfl, rfl⟩ := Prod.mk.inj h
    exact .unset ready hm
  rcases isOpen_cases io g with ⟨w, hopen, heq⟩ | ⟨answer, w, hshut, heq⟩ <;> simp only [heq] at h
  · unfold writeDocument at h
    rcases hw : io.storage.set (Envelope.toDocument ⟨version, data⟩) w with ⟨e | _, w'⟩ <;>
      simp only [hw] at h <;> obtain ⟨rfl, rfl⟩ := Prod.mk.inj h
    · exact .failed ready hm hopen hw
    · exact .written ready hm hopen hw
  · obtain ⟨rfl, rfl⟩ := Prod.mk.inj h
    exact .skipped ready hm hshut

theorem persists_of_persist {state : Value} {r : Except StoreError Persisted}
    (h : g.persist io state = (r, g')) : Persists io g state r g' := by
  rcases hready : g.ready with _ | _
  · unfold persist at h
    simp only [hready, Bool.not_false, if_true] at h
    obtain ⟨rfl, rfl⟩ := Prod.mk.inj h
    exact .unsupported hready
  cases state with
  | object data => exact persists_object hready h
  | null =>
    unfold persist at h
    simp only [hready, Bool.not_true, Bool.false_eq_true, if_false] at h
    obtain ⟨rfl, rfl⟩ := Prod.mk.inj h
    exact .missing hready
  | _ =>
    unfold persist at h
    simp only [hready, Bool.not_true, Bool.false_eq_true, if_false] at h
    obtain ⟨rfl, rfl⟩ := Prod.mk.inj h
    exact .invalid hready (by rintro ⟨⟩) rfl

theorem Shut.not_open {answer : Except StoreError (Option String)} {w w' : σ}
    (h : g.Shut io answer w) : ¬ g.Open io w' := by
  rintro (⟨hc, -⟩ | ⟨-, read⟩)
  · rw [h.corrupted] at hc
    cases hc
  · rw [h.read] at read
    exact h.no_consent (Prod.mk.inj read).1

theorem Persists.of_ready {data : Object} {r : Except StoreError Persisted} {version : Version}
    (h : Persists io g (.object data) r g') (ready : g.ready = true)
    (metadata : g.metadata = some version) :
    (∃ answer w, g.Shut io answer w ∧ r = .ok .skipped ∧ g' = { g with world := w }) ∨
      ∃ answer w, g.Open io w ∧
        io.storage.set (Envelope.toDocument ⟨version, data⟩) w = (answer, g'.world) ∧
        (answer = .ok () ∧ r = .ok .written ∨ (∃ e, answer = .error e) ∧ r = .ok .failed) := by
  cases h with
  | unsupported hr => rw [hr] at ready; cases ready
  | invalid _ _ hn => cases hn
  | unset _ hm => rw [hm] at metadata; cases metadata
  | skipped _ _ shut => exact Or.inl ⟨_, _, shut, rfl, rfl⟩
  | written _ hm opened write =>
    obtain rfl := Option.some.inj (hm.symm.trans metadata)
    exact Or.inr ⟨_, _, opened, write, Or.inl ⟨rfl, rfl⟩⟩
  | @failed _ _ w e w' _ hm opened write =>
    obtain rfl := Option.some.inj (hm.symm.trans metadata)
    refine Or.inr ⟨.error e, w, opened, ?_, Or.inr ⟨⟨e, rfl⟩, rfl⟩⟩
    rw [write]
    split <;> rfl

/-! ### What is left alone -/

theorem Loads.frame {r : Loaded} (h : Loads io now g r g') :
    g'.config = g.config ∧ g'.ready = g.ready ∧ g'.metadata = g.metadata ∧
      g'.failing = g.failing := by
  cases h <;> exact ⟨rfl, rfl, rfl, rfl⟩

theorem Persists.frame {state : Value} {r : Except StoreError Persisted}
    (h : Persists io g state r g') :
    g'.config = g.config ∧ g'.ready = g.ready ∧ g'.metadata = g.metadata ∧
      g'.corrupted = g.corrupted ∧ g'.recent = g.recent := by
  cases h with
  | failed => split <;> exact ⟨rfl, rfl, rfl, rfl, rfl⟩
  | _ => exact ⟨rfl, rfl, rfl, rfl, rfl⟩

theorem Loads.corrupted_iff {r : Loaded} (h : Loads io now g r g') :
    g'.corrupted = true ↔ g.corrupted = true ∨ r = .corrupted := by
  cases h with
  | unsupported | fresh | decoded => exact ⟨Or.inl, fun h => h.resolve_right nofun⟩
  | _ => exact ⟨fun _ => Or.inr rfl, fun _ => rfl⟩

/-! ### A storage and markers that share nothing -/

section Beside

variable {storage : Storage σ} {markers : Markers ρ} {g g' : Gateway (σ × ρ)}

theorem start_beside (storage : Storage σ) (markers : Markers ρ) (config : Config) (w : σ × ρ)
    (log : List Diagnostic) :
    (start (.beside storage markers) config w log).ready = (storage.isAvailable w.1).1 ∧
      (start (.beside storage markers) config w log).world =
        ((storage.isAvailable w.1).2, w.2) := by
  obtain ⟨-, hready, hworld, -⟩ := start_frame (.beside storage markers) config w log
  exact ⟨hready, hworld⟩

theorem start_available {w w₁ : σ} (h : storage.isAvailable w = (true, w₁)) (markers : Markers ρ)
    (config : Config) (r : ρ) (log : List Diagnostic) :
    (start (.beside storage markers) config (w, r) log).ready = true ∧
      (start (.beside storage markers) config (w, r) log).world = (w₁, r) := by
  obtain ⟨hready, hworld⟩ := start_beside storage markers config (w, r) log
  rw [hready, hworld, h]
  exact ⟨rfl, rfl⟩

theorem Loads.storage_eq {r : Loaded} (h : Loads (.beside storage markers) now g r g')
    (ready : g.ready = true) : g'.world.1 = (storage.get none g.world.1).2 := by
  have hread {answer w} (read : (Ports.beside storage markers).storage.get none g.world =
      (answer, w)) : w.1 = (storage.get none g.world.1).2 := by
    rw [(Ports.get_beside read).1]
  cases h with
  | unsupported hr => rw [hr] at ready; cases ready
  | unreadable _ read => exact hread read
  | fresh _ read marker | lost _ read marker | unmarked _ read marker =>
    exact (Ports.getMarker_beside marker).2.trans (hread read)
  | decoded _ read | undecoded _ read =>
    rw [← hread read]
    show ((Ports.beside storage markers).markers.markExistence _ _ _).1 = _
    rw [Markers.markExistence_beside]

theorem Loads.of_document {r : Loaded} (h : Loads (.beside storage markers) now g r g')
    (ready : g.ready = true) {document : Object}
    (hget : (storage.get none g.world.1).1 = .ok document) {e : Envelope}
    (he : Envelope.ofDocument document = .ok e) : r = .envelope e := by
  have hread : (Ports.beside storage markers).storage.get none g.world =
      (.ok document, ((storage.get none g.world.1).2, g.world.2)) := by
    rw [← hget]
    rfl
  exact (h.of_get ready hread he).1

theorem Loads.of_unreadable {r : Loaded} (h : Loads (.beside storage markers) now g r g')
    (ready : g.ready = true) {e : StoreError}
    (hget : (storage.get none g.world.1).1 = .error e) : r = .corrupted := by
  have hanswer {answer w} (read : (Ports.beside storage markers).storage.get none g.world =
      (answer, w)) : answer = .error e := by
    rw [← hget, (Ports.get_beside read).1]
  cases h with
  | unsupported hr => rw [hr] at ready; cases ready
  | fresh _ read | decoded _ read => cases hanswer read
  | _ => rfl

theorem Loads.markers_of_unreadable {r : Loaded} (h : Loads (.beside storage markers) now g r g')
    {e : StoreError} (hget : (storage.get none g.world.1).1 = .error e) :
    g'.world.2 = g.world.2 := by
  have hanswer {answer w} (read : (Ports.beside storage markers).storage.get none g.world =
      (answer, w)) : answer = .error e := by
    rw [← hget, (Ports.get_beside read).1]
  cases h with
  | unsupported => rfl
  | unreadable _ read => exact (Ports.get_beside read).2
  | fresh _ read | lost _ read | unmarked _ read | decoded _ read | undecoded _ read =>
    cases hanswer read

theorem Open.storage_eq {w : σ × ρ} (h : g.Open (.beside storage markers) w) :
    w.1 = g.world.1 := by
  rcases h with ⟨-, rfl⟩ | ⟨-, read⟩
  · rfl
  · exact (Ports.getMarker_beside read).2

theorem Shut.storage_eq {answer : Except StoreError (Option String)} {w : σ × ρ}
    (h : g.Shut (.beside storage markers) answer w) : w.1 = g.world.1 :=
  (Ports.getMarker_beside h.read).2

theorem Persists.set_written {state : Value}
    (h : Persists (.beside storage markers) g state (.ok .written) g') :
    ∃ data version, state = .object data ∧ g.metadata = some version ∧
      storage.set (Envelope.toDocument ⟨version, data⟩) g.world.1 = (.ok (), g'.world.1) := by
  cases h with
  | @written data version _ _ _ metadata opened write =>
    refine ⟨data, version, rfl, metadata, ?_⟩
    rw [← opened.storage_eq]
    exact (Ports.set_beside write).1

theorem Loads.markers_cases {r : Loaded} (h : Loads (.beside storage markers) now g r g') :
    g'.world.2 = g.world.2 ∨ g'.world.2 = (markers.get g.config.existenceKey g.world.2).2 ∨
      g'.world.2 = markers.markExistence g.config.existenceKey now g.world.2 := by
  have hmarker {document} {w w' : σ × ρ} {answer}
      (read : (Ports.beside storage markers).storage.get none g.world = (document, w))
      (marker : (Ports.beside storage markers).markers.get g.config.existenceKey w = (answer, w')) :
      w'.2 = (markers.get g.config.existenceKey g.world.2).2 := by
    rw [← (Ports.get_beside read).2, (Ports.getMarker_beside marker).1]
  cases h with
  | unsupported => exact Or.inl rfl
  | unreadable _ read => exact Or.inl (Ports.get_beside read).2
  | fresh _ read marker | lost _ read marker | unmarked _ read marker =>
    exact Or.inr (Or.inl (hmarker read marker))
  | decoded _ read | undecoded _ read =>
    refine Or.inr (Or.inr ?_)
    rw [← (Ports.get_beside read).2]
    exact congrArg Prod.snd (Markers.markExistence_beside storage markers _ now _)

theorem Persists.markers_cases {state : Value} {r : Except StoreError Persisted}
    (h : Persists (.beside storage markers) g state r g') :
    g'.world.2 = g.world.2 ∨ g'.world.2 = (markers.get g.config.recoveryKey g.world.2).2 := by
  have hread {answer} {w : σ × ρ} (read : (Ports.beside storage markers).markers.get
      g.config.recoveryKey g.world = (answer, w)) :
      w.2 = (markers.get g.config.recoveryKey g.world.2).2 := by
    rw [(Ports.getMarker_beside read).1]
  have hopen {w w' : σ × ρ} (opened : g.Open (.beside storage markers) w) (hw : w'.2 = w.2) :
      w'.2 = g.world.2 ∨ w'.2 = (markers.get g.config.recoveryKey g.world.2).2 := by
    rcases opened with ⟨-, rfl⟩ | ⟨-, read⟩
    · exact Or.inl hw
    · exact Or.inr (hw.trans (hread read))
  cases h with
  | unsupported | missing | invalid | unset => exact Or.inl rfl
  | skipped _ _ shut => exact Or.inr (hread shut.read)
  | written _ _ opened write => exact hopen opened (Ports.set_beside write).2
  | failed _ _ opened write => split <;> exact hopen opened (Ports.set_beside write).2

end Beside

end Gateway

end VersionedStore
