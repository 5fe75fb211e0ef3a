import VersionedStore.Proofs.Session.Operations
import VersionedStore.Storage.Memory

/-!
# Consents outlive sessions

A session that was bootstrapped over corruption waits for the user's consent.  The consent is a
marker, and nothing takes it back: one that an earlier session recorded lets the next session write
over what is corrupted.

* `Gateway.Sealed`: corruption was met and no consent is recorded, which no persist changes;
* `writes_nothing_iff_no_consent`: when a corrupted session writes nothing;
* `earlier_consent_overwrites`: a session that writes without being asked to recover.
-/

namespace VersionedStore

variable {σ ρ : Type} {storage : Storage σ} {markers : Markers ρ}
  {view : ρ → String → Option String}

theorem Config.keys_ne {c : Config} (h : c.validate = .ok ()) : c.recoveryKey ≠ c.existenceKey := by
  unfold validate at h
  split at h
  · cases h
  split at h
  · cases h
  · rename_i hne
    exact Ne.symm hne

namespace Gateway

variable {now : Nat} {g g' : Gateway (σ × ρ)}

theorem Loads.view_eq {r : Loaded} (h : Loads (.beside storage markers) now g r g')
    (hd : markers.Durable view) {key : String} (hk : key ≠ g.config.existenceKey) :
    view g'.world.2 key = view g.world.2 key := by
  rcases h.markers_cases with hw | hw | hw <;> rw [hw]
  · rw [hd.view_get]
  · exact hd.view_markExistence hk now _

/-- **Sealed:** corruption was met, and no consent is recorded. -/
structure Sealed (view : ρ → String → Option String) (g : Gateway (σ × ρ)) : Prop where
  corrupted : g.corrupted = true
  no_consent : view g.world.2 g.config.recoveryKey ≠ some consentValue

theorem Sealed.not_open (h : g.Sealed view) (hd : markers.Durable view) {w : σ × ρ} :
    ¬ g.Open (.beside storage markers) w := by
  rintro (⟨hc, -⟩ | ⟨-, read⟩)
  · rw [h.corrupted] at hc
    cases hc
  · exact h.no_consent (hd.of_get (congrArg Prod.fst (Ports.getMarker_beside read).1)).symm

theorem Sealed.persists (h : g.Sealed view) (hd : markers.Durable view) {state : Value}
    {r : Except StoreError Persisted} (hp : Persists (.beside storage markers) g state r g') :
    g'.Sealed view ∧ g'.world.1 = g.world.1 := by
  constructor
  · obtain ⟨hconfig, -, -, hcorrupted, -⟩ := hp.frame
    refine ⟨hcorrupted.trans h.corrupted, ?_⟩
    rw [hconfig]
    rcases hp.markers_cases with hw | hw <;> rw [hw]
    · exact h.no_consent
    · rw [hd.view_get]
      exact h.no_consent
  · cases hp with
    | unsupported | missing | invalid | unset => rfl
    | skipped _ _ shut => exact shut.storage_eq
    | written _ _ opened | failed _ _ opened => exact absurd opened (h.not_open hd)

theorem Persists.writes {data : Object} {r : Except StoreError Persisted} {version : Version}
    {g g' : Gateway ((List Call × σ) × ρ)}
    (h : Persists (.beside storage.recorded markers) g (.object data) r g')
    (hf : markers.Faithful view) (ready : g.ready = true) (metadata : g.metadata = some version)
    (consent : view g.world.2 g.config.recoveryKey = some consentValue) :
    ∃ answer, .write (Envelope.toDocument ⟨version, data⟩) answer ∈ g'.world.1.1 := by
  rcases h.of_ready ready metadata with ⟨_, _, shut, -, -⟩ | ⟨answer, w, -, write, -⟩
  · have hread := congrArg Prod.fst (Ports.getMarker_beside shut.read).1
    rw [hf.get_ok, consent] at hread
    exact absurd hread.symm shut.no_consent
  · refine ⟨answer, ?_⟩
    rw [(Storage.set_recorded (Ports.set_beside write).1).2]
    exact List.mem_append_right _ (List.mem_singleton_self _)

end Gateway

namespace Session

variable {now : Nat} {chain : Chain} {config : Config} {initial : Object} {w : σ} {r : ρ}
  {log : List Diagnostic}

/-- **A session that waits for a consent**, over a storage that was only asked and read. -/
structure Waits (view : ρ → String → Option String) (config : Config) (r : ρ)
    (s : Session ((List Call × σ) × ρ)) : Prop where
  config_eq : s.gateway.config = config
  ready : s.gateway.ready = true
  corrupted : s.gateway.corrupted = true
  metadata : ∃ version, s.gateway.metadata = some version
  consent_eq : view s.gateway.world.2 config.recoveryKey = view r config.recoveryKey
  calls : ∃ available answer, s.gateway.world.1.1 = [.probe available, .read none answer]

theorem waits_of_boots {s s' : Session ((List Call × σ) × ρ)} (hd : markers.Durable view)
    (hconfig : s.gateway.config = config) (hkeys : config.recoveryKey ≠ config.existenceKey)
    {available : Bool} (hcalls : s.gateway.world.1.1 = [.probe available])
    (hr : s.gateway.world.2 = r)
    (h : s.Boots (.beside storage.recorded markers) now (.ok .corrupted) s') :
    s'.Waits view config r := by
  subst hconfig hr
  cases h with
  | @corrupted g _ load =>
    have hready := load.ready nofun
    obtain ⟨hconfig, hgready, -, -⟩ := load.frame
    have hstorage := congrArg Prod.fst (load.storage_eq hready)
    refine ⟨hconfig, hgready.trans hready, load.corrupted_iff.mpr (Or.inr rfl), ⟨_, rfl⟩,
      load.view_eq hd hkeys, available, (storage.get none s.gateway.world.1.2).1, ?_⟩
    show g.world.1.1 = _
    rw [hstorage]
    show s.gateway.world.1.1 ++ _ = _
    rw [hcalls]
    rfl

theorem waits_of_bootstrap {s : Session ((List Call × σ) × ρ)} (hd : markers.Durable view)
    (hvalid : config.validate = .ok ())
    (hboot : (start (.beside storage.recorded markers) chain config initial (([], w), r)
      log).bootstrap (.beside storage.recorded markers) now = (.ok .corrupted, s)) :
    s.Waits view config r := by
  obtain ⟨hconfig, -, hworld, -, hmetadata⟩ := Gateway.start_frame
    (.beside storage.recorded markers) config (([], w), r) log
  have hprobed : (Gateway.start (.beside storage.recorded markers) config
      (([], w), r) log).world.1.1 = [.probe (storage.isAvailable w).1] := by
    rw [hworld]
    rfl
  exact waits_of_boots hd hconfig (Config.keys_ne hvalid) hprobed (congrArg Prod.snd hworld)
    (boots_of_bootstrap (fun _ => hmetadata) hboot)

theorem Waits.sealed {s : Session ((List Call × σ) × ρ)} (h : s.Waits view config r)
    (hno : view r config.recoveryKey ≠ some "true") : s.gateway.Sealed view := by
  refine ⟨h.corrupted, ?_⟩
  rw [h.config_eq, h.consent_eq]
  exact hno

theorem Waits.writes {s : Session ((List Call × σ) × ρ)} (h : s.Waits view config r)
    (hf : markers.Faithful view) (consent : view r config.recoveryKey = some "true")
    (data : Object) : ∃ document answer, .write document answer ∈
      (s.persistAll (.beside storage.recorded markers) [.object data]).gateway.world.1.1 := by
  obtain ⟨version, hversion⟩ := h.metadata
  rcases hs : s.persist (.beside storage.recorded markers) (.object data) with ⟨found, s'⟩
  obtain ⟨g, hp, rfl⟩ := persists_of_persist hs
  have hview : view s.gateway.world.2 s.gateway.config.recoveryKey = some "true" := by
    rw [h.config_eq, h.consent_eq, consent]
  obtain ⟨answer, hwrite⟩ := hp.writes hf h.ready hversion hview
  refine ⟨Envelope.toDocument ⟨version, data⟩, answer, ?_⟩
  show _ ∈ (s.persist _ (.object data)).2.gateway.world.1.1
  rw [hs]
  exact hwrite

theorem persistAll_of_sealed {s : Session (σ × ρ)} (h : s.gateway.Sealed view)
    (hd : markers.Durable view) (states : List Value) :
    (s.persistAll (.beside storage markers) states).gateway.world.1 = s.gateway.world.1 := by
  induction states generalizing s with
  | nil => rfl
  | cons state states ih =>
    rcases hs : s.persist (.beside storage markers) state with ⟨r, s'⟩
    obtain ⟨g, hp, rfl⟩ := persists_of_persist hs
    obtain ⟨hsealed, hworld⟩ := h.persists hd hp
    have hrest := ih (s := s.withGateway g) hsealed
    show (Session.persistAll _ (s.persist _ state).2 states).gateway.world.1 = _
    rw [hs, hrest]
    exact hworld

/-- **A session that was bootstrapped over corruption writes nothing iff no consent is recorded**
when it starts.  A consent of an earlier session counts as its own. -/
theorem writes_nothing_iff_no_consent (hf : markers.Faithful view)
    (hvalid : config.validate = .ok ()) {s : Session ((List Call × σ) × ρ)}
    (hboot : (start (.beside storage.recorded markers) chain config initial (([], w), r)
      log).bootstrap (.beside storage.recorded markers) now = (.ok .corrupted, s)) :
    (∀ states, let s' := s.persistAll (.beside storage.recorded markers) states
      (∀ document answer, .write document answer ∉ s'.gateway.world.1.1) ∧
        s'.gateway.world.1.2 = s.gateway.world.1.2) ↔
      view r config.recoveryKey ≠ some "true" := by
  have hwaits : s.Waits view config r := waits_of_bootstrap hf.toDurable hvalid hboot
  constructor
  · intro hnothing hconsent
    obtain ⟨document, answer, hwrite⟩ := hwaits.writes hf hconsent []
    exact (hnothing [.object []]).1 document answer hwrite
  · intro hno states s'
    have hworld : s'.gateway.world.1 = s.gateway.world.1 :=
      persistAll_of_sealed (hwaits.sealed hno) hf.toDurable states
    obtain ⟨available, answer, hcalls⟩ := hwaits.calls
    rw [hworld, hcalls]
    exact ⟨fun document answer => by simp, rfl⟩

/-- A session over a document that cannot be decoded. -/
def overJunk (markers : Table String String) :
    Session ((List Call × Memory) × Table String String) :=
  start (.beside Memory.storage.recorded .memory) .shipped {} []
    (([], { entries := [("junk", .null)] }), markers) []

theorem writes_nothing_iff_no_consent_unasked :
    let io := Ports.beside Memory.storage.recorded .memory
    ∃ s, (overJunk []).bootstrap io 5 = (.ok .corrupted, s) ∧
      ∀ states, let s' := s.persistAll io states
        (∀ document answer, .write document answer ∉ s'.gateway.world.1.1) ∧
          s'.gateway.world.1.2 = s.gateway.world.1.2 := by
  intro io
  have hboot : (start io .shipped {} [] (([], { entries := [("junk", .null)] }), []) []).bootstrap
      io 5 = (.ok .corrupted, ((overJunk []).bootstrap io 5).2) := rfl
  have hno : Table.get? [] ({} : Config).recoveryKey ≠ some "true" := nofun
  exact ⟨_, hboot, (writes_nothing_iff_no_consent Markers.faithful_memory rfl hboot).mpr hno⟩

/-- **An earlier consent overwrites:** the first state that is handed over replaces what is
corrupted, though nobody asked this session to recover. -/
theorem earlier_consent_overwrites :
    let io := Ports.beside Memory.storage.recorded .memory
    let document := Envelope.toDocument ⟨Chain.shipped.current, []⟩
    ∃ s, (overJunk [("user_opted_in_to_restore", "true")]).bootstrap io 5 = (.ok .corrupted, s) ∧
      (s.persist io (.object [])).1 = .ok .written ∧
      .write document (.ok ()) ∈ (s.persistAll io [.object []]).gateway.world.1.1 ∧
      (s.persistAll io [.object []]).gateway.world.1.2.entries ≠
        s.gateway.world.1.2.entries := by
  intro io document
  refine ⟨((overJunk [("user_opted_in_to_restore", "true")]).bootstrap io 5).2, rfl, rfl, ?_, ?_⟩
  · show _ ∈ [Call.probe true, .read none _, .write document (.ok ())]
    simp
  · decide

end Session

end VersionedStore
