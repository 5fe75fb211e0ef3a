import VersionedStore.Proofs.Migration.Runs
import VersionedStore.Proofs.Session.Request
import VersionedStore.Proofs.Storage.File

/-!
# Recoveries

A session that was bootstrapped over corruption is handed a state together with the user's consent.
Whatever made the storage corrupted, the state is written, and every later session loads it as it
is.

* `recover_of_set`: the state is written if the storage takes it;
* `bootstrap_of_stored`: a session over a document of the present version has nothing to do;
* `Recovers`: a recovery that lasts;
* `recovery_always_works`: over a memory and over a file.
-/

namespace VersionedStore

theorem Chain.run_current (c : Chain) (policy : OnFault) (data : Object) :
    (c.run policy ⟨c.current, data⟩).1 = ⟨⟨c.current, data⟩, c.current, [], [], false⟩ := by
  unfold run
  rw [c.pending_current]
  rfl

namespace Session

variable {σ ρ : Type} {storage : Storage σ} {markers : Markers ρ}
  {view : ρ → String → Option String} {chain : Chain} {config : Config} {initial : Object}
  {log : List Diagnostic} {now : Nat}

/-- **A recovery writes its state** if the storage takes it, whatever was corrupted. -/
theorem recover_of_set {s : Session (σ × ρ)} (hf : markers.Faithful view)
    (ready : s.gateway.ready = true) {version : Version}
    (metadata : s.gateway.metadata = some version) {data : Object} {w : σ}
    (hset : storage.set (Envelope.toDocument ⟨version, data⟩) s.gateway.world.1 = (.ok (), w)) :
    ∃ s', s.recover (.beside storage markers) (.object data) = (.ok .written, s') ∧
      s'.gateway.world.1 = w := by
  rcases hr : s.recover (.beside storage markers) (.object data) with ⟨answer, s'⟩
  cases performs_of_recover hr with
  | refused set =>
    have hok := hf.set_ok s.gateway.config.recoveryKey Gateway.consentValue s.gateway.world.2
    rw [(Ports.setMarker_beside set).1] at hok
    cases hok
  | @recovered _ w' _ g' set h =>
    obtain ⟨hmarker, hstorage⟩ := Ports.setMarker_beside set
    -- the consent that was just recorded is read, so nothing stands against the writing
    have hconsent : view w'.2 s.gateway.config.recoveryKey = some Gateway.consentValue := by
      have hview := hf.view_set s.gateway.config.recoveryKey Gateway.consentValue s.gateway.world.2
        s.gateway.config.recoveryKey
      rwa [if_pos rfl, hmarker] at hview
    rcases h.of_ready ready metadata with ⟨_, _, shut, -, -⟩ | ⟨found, w'', opened, write, hfound⟩
    · have hread := congrArg Prod.fst (Ports.getMarker_beside shut.read).1
      rw [hf.get_ok, hconsent] at hread
      exact absurd hread.symm shut.no_consent
    · have hwrite := (Ports.set_beside write).1
      rw [opened.storage_eq, hstorage, hset] at hwrite
      obtain ⟨rfl, hw⟩ := Prod.mk.inj hwrite
      rcases hfound with ⟨-, rfl⟩ | ⟨⟨_, he⟩, -⟩
      · exact ⟨_, rfl, hw.symm⟩
      · cases he

/-- **Over a document of the present version** a session loads the state as it is and has nothing
to do. -/
theorem bootstrap_of_stored {w w₁ : σ} (havailable : storage.isAvailable w = (true, w₁))
    {document data : Object} (hget : (storage.get none w₁).1 = .ok document)
    (he : Envelope.ofDocument document = .ok ⟨chain.current, data⟩) (r : ρ) :
    ((start (.beside storage markers) chain config initial (w, r) log).bootstrap
      (.beside storage markers) now).1 =
        .ok (.loaded ⟨⟨chain.current, data⟩, chain.current, [], [], false⟩ none) := by
  obtain ⟨hready, hworld⟩ := Gateway.start_available havailable markers config r log
  rcases hb : (start (.beside storage markers) chain config initial (w, r) log).bootstrap
    (.beside storage markers) now with ⟨outcome, s'⟩
  have hboots := boots_of_bootstrap (sound_start _ chain config initial (w, r) log) hb
  have hloaded {found g} (load : (start (.beside storage markers) chain config initial (w, r)
      log).gateway.Loads (.beside storage markers) now found g) :
      found = .envelope ⟨chain.current, data⟩ := by
    have hread : (storage.get none (Gateway.start (.beside storage markers) config (w, r)
        log).world.1).1 = .ok document := by rw [hworld, hget]
    exact load.of_document hready hread he
  have hrun : ∀ policy, (chain.run policy ⟨chain.current, data⟩).1 =
      ⟨⟨chain.current, data⟩, chain.current, [], [], false⟩ := fun policy =>
    chain.run_current policy data
  cases hboots with
  | again done => cases done
  | fresh _ load | corrupted _ load => cases hloaded load
  | kept _ load run =>
    obtain rfl := Loaded.envelope.inj (hloaded load)
    rw [← run]
    exact congrArg (fun report => Except.ok (Outcome.loaded report none)) (hrun _)
  | writtenBack _ load run changed =>
    obtain rfl := Loaded.envelope.inj (hloaded load)
    rw [← run, Bool.and_eq_true_iff] at changed
    have hsame : (chain.run config.onFault ⟨chain.current, data⟩).1.versionChanged = false := by
      rw [hrun]
      simp [Report.versionChanged]
    cases hsame.symm.trans changed.1

theorem bootstrap_of_unreadable {w w₁ : σ} (havailable : storage.isAvailable w = (true, w₁))
    {e : StoreError} (hget : (storage.get none w₁).1 = .error e) (r : ρ) :
    ((start (.beside storage markers) chain config initial (w, r) log).bootstrap
      (.beside storage markers) now).1 = .ok .corrupted := by
  obtain ⟨hready, hworld⟩ := Gateway.start_available havailable markers config r log
  rcases hb : (start (.beside storage markers) chain config initial (w, r) log).bootstrap
    (.beside storage markers) now with ⟨outcome, s'⟩
  have hloaded {found g} (load : (start (.beside storage markers) chain config initial (w, r)
      log).gateway.Loads (.beside storage markers) now found g) : found = .corrupted := by
    have hread : (storage.get none (Gateway.start (.beside storage markers) config (w, r)
        log).world.1).1 = .error e := by rw [hworld, hget]
    exact load.of_unreadable hready hread
  cases boots_of_bootstrap (sound_start _ chain config initial (w, r) log) hb with
  | again done => cases done
  | fresh _ load | kept _ load | writtenBack _ load => cases hloaded load
  | corrupted => rfl

theorem corrupted_frame {w : σ × ρ} {s : Session (σ × ρ)}
    (hboot : (start (.beside storage markers) chain config initial w log).bootstrap
      (.beside storage markers) now = (.ok .corrupted, s)) :
    s.chain = chain ∧ s.gateway.ready = true ∧ (storage.isAvailable w.1).1 = true ∧
      s.gateway.metadata = some chain.current ∧
      s.gateway.world.1 = (storage.get none (storage.isAvailable w.1).2).2 := by
  obtain ⟨hready, hworld⟩ := Gateway.start_beside storage markers config w log
  cases boots_of_bootstrap (sound_start _ chain config initial w log) hboot with
  | corrupted _ load =>
    have hstart := load.ready nofun
    refine ⟨rfl, load.frame.2.1.trans hstart, hready.symm.trans hstart, rfl, ?_⟩
    have hstorage := load.storage_eq hstart
    rwa [show (start (.beside storage markers) chain config initial w log).gateway.world.1 = _ from
      congrArg Prod.fst hworld] at hstorage

/-! ### Recoveries that last -/

/-- **A recovery that lasts:** the state is written, and every session over the storage that it
leaves, with the same chain, loads the state as it is, with nothing to do.  In between something may
happen to the storage. -/
def Recovers (storage : Storage σ) (markers : Markers ρ) (meanwhile : σ → σ) (s : Session (σ × ρ))
    (data : Object) : Prop :=
  ∃ s', s.recover (.beside storage markers) (.object data) = (.ok .written, s') ∧
    ∀ config initial r log now,
      ((start (.beside storage markers) s.chain config initial (meanwhile s'.gateway.world.1, r)
        log).bootstrap (.beside storage markers) now).1 =
          .ok (.loaded ⟨⟨s.chain.current, data⟩, s.chain.current, [], [], false⟩ none)

theorem recovers_memory (hf : markers.Faithful view) {m : Memory} {r : ρ}
    {s : Session (Memory × ρ)}
    (hboot : (start (.beside Memory.storage markers) chain config initial (m, r) log).bootstrap
      (.beside Memory.storage markers) now = (.ok .corrupted, s))
    (hwritable : s.gateway.world.1.writeFaults = 0) (data : Object) :
    s.Recovers Memory.storage markers (·.failReads 0) data := by
  obtain ⟨rfl, hready, havailable, hmetadata, hworld⟩ := corrupted_frame hboot
  obtain ⟨m', (hset : Memory.storage.set _ _ = _)⟩ :=
    Memory.set_of_writable hwritable (Envelope.toDocument ⟨s.chain.current, data⟩)
  obtain ⟨s', hrecover, rfl⟩ := recover_of_set hf hready hmetadata hset
  refine ⟨s', hrecover, fun config' initial' r' log' now' => ?_⟩
  have hstill : s'.gateway.world.1.available = true := by
    rw [(Memory.device_of_set hset).1, hworld]
    exact (Memory.frame_of_get rfl).2.trans havailable
  have hprobe : Memory.storage.isAvailable (s'.gateway.world.1.failReads 0) =
      (true, s'.gateway.world.1.failReads 0) := Prod.ext hstill rfl
  have hget : (Memory.storage.get none (s'.gateway.world.1.failReads 0)).1 =
      .ok s'.gateway.world.1.entries := congrArg Prod.fst (Memory.get_of_readable rfl)
  refine bootstrap_of_stored hprobe hget ?_ r'
  rw [Memory.merge_of_set hset]
  exact (Envelope.heldBy_merge _ _).ofDocument

theorem recovers_file (hf : markers.Faithful view) {path : Path} {t : FileTree} {r : ρ}
    {s : Session (FileTree × ρ)}
    (hboot : (start (.beside (FileStorage.storage path) markers) chain config initial (t, r)
      log).bootstrap (.beside (FileStorage.storage path) markers) now = (.ok .corrupted, s))
    (hwritable : ∀ entries, ∃ t',
      (FileStorage.storage path).set entries s.gateway.world.1 = (.ok (), t'))
    (hsound : s.gateway.world.1.Sound) {data : Object}
    (hback : FileStorage.ReadsBack ((FileStorage.base path s.gateway.world.1).merge
      (Envelope.toDocument ⟨chain.current, data⟩))) :
    s.Recovers (FileStorage.storage path) markers id data := by
  obtain ⟨rfl, hready, -, hmetadata, -⟩ := corrupted_frame hboot
  obtain ⟨t', hset⟩ := hwritable (Envelope.toDocument ⟨s.chain.current, data⟩)
  obtain ⟨s', hrecover, rfl⟩ := recover_of_set hf hready hmetadata hset
  refine ⟨s', hrecover, fun config' initial' r' log' now' => ?_⟩
  obtain ⟨hread, havailable⟩ := FileStorage.readDocument_of_set hset (hsound.takes _)
  refine bootstrap_of_stored havailable ?_
    (Envelope.heldBy_merge _ (FileStorage.base path s.gateway.world.1)).ofDocument r'
  show (Except.map _ (FileStorage.readDocument path s'.gateway.world.1)) = _
  rw [hread, FileStorage.parse_print hback]
  rfl

/-- **A recovery always works.**  Markers are faithful, and further writings succeed: none is
refused, and the device of a file takes what is written.  Whatever made a bootstrap end in
corruption, over a memory or over a file, every object that is handed over with the user's consent
is written, and a session that starts over what is then stored, once it can be read, loads it as it
is, under the version of the schema and with nothing to do.  Of a file it is asked that the printed
document reads back. -/
theorem recovery_always_works (hf : markers.Faithful view) (chain : Chain) (config : Config)
    (initial : Object) (r : ρ) (log : List Diagnostic) (now : Nat) :
    (∀ (m : Memory) (s : Session (Memory × ρ)),
      (start (.beside Memory.storage markers) chain config initial (m, r) log).bootstrap
        (.beside Memory.storage markers) now = (.ok .corrupted, s) →
      s.gateway.world.1.writeFaults = 0 →
      ∀ data, s.Recovers Memory.storage markers (·.failReads 0) data) ∧
    ∀ (path : Path) (t : FileTree) (s : Session (FileTree × ρ)),
      (start (.beside (FileStorage.storage path) markers) chain config initial (t, r) log).bootstrap
        (.beside (FileStorage.storage path) markers) now = (.ok .corrupted, s) →
      (∀ entries, ∃ t', (FileStorage.storage path).set entries s.gateway.world.1 = (.ok (), t')) →
      s.gateway.world.1.Sound →
      ∀ data, FileStorage.ReadsBack ((FileStorage.base path s.gateway.world.1).merge
          (Envelope.toDocument ⟨chain.current, data⟩)) →
        s.Recovers (FileStorage.storage path) markers id data :=
  ⟨fun _ _ hboot hwritable => recovers_memory hf hboot hwritable,
    fun _ _ _ hboot hwritable hsound _ => recovers_file hf hboot hwritable hsound⟩

theorem recovery_always_works_junk :
    let memory := (start (.beside Memory.storage .memory) .shipped {} []
      ({ entries := [("junk", .null)] }, []) []).bootstrap (.beside Memory.storage .memory) 5
    let store := FileStorage.storage (.ofString "state.json")
    let file :=
      (start (.beside store .memory) .shipped {} [] (FileStorage.junkFile, []) []).bootstrap
      (.beside store .memory) 5
    memory.1 = .ok .corrupted ∧ memory.2.Recovers Memory.storage .memory (·.failReads 0) [] ∧
      file.1 = .ok .corrupted ∧ file.2.Recovers store .memory id [] := by
  intro memory store file
  obtain ⟨hmemory, hfile⟩ :=
    recovery_always_works Markers.faithful_memory .shipped {} [] [] [] 5
  obtain ⟨e, hjunk⟩ := FileStorage.parse_junk (.ofString "state.json")
  have hunreadable := (FileStorage.readDocument_of_read FileStorage.read_junkFile).trans hjunk
  have hget : (store.get none FileStorage.junkFile).1 = .error e :=
    congrArg (Except.map _) hunreadable
  have hcorrupted : file.1 = .ok .corrupted := bootstrap_of_unreadable rfl hget []
  have hboot : file = (.ok .corrupted, file.2) := Prod.ext hcorrupted rfl
  have htree : file.2.gateway.world.1 = FileStorage.junkFile := (corrupted_frame hboot).2.2.2.2
  have hbase : FileStorage.base (.ofString "state.json") FileStorage.junkFile = [] := by
    unfold FileStorage.base
    rw [hunreadable]
  refine ⟨rfl, hmemory { entries := [("junk", .null)] } memory.2 rfl rfl [], hcorrupted, ?_⟩
  refine hfile (.ofString "state.json") FileStorage.junkFile file.2 hboot ?_ ?_ [] ?_
  · rw [htree]
    exact fun entries => ⟨_, rfl⟩
  · rw [htree]
    rintro _ ⟨⟩
  · rw [htree]
    refine FileStorage.readsBack_merge FileStorage.fits_nil.ordered
      (FileStorage.doublesReadBack_merge (Value.doublesReadBack_object (by simp)) ?_) (by decide)
    rw [hbase]
    exact Value.doublesReadBack_object (by simp)

end Session

end VersionedStore
