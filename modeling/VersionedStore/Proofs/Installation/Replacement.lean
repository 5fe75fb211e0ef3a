import VersionedStore.Proofs.Installation.CorruptionGate
import VersionedStore.Proofs.Storage.File

/-!
# Replacing a file that cannot be read

A writing replaces a file that cannot be read, whatever it holds.  Whether it comes to that is left
to the gateways, and a gateway knows of a file only what its own loads met.

* `Performs.storage_kept`: only a persist that nothing stands against changes what is stored;
* `Installation.Unreplaced`: the file is as it was, and every gateway that loaded it knows;
* `unreadable_file_is_kept`: the statement for whole runs;
* `unread_file_is_replaced`: a gateway that loads nothing replaces the file, and nobody is asked.
-/

namespace VersionedStore

variable {σ ρ : Type}

namespace Gateway

variable {storage : Storage σ} {markers : Markers ρ} {g g' : Gateway (σ × ρ)} {request : Request}
  {answer : Answer}

theorem Loads.storage_kept {now : Nat} {r : Loaded}
    (h : Loads (.beside storage markers) now g r g') (hget : ∀ w, (storage.get none w).2 = w) :
    g'.world.1 = g.world.1 := by
  cases hready : g.ready
  swap
  · exact (h.storage_eq hready).trans (hget _)
  cases h with
  | unsupported => rfl
  | unreadable ready | fresh ready | lost ready | unmarked ready | decoded ready
  | undecoded ready =>
    rw [hready] at ready
    cases ready

theorem Persists.storage_kept {state : Value} {r : Except StoreError Persisted}
    (h : Persists (.beside storage markers) g state r g') :
    g'.world.1 = g.world.1 ∨ g.ready = true ∧ ∃ w, g.Open (.beside storage markers) w := by
  cases h with
  | unsupported | missing | invalid | unset => exact .inl rfl
  | skipped _ _ shut => exact .inl shut.storage_eq
  | written ready _ opened | failed ready _ opened => exact .inr ⟨ready, _, opened⟩

theorem Performs.world_of_setMetadata {io : Ports σ} {g g' : Gateway σ} {version : Version}
    (h : Performs io g request answer g') (hr : request = .setMetadata version) :
    g'.world = g.world := by
  subst hr
  cases h <;> rfl

/-- **Only a persist that nothing stands against** changes a storage that is left alone by
readings. -/
theorem Performs.storage_kept (h : Performs (.beside storage markers) g request answer g')
    (hget : ∀ w, (storage.get none w).2 = w) :
    g'.world.1 = g.world.1 ∨
      (∃ state, request = .persist state) ∧ g.ready = true ∧
        ∃ w, g.Open (.beside storage markers) w := by
  cases h with
  | configured | configuredTwice => exact .inl rfl
  | loaded h => exact .inl (h.storage_kept hget)
  | persisted h => exact h.storage_kept.imp_right fun hopen => ⟨⟨_, rfl⟩, hopen⟩
  | consented set => exact .inl (Ports.setMarker_beside set).2

end Gateway

/-! ### Runs -/

/-- The event belongs to a gateway that loaded before. -/
def Event.Loaded {io : Ports σ} (past : List (Event io)) (e : Event io) : Prop :=
  ∃ l ∈ past, l.number = e.number ∧ ∃ now, l.request = .load now

/-- **A persist that may replace what cannot be read:** the consent is read at it, or its gateway
has not loaded. -/
structure Event.Replaces {markers : Markers ρ} {storage : Storage σ}
    (past : List (Event (.beside storage markers))) (e : Event (.beside storage markers)) :
    Prop where
  persist : ∃ state, e.request = .persist state
  ready : e.before.ready = true
  consent : (markers.get e.before.config.recoveryKey e.before.world.2).1 = .ok (some "true") ∨
    ¬ e.Loaded past

/-- Nothing but the gateways changes the file of a path. -/
def Step.LeavesFile (path : Path) : Step (FileTree × ρ) → Prop
  | .disturb f => ∀ w, (f w).1.read path = w.1.read path
  | _ => True

namespace Installation

variable {markers : Markers ρ} {path : Path} {bytes : List UInt8} {unreadable : StoreError}

/-- **The file is as it was**, and every gateway that loaded it knows of the corruption. -/
structure Unreplaced (path : Path) (bytes : List UInt8)
    (es : List (Event (.beside (FileStorage.storage path) markers)))
    (i : Installation (FileTree × ρ)) : Prop where
  read : i.world.1.read path = .ok bytes
  remembers : Remembers es i
  ready_eq : ∀ e ∈ es, ∀ g, i.gateways[e.number]? = some g → g.ready = e.before.ready
  met : ∀ e ∈ es, ∀ now, e.request = .load now → e.before.ready = true →
    e.answer = .loaded .corrupted

variable {es : List (Event (.beside (FileStorage.storage path) markers))}
  {i : Installation (FileTree × ρ)}

theorem Unreplaced.opened (h : Unreplaced path bytes es i) (config : Config) :
    Unreplaced path bytes es (i.opened (.beside (FileStorage.storage path) markers) config) where
  read := by
    obtain ⟨-, hworld⟩ :=
      Gateway.start_beside (FileStorage.storage path) markers config i.world i.log
    show (Gateway.start _ config i.world i.log).world.1.read path = .ok bytes
    rw [hworld]
    exact FileStorage.read_isAvailable h.read
  remembers := h.remembers.opened config
  ready_eq e he g hg := by
    refine h.ready_eq e he g ?_
    rw [← hg]
    exact (List.getElem?_append_left (h.remembers.number_lt e he)).symm
  met := h.met

theorem Unreplaced.corrupted (h : Unreplaced path bytes es i) {g : Gateway (FileTree × ρ)}
    {e : Event (.beside (FileStorage.storage path) markers)}
    (hg : i.gateways[e.number]? = some g) (hb : e.before = i.resume g) (hl : e.Loaded es)
    (ready : e.before.ready = true) : e.before.corrupted = true := by
  obtain ⟨l, hmem, hnumber, now, hload⟩ := hl
  have hready : l.before.ready = true := by
    rw [← h.ready_eq l hmem g (hnumber ▸ hg)]
    rwa [hb] at ready
  rw [hb]
  exact (h.remembers.corrupted_iff e.number g hg).mpr
    ⟨l, hmem, hnumber, h.met l hmem now hload hready⟩

theorem Unreplaced.read_after (h : Unreplaced path bytes es i) {g : Gateway (FileTree × ρ)}
    {e : Event (.beside (FileStorage.storage path) markers)}
    (hg : i.gateways[e.number]? = some g) (hb : e.before = i.resume g) (hno : ¬ e.Replaces es) :
    e.after.world.1.read path = .ok bytes := by
  have htree : e.before.world.1 = i.world.1 := by rw [hb]; rfl
  rcases e.performs.storage_kept fun _ => rfl with hkept | ⟨hpersist, ready, w, hopen⟩
  · rw [hkept, htree]
    exact h.read
  refine absurd ⟨hpersist, ready, ?_⟩ hno
  rcases hopen with ⟨hclean, -⟩ | ⟨-, read⟩
  · refine .inr fun hl => ?_
    rw [h.corrupted hg hb hl ready] at hclean
    cases hclean
  · exact .inl (congrArg Prod.fst (Ports.getMarker_beside read).1)

theorem Unreplaced.load_met (h : Unreplaced path bytes es i)
    (hbad : FileStorage.parse path bytes = .error unreadable) {g : Gateway (FileTree × ρ)}
    {e : Event (.beside (FileStorage.storage path) markers)} (hb : e.before = i.resume g)
    {now : Nat} (hload : e.request = .load now) (ready : e.before.ready = true) :
    e.answer = .loaded .corrupted := by
  have htree : e.before.world.1 = i.world.1 := by rw [hb]; rfl
  have hget : ((FileStorage.storage path).get none e.before.world.1).1 = .error unreadable := by
    show (FileStorage.readDocument path e.before.world.1).map _ = _
    rw [htree, FileStorage.readDocument_of_read h.read, hbad]
    rfl
  obtain ⟨r, hanswer, hloads⟩ := e.loads hload
  rw [hanswer, hloads.of_unreadable ready hget]

theorem Unreplaced.put (h : Unreplaced path bytes es i)
    (hbad : FileStorage.parse path bytes = .error unreadable) {g : Gateway (FileTree × ρ)}
    {e : Event (.beside (FileStorage.storage path) markers)}
    (hg : i.gateways[e.number]? = some g) (hb : e.before = i.resume g) (hno : ¬ e.Replaces es) :
    Unreplaced path bytes (es ++ [e]) (i.put e) where
  read := h.read_after hg hb hno
  remembers := h.remembers.put hg hb
  ready_eq x hx g' hg' := by
    have hbefore : e.before.ready = g.ready := by rw [hb]; rfl
    rcases of_gateways_put hg hg' with ⟨hn, rfl⟩ | ⟨hn, hg'⟩ <;>
      rcases List.mem_append.mp hx with hx | hx
    · rw [e.performs.frame.2, hbefore]
      exact h.ready_eq x hx g (hn ▸ hg)
    · rw [List.mem_singleton.mp hx, e.performs.frame.2]
    · exact h.ready_eq x hx g' hg'
    · exact absurd (congrArg Event.number (List.mem_singleton.mp hx)).symm hn
  met x hx now hload ready := by
    rcases List.mem_append.mp hx with hx | hx
    · exact h.met x hx now hload ready
    · obtain rfl := List.mem_singleton.mp hx
      exact h.load_met hbad hb hload ready

/-- An event of the run may have replaced the file. -/
def MayBeReplaced (es : List (Event (.beside (FileStorage.storage path) markers))) : Prop :=
  ∃ past e future, es = past ++ e :: future ∧ e.Replaces past

theorem preserved_unreplaced (hbad : FileStorage.parse path bytes = .error unreadable)
    {steps : List (Step (FileTree × ρ))} (hs : ∀ s ∈ steps, s.LeavesFile path) :
    Preserved (.beside (FileStorage.storage path) markers) steps fun es i =>
      MayBeReplaced es ∨ Unreplaced path bytes es i where
  start _ h := h.imp_right fun h => h.opened _
  use {es i g e} hg hb h := by
    rcases h with ⟨past, x, future, rfl, hx⟩ | h
    · exact .inl ⟨past, x, future ++ [e], by simp, hx⟩
    by_cases he : e.Replaces es
    · exact .inl ⟨es, e, [], rfl, he⟩
    · exact .inr (h.put hbad hg hb he)
  disturb {es i f} hf h := h.imp_right fun h =>
    ⟨(hs _ hf i.world).trans h.read, ⟨h.remembers.number_lt, h.remembers.corrupted_iff⟩,
      h.ready_eq, h.met⟩

/-- **A file that cannot be read is replaced only** by a persist at which the consent is read, or by
one of a gateway that has not loaded.  Any number of gateways with any configurations are opened and
used in any order over the file, and the markers may answer and fail as they like.  At the end of
every run the bytes of the file are what they were, unless there was such a persist; and a persist
that wrote while they were leaves what it was handed, and nothing else, in the file, if the device
takes what is written. -/
theorem unreadable_file_is_kept (hbad : FileStorage.parse path bytes = .error unreadable)
    {world : FileTree × ρ} (hread : world.1.read path = .ok bytes) (log : List Diagnostic)
    {steps : List (Step (FileTree × ρ))} (hs : ∀ s ∈ steps, s.LeavesFile path) :
    let io := Ports.beside (FileStorage.storage path) markers
    (((bare world log).after io steps).world.1.read path = .ok bytes ∨
      MayBeReplaced ((bare world log).events io steps)) ∧
    ∀ e ∈ (bare world log).events io steps, ∀ state, e.request = .persist state →
      e.answer = .persisted (.ok .written) → e.before.world.1.read path = .ok bytes →
        ∃ data version, state = .object data ∧ e.before.metadata = some version ∧
          (e.before.world.1.Takes (FileStorage.print (Envelope.toDocument ⟨version, data⟩)) →
            e.after.world.1.read path =
              .ok (FileStorage.print (Envelope.toDocument ⟨version, data⟩))) := by
  intro io
  have hinit : Unreplaced path bytes ([] : List (Event io)) (bare world log) := by
    refine ⟨hread, ⟨fun e he => ?_, fun n g hg => ?_⟩, fun e he => ?_, fun e he => ?_⟩
    · cases he
    · cases hg
    · cases he
    · cases he
  refine ⟨?_, fun e _ state hstate hwritten hbytes => ?_⟩
  · exact ((preserved_unreplaced hbad hs).after (.inr hinit)).symm.imp_left Unreplaced.read
  · obtain ⟨r, hr, hpersists⟩ := e.persists hstate
    obtain rfl := Answer.persisted.inj (hwritten.symm.trans hr)
    obtain ⟨data, version, hdata, hversion, hset⟩ := hpersists.set_written
    exact ⟨data, version, hdata, hversion, FileStorage.read_of_set_unreadable hbytes hbad hset⟩

/-- A gateway loads, and is handed a state. -/
def careful : List (Step (FileTree × Table String String)) :=
  [.start {}, .use 0 (.load 5), .use 0 (.setMetadata 1), .use 0 (.persist (.object []))]

theorem events_careful :
    let io := Ports.beside (FileStorage.storage (.ofString "state.json")) .memory
    ∃ l c p, (bare (FileStorage.junkFile, []) []).events io careful = [l, c, p] ∧
      l.request = .load 5 ∧ c.request = .setMetadata 1 ∧ l.number = p.number ∧
      (Markers.memory.get p.before.config.recoveryKey p.before.world.2).1 = .ok none := by
  intro io
  have hrun : ∃ l c p, (bare (FileStorage.junkFile, []) []).events io careful = [l, c, p] ∧
      l.request = .load 5 ∧ c.request = .setMetadata 1 ∧ l.number = p.number ∧
      l.before = Gateway.start io {} (FileStorage.junkFile, []) [] ∧ c.before = l.after ∧
      p.before = c.after := ⟨_, _, _, rfl, rfl, rfl, rfl, rfl, rfl, rfl⟩
  obtain ⟨l, c, p, hes, hl, hc, hnumber, hlb, hcb, hpb⟩ := hrun
  obtain ⟨e, hbad⟩ := FileStorage.parse_junk (.ofString "state.json")
  have hget : ((FileStorage.storage (.ofString "state.json")).get none l.before.world.1).1 =
      .error e := by
    rw [hlb]
    show (FileStorage.readDocument _ FileStorage.junkFile).map _ = _
    rw [FileStorage.readDocument_of_read FileStorage.read_junkFile, hbad]
    rfl
  obtain ⟨_, -, hloads⟩ := l.loads hl
  have hmarkers : p.before.world.2 = [] := by
    rw [hpb, c.performs.world_of_setMetadata hc, hcb, hloads.markers_of_unreadable hget, hlb]
    rfl
  refine ⟨l, c, p, hes, hl, hc, hnumber, ?_⟩
  rw [hmarkers]
  rfl

theorem unreadable_file_is_kept_loaded :
    let io := Ports.beside (FileStorage.storage (.ofString "state.json")) .memory
    ((bare (FileStorage.junkFile, []) []).after io careful).world.1.read (.ofString "state.json") =
      .ok FileStorage.junk := by
  intro io
  obtain ⟨e, hbad⟩ := FileStorage.parse_junk (.ofString "state.json")
  have hs : ∀ s ∈ careful, s.LeavesFile (.ofString "state.json") := by
    intro s hs
    simp only [careful, List.mem_cons, List.not_mem_nil, or_false] at hs
    rcases hs with rfl | rfl | rfl | rfl <;> trivial
  obtain ⟨l, c, p, hes, hl, hc, hnumber, hmarker⟩ := events_careful
  refine (unreadable_file_is_kept hbad FileStorage.read_junkFile [] hs).1.resolve_right ?_
  rintro ⟨past, x, future, hsplit, ⟨state, hpersist⟩, -, hconsent⟩
  rw [hes] at hsplit
  -- the only persist of the run is the last event
  rcases past with _ | ⟨a, _ | ⟨b, _ | ⟨d, past⟩⟩⟩ <;>
    simp only [List.nil_append, List.cons_append, List.cons.injEq] at hsplit
  · obtain ⟨rfl, -⟩ := hsplit
    cases hl.symm.trans hpersist
  · obtain ⟨-, rfl, -⟩ := hsplit
    cases hc.symm.trans hpersist
  · obtain ⟨rfl, -, rfl, -⟩ := hsplit
    rcases hconsent with hconsent | hunloaded
    · cases hmarker.symm.trans hconsent
    · exact hunloaded ⟨l, List.mem_cons_self .., hnumber, 5, hl⟩
  · obtain ⟨-, -, -, hnil⟩ := hsplit
    simp at hnil

/-- A gateway is handed a state and never loads. -/
def hasty : List (Step (FileTree × Table String String)) :=
  [.start {}, .use 0 (.setMetadata 1), .use 0 (.persist (.object []))]

/-- **A file that nobody read is replaced** though no consent is recorded. -/
theorem unread_file_is_replaced :
    let io := Ports.beside (FileStorage.storage (.ofString "state.json")) .memory
    let i := bare (FileStorage.junkFile, []) []
    ∃ c p, i.events io hasty = [c, p] ∧ p.before.world.1 = FileStorage.junkFile ∧
      (Markers.memory.get p.before.config.recoveryKey p.before.world.2).1 = .ok none ∧
      p.answer = .persisted (.ok .written) ∧
      (i.after io hasty).world.1.read (.ofString "state.json") ≠ .ok FileStorage.junk := by
  intro io i
  have hrun : ∃ c p, i.events io hasty = [c, p] ∧ p.before.world.1 = FileStorage.junkFile ∧
      (Markers.memory.get p.before.config.recoveryKey p.before.world.2).1 = .ok none ∧
      p.request = .persist (.object []) ∧ p.answer = .persisted (.ok .written) ∧
      p.before.metadata = some 1 ∧ (i.after io hasty).world = p.after.world :=
    ⟨_, _, rfl, rfl, rfl, rfl, rfl, rfl, rfl⟩
  obtain ⟨c, p, hes, hworld, hmarker, hrequest, hanswer, hmetadata, hafter⟩ := hrun
  refine ⟨c, p, hes, hworld, hmarker, hanswer, ?_⟩
  obtain ⟨e, hbad⟩ := FileStorage.parse_junk (.ofString "state.json")
  obtain ⟨r, hr, hpersists⟩ := p.persists hrequest
  obtain rfl := Answer.persisted.inj (hanswer.symm.trans hr)
  obtain ⟨data, version, hdata, hversion, hset⟩ := hpersists.set_written
  obtain rfl := Value.object.inj hdata
  obtain rfl := Option.some.inj (hmetadata.symm.trans hversion)
  rw [hworld] at hset
  have hsound : FileStorage.junkFile.Sound := by rintro _ ⟨⟩
  rw [hafter,
    FileStorage.read_of_set_unreadable FileStorage.read_junkFile hbad hset (hsound.takes _)]
  intro h
  cases congrArg (·[1]?) (Except.ok.inj h)

end Installation

end VersionedStore
