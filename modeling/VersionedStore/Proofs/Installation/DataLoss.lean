import VersionedStore.Proofs.Installation.Basic
import VersionedStore.Storage.Memory

/-!
# Lost data is no fresh install

Once a load found anything in the storage, the existence marker is set, and it stays set as long as
the markers are durable.  From then on a load that finds nothing takes it for a loss.

* `Event.Reads`: what a load of a ready gateway reads from the storage;
* `Installation.Marked`: the existence marker is set once something was read;
* `loss_is_no_fresh_install`: the statement for whole runs, whatever happens to the storage.
-/

namespace VersionedStore

variable {σ ρ : Type} {storage : Storage σ} {markers : Markers ρ}
  {view : ρ → String → Option String}

namespace Gateway

variable {now : Nat} {g g' : Gateway (σ × ρ)} {request : Request} {answer : Answer}

theorem Performs.marker_present (h : Performs (.beside storage markers) g request answer g')
    (hd : markers.Durable view) {key : String} (hk : view g.world.2 key ≠ none) :
    view g'.world.2 key ≠ none := by
  cases h with
  | configured | configuredTwice => exact hk
  | loaded h =>
    rcases h.markers_cases with hw | hw | hw <;> rw [hw]
    · exact hk
    · rwa [hd.view_get]
    · exact hd.present_markExistence hk
  | persisted h =>
    rcases h.markers_cases with hw | hw <;> rw [hw]
    · exact hk
    · rwa [hd.view_get]
  | consented set =>
    have hset := hd.set_present g.config.recoveryKey Gateway.consentValue hk
    rwa [(Ports.setMarker_beside set).1] at hset

theorem Loads.marks {r : Loaded} (h : Loads (.beside storage markers) now g r g')
    (hd : markers.Durable view) (ready : g.ready = true) {document : Object}
    (hread : (storage.get none g.world.1).1 = .ok document) (hne : document ≠ []) :
    view g'.world.2 g.config.existenceKey ≠ none := by
  have hanswer {answer w} (hr : (Ports.beside storage markers).storage.get none g.world =
      (answer, w)) : answer = .ok document := by
    rw [← hread, (Ports.get_beside hr).1]
  cases h with
  | unsupported hr => rw [hr] at ready; cases ready
  | unreadable _ read => cases hanswer read
  | fresh _ read | lost _ read | unmarked _ read =>
    exact absurd (Except.ok.inj (hanswer read)).symm hne
  | decoded | undecoded =>
    show view (Prod.snd ((Ports.beside storage markers).markers.markExistence _ _ _)) _ ≠ none
    rw [Markers.markExistence_beside]
    exact hd.markExistence_present _ _ _

theorem Loads.of_marked {r : Loaded} (h : Loads (.beside storage markers) now g r g')
    (hd : markers.Durable view) (ready : g.ready = true)
    (hk : view g.world.2 g.config.existenceKey ≠ none) :
    r ≠ .freshInstall ∧
      ((∀ document, (storage.get none g.world.1).1 = .ok document → document = []) →
        r = .corrupted) := by
  cases h with
  | unsupported hr => rw [hr] at ready; cases ready
  | fresh _ read marker =>
    have hnone := hd.of_get (congrArg Prod.fst (Ports.getMarker_beside marker).1)
    rw [(Ports.get_beside read).2] at hnone
    exact absurd hnone.symm hk
  | decoded _ read ne =>
    refine ⟨nofun, fun hempty => absurd (hempty _ ?_) ne⟩
    rw [(Ports.get_beside read).1]
  | _ => exact ⟨nofun, fun _ => rfl⟩

end Gateway

/-! ### Runs -/

/-- The event is a load that reads this from the storage; only ready gateways read. -/
structure Event.Reads (e : Event (.beside storage markers)) (r : Except StoreError Object) :
    Prop where
  load : ∃ now, e.request = .load now
  ready : e.before.ready = true
  read : (storage.get none e.before.world.1).1 = r

/-- All gateways have one configuration, and what the markers hold is left to them.  Anything may
happen to the storage, and to how markers are read. -/
def Step.KeepsMarkers (view : ρ → String → Option String) (config : Config) : Step (σ × ρ) → Prop
  | .start c => c = config
  | .use _ _ => True
  | .disturb f => ∀ w, view (f w).2 = view w.2

namespace Installation

/-- **The existence marker is set** once anything was read. -/
structure Marked (view : ρ → String → Option String) (config : Config)
    (es : List (Event (.beside storage markers))) (i : Installation (σ × ρ)) : Prop where
  config_eq : ∀ g ∈ i.gateways, g.config = config
  marked : ∀ e ∈ es, ∀ document, e.Reads (.ok document) → document ≠ [] →
    view i.world.2 config.existenceKey ≠ none

variable {config : Config} {es : List (Event (.beside storage markers))} {i : Installation (σ × ρ)}

theorem Marked.opened (h : Marked view config es i) :
    Marked view config es (i.opened (.beside storage markers) config) := by
  obtain ⟨hconfig, -, hworld, -⟩ :=
    Gateway.start_frame (.beside storage markers) config i.world i.log
  have hworld' : (i.opened (.beside storage markers) config).world.2 = i.world.2 := by
    show (Gateway.start (.beside storage markers) config i.world i.log).world.2 = i.world.2
    rw [hworld]
    rfl
  refine ⟨fun g hg => ?_, by rw [hworld']; exact h.marked⟩
  rcases List.mem_append.mp hg with hg | hg
  · exact h.config_eq g hg
  · rw [List.mem_singleton.mp hg, hconfig]

theorem Marked.put (h : Marked view config es i) (hd : markers.Durable view) {g : Gateway (σ × ρ)}
    {e : Event (.beside storage markers)} (hg : i.gateways[e.number]? = some g)
    (hb : e.before = i.resume g) : Marked view config (es ++ [e]) (i.put e) := by
  have hworld : e.before.world = i.world := by rw [hb]; rfl
  have hconfig : e.before.config = config := by
    rw [hb]
    exact h.config_eq g (List.mem_of_getElem? hg)
  refine ⟨fun g' hg' => ?_, fun x hx document hreads hne => ?_⟩
  · rcases List.mem_or_eq_of_mem_set hg' with hg' | rfl
    · exact h.config_eq g' hg'
    · rw [e.performs.frame.1, hconfig]
  show view e.after.world.2 _ ≠ none
  rcases List.mem_append.mp hx with hx | hx
  · refine e.performs.marker_present hd ?_
    rw [hworld]
    exact h.marked x hx document hreads hne
  · obtain rfl := List.mem_singleton.mp hx
    obtain ⟨now, hload⟩ := hreads.load
    obtain ⟨r, -, hloads⟩ := x.loads hload
    rw [← hconfig]
    exact hloads.marks hd hreads.ready hreads.read hne

theorem preserved_marked (hd : markers.Durable view) {steps : List (Step (σ × ρ))}
    (hs : ∀ s ∈ steps, s.KeepsMarkers view config) :
    Preserved (.beside storage markers) steps (Marked view config) where
  start hstart h := by
    obtain rfl := hs _ hstart
    exact h.opened
  use hg hb h := h.put hd hg hb
  disturb {es i f} hf h := by
    refine ⟨h.config_eq, fun e he document hreads hne => ?_⟩
    rw [hs _ hf i.world]
    exact h.marked e he document hreads hne

/-- **Lost data is never taken for a fresh install.**  The markers are durable, though they may fail
to be read, and nothing is assumed of the storage.  After a load that found anything, no load of a
ready gateway is a fresh install, and one that finds nothing or cannot read is corruption. -/
theorem loss_is_no_fresh_install (hd : markers.Durable view) {world : σ × ρ} {log : List Diagnostic}
    {steps : List (Step (σ × ρ))} (hs : ∀ s ∈ steps, s.KeepsMarkers view config)
    {past between future : List (Event (.beside storage markers))}
    {l e : Event (.beside storage markers)}
    (hrun : (bare world log).events (.beside storage markers) steps =
      past ++ l :: between ++ e :: future)
    {document : Object} (hl : l.Reads (.ok document)) (hne : document ≠ [])
    {r : Except StoreError Object} (he : e.Reads r) :
    e.answer ≠ .loaded .freshInstall ∧
      ((∀ found, r = .ok found → found = []) → e.answer = .loaded .corrupted) := by
  have hinit : Marked view config ([] : List (Event (.beside storage markers)))
      (bare world log) := by
    refine ⟨fun g hg => ?_, fun e he => ?_⟩
    · cases hg
    · cases he
  obtain ⟨i, g, hi, hg, hb⟩ := (preserved_marked hd hs).at_event hinit hrun
  have hworld : e.before.world = i.world := by rw [hb]; rfl
  have hconfig : e.before.config = config := by
    rw [hb]
    exact hi.config_eq g (List.mem_of_getElem? hg)
  have hmarked := hi.marked l (by simp) document hl hne
  rw [← hworld, ← hconfig] at hmarked
  obtain ⟨now, hload⟩ := he.load
  obtain ⟨found, hanswer, hloads⟩ := e.loads hload
  obtain ⟨hfresh, hcorrupt⟩ := hloads.of_marked hd he.ready hmarked
  rw [hanswer]
  refine ⟨fun h => hfresh (Answer.loaded.inj h), fun hempty => ?_⟩
  rw [hcorrupt fun d hr => hempty d (he.read ▸ hr)]

/-- A load finds what cannot be decoded; then the memory is wiped, and after a restart not even the
existence marker can be read. -/
def wiped : List (Step (Memory × (List StoreError × Table String String))) :=
  [.start {}, .use 0 (.load 5),
    .disturb fun w => (w.1.wipe, ([.readFailure "marker"], w.2.2)), .start {}, .use 1 (.load 6)]

theorem loss_is_no_fresh_install_wiped :
    let io := Ports.beside Memory.storage ((Markers.scripted .memory).inside Script.readings)
    ∃ l e, (bare ({ entries := [("junk", .null)] }, ([], [])) []).events io wiped = [l, e] ∧
      l.answer = .loaded .corrupted ∧ e.answer ≠ .loaded .freshInstall ∧
        e.answer = .loaded .corrupted := by
  intro io
  have hrun : ∃ l e, (bare ({ entries := [("junk", .null)] }, ([], [])) []).events io wiped =
      [] ++ l :: [] ++ e :: [] ∧ l.answer = .loaded .corrupted ∧
        l.Reads (.ok [("junk", .null)]) ∧ e.Reads (.ok []) :=
    ⟨_, _, rfl, rfl, ⟨⟨5, rfl⟩, rfl, rfl⟩, ⟨⟨6, rfl⟩, rfl, rfl⟩⟩
  obtain ⟨l, e, hes, hl, hjunk, hempty⟩ := hrun
  have hsteps : ∀ s ∈ wiped, s.KeepsMarkers (fun w => Table.get? w.2) {} := by
    intro s hs
    simp only [wiped, List.mem_cons, List.not_mem_nil, or_false] at hs
    rcases hs with rfl | rfl | rfl | rfl | rfl
    all_goals first | trivial | exact fun _ => rfl
  obtain ⟨hfresh, hcorrupted⟩ :=
    loss_is_no_fresh_install Markers.faithful_memory.toDurable.scripted hsteps hes hjunk nofun
      hempty
  exact ⟨l, e, hes, hl, hfresh, hcorrupted fun _ h => (Except.ok.inj h).symm⟩

end Installation

end VersionedStore
