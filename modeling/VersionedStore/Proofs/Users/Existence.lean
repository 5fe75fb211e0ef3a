import VersionedStore.Proofs.Users.Basic
import VersionedStore.Storage.Memory

/-!
# The existence marker

The existence marker records when a state was first seen.  Only a load that finds something sets it,
to the time of the load, and it is set anew only where its own reading fails.

* `Gateway.Sees`, `Gateway.Records`: a load of the gateway finds something, and sets the marker;
* `User.perform_marker`: what a request does to the marker;
* `existence_marker_is_written_once`: the statement for whole runs;
* `unread_marker_is_rewritten`: a marker that was set and is set anew.
-/

namespace VersionedStore

variable {σ ρ : Type} {storage : Storage σ} {markers : Markers ρ}
  {view : ρ → String → Option String} {key : String}

/-! ### Gateways -/

namespace Gateway

variable {now : Nat} {g g' : Gateway (σ × ρ)}

/-- **A load of the gateway finds something**, and records it under the key. -/
structure Sees (storage : Storage σ) (key : String) (g : Gateway (σ × ρ)) : Prop where
  existenceKey_eq : g.config.existenceKey = key
  ready : g.ready = true
  read : ∃ document, (storage.get none g.world.1).1 = .ok document ∧ document ≠ []

/-- **The marker is set to the time of a load** that finds something, as it was absent or could not
be read. -/
structure Records (storage : Storage σ) (markers : Markers ρ) (view : ρ → String → Option String)
    (key : String) (now : Nat) (g : Gateway (σ × ρ)) (w : ρ) : Prop where
  sees : g.Sees storage key
  unknown : view g.world.2 key = none ∨ ∃ e, (markers.get key g.world.2).1 = .error e
  recorded : view w key = some (Nat.repr now)

theorem Loads.marker_cases {r : Loaded} (h : Loads (.beside storage markers) now g r g')
    (hst : markers.Steady view) (key : String) :
    view g'.world.2 key = view g.world.2 key ∨
      Records storage markers view key now g g'.world.2 := by
  have hmarker {document} {w w' : σ × ρ} {answer}
      (read : (Ports.beside storage markers).storage.get none g.world = (document, w))
      (marker : (Ports.beside storage markers).markers.get g.config.existenceKey w = (answer, w')) :
      view w'.2 key = view g.world.2 key := by
    have hw : w'.2 = (markers.get g.config.existenceKey g.world.2).2 := by
      rw [← (Ports.get_beside read).2, (Ports.getMarker_beside marker).1]
    rw [hw, hst.view_get]
  cases h with
  | unsupported => exact .inl rfl
  | unreadable _ read => exact .inl (congrArg (view · key) (Ports.get_beside read).2)
  | fresh _ read marker | lost _ read marker | unmarked _ read marker =>
    exact .inl (hmarker read marker)
  | @decoded w _ _ ready read ne | @undecoded w _ _ ready read ne =>
    have hw : ((Ports.beside storage markers).markers.markExistence g.config.existenceKey now w).2 =
        markers.markExistence g.config.existenceKey now g.world.2 := by
      rw [Markers.markExistence_beside, (Ports.get_beside read).2]
    rcases hst.markExistence_cases g.config.existenceKey key now g.world.2 with
      hsame | ⟨hkey, hrecorded, hunknown⟩
    · rw [← hw] at hsame
      exact .inl hsame
    · rw [← hw] at hrecorded
      exact .inr ⟨⟨hkey.symm, ready, _, congrArg Prod.fst (Ports.get_beside read).1, ne⟩,
        hkey ▸ hunknown, hrecorded⟩

theorem Persists.view_eq {state : Value} {r : Except StoreError Persisted}
    (h : Persists (.beside storage markers) g state r g') (hst : markers.Steady view) :
    view g'.world.2 = view g.world.2 := by
  rcases h.markers_cases with hw | hw <;> rw [hw]
  exact hst.view_get _ _

theorem view_of_consent {w w' : σ × ρ} {r : Except StoreError Unit} {value recoveryKey : String}
    (set : (Ports.beside storage markers).markers.set recoveryKey value w = (r, w'))
    (hst : markers.Steady view) (hkey : recoveryKey ≠ key) : view w'.2 key = view w.2 key := by
  have hset := hst.view_set_of_ne hkey.symm value w.2
  rwa [(Ports.setMarker_beside set).1] at hset

theorem Performs.marker_cases {request : Request} {answer : Answer}
    (h : Performs (.beside storage markers) g request answer g') (hst : markers.Steady view)
    (hkey : g.config.recoveryKey ≠ key) : view g'.world.2 key = view g.world.2 key ∨
      ∃ now, request = .load now ∧ Records storage markers view key now g g'.world.2 := by
  cases h with
  | configured | configuredTwice => exact .inl rfl
  | loaded h => exact (h.marker_cases hst key).imp_right fun h => ⟨_, rfl, h⟩
  | persisted h => exact .inl (congrFun (h.view_eq hst) key)
  | consented set => exact .inl (view_of_consent set hst hkey)

end Gateway

/-! ### Sessions -/

namespace Session

variable {now : Nat} {s s' : Session (σ × ρ)} {request : Request} {answer : Answer}

theorem Boots.marker_cases {r : Except StoreError Outcome}
    (h : s.Boots (.beside storage markers) now r s') (hst : markers.Steady view) (key : String) :
    view s'.gateway.world.2 key = view s.gateway.world.2 key ∨ s.bootstrapped = false ∧
      Gateway.Records storage markers view key now s.gateway s'.gateway.world.2 := by
  cases h with
  | again => exact .inl rfl
  | fresh new load | corrupted new load | kept new load =>
    exact (load.marker_cases hst key).imp_right fun h => ⟨new, h⟩
  | @writtenBack g e _ _ g' new load _ _ persist =>
    -- the write-back reads the consent at most
    have hview : view g'.world.2 = view g.world.2 := persist.view_eq hst
    refine (load.marker_cases hst key).imp (fun h => ?_) fun h => ⟨new, h.sees, h.unknown, ?_⟩
    · exact (congrFun hview key).trans h
    · exact (congrFun hview key).trans h.recorded

theorem Performs.marker_cases (h : s.Performs (.beside storage markers) request answer s')
    (hst : markers.Steady view) (hkey : s.gateway.config.recoveryKey ≠ key) :
    view s'.gateway.world.2 key = view s.gateway.world.2 key ∨
      ∃ now, request = .bootstrap now ∧ s.bootstrapped = false ∧
        Gateway.Records storage markers view key now s.gateway s'.gateway.world.2 := by
  cases h with
  | booted h => exact (h.marker_cases hst key).imp_right fun h => ⟨_, rfl, h⟩
  | persisted h => exact .inl (congrFun (h.view_eq hst) key)
  | refused set => exact .inl (Gateway.view_of_consent set hst hkey)
  | recovered set h =>
    exact .inl ((congrFun (h.view_eq hst) key).trans (Gateway.view_of_consent set hst hkey))

end Session

/-! ### Users -/

namespace User

/-- The user is sound, and records consents under another marker. -/
structure Apart (key : String) (u : User σ) : Prop where
  sound : u.Sound
  recoveryKey_ne : u.gateway.config.recoveryKey ≠ key

/-- Users record consents under other markers, and the marker is left to them.  Anything may happen
to the storage, and to whether markers can be read and set. -/
def Step.LeavesMarker (view : ρ → String → Option String) (key : String) : Step (σ × ρ) → Prop
  | .startGateway config | .startSession _ config _ => config.recoveryKey ≠ key
  | .use _ => True
  | .disturb f => ∀ w, view (f w).2 key = view w.2 key

theorem Apart.perform {u : User σ} (h : u.Apart key) (io : Ports σ) (request : Request) :
    (u.perform io request).Apart key := by
  refine ⟨h.sound.perform io request, ?_⟩
  have hconfig : (u.perform io request).gateway.config = u.gateway.config := by
    cases u <;> cases request
    · exact (Gateway.performs_of_perform rfl).frame.1
    · rfl
    · rfl
    · exact (Session.performs_of_perform h.sound rfl).config_eq
  rw [hconfig]
  exact h.recoveryKey_ne

theorem Apart.step {u : User (σ × ρ)} (h : u.Apart key) (io : Ports (σ × ρ)) {i : Step (σ × ρ)}
    (hi : i.LeavesMarker view key) : (u.step io i).2.Apart key := by
  refine ⟨h.sound.step io i, ?_⟩
  have hstart (config : Config) (hconfig : config.recoveryKey ≠ key) :
      (Gateway.start io config u.gateway.world u.gateway.log).config.recoveryKey ≠ key := by
    rwa [(Gateway.start_frame io config u.gateway.world u.gateway.log).1]
  cases i with
  | startGateway config => exact hstart config hi
  | startSession chain config initial => exact hstart config hi
  | use request => exact (h.perform io request).recoveryKey_ne
  | disturb f => cases u <;> exact h.recoveryKey_ne

/-- **What a request does to the existence marker:** nothing, or it is a load that sets it. -/
theorem perform_marker (hst : markers.Steady view) {u : User (σ × ρ)} (hu : u.Apart key)
    (request : Request) :
    view (u.perform (.beside storage markers) request).gateway.world.2 key =
      view u.gateway.world.2 key ∨
    ∃ now, Event.LoadsAt now ⟨u, request⟩ ∧ Gateway.Records storage markers view key now u.gateway
      (u.perform (.beside storage markers) request).gateway.world.2 := by
  cases u with
  | plain g =>
    cases request with
    | plain request =>
      have hperforms : g.Performs (.beside storage markers) request _ _ :=
        Gateway.performs_of_perform rfl
      refine (hperforms.marker_cases hst hu.recoveryKey_ne).imp_right ?_
      rintro ⟨now, rfl, hrecords⟩
      exact ⟨now, .plain, hrecords⟩
    | session request => exact .inl rfl
  | session s =>
    cases request with
    | plain request => exact .inl rfl
    | session request =>
      have hperforms : s.Performs (.beside storage markers) request _ _ :=
        Session.performs_of_perform hu.sound rfl
      refine (hperforms.marker_cases hst hu.recoveryKey_ne).imp_right ?_
      rintro ⟨now, rfl, new, hrecords⟩
      exact ⟨now, .session new, hrecords⟩

/-! ### Runs -/

variable {steps : List (Step (σ × ρ))}

/-- The event is a load that finds something, and whose own reading of the marker fails. -/
def Event.Misses (storage : Storage σ) (markers : Markers ρ) (key : String) (e : Event (σ × ρ)) :
    Prop :=
  (∃ now, e.LoadsAt now) ∧ e.before.gateway.Sees storage key ∧
    ∃ error, (markers.get key e.before.gateway.world.2).1 = .error error

/-- The user is apart, and the marker holds what was seen, unless an event missed it. -/
structure Holds (storage : Storage σ) (markers : Markers ρ) (view : ρ → String → Option String)
    (key seen : String) (es : List (Event (σ × ρ))) (u : User (σ × ρ)) : Prop where
  apart : u.Apart key
  holds : (∃ e ∈ es, e.Misses storage markers key) ∨ view u.gateway.world.2 key = some seen

theorem keeps_holds (storage : Storage σ) (hst : markers.Steady view)
    (hs : ∀ i ∈ steps, i.LeavesMarker view key) (seen : String) :
    History.Keeps (step (.beside storage markers)) steps
      (Holds storage markers view key seen) := by
  rintro es u i hi ⟨hu, hseen⟩
  refine ⟨hu.step _ (hs i hi), ?_⟩
  rcases hseen with ⟨e, he, hmisses⟩ | hseen
  · exact .inl ⟨e, List.mem_append_left _ he, hmisses⟩
  have hstart (config : Config) : view (Gateway.start (.beside storage markers) config
      u.gateway.world u.gateway.log).world.2 key = some seen := by
    rwa [(Gateway.start_beside storage markers config u.gateway.world u.gateway.log).2]
  cases i with
  | startGateway config => exact .inr (hstart config)
  | startSession chain config initial => exact .inr (hstart config)
  | use request =>
    rcases perform_marker hst hu request with hsame | ⟨now, hload, hrecords⟩
    · exact .inr (hsame.trans hseen)
    rcases hrecords.unknown with habsent | hfailed
    · cases habsent.symm.trans hseen
    · exact .inl ⟨⟨u, request⟩, by simp [step], ⟨now, hload⟩, hrecords.sees, hfailed⟩
  | disturb f =>
    have hview := (hs _ hi u.gateway.world).trans hseen
    cases u <;> exact .inr hview

/-- **The existence marker is written once,** if it can be read.  Markers are steady, all
configurations keep the consent under another marker, and nothing is assumed of the storage.  In
every run of gateways and sessions one after another, the marker is changed only by a load that
finds something, to the time of that load, and only if it was absent or the load failed to read it;
and from any point on at which it is set, it keeps its value as long as no such load fails to read
it. -/
theorem existence_marker_is_written_once (storage : Storage σ) (hst : markers.Steady view)
    {u : User (σ × ρ)} (hu : u.Apart key) (hs : ∀ i ∈ steps, i.LeavesMarker view key) :
    let io := Ports.beside storage markers
    (∀ e ∈ u.events io steps,
      view (e.after io).gateway.world.2 key ≠ view e.before.gateway.world.2 key →
        ∃ now, e.LoadsAt now ∧ Gateway.Records storage markers view key now e.before.gateway
          (e.after io).gateway.world.2) ∧
    ∀ earlier later seen, steps = earlier ++ later →
      view (u.after io earlier).gateway.world.2 key = some seen →
      (∀ e ∈ (u.after io earlier).events io later, ¬ e.Misses storage markers key) →
        view (u.after io steps).gateway.world.2 key = some seen := by
  intro io
  have hapart : ∀ u, ∀ i ∈ steps, Apart key u → Apart key (u.step io i).2 := fun _ i hi hu =>
    hu.step io (hs i hi)
  constructor
  · intro e he hchanged
    obtain ⟨u', i, -, hu', hstep⟩ := History.before_of_kept hapart hu he
    cases i with
    | use request =>
      obtain rfl := Option.some.inj hstep
      exact (perform_marker hst hu' request).resolve_left hchanged
    | startGateway | startSession | disturb => cases hstep
  · rintro earlier later seen rfl hseen hreads
    have hbefore : Holds storage markers view key seen [] (u.after io earlier) :=
      ⟨History.after_of_kept (fun u i hi => hapart u i (List.mem_append_left _ hi)) hu, .inr hseen⟩
    have hkeeps := keeps_holds storage hst
      (fun i hi => hs i (List.mem_append_right earlier hi)) seen
    have hend := (hkeeps.after hbefore).holds
    rw [after, History.after_append]
    refine hend.resolve_left ?_
    rintro ⟨e, he, hmisses⟩
    exact hreads e he hmisses

/-- What markers in memory hold behind prepared errors. -/
def held (w : Script × Table String String) : String → Option String := Table.get? w.2

theorem steady_held : (Markers.scripted .memory).Steady held :=
  Markers.faithful_memory.toDurable.steady.scripted

/-- A gateway over a memory that holds something, and over such markers. -/
def overScript (script : Script) (values : Table String String) :
    User (Memory × (Script × Table String String)) :=
  .plain (.start (.beside Memory.storage (.scripted .memory)) {}
    ({ entries := [("junk", .null)] }, (script, values)) [])

theorem apart_overScript (script : Script) (values : Table String String) :
    (overScript script values).Apart "state_existed" := by
  refine ⟨trivial, ?_⟩
  show "user_opted_in_to_restore" ≠ "state_existed"
  decide

/-- Two loads, of which the first cannot set the marker, and a session that recovers. -/
def twoLoads : List (Step (Memory × (Script × Table String String))) :=
  [.use (.plain (.load 5)), .use (.plain (.load 7)), .startSession .shipped {} [],
    .use (.session (.bootstrap 9)), .use (.session (.recover (.object [])))]

theorem existence_marker_is_written_once_second :
    held ((overScript { writes := [.io "full"] } []).after
      (.beside Memory.storage (.scripted .memory)) twoLoads).gateway.world.2 "state_existed" =
        some "7" := by
  have hs : ∀ i ∈ twoLoads, i.LeavesMarker held "state_existed" := by
    intro i hi
    simp only [twoLoads, List.mem_cons, List.not_mem_nil, or_false] at hi
    rcases hi with rfl | rfl | rfl | rfl | rfl
    all_goals first | trivial | exact (apart_overScript {} []).recoveryKey_ne
  have hrun : ∃ u b r, (overScript { writes := [.io "full"] } []).after
      (.beside Memory.storage (.scripted .memory)) (twoLoads.take 2) = u ∧
      held u.gateway.world.2 "state_existed" = some "7" ∧
      u.events (.beside Memory.storage (.scripted .memory)) (twoLoads.drop 2) = [b, r] ∧
      (Markers.memory.scripted.get "state_existed" b.before.gateway.world.2).1 = .ok (some "7") ∧
      (Markers.memory.scripted.get "state_existed" r.before.gateway.world.2).1 = .ok (some "7") :=
    ⟨_, _, _, rfl, rfl, rfl, rfl, rfl⟩
  obtain ⟨u, b, r, hu, hset, hes, hb, hr⟩ := hrun
  have hkept := (existence_marker_is_written_once Memory.storage steady_held
    (apart_overScript { writes := [.io "full"] } []) hs).2 (twoLoads.take 2) (twoLoads.drop 2) "7"
      (List.take_append_drop 2 twoLoads).symm
  rw [hu] at hkept
  refine hkept hset ?_
  rintro e he ⟨-, -, error, hfailed⟩
  rw [hes] at he
  simp only [List.mem_cons, List.not_mem_nil, or_false] at he
  rcases he with rfl | rfl
  · cases hb.symm.trans hfailed
  · cases hr.symm.trans hfailed

/-- **A marker that is set and set anew,** as the load that found the state could not read it. -/
theorem unread_marker_is_rewritten :
    let io := Ports.beside Memory.storage (.scripted .memory)
    let u := overScript { reads := [.io "io"] } [("state_existed", "1600000000000")]
    ∃ e, u.events io [.use (.plain (.load 5))] = [e] ∧
      held e.before.gateway.world.2 "state_existed" = some "1600000000000" ∧
      held (e.after io).gateway.world.2 "state_existed" = some "5" := by
  intro io u
  exact ⟨_, rfl, rfl, rfl⟩

end User

end VersionedStore
