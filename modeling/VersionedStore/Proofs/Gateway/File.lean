import VersionedStore.Proofs.Storage.File

/-!
# Gateways over a file

A state that was written to a file is loaded by the next gateway unless it is nested too deeply: it
is printed all the same, and what was printed is then taken for corrupted.

* `load_of_set`: what the next gateway finds after a writing;
* `written_state_is_loaded_unless_too_deep`: the same from the version that is set to the next load;
* `deep_state_is_corrupted`: a state that is written and not loaded.
-/

namespace VersionedStore.Gateway

variable {ρ : Type} {markers : Markers ρ} {path : Path}

/-- **After a writing the next gateway** loads the envelope, or takes it for corrupted if it is too
deep. -/
theorem load_of_set {t t' : FileTree} {e : Envelope}
    (h : (FileStorage.storage path).set e.toDocument t = (.ok (), t')) (ht : t.Sound)
    (ho : (Value.object e.data).Ordered)
    (hd : (Value.object ((FileStorage.base path t).merge e.toDocument)).DoublesReadBack) (r : ρ)
    (config : Config) (log : List Diagnostic) (now : Nat) :
    ((start (.beside (FileStorage.storage path) markers) config (t', r) log).load
      (.beside (FileStorage.storage path) markers) now).1 =
        if (Value.object e.data).depth < Json.maxDepth then .envelope e else .corrupted := by
  obtain ⟨hread, havailable⟩ := FileStorage.readDocument_of_set h (ht.takes _)
  obtain ⟨hready, hworld⟩ := start_available havailable markers config r log
  rcases hload : (start (.beside (FileStorage.storage path) markers) config (t', r) log).load
    (.beside (FileStorage.storage path) markers) now with ⟨found, g'⟩
  have hloads := loads_of_load hload
  have hget {answer} (hanswer : FileStorage.readDocument path t' = answer) :
      ((FileStorage.storage path).get none
        (start (.beside (FileStorage.storage path) markers) config
        (t', r) log).world.1).1 = answer := by
    rw [hworld, ← hanswer]
    show (FileStorage.readDocument path t').map id = _
    rcases FileStorage.readDocument path t' with _ | _ <;> rfl
  by_cases hdeep : (Value.object e.data).depth < Json.maxDepth
  · rw [if_pos hdeep]
    have hback := FileStorage.parse_print (FileStorage.readsBack_merge ho hd hdeep) path
    exact hloads.of_document hready (hget (hread.trans hback))
      (Envelope.heldBy_merge e _).ofDocument
  · have hprinted := Json.readDocument_pretty (FileStorage.ordered_merge ho) hd
    rw [← FileStorage.ofBytes_print,
      if_neg fun hle => hdeep (FileStorage.depth_merge_le_iff.mp hle)] at hprinted
    rw [if_neg hdeep]
    obtain ⟨e', herror⟩ := FileStorage.parse_error (FileStorage.isEmpty_print _) hprinted path
    exact hloads.of_unreadable hready (hget (hread.trans herror))

theorem set_of_written {σ : Type} {storage : Storage σ} {g g₁ g' : Gateway (σ × ρ)}
    {version : Version} {state : Object} (hset : g.setMetadata version = (.ok (), g₁))
    (hwritten : g₁.persist (.beside storage markers) (.object state) = (.ok .written, g')) :
    storage.set (Envelope.toDocument ⟨version, state⟩) g.world.1 = (.ok (), g'.world.1) := by
  have hmetadata : g₁.world = g.world ∧ g₁.metadata = some version := by
    unfold setMetadata at hset
    split at hset <;> cases hset
    exact ⟨rfl, rfl⟩
  obtain ⟨data, version', hstate, hversion, hstored⟩ := (persists_of_persist hwritten).set_written
  obtain rfl := Value.object.inj hstate
  obtain rfl := Option.some.inj (hversion.symm.trans hmetadata.2)
  rwa [hmetadata.1] at hstored

/-- **A state that was written is loaded by the next gateway** over the file, whatever the markers
and the configurations are, unless it is too deep to be read; then it is taken for corrupted.  The
state is any object, the device takes what is written, and the doubles of the document that the
state is written into are read back. -/
theorem written_state_is_loaded_unless_too_deep {g g₁ g' : Gateway (FileTree × ρ)}
    {version : Version} {state : Object} (hset : g.setMetadata version = (.ok (), g₁))
    (hwritten : g₁.persist (.beside (FileStorage.storage path) markers) (.object state) =
      (.ok .written, g'))
    (ht : g.world.1.Sound) (ho : (Value.object state).Ordered)
    (hd : (Value.object ((FileStorage.base path g.world.1).merge
      (Envelope.toDocument ⟨version, state⟩))).DoublesReadBack)
    (config : Config) (log : List Diagnostic) (now : Nat) :
    ((start (.beside (FileStorage.storage path) markers) config g'.world log).load
      (.beside (FileStorage.storage path) markers) now).1 =
        if (Value.object state).depth < Json.maxDepth then .envelope ⟨version, state⟩
        else .corrupted :=
  load_of_set (set_of_written hset hwritten) ht ho hd g'.world.2 config log now

/-! ### Two states -/

/-- A number under so many square brackets. -/
def nested : Nat → Value
  | 0 => .ofInt 1
  | n + 1 => .array [nested n]

theorem ordered_nested (n : Nat) : (nested n).Ordered := by
  induction n with
  | zero => exact Value.ordered_of_depth_eq_zero rfl
  | succ n ih => exact Value.ordered_array fun _ hw => List.mem_singleton.mp hw ▸ ih

theorem depth_nested_state (n : Nat) : (Value.object [("a", nested n)]).depth = n + 1 := by
  have hdepth : (nested n).depth = n := by
    induction n with
    | zero => rfl
    | succ n ih => simp [nested, Value.depth, Value.depthItems, ih]
  simp [Value.depth, Value.depthMembers, hdepth]

theorem doublesReadBack_nested (n : Nat) : (nested n).DoublesReadBack := by
  induction n with
  | zero => exact Value.doublesReadBack_integer 1 _
  | succ n ih => exact Value.doublesReadBack_array fun _ hw => List.mem_singleton.mp hw ▸ ih

theorem ordered_nested_state (n : Nat) : (Value.object [("a", nested n)]).Ordered :=
  Value.ordered_object (List.pairwise_singleton _ _) fun _ he =>
    List.mem_singleton.mp he ▸ ordered_nested n

def overEmpty : Gateway (FileTree × Table String String) :=
  start (.beside (FileStorage.storage (.ofString "state.json")) .memory) {} ({}, []) []

theorem doublesReadBack_overEmpty (n : Nat) :
    (Value.object ((FileStorage.base (.ofString "state.json") overEmpty.world.1).merge
      (Envelope.toDocument ⟨1, [("a", nested n)]⟩))).DoublesReadBack := by
  have hbase : FileStorage.base (.ofString "state.json") overEmpty.world.1 = [] := rfl
  refine FileStorage.doublesReadBack_merge (Value.doublesReadBack_object fun _ he =>
    List.mem_singleton.mp he ▸ doublesReadBack_nested n) ?_
  rw [hbase]
  exact Value.doublesReadBack_object (by simp)

/-- The gateway after a state was handed over, under version 1. -/
def handedOver (state : Object) :
    Except StoreError Persisted × Gateway (FileTree × Table String String) :=
  (overEmpty.setMetadata 1).2.persist
    (.beside (FileStorage.storage (.ofString "state.json")) .memory) (.object state)

theorem sound_overEmpty : overEmpty.world.1.Sound := by rintro _ ⟨⟩

theorem handedOver_written (n : Nat) : handedOver [("a", nested n)] =
    (.ok .written, (handedOver [("a", nested n)]).2) := Prod.ext rfl rfl

theorem written_state_is_loaded_unless_too_deep_shallow :
    let io := Ports.beside (FileStorage.storage (.ofString "state.json")) .memory
    (handedOver [("a", nested 3)]).1 = .ok .written ∧
      ((start io {} (handedOver [("a", nested 3)]).2.world []).load io 5).1 =
        .envelope ⟨1, [("a", nested 3)]⟩ := by
  intro io
  refine ⟨rfl, ?_⟩
  have hdepth : (Value.object [("a", nested 3)]).depth < Json.maxDepth := by
    rw [depth_nested_state]
    decide
  refine (written_state_is_loaded_unless_too_deep rfl (handedOver_written 3) sound_overEmpty
    (ordered_nested_state 3) (doublesReadBack_overEmpty 3) {} [] 5).trans (if_pos hdepth)

/-- **A state that is written and not loaded:** a number under 126 square brackets, in an object.
It is written in full, and the next gateway takes the file for corrupted. -/
theorem deep_state_is_corrupted :
    let io := Ports.beside (FileStorage.storage (.ofString "state.json")) .memory
    (handedOver [("a", nested 126)]).1 = .ok .written ∧
      ((start io {} (handedOver [("a", nested 126)]).2.world []).load io 5).1 = .corrupted := by
  intro io
  refine ⟨rfl, ?_⟩
  have hdepth : ¬ (Value.object [("a", nested 126)]).depth < Json.maxDepth := by
    rw [depth_nested_state]
    decide
  exact (load_of_set (set_of_written rfl (handedOver_written 126)) sound_overEmpty
    (ordered_nested_state 126) (doublesReadBack_overEmpty 126) _ {} [] 5).trans (if_neg hdepth)

end VersionedStore.Gateway
