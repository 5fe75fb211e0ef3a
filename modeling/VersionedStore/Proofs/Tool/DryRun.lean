import VersionedStore.Proofs.Tool.Migrate

/-!
# Dry runs

A migration that is only tried out writes neither the store nor a marker, whatever it meets.  It
asks whether the storage can be used, though, and that makes the directory of the store.

* `Ports.Still`: ports whose calls leave the world as it is; `Gateway.Loads.world_eq`,
  `Session.Boots.world_eq`: what then becomes of a world;
* `Tool.dry_run_makes_parent`: what a dry run leaves of a tree;
* `Tool.dry_run_leaves_directory`: a directory that was not there is left behind.
-/

namespace VersionedStore

variable {σ : Type} {io : Ports σ} {now : Nat}

/-! ### Ports that leave the world alone -/

/-- Readings, and settings of markers, leave every world as it is. -/
structure Ports.Still (io : Ports σ) : Prop where
  get : ∀ keys w, (io.storage.get keys w).2 = w
  getMarker : ∀ key w, (io.markers.get key w).2 = w
  setMarker : ∀ key value w, (io.markers.set key value w).2 = w

theorem Ports.Still.markExistence (h : io.Still) (key : String) (now : Nat) (w : σ) :
    io.markers.markExistence key now w = w := by
  have hget := h.getMarker key w
  unfold Markers.markExistence
  rcases hm : io.markers.get key w with ⟨_ | _ | seen, w'⟩ <;> rw [hm] at hget <;>
    obtain rfl := hget
  · exact h.setMarker key _ _
  · exact h.setMarker key _ _
  · rfl

/-- **A load leaves the world alone.** -/
theorem Gateway.Loads.world_eq {g g' : Gateway σ} {r : Loaded} (h : Loads io now g r g')
    (still : io.Still) : g'.world = g.world := by
  have hread {answer w} (read : io.storage.get none g.world = (answer, w)) : w = g.world := by
    rw [← still.get none g.world, read]
  have hmarker {key : String} {w w' : σ} {answer} (marker : io.markers.get key w = (answer, w')) :
      w' = w := by
    rw [← still.getMarker key w, marker]
  cases h with
  | unsupported => rfl
  | unreadable _ read => exact hread read
  | fresh _ read marker | lost _ read marker | unmarked _ read marker =>
    exact (hmarker marker).trans (hread read)
  | decoded _ read | undecoded _ read => exact (still.markExistence _ _ _).trans (hread read)

/-- **A bootstrap that writes nothing back** leaves the world alone. -/
theorem Session.Boots.world_eq {s s' : Session σ} {r : Except StoreError Outcome}
    (h : s.Boots io now r s') (still : io.Still) (hback : s.gateway.config.writeBack = false) :
    s'.gateway.world = s.gateway.world := by
  cases h with
  | again => rfl
  | fresh _ load | corrupted _ load | kept _ load => exact load.world_eq still
  | writtenBack _ load _ changed =>
    rw [load.frame.1, hback, Bool.and_false] at changed
    cases changed

namespace Tool

theorem still_ports (store markers : Path) : (ports store markers true).Still where
  get _ _ := rfl
  getMarker _ _ := rfl
  setMarker _ _ _ := rfl

theorem isAvailable_snd (store : Path) (t : FileTree) :
    (FileStorage.isAvailable store t).2 = (t.makeParent store).2 := by
  unfold FileStorage.isAvailable
  rcases t.makeParent store with ⟨_ | _, t'⟩ <;> rfl

theorem world_of_dry_run (store : Path) (markers config : Option Path) (now : Nat) (t : FileTree) :
    (∃ e, (config.map (Config.ofFile t)).getD (.ok {}) = .error e) ∧
        (migrate store markers config true now t).2 = t ∨
      (∃ c, (config.map (Config.ofFile t)).getD (.ok {}) = .ok c) ∧
        (migrate store markers config true now t).2 = (t.makeParent store).2 := by
  rcases hconfig : (config.map (Config.ofFile t)).getD (.ok {}) with e | c
  · refine .inl ⟨⟨e, rfl⟩, ?_⟩
    unfold migrate
    rw [hconfig]
  refine .inr ⟨⟨c, rfl⟩, ?_⟩
  rcases hb :
      (migrationStart store markers true c t).bootstrap (migrationPorts store markers true) now
    with ⟨r, s⟩
  obtain ⟨hkept, -, hworld, -⟩ := migrationStart_frame store markers true c t
  have hboots := Session.boots_of_bootstrap (sound_migrationStart store markers true c t) hb
  have hafter := hboots.world_eq (still_ports _ _) (by rw [hkept]; rfl)
  rw [(migrate_of_bootstrap hconfig hb).1, hafter, hworld, isAvailable_snd]

/-- **A dry run makes the directory of the store, and nothing else.**  Every file and directory
stays as it is, whatever the store, the markers and the configuration are; what is new is a
directory before the store; and where the store has its directory, or the configuration does not
load, the tree is the same. -/
theorem dry_run_makes_parent (store : Path) (markers config : Option Path) (now : Nat)
    (t : FileTree) :
    let after := (migrate store markers config true now t).2
    (after.here = t.here ∧ after.faults = t.faults) ∧
      (∀ w e, t.lookup w = some e → after.lookup w = some e) ∧
      (∀ w, t.lookup w = none → after.lookup w = none ∨
        after.lookup w = some .directory ∧ ∃ dir, store.parent? = some dir ∧ w ∈ t.ways dir) ∧
      ((∃ e, (config.map (Config.ofFile t)).getD (.ok {}) = .error e) ∧ after = t ∨
        (∃ c, (config.map (Config.ofFile t)).getD (.ok {}) = .ok c) ∧
          after = (t.makeParent store).2) ∧
      ((∀ dir, store.parent? = some dir → dir.isEmpty = true ∨ t.isDirectory dir = true) →
        after = t) := by
  intro after
  have hworld : _ ∧ after = t ∨ _ ∧ after = (t.makeParent store).2 :=
    world_of_dry_run store markers config now t
  have hkept : t.Extends after ∧ after.faults = t.faults ∧ ∀ w, t.lookup w = none →
      after.lookup w = none ∨ after.lookup w = some .directory ∧
        ∃ dir, store.parent? = some dir ∧ w ∈ t.ways dir := by
    rcases hworld with ⟨-, heq⟩ | ⟨-, heq⟩ <;> rw [heq]
    · exact ⟨.refl t, rfl, fun w hw => .inl hw⟩
    · exact ⟨FileTree.extends_makeParent rfl, FileTree.faults_makeParent t store,
        fun w hw => FileTree.entry_makeParent store hw⟩
  refine ⟨⟨hkept.1.here, hkept.2.1⟩, hkept.1.entry, hkept.2.2, hworld, fun hthere => ?_⟩
  rcases hworld with ⟨-, heq⟩ | ⟨-, heq⟩ <;> rw [heq]
  rcases hp : store.parent? with _ | dir
  · unfold FileTree.makeParent
    rw [hp]
  rcases hthere dir hp with hempty | hdir
  · unfold FileTree.makeParent
    simp only [hp, hempty, if_true]
  · rw [FileTree.makeParent_of_isDirectory hp hdir]

/-- **A directory that was not there is left behind** by a dry run that found nothing stored. -/
theorem dry_run_leaves_directory :
    migrate (.ofString "missing/state.json") none none true 0 {} =
        (success ["No state stored, a fresh install starts at version 113"],
          ({} : FileTree).put ["missing"] .directory) ∧
      ({} : FileTree).put ["missing"] .directory ≠ {} := by
  decide +kernel

end Tool

end VersionedStore
