import VersionedStore.Proofs.Markers.File
import VersionedStore.Proofs.Session.Request
import VersionedStore.Proofs.Storage.File

/-!
# Configured names as names of files

A configuration names two markers, and a directory of markers takes only names that a file can have
in any directory.  A configuration is valid for more names than those, and a session over such a one
takes a first run for corruption, or refuses a recovery.

* `validate_of_isKey`: every two different names of files are valid;
* `Ports.files`: a file and a directory of markers, in one tree;
* `bootstrap_of_first_run`: what a first run comes to;
* `recover_of_writable`: what a recovery comes to;
* `names_decide`: both, for every configuration.
-/

namespace VersionedStore

/-- A file with a directory of markers. -/
def Ports.files (store dir : Path) : Ports FileTree :=
  ⟨FileStorage.storage store, FileMarkers.markers dir⟩

/-! ### Valid names -/

theorem FileMarkers.toNat_of_isKeyChar {c : Char} (h : FileMarkers.isKeyChar c = true) :
    45 ≤ c.toNat ∧ c.toNat ≤ 122 := by
  unfold isKeyChar Char.isAlphanum Char.isAlpha Char.isUpper Char.isLower Char.isDigit at h
  simp only [Bool.or_eq_true, Bool.and_eq_true, decide_eq_true_eq, ge_iff_le,
    UInt32.le_iff_toNat_le] at h
  rcases h with ((((⟨hlow, hhigh⟩ | ⟨hlow, hhigh⟩) | ⟨hlow, hhigh⟩) | rfl) | rfl) | rfl
  · exact ⟨.trans (by decide) hlow, .trans hhigh (by decide)⟩
  · exact ⟨.trans (by decide) hlow, .trans hhigh (by decide)⟩
  · exact ⟨.trans (by decide) hlow, .trans hhigh (by decide)⟩
  all_goals decide

theorem Text.isBlank_of_isKeyChar {c : Char} (h : FileMarkers.isKeyChar c = true) :
    isBlank c = false := by
  obtain ⟨hlow, hhigh⟩ := FileMarkers.toNat_of_isKeyChar h
  simp [isBlank, blankRanges]
  omega

theorem Text.allBlank_of_isKey {key : String} (h : FileMarkers.isKey key = true) :
    Text.allBlank key = false := by
  unfold FileMarkers.isKey at h
  simp only [Bool.and_eq_true, Bool.not_eq_true', decide_eq_true_eq] at h
  obtain ⟨⟨⟨hempty, hall⟩, -⟩, -⟩ := h
  unfold allBlank
  rcases hkey : key.toList with _ | ⟨c, cs⟩
  · rw [String.toList_eq_nil_iff] at hkey
    rw [hkey] at hempty
    cases hempty
  · rw [hkey, List.all_cons, Bool.and_eq_true] at hall
    rw [List.all_cons, isBlank_of_isKeyChar hall.1, Bool.false_and]

/-- **Names of files are valid.** -/
theorem Config.validate_of_isKey {c : Config} (he : FileMarkers.isKey c.existenceKey = true)
    (hr : FileMarkers.isKey c.recoveryKey = true) (hne : c.existenceKey ≠ c.recoveryKey) :
    c.validate = .ok () := by
  unfold validate
  rw [Text.allBlank_of_isKey he, Text.allBlank_of_isKey hr, if_neg nofun, if_neg hne]

namespace Session

open FileMarkers (isKey)

variable {store dir : Path} {config : Config} {t : FileTree} {chain : Chain} {initial : Object}
  {log : List Diagnostic} {now : Nat}

/-! ### First runs -/

/-- **A first run:** the directory of the store can be made, and then there is neither a document
nor any marker. -/
structure FirstRun (store dir : Path) (t : FileTree) : Prop where
  made : ∃ t', t.makeParent store = (.ok (), t') ∧ t'.read store = .error .notFound ∧
    FileMarkers.Vacant dir t'

theorem loaded_of_empty {σ : Type} {io : Ports σ} {g g' : Gateway σ} {found : Loaded} {w : σ}
    (load : g.Loads io now found g') (ready : g.ready = true)
    (hread : io.storage.get none g.world = (.ok [], w)) :
    (found = .freshInstall ∧ (io.markers.get g.config.existenceKey w).1 = .ok none) ∨
      (found = .corrupted ∧ (io.markers.get g.config.existenceKey w).1 ≠ .ok none) := by
  cases load with
  | unsupported unready =>
    rw [ready] at unready
    cases unready
  | unreadable _ read => cases hread.symm.trans read
  | fresh _ read marker =>
    obtain ⟨-, rfl⟩ := Prod.mk.inj (hread.symm.trans read)
    exact .inl ⟨rfl, congrArg Prod.fst marker⟩
  | lost _ read marker | unmarked _ read marker =>
    obtain ⟨-, rfl⟩ := Prod.mk.inj (hread.symm.trans read)
    refine .inr ⟨rfl, ?_⟩
    rw [marker]
    rintro ⟨⟩
  | decoded _ read ne | undecoded _ read ne =>
    exact absurd (Except.ok.inj (Prod.mk.inj (hread.symm.trans read)).1).symm ne

theorem existence_of_vacant (h : FileMarkers.Vacant dir t) {key : String}
    (hfits : isKey key = true → (dir.child key).Fits) :
    FileMarkers.get dir key t = .ok none ↔ isKey key = true := by
  by_cases hkey : isKey key = true
  · rw [h.shows.get hkey (hfits hkey)]
    exact iff_of_true rfl hkey
  · rw [FileMarkers.get_of_not_isKey (eq_false_of_ne_true hkey)]
    exact iff_of_false (by rintro ⟨⟩) hkey

/-- **What a first run comes to:** it is fresh if a file can be named for the existence marker, and
else the store is taken for corrupted. -/
theorem bootstrap_of_first_run (h : FirstRun store dir t)
    (hfits : isKey config.existenceKey = true → (dir.child config.existenceKey).Fits) :
    ((start (.files store dir) chain config initial t log).bootstrap (.files store dir) now).1 =
      .ok (if isKey config.existenceKey = true then .fresh initial chain.current
        else .corrupted) := by
  obtain ⟨t', hmade, hread, hvacant⟩ := h.made
  have havailable : (Ports.files store dir).storage.isAvailable t = (true, t') := by
    show FileStorage.isAvailable store t = _
    unfold FileStorage.isAvailable
    rw [hmade]
  have hget : (Ports.files store dir).storage.get none t' = (.ok [], t') := by
    show ((FileStorage.readDocument store t').map _, t') = _
    unfold FileStorage.readDocument
    rw [hread]
    rfl
  obtain ⟨hconfig, hready, hworld, -⟩ := Gateway.start_frame (.files store dir) config t log
  simp only [havailable] at hready hworld
  have hmarker := existence_of_vacant hvacant hfits
  have hfound {found g} (load : (Gateway.start (.files store dir) config t log).Loads
      (.files store dir) now found g) :
      found = .freshInstall ∧ isKey config.existenceKey = true ∨
        found = .corrupted ∧ ¬ isKey config.existenceKey = true := by
    have hloaded := loaded_of_empty load hready (by rw [hworld]; exact hget)
    rw [hconfig] at hloaded
    exact hloaded.imp (fun h => ⟨h.1, hmarker.mp h.2⟩) fun h => ⟨h.1,
      fun hkey => h.2 (hmarker.mpr hkey)⟩
  rcases hb : (start (.files store dir) chain config initial t log).bootstrap (.files store dir) now
    with ⟨outcome, s'⟩
  cases boots_of_bootstrap (sound_start _ chain config initial t log) hb with
  | again done => cases done
  | fresh _ load =>
    rcases hfound load with ⟨-, hkey⟩ | ⟨⟨⟩, -⟩
    rw [if_pos hkey]
    rfl
  | corrupted _ load =>
    rcases hfound load with ⟨⟨⟩, -⟩ | ⟨-, hkey⟩
    rw [if_neg hkey]
  | kept _ load | writtenBack _ load =>
    rcases hfound load with ⟨⟨⟩, -⟩ | ⟨⟨⟩, -⟩

/-! ### Recoveries -/

/-- **Everything can be written** that a recovery writes: the directory of the store is there, the
marker of the consent can be set, and no directory that is made for it stands in the way of the
store. -/
structure Writable (store dir : Path) (key : String) (t : FileTree) : Prop where
  parent : t.makeParent store = (.ok (), t)
  marker : t.Usable (dir.child key)
  store : ∀ t', t.makeDirectories dir = (.ok (), t') → t'.Usable store

theorem Writable.set {key : String} (h : Writable store dir key t) (hkey : isKey key = true)
    (value : String) : ∃ t', FileMarkers.set dir key value t = (.ok (), t') ∧ t'.Usable store := by
  have hends := FileMarkers.ends_of_isKey hkey dir
  obtain ⟨t₁, t', hmade, hwrite, hkept, hsound, hno⟩ := h.marker.writeAtomically (Text.bytes value)
  have hext : t.Extends t₁ := FileTree.extends_makeParent hmade
  have hstore := h.store t₁ ((FileTree.makeParent_child hends).mp hmade)
  refine ⟨t', ?_, hstore.of_directories (FileTree.makeParent_again h.parent hext.keepsDirectories)
    hkept hsound hno⟩
  unfold FileMarkers.set
  rw [FileMarkers.path_of_isKey hkey]
  exact hwrite

theorem ready_of_corrupted {σ : Type} {io : Ports σ} {w : σ} {s : Session σ}
    (hboot : (start io chain config initial w log).bootstrap io now = (.ok .corrupted, s)) :
    s.gateway.config = config ∧ s.gateway.ready = true ∧
      s.gateway.metadata = some chain.current := by
  have hboots := boots_of_bootstrap (sound_start io chain config initial w log) hboot
  refine ⟨hboots.config_eq.trans (Gateway.start_frame io config w log).1, ?_⟩
  cases hboots with
  | corrupted _ load => exact ⟨load.frame.2.1.trans (load.ready nofun), rfl⟩

/-- **What a recovery comes to:** the state is written if a file can be named for the marker of the
consent, and else the consent is refused. -/
theorem recover_of_writable {s : Session FileTree} (ready : s.gateway.ready = true)
    {version : Version} (metadata : s.gateway.metadata = some version)
    (hwritable : isKey s.gateway.config.recoveryKey = true →
      Writable store dir s.gateway.config.recoveryKey s.gateway.world) (data : Object) :
    (s.recover (.files store dir) (.object data)).1 =
      if isKey s.gateway.config.recoveryKey = true then .ok .written
      else .error (.io ("Invalid marker key '" ++ s.gateway.config.recoveryKey ++ "'")) := by
  rcases hr : s.recover (.files store dir) (.object data) with ⟨answer, s'⟩
  have hperforms := performs_of_recover hr
  by_cases hkey : isKey s.gateway.config.recoveryKey = true
  swap
  · have hrefused :=
      FileMarkers.set_of_not_isKey (eq_false_of_ne_true hkey) dir Gateway.consentValue
      s.gateway.world
    rw [if_neg hkey]
    cases hperforms with
    | refused set => exact congrArg Except.error (Except.error.inj
        (Prod.mk.inj (set.symm.trans hrefused)).1)
    | recovered set => cases hrefused.symm.trans set
  obtain ⟨t', hset, husable⟩ := (hwritable hkey).set hkey Gateway.consentValue
  rw [if_pos hkey]
  cases hperforms with
  | refused set => cases hset.symm.trans set
  | @recovered _ w _ g set h =>
    obtain rfl : t' = w := (Prod.mk.inj (hset.symm.trans set)).2
    have hconsent : (Ports.files store dir).markers.get s.gateway.config.recoveryKey t' =
        (.ok (some Gateway.consentValue), t') :=
      congrArg (·, t') (FileMarkers.get_of_set hset ((hwritable hkey).marker.sound.takes _))
    rcases h.of_ready ready metadata with ⟨found, w, shut, -, -⟩ | ⟨found, w, opened, write, hfound⟩
    · have hread := shut.read
      rw [hconsent] at hread
      exact absurd (Prod.mk.inj hread).1.symm shut.no_consent
    · have hw : w = t' := by
        rcases opened with ⟨-, hw⟩ | ⟨-, hread⟩
        · exact hw
        · exact (Prod.mk.inj (hconsent.symm.trans hread)).2.symm
      obtain ⟨t'', hwrite, -⟩ := husable.again (FileStorage.print
        ((FileStorage.base store t').merge (Envelope.toDocument ⟨version, data⟩)))
      rw [hw] at write
      obtain ⟨rfl, -⟩ := Prod.mk.inj (write.symm.trans hwrite)
      rcases hfound with ⟨-, rfl⟩ | ⟨⟨e, ⟨⟩⟩, -⟩
      rfl

/-- **The names decide.**  Two different names of files make a valid configuration.  Under any
configuration, a file and a directory of markers that are both missing at first make a fresh
install, if a file can be named for the existence marker, and a corrupted store if not.  After any
corruption a recovery writes its state if a file can be named for the marker of the consent, and is
refused for its name if not. -/
theorem names_decide (store dir : Path) (config : Config) (chain : Chain) (initial : Object)
    (log : List Diagnostic) (now : Nat) :
    (isKey config.existenceKey = true → isKey config.recoveryKey = true →
      config.existenceKey ≠ config.recoveryKey → config.validate = .ok ()) ∧
    (∀ t, FirstRun store dir t →
      (isKey config.existenceKey = true → (dir.child config.existenceKey).Fits) →
      ((start (.files store dir) chain config initial t log).bootstrap (.files store dir) now).1 =
        .ok (if isKey config.existenceKey = true then .fresh initial chain.current
          else .corrupted)) ∧
    ∀ t s data,
      (start (.files store dir) chain config initial t log).bootstrap (.files store dir) now =
        (.ok .corrupted, s) →
      (isKey config.recoveryKey = true → Writable store dir config.recoveryKey s.gateway.world) →
      (s.recover (.files store dir) (.object data)).1 =
        if isKey config.recoveryKey = true then .ok .written
        else .error (.io ("Invalid marker key '" ++ config.recoveryKey ++ "'")) := by
  refine ⟨Config.validate_of_isKey, fun t => bootstrap_of_first_run,
    fun t s data hboot hwritable => ?_⟩
  obtain ⟨rfl, hready, hmetadata⟩ := ready_of_corrupted hboot
  exact recover_of_writable hready hmetadata hwritable data

/-! ### Names of markers -/

theorem firstRun_empty : FirstRun (.ofString "state.json") (.ofString "markers") {} :=
  ⟨{}, rfl, rfl, FileMarkers.vacant_markers⟩

theorem writable_junkFile : Writable (.ofString "state.json") (.ofString "markers")
    "user_opted_in_to_restore" FileStorage.junkFile where
  parent := rfl
  marker :=
    { ends := ⟨["markers"], "user_opted_in_to_restore", rfl, rfl, by decide⟩
      fits := ⟨rfl, by decide, rfl⟩
      temporary_fits := ⟨rfl, by decide, rfl⟩
      sound := by rintro _ ⟨⟩
      free := ⟨_, rfl, rfl, rfl⟩ }
  store t' hmade := by
    obtain ⟨-, rfl⟩ := Prod.mk.inj hmade
    exact
      { ends := ⟨[], "state.json", rfl, rfl, by decide⟩
        fits := ⟨rfl, by decide, rfl⟩
        temporary_fits := ⟨rfl, by decide, rfl⟩
        sound := by rintro _ ⟨⟩
        free := ⟨_, rfl, rfl, rfl⟩ }

/-- Under the names that are configured unless others are, a first run is fresh, and a store that is
no document is recovered. -/
theorem names_decide_default :
    let io : Ports FileTree := .files (.ofString "state.json") (.ofString "markers")
    let junk := (start io .shipped {} [] FileStorage.junkFile []).bootstrap io 5
    ((start io .shipped {} [] {} []).bootstrap io 5).1 = .ok (.fresh [] Chain.shipped.current) ∧
      junk.1 = .ok .corrupted ∧ (junk.2.recover io (.object [])).1 = .ok .written := by
  intro io junk
  obtain ⟨-, hfirst, hrecover⟩ :=
    names_decide (.ofString "state.json") (.ofString "markers") {} .shipped [] [] 5
  have hcorrupted : junk.1 = .ok .corrupted := by decide +kernel
  have hboot : junk = (.ok .corrupted, junk.2) := Prod.ext hcorrupted rfl
  refine ⟨hfirst {} firstRun_empty fun _ => ?_, hcorrupted, ?_⟩
  · exact ⟨rfl, by decide, rfl⟩
  · refine hrecover FileStorage.junkFile junk.2 [] hboot fun _ => ?_
    have hworld : junk.2.gateway.world = FileStorage.junkFile := by decide +kernel
    rw [hworld]
    exact writable_junkFile

/-- **Valid names that no file can have.**  Over nothing at all, a session under the one
configuration takes its first run for corruption; under the other, a recovery is refused for the
name of a marker. -/
theorem valid_names_are_refused :
    let io : Ports FileTree := .files (.ofString "state.json") (.ofString "markers")
    let unseen : Config := { existenceKey := "first seen" }
    let unasked : Config := { recoveryKey := "opt in" }
    Config.parse "\x7b\"existence_marker_key\":\"first seen\"\x7d" = .ok unseen ∧
      FirstRun (.ofString "state.json") (.ofString "markers") {} ∧
      ((start io .shipped unseen [] {} []).bootstrap io 5).1 = .ok .corrupted ∧
      Config.parse "\x7b\"recovery_opt_in_key\":\"opt in\"\x7d" = .ok unasked ∧
      ((start io .shipped unasked [] FileStorage.junkFile []).bootstrap io 5).1 = .ok .corrupted ∧
      (((start io .shipped unasked [] FileStorage.junkFile []).bootstrap io 5).2.recover io
        (.object [])).1 = .error (.io "Invalid marker key 'opt in'") := by
  intro io unseen unasked
  refine ⟨by decide +kernel, firstRun_empty, by decide +kernel, by decide +kernel,
    by decide +kernel, by decide +kernel⟩

end Session

end VersionedStore
