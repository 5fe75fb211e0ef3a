import VersionedStore.Markers.File
import VersionedStore.Proofs.Files.Writing
import VersionedStore.Proofs.History

/-!
# Markers that share their directory with temporary files

The files of a directory answer as a map of markers would, but for one thing: the temporary file of
a marker is named as another marker may be, so setting the one takes the other away.

* `Markers.answers`: what markers answer along a list of requests;
* `Markers.displacing`: markers in memory that displace the one that is named as the temporary file;
* `Shows`: a directory shows what such markers hold; `Shows.get`, `Shows.set`: the two requests;
* `markers_answer_displacing`: the answers of a directory that is absent or empty at first;
* `temporary_name_is_lost`: a marker is lost although it was set and no other value was set after
  it.
-/

namespace VersionedStore

namespace Markers

variable {σ : Type}

inductive Request
  | get (key : String)
  | set (key value : String)

def Request.key : Request → String
  | get key => key
  | set key _ => key

inductive Answer
  | got (answer : Except StoreError (Option String))
  | stored (answer : Except StoreError Unit)

def step (m : Markers σ) (w : σ) : Request → Option Answer × σ
  | .get key => (some (.got (m.get key w).1), (m.get key w).2)
  | .set key value => (some (.stored (m.set key value w).1), (m.set key value w).2)

/-- The answers to a list of requests, oldest first. -/
def answers (m : Markers σ) (w : σ) (requests : List Request) : List Answer :=
  History.events m.step w requests

/-- The name of the temporary file of a marker. -/
def temporaryKey (key : String) : String := key ++ ".tmp"

/-- **Markers that displace each other:** setting one takes away the one that is named as its
temporary file. -/
def displacing : Markers (Table String String) where
  get key t := (.ok (t.get? key), t)
  set key value t := (.ok (), (t.erase (temporaryKey key)).put key value)

end Markers

namespace FileMarkers

open FileTree

variable {dir : Path} {t t₁ : FileTree} {w : Way} {key value : String} {table : Table String String}

/-! ### Keys -/

/-- **A key that a file can be named for,** and its temporary file. -/
structure Usable (dir : Path) (key : String) : Prop where
  isKey : isKey key = true
  fits : (dir.child key).Fits
  temporary_fits : (dir.child key).temporary.Fits

theorem ends_of_isKey (h : isKey key = true) (dir : Path) : (dir.child key).Ends dir.stem key := by
  unfold FileMarkers.isKey at h
  simp only [Bool.and_eq_true, Bool.not_eq_true', decide_eq_true_eq] at h
  obtain ⟨⟨⟨hempty, -⟩, hdot⟩, hup⟩ := h
  refine dir.ends_child ?_ hup
  unfold Path.isSilent
  rw [decide_eq_false hdot, decide_eq_false]
  · rfl
  · rintro rfl
    cases hempty

theorem path_of_isKey (h : isKey key = true) (dir : Path) : path dir key = .ok (dir.child key) := by
  unfold path
  rw [if_pos h]

theorem path_of_not_isKey (h : isKey key = false) (dir : Path) :
    path dir key = .error (.io ("Invalid marker key '" ++ key ++ "'")) := by
  unfold path
  rw [h, if_neg nofun]

theorem set_of_not_isKey (h : isKey key = false) (dir : Path) (value : String) (t : FileTree) :
    set dir key value t = (.error (.io ("Invalid marker key '" ++ key ++ "'")), t) := by
  unfold set
  rw [path_of_not_isKey h]

theorem get_of_not_isKey (h : isKey key = false) (dir : Path) (t : FileTree) :
    get dir key t = .error (.io ("Invalid marker key '" ++ key ++ "'")) := by
  unfold get
  rw [path_of_not_isKey h]

theorem get_of_set {t' : FileTree} (h : set dir key value t = (.ok (), t'))
    (ht : t.Takes (Text.bytes value)) : get dir key t' = .ok (some value) := by
  unfold set at h
  unfold get
  rcases hpath : path dir key with e | p <;> simp only [hpath] at h
  · cases h
  have hread : t'.readText p = .ok value := by
    unfold readText
    rw [read_writeAtomically h, ht]
    simp [Text.bytes, Text.decode?_encode]
  simp only [hread]

/-! ### Directories of markers -/

/-- A directory that is there and shows a table: a file for every marker, with its value, and no
other. -/
structure Listed (dir : Path) (w : Way) (t : FileTree) (table : Table String String) : Prop where
  made : t.makeDirectories dir = (.ok (), t)
  walk : t.walk (t.start dir) dir.pieces = .ok w
  entry : ∀ key, t.lookup (w ++ [key]) = (table.get? key).map (.file <| Text.bytes ·)

/-- **A directory that is absent or empty,** and can be made and written. -/
structure Vacant (dir : Path) (t : FileTree) : Prop where
  sound : t.Sound
  made : ∃ t', t.makeDirectories dir = (.ok (), t') ∧
    ∀ w, t'.walk (t'.start dir) dir.pieces = .ok w → ∀ name, t'.lookup (w ++ [name]) = none

/-- A directory shows a table, at once or, if there are no markers, once it was made. -/
structure Shows (dir : Path) (t : FileTree) (table : Table String String) : Prop where
  sound : t.Sound
  listed : ∃ t₁ w, t.makeDirectories dir = (.ok (), t₁) ∧ Listed dir w t₁ table ∧
    (t₁ = t ∨ table = [])

theorem Vacant.shows (h : Vacant dir t) : Shows dir t [] := by
  obtain ⟨t₁, hmade, hnone⟩ := h.made
  have hends : (dir.child "a").Ends dir.stem "a" := ends_of_isKey (by decide) dir
  obtain ⟨w, hw⟩ := walk_of_makeParent hends ((makeParent_child hends).mpr hmade)
  rw [walk_child hends] at hw
  exact ⟨h.sound, t₁, w, hmade, ⟨makeFirst_again hmade (.refl t₁), hw, hnone w hw⟩, .inr rfl⟩

namespace Listed

theorem walk_key (h : Listed dir w t table) (hkey : isKey key = true) :
    t.walk (t.start (dir.child key)) dir.stem = .ok w :=
  (walk_child (ends_of_isKey hkey dir) t).trans h.walk

theorem lookup_ne (h : Listed dir w t table) (name : String) :
    t.lookup (w ++ [name]) ≠ some .directory := by
  rw [h.entry]
  rcases table.get? name with _ | value <;> rintro ⟨⟩

theorem read (h : Listed dir w t table) (hkey : isKey key = true) (hfits : (dir.child key).Fits) :
    get dir key t = .ok (table.get? key) := by
  have hlocate := locate_of_walk (ends_of_isKey hkey dir) hfits (h.walk_key hkey)
  unfold get readText FileTree.read
  simp only [path_of_isKey hkey, hlocate, h.entry]
  rcases table.get? key with _ | value
  · rfl
  · simp [Text.bytes, Text.decode?_encode]

theorem of_lookup {t' : FileTree} (h : Listed dir w t table) (hkept : t.KeepsDirectories t')
    (hlookup : ∀ v, t'.lookup v = if v = w ++ [key] then some (.file (Text.bytes value))
      else if v = w ++ [key ++ ".tmp"] then none else t.lookup v) :
    Listed dir w t' ((table.erase (Markers.temporaryKey key)).put key value) where
  made := makeFirst_again h.made hkept
  walk := by
    rw [start_eq_of_here hkept.here]
    exact hkept.walk h.walk
  entry name := by
    rw [hlookup, h.entry, Table.get?_put, Table.get?_erase]
    simp only [List.append_cancel_left_eq, List.cons.injEq, and_true]
    unfold Markers.temporaryKey
    split
    · rfl
    split <;> rfl

end Listed

/-! ### One request -/

/-- **A marker is read** as the directory shows it. -/
theorem Shows.get (h : Shows dir t table) (hkey : isKey key = true)
    (hfits : (dir.child key).Fits) : FileMarkers.get dir key t = .ok (table.get? key) := by
  obtain ⟨t₁, w, hmade, hlisted, rfl | rfl⟩ := h.listed
  · exact hlisted.read hkey hfits
  have hread := read_of_absent (ends_of_isKey hkey dir) hfits (extends_makeFirst hmade).1
    (hlisted.walk_key hkey) (hlisted.entry key)
  unfold FileMarkers.get readText
  simp only [path_of_isKey hkey, hread]
  rfl

/-- **A marker is set,** and the directory shows it in the place of what was there before and of the
marker that is named as its temporary file. -/
theorem Shows.set (h : Shows dir t table) (hkey : Usable dir key) (value : String) :
    ∃ t', FileMarkers.set dir key value t = (.ok (), t') ∧
      Shows dir t' ((table.erase (Markers.temporaryKey key)).put key value) := by
  obtain ⟨t₁, w, hmade, hlisted, -⟩ := h.listed
  have hends := ends_of_isKey hkey.isKey dir
  obtain ⟨t', hwrite, hkept, hsound, hlookup⟩ := writeAtomically_of_walk hends hkey.fits
    hkey.temporary_fits h.sound ((makeParent_child hends).mpr hmade) (hlisted.walk_key hkey.isKey)
    (hlisted.lookup_ne key) (hlisted.lookup_ne (key ++ ".tmp")) (Text.bytes value)
  have hlisted' := hlisted.of_lookup hkept hlookup
  refine ⟨t', ?_, hsound, t', w, hlisted'.made, hlisted', .inl rfl⟩
  unfold FileMarkers.set
  rw [path_of_isKey hkey.isKey]
  exact hwrite

theorem Shows.step (h : Shows dir t table) (request : Markers.Request)
    (hkey : Usable dir request.key) :
    ((markers dir).step t request).1 = (Markers.displacing.step table request).1 ∧
      Shows dir ((markers dir).step t request).2 (Markers.displacing.step table request).2 := by
  cases request with
  | get key =>
    have hget : (markers dir).get key t = (.ok (table.get? key), t) :=
      congrArg (·, t) (h.get hkey.isKey hkey.fits)
    simp only [Markers.step, hget]
    exact ⟨rfl, h⟩
  | set key value =>
    obtain ⟨t', hset, hshows⟩ := h.set hkey value
    have hset' : (markers dir).set key value t = (.ok (), t') := hset
    simp only [Markers.step, hset']
    exact ⟨rfl, hshows⟩

/-! ### Any requests -/

theorem answers_eq_displacing (h : Shows dir t table) {requests : List Markers.Request}
    (hkeys : ∀ request ∈ requests, Usable dir request.key) :
    (markers dir).answers t requests = Markers.displacing.answers table requests := by
  have hstep (t : FileTree) (table : Table String String) (request : Markers.Request)
      (h : Shows dir t table) (hkey : Usable dir request.key) := h.step request hkey
  exact History.events_eq_of_simulation hstep h fun past request future hsplit =>
    hkeys request (by rw [hsplit]; simp)

end FileMarkers

namespace Markers

variable {table : Table String String} {requests : List Request}

/-- **Nothing is displaced that is asked for:** no marker that is read is named as the temporary
file of one that is set. -/
def Apart (requests : List Request) : Prop :=
  ∀ key, .get key ∈ requests → ∀ other value, .set other value ∈ requests → key ≠ temporaryKey other

theorem displacing_eq_memory (h : Apart requests) (table : Table String String) :
    displacing.answers table requests = memory.answers table requests := by
  have hstep (t t' : Table String String) (request : Request)
      (hread : ∀ key, .get key ∈ requests → t.get? key = t'.get? key) (hmem : request ∈ requests) :
      (displacing.step t request).1 = (memory.step t' request).1 ∧
        ∀ key, .get key ∈ requests →
          Table.get? (displacing.step t request).2 key =
            Table.get? (memory.step t' request).2 key := by
    cases request with
    | get key =>
      refine ⟨?_, hread⟩
      show some (Answer.got (.ok (t.get? key))) = some (.got (.ok (t'.get? key)))
      rw [hread key hmem]
    | set other value =>
      refine ⟨rfl, fun key hkey => ?_⟩
      show Table.get? ((t.erase (temporaryKey other)).put other value) key =
        Table.get? (t'.put other value) key
      rw [Table.get?_put, Table.get?_put, Table.get?_erase, if_neg (h key hkey other value hmem),
        hread key hkey]
  exact History.events_eq_of_simulation hstep (fun _ _ => rfl) fun past request future hsplit => by
    rw [hsplit]
    simp

end Markers

namespace FileMarkers

/-- **A directory of markers** that is absent or empty at first answers as markers that displace
each other, and as a map of markers if none that is read is named as the temporary file of one that
is set. -/
theorem markers_answer_displacing {dir : Path} {t : FileTree} {requests : List Markers.Request}
    (hvacant : Vacant dir t) (hkeys : ∀ request ∈ requests, Usable dir request.key) :
    (markers dir).answers t requests = Markers.displacing.answers [] requests ∧
      (Markers.Apart requests →
        (markers dir).answers t requests = Markers.memory.answers [] requests) := by
  have hanswers := answers_eq_displacing hvacant.shows hkeys
  exact ⟨hanswers, fun hapart => hanswers.trans (Markers.displacing_eq_memory hapart [])⟩

theorem vacant_markers : Vacant (.ofString "markers") {} where
  sound := by rintro _ ⟨⟩
  made := by
    refine ⟨_, rfl, fun w hw name => ?_⟩
    have hmade : Except.ok ["markers"] = (Except.ok w : Except FileError Way) := hw
    cases hmade
    rfl

theorem usable_markers : ∀ key ∈ ["seen", "consent", "a", "a.tmp"],
    Usable (.ofString "markers") key := by
  intro key hkey
  have hcases : key = "seen" ∨ key = "consent" ∨ key = "a" ∨ key = "a.tmp" := by simpa using hkey
  rcases hcases with rfl | rfl | rfl | rfl <;>
    exact ⟨by decide, ⟨rfl, by decide, rfl⟩, ⟨rfl, by decide, rfl⟩⟩

/-- The two markers of a store, in a directory that is not there at first. -/
theorem markers_answer_displacing_store :
    (markers (.ofString "markers")).answers {}
        [.get "seen", .set "seen" "1", .set "consent" "true", .get "seen"] =
      Markers.memory.answers []
        [.get "seen", .set "seen" "1", .set "consent" "true", .get "seen"] := by
  refine (markers_answer_displacing vacant_markers fun request hmem => ?_).2 ?_
  · refine usable_markers _ ?_
    revert request
    simp [Markers.Request.key]
  · intro key hkey other value hset
    obtain rfl : key = "seen" := by simpa using hkey
    have hother : other = "seen" ∨ other = "consent" := by
      simp only [List.mem_cons, List.not_mem_nil, or_false, reduceCtorEq, false_or,
        Markers.Request.set.injEq] at hset
      exact hset.imp (·.1) (·.1)
    rcases hother with rfl | rfl <;> decide

/-- **A marker that is lost:** the name of another one with the ending of its temporary file.  It
was set, and not set again, and after the other was set it is absent. -/
theorem temporary_name_is_lost :
    Vacant (.ofString "markers") {} ∧
      (∀ key ∈ ["a", "a.tmp"], Usable (.ofString "markers") key) ∧
      (markers (.ofString "markers")).answers {} [.set "a.tmp" "x", .set "a" "y", .get "a.tmp"] =
        [.stored (.ok ()), .stored (.ok ()), .got (.ok none)] ∧
      Markers.memory.answers [] [.set "a.tmp" "x", .set "a" "y", .get "a.tmp"] =
        [.stored (.ok ()), .stored (.ok ()), .got (.ok (some "x"))] := by
  refine ⟨vacant_markers, fun key hkey => usable_markers key ?_, rfl, rfl⟩
  exact List.mem_append_right ["seen", "consent"] hkey

end FileMarkers

end VersionedStore
