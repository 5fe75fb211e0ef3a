import VersionedStore.Proofs.Files.FailedWriting
import VersionedStore.Proofs.Markers.File

/-!
# Markers stay in their directory

A key that could lead anywhere else is refused, and nothing is touched.  Any other key is the name
of one file in the directory of the markers: that file alone is read, and only it and its temporary
file are written.

* `Escapes`: keys that are refused; `isKey_eq_false_iff`: there are no others;
* `home`: the directory of the markers, as far as it is there;
* `get_congr`: what is read is told by the directory and by one entry of it;
* `WritesAt.lookup_eq`, `entry_set`: what a writing leaves of all other entries;
* `keys_stay_inside`: all of this for any tree, key and value.
-/

namespace VersionedStore

namespace FileTree

variable {t t' : FileTree} {p q d : Path} {up : List String} {name : String} {w : Way}
  {bytes : List UInt8}

/-! ### The ways before a directory -/

theorem waysFrom_solid (here : Way) (ps : List String) :
    waysFrom here (Path.solid ps) = waysFrom here ps := by
  induction ps generalizing here with
  | nil => rfl
  | cons p ps ih =>
    rw [Path.solid_cons]
    by_cases hsilent : Path.isSilent p = true
    · rw [if_pos hsilent, ih, waysFrom, if_pos hsilent]
    · rw [if_neg hsilent]
      unfold waysFrom
      simp only [if_neg hsilent, ih]

theorem ways_parent_child (h : (d.child name).Ends d.stem name)
    (hq : (d.child name).parent? = some q) (t : FileTree) : t.ways q = t.ways d := by
  obtain ⟨q', hparent, hgoes⟩ := h.parent
  obtain rfl := Option.some.inj (hparent.symm.trans hq)
  have hchild := q'.ends_child h.notSilent h.ne_up
  have hstart : t.start q' = t.start d := by
    rw [← start_child hchild, ← start_child h, start_of_ends hchild, start_of_ends h, hgoes.head]
  unfold ways
  rw [hstart, ← waysFrom_solid _ q'.pieces, ← waysFrom_solid _ d.pieces, ← q'.solid_stem,
    ← d.solid_stem, hgoes.solid_eq]

/-! ### What a writing leaves -/

/-- **A writing changes two entries,** whatever it comes to, once the directory of the file was
made. -/
theorem WritesAt.lookup_eq {r : Except StoreError Unit} (h : t.WritesAt p name bytes r t')
    (hw : ∀ dir, t'.directory? p = some dir → w ≠ dir ++ [name] ∧ w ≠ dir ++ [name ++ ".tmp"]) :
    t'.lookup w = (t.makeParent p).2.lookup w := by
  cases h with
  | refused => rfl
  | left place kept entry => rw [entry, if_neg (hw _ (kept.directory? place)).2]
  | moved place kept entry =>
    obtain ⟨hfile, htemporary⟩ := hw _ (kept.directory? place)
    rw [entry, if_neg hfile, if_neg htemporary]

end FileTree

namespace FileMarkers

variable {dir : Path} {key value : String} {t t' : FileTree} {w : Way}

/-! ### Keys -/

/-- An ASCII letter or digit, or one of three signs. -/
def IsPlain (c : Char) : Prop :=
  ('a' ≤ c ∧ c ≤ 'z') ∨ ('A' ≤ c ∧ c ≤ 'Z') ∨ ('0' ≤ c ∧ c ≤ '9') ∨ c = '_' ∨ c = '-' ∨ c = '.'

/-- **A key that could lead out of its directory:** an empty one, one of dots that is a way, or one
with a character that is not plain. -/
def Escapes (key : String) : Prop :=
  key = "" ∨ key = "." ∨ key = ".." ∨ ∃ c ∈ key.toList, ¬ IsPlain c

theorem isKeyChar_iff (c : Char) : isKeyChar c = true ↔ IsPlain c := by
  unfold isKeyChar IsPlain Char.isAlphanum Char.isAlpha Char.isUpper Char.isLower Char.isDigit
  simp only [Bool.or_eq_true, Bool.and_eq_true, decide_eq_true_eq, ge_iff_le, Char.le_def]
  tauto

theorem isKey_eq_false_iff : isKey key = false ↔ Escapes key := by
  have hplain : key.toList.all isKeyChar = false ↔ ∃ c ∈ key.toList, ¬ IsPlain c := by
    simp [List.all_eq_false, ← isKeyChar_iff]
  have hempty : key.isEmpty = true ↔ key = "" := String.isEmpty_iff
  unfold isKey Escapes
  rw [← hplain, ← hempty]
  simp only [Bool.and_eq_false_iff, Bool.not_eq_false', decide_eq_false_iff_not, not_not]
  tauto

/-! ### One entry is read -/

/-- Where the directory of the markers is. -/
def home (dir : Path) (t : FileTree) : Except FileError Way := t.walk (t.start dir) dir.pieces

theorem home_eq_ok_iff (hkey : isKey key = true) {d : Way} :
    home dir t = .ok d ↔ t.directory? (dir.child key) = some d := by
  have hends := ends_of_isKey hkey dir
  rw [FileTree.directory?_eq_some_iff hends.names, FileTree.walk_child hends]
  rfl

/-- **What is read of a marker** is told by the directory of the markers and by the entry of its
name. -/
theorem get_congr (hkey : isKey key = true) (hhome : home dir t' = home dir t)
    (hentry : ∀ d, home dir t = .ok d → t'.lookup (d ++ [key]) = t.lookup (d ++ [key])) :
    get dir key t' = get dir key t := by
  have hends := ends_of_isKey hkey dir
  have hread : t'.read (dir.child key) = t.read (dir.child key) := by
    refine FileTree.read_congr hends.names ?_ fun d hd => hentry d ?_
    · rw [FileTree.walk_child hends, FileTree.walk_child hends]
      exact hhome
    · rwa [FileTree.walk_child hends] at hd
  unfold get FileTree.readText
  simp only [path_of_isKey hkey, hread]

/-! ### Two entries are written -/

/-- **What setting a marker leaves of all other entries:** they are as they were, and what is new is
a directory before the directory of the markers. -/
theorem entry_set (hkey : isKey key = true) (value : String) (t : FileTree)
    (hw :
      ∀ d, home dir (set dir key value t).2 = .ok d → w ≠ d ++ [key] ∧ w ≠ d ++ [key ++ ".tmp"]) :
    (set dir key value t).2.lookup w = t.lookup w ∨
      t.lookup w = none ∧ (set dir key value t).2.lookup w = some .directory ∧ w ∈ t.ways dir := by
  have hends := ends_of_isKey hkey dir
  have hset : set dir key value t = t.writeAtomically (dir.child key) (Text.bytes value) := by
    unfold set
    rw [path_of_isKey hkey]
  rcases hwrite : set dir key value t with ⟨r, after⟩
  rw [hwrite] at hw
  have hwrites := FileTree.writesAt_of_writeAtomically hends.names (hset.symm.trans hwrite)
  have hafter := hwrites.lookup_eq fun d hd => hw d ((home_eq_ok_iff hkey).mpr hd)
  dsimp only
  rw [hafter]
  rcases hl : t.lookup w with _ | e
  · refine (FileTree.entry_makeParent (dir.child key) hl).imp_right fun h => ⟨rfl, h.1, ?_⟩
    obtain ⟨q, hq, hway⟩ := h.2
    rwa [FileTree.ways_parent_child hends hq] at hway
  · have hext : t.Extends (t.makeParent (dir.child key)).2 := FileTree.extends_makeParent rfl
    exact .inl (hext.entry _ _ hl)

/-- **Markers stay in their directory.**  A key that could lead out of it is refused, by readings
and by settings, and nothing is touched.  With any other key a reading changes nothing, and its
answer depends on where the directory of the markers is and on the entry of that name in it, and on
nothing else; a setting, whatever it answers, makes, changes and removes no file but the one of that
name in that directory and the one whose name has the ending of temporary files, and apart from
these two makes nothing but directories on the way to the directory of the markers. -/
theorem keys_stay_inside (dir : Path) (key value : String) (t : FileTree) :
    (Escapes key →
      (markers dir).get key t = (.error (.io ("Invalid marker key '" ++ key ++ "'")), t) ∧
        (markers dir).set key value t = (.error (.io ("Invalid marker key '" ++ key ++ "'")), t)) ∧
    (¬ Escapes key →
      ((markers dir).get key t).2 = t ∧
      (∀ t', home dir t' = home dir t →
        (∀ d, home dir t = .ok d → t'.lookup (d ++ [key]) = t.lookup (d ++ [key])) →
          ((markers dir).get key t').1 = ((markers dir).get key t).1) ∧
      let after := ((markers dir).set key value t).2
      ∀ w, (∀ d, home dir after = .ok d → w ≠ d ++ [key] ∧ w ≠ d ++ [key ++ ".tmp"]) →
        t.SameFile after w ∧ (after.lookup w = t.lookup w ∨
          t.lookup w = none ∧ after.lookup w = some .directory ∧ w ∈ t.ways dir)) := by
  rw [← isKey_eq_false_iff]
  refine ⟨fun hbad => ⟨?_, set_of_not_isKey hbad dir value t⟩, fun hgood => ?_⟩
  · exact congrArg (·, t) (get_of_not_isKey hbad dir t)
  have hkey : isKey key = true := eq_true_of_ne_false hgood
  refine ⟨rfl, fun t' hhome hentry => get_congr hkey hhome hentry, ?_⟩
  intro after w hw
  have hentry := entry_set hkey value t hw
  refine ⟨fun bytes => ?_, hentry⟩
  show after.lookup w = _ ↔ _
  rcases hentry with hsame | ⟨hnone, hdir, -⟩
  · rw [show after.lookup w = _ from hsame]
  · rw [hnone, show after.lookup w = _ from hdir]
    constructor <;> rintro ⟨⟩

/-- A document beside the directory of the markers, which is not there yet. -/
def besideMarkers : FileTree := { entries := [(["state.json"], .file [0x7b, 0x7d])] }

/-- A key with a slash is refused, and a marker with the name of the document leaves the document
alone. -/
theorem keys_stay_inside_beside :
    Escapes "../state.json" ∧
      (markers (.ofString "markers")).set "../state.json" "true" besideMarkers =
        (.error (.io "Invalid marker key '../state.json'"), besideMarkers) ∧
    ¬ Escapes "state.json" ∧
      besideMarkers.SameFile
        ((markers (.ofString "markers")).set "state.json" "true" besideMarkers).2
        ["state.json"] := by
  have hbad : Escapes "../state.json" := isKey_eq_false_iff.mp (by decide)
  have hgood : ¬ Escapes "state.json" := fun h => absurd (isKey_eq_false_iff.mpr h) (by decide)
  refine ⟨hbad, ((keys_stay_inside _ _ _ _).1 hbad).2, hgood,
    (((keys_stay_inside _ _ _ _).2 hgood).2.2 ["state.json"] fun d hd => ?_).1⟩
  have hmade : home (.ofString "markers")
      ((markers (.ofString "markers")).set "state.json" "true" besideMarkers).2 = .ok ["markers"] :=
        rfl
  obtain rfl := Except.ok.inj (hmade.symm.trans hd)
  decide

end FileMarkers

end VersionedStore
