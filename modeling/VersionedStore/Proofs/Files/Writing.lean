import VersionedStore.Proofs.Files.Places

/-!
# Files that can be written

A writing succeeds where the directory of the file can be made, the file system takes the path and
the temporary path, no directory stands at either and the device takes all bytes.

* `writeAtomically_of_walk`: then the file is there, its temporary file is not, and every other
  entry is as it was;
* `writeAtomically_of_isTooLong`: a file name needs room for the ending of the temporary file;
* `Usable`: what has to be so for a writing; it stays so, after this writing (`Usable.again`) and
  every other that makes no directory (`Usable.of_directories`).
-/

namespace VersionedStore.FileTree

variable {t t' : FileTree} {p : Path} {up : List String} {name : String} {dir : Way}
  {bytes : List UInt8}

/-! ### A writing that succeeds -/

theorem fill_of_sound (h : t.Sound) (w : Way) (bytes : List UInt8) :
    ∃ t', t.fill w bytes = (.ok (), t') := by
  unfold fill
  rw [h.head]
  exact ⟨_, rfl⟩

theorem write_of_locate (hs : t.Sound) (hl : t.locate p = .ok (.named dir name false))
    (hd : t.lookup (dir ++ [name]) ≠ some .directory) (bytes : List UInt8) :
    ∃ t', t.write p bytes = (.ok (), t') ∧ t'.faults = t.faults.tail ∧ t.KeepsDirectories t' ∧
      ∀ v, t'.lookup v = if v = dir ++ [name] then some (.file bytes) else t.lookup v := by
  obtain ⟨t', hfill⟩ :=
    fill_of_sound (t := t.put (dir ++ [name]) (.file [])) hs (dir ++ [name]) bytes
  have hwrite : t.write p bytes = (.ok (), t') := by
    rw [← hfill]
    unfold write create
    simp only [hl, Bool.false_or, hd, decide_false, Bool.false_eq_true, if_false]
  rcases write_cases hwrite with ⟨⟨_, ⟨⟩⟩, -⟩ | ⟨d, n, hl', hkept, hfaults, hentry⟩
  obtain ⟨rfl, rfl, -⟩ := Place.named.inj (Except.ok.inj (hl.symm.trans hl'))
  rw [hs.takes bytes] at hentry
  exact ⟨t', hwrite, hfaults, hkept, hentry⟩

theorem ne_temporary (dir : Way) (name : String) : dir ++ [name] ≠ dir ++ [name ++ ".tmp"] := by
  intro h
  have hname : name = name ++ ".tmp" := by simpa using h
  have hlength := congrArg String.length hname
  rw [String.length_append] at hlength
  exact absurd hlength (Nat.ne_of_lt (Nat.lt_add_of_pos_right (by decide)))

theorem replace_of_locate (hs : t.Sound) (hp : t.locate p = .ok (.named dir name false))
    (htmp : t.locate p.temporary = .ok (.named dir (name ++ ".tmp") false))
    (hd : t.lookup (dir ++ [name]) ≠ some .directory)
    (hd' : t.lookup (dir ++ [name ++ ".tmp"]) ≠ some .directory) (bytes : List UInt8) :
    ∃ t', t.replace p bytes = (.ok (), t') ∧ t.KeepsDirectories t' ∧ t'.Sound ∧
      ∀ v, t'.lookup v = if v = dir ++ [name] then some (.file bytes)
        else if v = dir ++ [name ++ ".tmp"] then none else t.lookup v := by
  have hw := way_ne_nil dir name
  have hw' := way_ne_nil dir (name ++ ".tmp")
  have hne := ne_temporary dir name
  obtain ⟨t₁, hwrite, hfaults, hkept, hlookup⟩ := write_of_locate hs htmp hd' bytes
  have htarget : t₁.lookup (dir ++ [name]) ≠ some .directory := by
    rwa [hlookup, if_neg hne]
  have hrename : t₁.rename p.temporary p =
      .ok ((t₁.erase (dir ++ [name ++ ".tmp"])).put (dir ++ [name]) (.file bytes)) := by
    unfold rename
    simp only [hkept.locate hp, hkept.locate htmp, hlookup (dir ++ [name ++ ".tmp"]), if_true,
      Bool.false_eq_true, if_false, htarget]
  have hreplace : t.replace p bytes =
      (.ok (), (t₁.erase (dir ++ [name ++ ".tmp"])).put (dir ++ [name]) (.file bytes)) := by
    unfold replace
    simp only [hwrite, hrename]
  refine ⟨_, hreplace, (read_replace hreplace).1, ?_, fun v => ?_⟩
  · exact hs.of_tail hfaults
  · rw [lookup_put hw, lookup_erase hw', hlookup]
    by_cases hv : v = dir ++ [name ++ ".tmp"]
    · simp [hv]
    · simp [hv]

/-- **What a writing does** where the way to the file can be made. -/
theorem writeAtomically_of_walk {t₁ : FileTree} (h : p.Ends up name) (hp : p.Fits)
    (htmp : p.temporary.Fits) (hs : t.Sound) (hm : t.makeParent p = (.ok (), t₁))
    (hw : t₁.walk (t₁.start p) up = .ok dir) (hd : t₁.lookup (dir ++ [name]) ≠ some .directory)
    (hd' : t₁.lookup (dir ++ [name ++ ".tmp"]) ≠ some .directory) (bytes : List UInt8) :
    ∃ t', t.writeAtomically p bytes = (.ok (), t') ∧ t₁.KeepsDirectories t' ∧ t'.Sound ∧
      ∀ v, t'.lookup v = if v = dir ++ [name] then some (.file bytes)
        else if v = dir ++ [name ++ ".tmp"] then none else t₁.lookup v := by
  have hs₁ : t₁.Sound := hs.of_faults (faults_makeFirst ((makeParent_ok_iff h).mp hm))
  obtain ⟨t', hreplace, hkept, hs', hlookup⟩ := replace_of_locate hs₁ (locate_of_walk h hp hw)
    (locate_temporary h htmp hw) hd hd' bytes
  refine ⟨t', ?_, hkept, hs', hlookup⟩
  unfold writeAtomically
  rw [hm]
  exact hreplace

/-- **A name that leaves no room for the ending** cannot be written, though it could be read. -/
theorem writeAtomically_of_isTooLong (h : p.Ends up name)
    (hnul : p.temporary.text.toList.any (· = '\x00') = false)
    (hlong : isTooLong (name ++ ".tmp") = true) (hm : t.makeParent p = (.ok (), t'))
    (bytes : List UInt8) : t.writeAtomically p bytes =
      (.error (writeError WriteStep.create.failure p.temporary .nameTooLong), t') := by
  obtain ⟨dir, hw⟩ := walk_of_makeParent h hm
  obtain ⟨up', hends, hw'⟩ := walk_temporary h hw
  unfold writeAtomically
  simp only [hm, replace, write, create, locate_of_isTooLong hends hnul hlong hw']

/-! ### Usable paths -/

/-- **A path at which a file can be written.**  Its directory is there or can be made, and then
neither the path nor its temporary path leads to a directory. -/
structure Usable (t : FileTree) (p : Path) : Prop where
  ends : ∃ up name, p.Ends up name
  fits : p.Fits
  temporary_fits : p.temporary.Fits
  sound : t.Sound
  free : ∃ t', t.makeParent p = (.ok (), t') ∧ t'.isDirectory p = false ∧
    t'.isDirectory p.temporary = false

theorem lookup_ne_of_isDirectory (h : t.locate p = .ok (.named dir name false))
    (hd : t.isDirectory p = false) : t.lookup (dir ++ [name]) ≠ some .directory := by
  unfold isDirectory at hd
  rw [h] at hd
  exact of_decide_eq_false hd

/-- **A path stays usable** as long as there are the same directories. -/
theorem Usable.of_directories (h : t.Usable p) (hparent : t.makeParent p = (.ok (), t))
    (hkept : t.KeepsDirectories t') (hsound : t'.Sound)
    (hno : ∀ v, t'.lookup v = some .directory → t.lookup v = some .directory) : t'.Usable p := by
  obtain ⟨up, name, hends⟩ := h.ends
  obtain ⟨t₁, hm, hd, hd'⟩ := h.free
  obtain rfl : t = t₁ := (Prod.mk.inj (hparent.symm.trans hm)).2
  obtain ⟨dir, hw⟩ := walk_of_makeParent hends hparent
  have hp := locate_of_walk hends h.fits hw
  have htmp := locate_temporary hends h.temporary_fits hw
  refine ⟨h.ends, h.fits, h.temporary_fits, hsound, t', makeParent_again hparent hkept, ?_, ?_⟩ <;>
    unfold isDirectory
  · rw [hkept.locate hp]
    exact decide_eq_false fun h => lookup_ne_of_isDirectory hp hd (hno _ h)
  · rw [hkept.locate htmp]
    exact decide_eq_false fun h => lookup_ne_of_isDirectory htmp hd' (hno _ h)

theorem Usable.writeAtomically (h : t.Usable p) (bytes : List UInt8) :
    ∃ t₁ t', t.makeParent p = (.ok (), t₁) ∧ t.writeAtomically p bytes = (.ok (), t') ∧
      t₁.KeepsDirectories t' ∧ t'.Sound ∧
      ∀ v, t'.lookup v = some .directory → t₁.lookup v = some .directory := by
  obtain ⟨up, name, hends⟩ := h.ends
  obtain ⟨t₁, hm, hd, hd'⟩ := h.free
  obtain ⟨dir, hw⟩ := walk_of_makeParent hends hm
  have hp := locate_of_walk hends h.fits hw
  have htmp := locate_temporary hends h.temporary_fits hw
  obtain ⟨t', hwrite, hkept, hs, hlookup⟩ := writeAtomically_of_walk hends h.fits h.temporary_fits
    h.sound hm hw (lookup_ne_of_isDirectory hp hd) (lookup_ne_of_isDirectory htmp hd') bytes
  refine ⟨t₁, t', hm, hwrite, hkept, hs, fun v hv => ?_⟩
  rw [hlookup] at hv
  split at hv
  · cases hv
  split at hv
  · cases hv
  · exact hv

/-- It can be written again afterwards. -/
theorem Usable.again (h : t.Usable p) (bytes : List UInt8) :
    ∃ t', t.writeAtomically p bytes = (.ok (), t') ∧ t'.Usable p := by
  obtain ⟨t₁, t', hm, hwrite, hkept, hsound, hno⟩ := h.writeAtomically bytes
  obtain ⟨t₂, hm', hd, hd'⟩ := h.free
  obtain rfl : t₁ = t₂ := (Prod.mk.inj (hm.symm.trans hm')).2
  have hparent := makeParent_again hm (.refl t₁)
  have husable : t₁.Usable p := by
    refine ⟨h.ends, h.fits, h.temporary_fits, ?_, t₁, hparent, hd, hd'⟩
    obtain ⟨up, name, hends⟩ := h.ends
    exact h.sound.of_faults (faults_makeFirst ((makeParent_ok_iff hends).mp hm))
  exact ⟨t', hwrite, husable.of_directories hparent hkept hsound hno⟩

end VersionedStore.FileTree
