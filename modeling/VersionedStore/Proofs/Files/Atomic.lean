import VersionedStore.Files.Atomic
import VersionedStore.Proofs.Files.Directories

/-!
# A file that was written

What is left of a tree after a file was written by way of its temporary file, and what can still be
done with it.

* `Takes`, `Sound`: the device takes the bytes that are written next, or all of them;
* `lookup_fill`: a file that was filled holds what the device took;
* `write_ok`, `rename_ok`: what the two halves of a writing do where they succeed;
* `read_writeAtomically`: the file is read back, as the device took it;
* `makeParent_writeAtomically`: its directory need not be made again;
* `extends_makeParent`: making the directory leaves every file as it is.
-/

namespace VersionedStore.FileTree

variable {t t' : FileTree} {p source target : Path} {bytes : List UInt8}

/-! ### What the device takes -/

/-- The device takes these bytes, if they are written next. -/
def Takes (t : FileTree) (bytes : List UInt8) : Prop := t.taken bytes = bytes

/-- The device will take all bytes. -/
def Sound (t : FileTree) : Prop := ∀ fault ∈ t.faults, fault = none

theorem Sound.head (h : t.Sound) : t.faults.head?.join = none := by
  rcases hf : t.faults with _ | ⟨fault, faults⟩
  · rfl
  · exact h fault (hf ▸ List.mem_cons_self ..)

theorem Sound.takes (h : t.Sound) (bytes : List UInt8) : t.Takes bytes := by
  unfold Takes taken
  rw [h.head]

theorem Sound.of_faults (h : t.Sound) (hf : t'.faults = t.faults) : t'.Sound := by
  unfold Sound
  rw [hf]
  exact h

theorem Sound.of_tail (h : t.Sound) (hf : t'.faults = t.faults.tail) : t'.Sound :=
  fun fault hfault => h fault (List.mem_of_mem_tail (hf ▸ hfault))

theorem taken_of_faults (h : t'.faults = t.faults) (bytes : List UInt8) :
    t'.taken bytes = t.taken bytes := by
  unfold taken
  rw [h]

theorem exists_taken (t : FileTree) (bytes : List UInt8) : ∃ k, t.taken bytes = bytes.take k := by
  unfold taken
  split
  · exact ⟨_, rfl⟩
  · exact ⟨_, (List.take_length).symm⟩

/-! ### The two halves -/

/-- **A file that was filled** holds what the device took, whatever the writer heard of it. -/
theorem lookup_fill {w : Way} (hw : w ≠ []) {r} (h : t.fill w bytes = (r, t')) :
    t'.here = t.here ∧ t'.faults = t.faults.tail ∧
      ∀ v, t'.lookup v = if v = w then some (.file (t.taken bytes)) else t.lookup v := by
  unfold fill at h
  rcases hf : t.faults.head?.join with _ | ⟨k, e⟩ | e <;> simp only [hf] at h <;>
    obtain ⟨-, rfl⟩ := Prod.mk.inj h <;> exact ⟨rfl, rfl, lookup_put hw _ _⟩

theorem write_cases {r} (h : t.write p bytes = (r, t')) :
    ((∃ e, r = .error e) ∧ t' = t ∧ ∀ dir name, t.locate p = .ok (.named dir name false) →
        t.lookup (dir ++ [name]) = some .directory) ∨
      ∃ dir name, t.locate p = .ok (.named dir name false) ∧ t.KeepsDirectories t' ∧
        t'.faults = t.faults.tail ∧ ∀ v, t'.lookup v =
          if v = dir ++ [name] then some (.file (t.taken bytes)) else t.lookup v := by
  unfold write create at h
  rcases hl : t.locate p with e | ⟨dir, name, slash⟩ | dir <;> simp only [hl] at h
  · obtain ⟨rfl, rfl⟩ := Prod.mk.inj h
    exact .inl ⟨⟨_, rfl⟩, rfl, by rintro _ _ ⟨⟩⟩
  swap
  · obtain ⟨rfl, rfl⟩ := Prod.mk.inj h
    exact .inl ⟨⟨_, rfl⟩, rfl, by rintro _ _ ⟨⟩⟩
  by_cases hclosed : (slash || t.lookup (dir ++ [name]) = some .directory) = true
  · simp only [hclosed, if_true] at h
    obtain ⟨rfl, rfl⟩ := Prod.mk.inj h
    refine .inl ⟨⟨_, rfl⟩, rfl, fun d n heq => ?_⟩
    obtain ⟨rfl, rfl, rfl⟩ := Place.named.inj (Except.ok.inj heq)
    exact of_decide_eq_true hclosed
  simp only [hclosed, Bool.false_eq_true, if_false] at h
  obtain ⟨hslash, hd⟩ := Bool.or_eq_false_iff.mp (eq_false_of_ne_true hclosed)
  subst hslash
  have hw := way_ne_nil dir name
  obtain ⟨hhere, hfaults, hentry⟩ := lookup_fill hw h
  have hlookup (v : Way) : t'.lookup v =
      if v = dir ++ [name] then some (.file (t.taken bytes)) else t.lookup v := by
    rw [hentry, lookup_put hw]
    split <;> rfl
  refine .inr ⟨dir, name, rfl, ⟨hhere, fun v hv => ?_⟩, hfaults, hlookup⟩
  have hne : v ≠ dir ++ [name] := fun heq => of_decide_eq_false hd (heq ▸ hv)
  rw [hlookup, if_neg hne]
  exact hv

/-- **A file that was written is there.** -/
theorem write_ok (h : t.write p bytes = (.ok (), t')) :
    ∃ dir name, t.locate p = .ok (.named dir name false) ∧ t.KeepsDirectories t' ∧
      t'.lookup (dir ++ [name]) = some (.file (t.taken bytes)) := by
  rcases write_cases h with ⟨⟨_, ⟨⟩⟩, -⟩ | ⟨dir, name, hl, hkept, -, hentry⟩
  exact ⟨dir, name, hl, hkept, (hentry _).trans (if_pos rfl)⟩

/-- **A file that was renamed** is gone from where it was and stands where it was to go. -/
theorem rename_ok (h : t.rename source target = .ok t') :
    ∃ dir name slash dir' name' e, t.locate source = .ok (.named dir name slash) ∧
      t.locate target = .ok (.named dir' name' false) ∧ t.lookup (dir ++ [name]) = some e ∧
      t.lookup (dir' ++ [name']) ≠ some .directory ∧
      t' = (t.erase (dir ++ [name])).put (dir' ++ [name']) e := by
  unfold rename at h
  rcases hs : t.locate source with e | ⟨dir, name, slash⟩ | dir <;>
    rcases ht : t.locate target with e' | ⟨dir', name', slash'⟩ | dir' <;>
    simp only [hs, ht] at h <;> try cases h
  rcases hl : t.lookup (dir ++ [name]) with _ | e <;> simp only [hl] at h
  · cases h
  cases slash'
  swap
  · cases h
  by_cases hd : t.lookup (dir' ++ [name']) = some .directory
  · simp [hd] at h
  simp only [hd, Bool.false_eq_true, if_false] at h
  exact ⟨dir, name, slash, dir', name', e, rfl, rfl, hl, hd, (Except.ok.inj h).symm⟩

theorem read_rename (h : t.rename source target = .ok t') {dir : Way} {name : String}
    (hs : t.locate source = .ok (.named dir name false))
    (hf : t.lookup (dir ++ [name]) = some (.file bytes)) :
    t.KeepsDirectories t' ∧ t'.read target = .ok bytes := by
  obtain ⟨d, n, slash, dir', name', e, hs', ht, he, hd, rfl⟩ := rename_ok h
  obtain ⟨rfl, rfl, -⟩ := Place.named.inj (Except.ok.inj (hs.symm.trans hs'))
  obtain rfl := Option.some.inj (hf.symm.trans he)
  have hsource := way_ne_nil dir name
  have htarget := way_ne_nil dir' name'
  have herase : t.KeepsDirectories (t.erase (dir ++ [name])) :=
    .erase hsource (by rw [hf]; rintro ⟨⟩)
  have hfree : (t.erase (dir ++ [name])).lookup (dir' ++ [name']) ≠ some .directory := by
    rw [lookup_erase hsource]
    split
    · rintro ⟨⟩
    · exact hd
  have hkept := herase.trans (.put htarget hfree (.file bytes))
  refine ⟨hkept, read_eq_ok_iff.mpr ⟨dir', name', hkept.locate ht, ?_⟩⟩
  rw [lookup_put htarget, if_pos rfl]

/-! ### A whole writing -/

theorem read_replace (h : t.replace p bytes = (.ok (), t')) :
    t.KeepsDirectories t' ∧ t'.read p = .ok (t.taken bytes) := by
  unfold replace at h
  rcases hw : t.write p.temporary bytes with ⟨⟨step, e⟩ | _, t₁⟩ <;> simp only [hw] at h
  · cases h
  obtain ⟨dir, name, hl, hkept, hf⟩ := write_ok hw
  rcases hr : t₁.rename p.temporary p with e | t₂ <;> simp only [hr] at h
  · cases h
  obtain rfl : t₂ = t' := (Prod.mk.inj h).2
  obtain ⟨hkept', hread⟩ := read_rename hr (hkept.locate hl) hf
  exact ⟨hkept.trans hkept', hread⟩

/-- **Making the directory of a file leaves every file as it is**, whether or not it succeeds. -/
theorem extends_makeParent {r : Except StoreError Unit} (h : t.makeParent p = (r, t')) :
    t.Extends t' := by
  unfold makeParent at h
  rcases hp : p.parent? with _ | dir <;> simp only [hp] at h
  · obtain ⟨-, rfl⟩ := Prod.mk.inj h
    exact .refl _
  by_cases hempty : dir.isEmpty = true
  · rw [if_pos hempty] at h
    obtain ⟨-, rfl⟩ := Prod.mk.inj h
    exact .refl _
  rw [if_neg hempty] at h
  rcases hm : t.makeDirectories dir with ⟨_ | _, t₁⟩ <;> simp only [hm] at h <;>
    obtain ⟨-, rfl⟩ := Prod.mk.inj h <;> exact (extends_makeFirst hm).1

theorem faults_makeDirectory (h : t.makeDirectory p = .ok t') : t'.faults = t.faults := by
  unfold makeDirectory at h
  rcases hl : t.locate p with e | ⟨d, n, slash⟩ | d <;> simp only [hl] at h
  · cases h
  · split at h <;> cases h
    rfl
  · cases h

theorem faults_makeFirst {ps : List Path} {r : Except FileError Unit}
    (h : t.makeFirst ps = (r, t')) : t'.faults = t.faults := by
  induction ps generalizing t t' r with
  | nil =>
    cases h
    rfl
  | cons q ps ih =>
    unfold makeFirst at h
    rcases hq : t.makeDirectory q with e | t₁ <;> simp only [hq] at h
    swap
    · obtain ⟨-, rfl⟩ := Prod.mk.inj h
      exact faults_makeDirectory hq
    cases e with
    | notFound =>
      rcases hps : t.makeFirst ps with ⟨_ | _, t₁⟩ <;> simp only [hps] at h
      · obtain ⟨-, rfl⟩ := Prod.mk.inj h
        exact ih hps
      rcases hq' : t₁.makeDirectory q with e' | t₂ <;> simp only [hq'] at h <;>
        obtain ⟨-, rfl⟩ := Prod.mk.inj h
      · exact ih hps
      · exact (faults_makeDirectory hq').trans (ih hps)
    | _ =>
      obtain ⟨-, rfl⟩ := Prod.mk.inj h
      rfl

theorem faults_makeParent (t : FileTree) (p : Path) : (t.makeParent p).2.faults = t.faults := by
  unfold makeParent
  rcases p.parent? with _ | dir
  · rfl
  dsimp only
  split
  · rfl
  rcases hm : t.makeDirectories dir with ⟨_ | _, t'⟩ <;> exact faults_makeFirst hm

theorem makeParent_again (h : t.makeParent p = (.ok (), t')) {t'' : FileTree}
    (hkept : t'.KeepsDirectories t'') : t''.makeParent p = (.ok (), t'') := by
  unfold makeParent at h ⊢
  rcases hp : p.parent? with _ | dir <;> simp only [hp] at h ⊢
  by_cases hempty : dir.isEmpty = true
  · rw [if_pos hempty]
  rw [if_neg hempty] at h ⊢
  rcases hm : t.makeDirectories dir with ⟨_ | _, t₁⟩ <;> simp only [hm] at h
  · cases h
  obtain rfl : t₁ = t' := (Prod.mk.inj h).2
  have hagain : t''.makeDirectories dir = (.ok (), t'') := makeFirst_again hm hkept
  rw [hagain]

theorem writeAtomically_ok (h : t.writeAtomically p bytes = (.ok (), t')) :
    ∃ t₁, t.makeParent p = (.ok (), t₁) ∧ t₁.replace p bytes = (.ok (), t') := by
  unfold writeAtomically at h
  rcases hm : t.makeParent p with ⟨_ | _, t₁⟩ <;> simp only [hm] at h
  · cases h
  · exact ⟨t₁, rfl, h⟩

/-- **A file that was written is read back,** as the device took it. -/
theorem read_writeAtomically (h : t.writeAtomically p bytes = (.ok (), t')) :
    t'.read p = .ok (t.taken bytes) := by
  obtain ⟨t₁, hparent, hreplace⟩ := writeAtomically_ok h
  have hfaults := faults_makeParent t p
  rw [hparent] at hfaults
  rw [(read_replace hreplace).2, taken_of_faults hfaults]

/-- **Its directory is there.** -/
theorem makeParent_writeAtomically (h : t.writeAtomically p bytes = (.ok (), t')) :
    t'.makeParent p = (.ok (), t') := by
  obtain ⟨t₁, hparent, hreplace⟩ := writeAtomically_ok h
  exact makeParent_again hparent (read_replace hreplace).1

end VersionedStore.FileTree
