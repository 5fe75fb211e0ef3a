import VersionedStore.Proofs.Files.Atomic

/-!
# What a writing leaves of other files

Whether or not a writing succeeds, it changes a tree at two places only: that of the file and that
of its temporary file.  The path of another file may lead to one of them.

* `Replaces`, `replaces_replace`: the ways of a replacement, with the entries that are left;
* `Overwrites`: the writing of a path goes over the file of another path;
* `read_writeAtomically_of_not_overwrites`: if it does not, the other file is read as before;
* `read_writeAtomically_of_overwrites`: if it does, the other file is gone or holds what was written
  of the first one.
-/

namespace VersionedStore.FileTree

variable {t t' : FileTree} {p q : Path} {bytes old : List UInt8} {dir : Way} {name : String}

/-! ### The ways of a replacement -/

/-- **The ways of a replacement.**  The temporary file may not be opened; it may be left behind,
with what the device took; or it takes the place of the file. -/
inductive Replaces (t : FileTree) (p : Path) (bytes : List UInt8) :
    Except StoreError Unit → FileTree → Prop
  | refused {e} (closed : ∀ dir name, t.locate p.temporary = .ok (.named dir name false) →
      t.lookup (dir ++ [name]) = some .directory) : Replaces t p bytes (.error e) t
  | left {e t' dir name} (place : t.locate p.temporary = .ok (.named dir name false))
      (kept : t.KeepsDirectories t') (faults : t'.faults = t.faults.tail)
      (entry : ∀ v, t'.lookup v =
        if v = dir ++ [name] then some (.file (t.taken bytes)) else t.lookup v) :
      Replaces t p bytes (.error e) t'
  | moved {t' dir name dir' name'} (place : t.locate p.temporary = .ok (.named dir name false))
      (target : t.locate p = .ok (.named dir' name' false)) (kept : t.KeepsDirectories t')
      (faults : t'.faults = t.faults.tail)
      (entry : ∀ v, t'.lookup v =
        if v = dir' ++ [name'] then some (.file (t.taken bytes))
        else if v = dir ++ [name] then none else t.lookup v) :
      Replaces t p bytes (.ok ()) t'

theorem replaces_replace {r : Except StoreError Unit} (h : t.replace p bytes = (r, t')) :
    t.Replaces p bytes r t' := by
  unfold replace at h
  rcases hw : t.write p.temporary bytes with ⟨r₁, t₁⟩
  rcases write_cases hw with
    ⟨⟨⟨step, e⟩, rfl⟩, rfl, hclosed⟩ | ⟨dir, name, hplace, hkept, hfaults, hentry⟩
  · simp only [hw] at h
    obtain ⟨rfl, rfl⟩ := Prod.mk.inj h
    exact .refused hclosed
  rcases r₁ with ⟨step, e⟩ | _ <;> simp only [hw] at h
  · obtain ⟨rfl, rfl⟩ := Prod.mk.inj h
    exact .left hplace hkept hfaults hentry
  rcases hr : t₁.rename p.temporary p with e | t₂ <;> simp only [hr] at h <;>
    obtain ⟨rfl, rfl⟩ := Prod.mk.inj h
  · exact .left hplace hkept hfaults hentry
  obtain ⟨d, n, slash, dir', name', e, hs, ht, he, hd, rfl⟩ := rename_ok hr
  obtain ⟨rfl, rfl, -⟩ := Place.named.inj (Except.ok.inj ((hkept.locate hplace).symm.trans hs))
  have hwritten : t₁.lookup (dir ++ [name]) = some (.file (t.taken bytes)) := by
    rw [hentry, if_pos rfl]
  obtain rfl := Option.some.inj (hwritten.symm.trans he)
  -- the file that was written is no directory, so the path leads where it led
  have hback : t₁.KeepsDirectories t := by
    refine ⟨hkept.here.symm, fun v hv => ?_⟩
    rw [hentry] at hv
    split at hv
    · cases hv
    · exact hv
  have hkept' := hkept.trans (read_rename hr (hkept.locate hplace) hwritten).1
  refine .moved hplace (hback.locate ht) hkept' hfaults fun v => ?_
  rw [lookup_put (way_ne_nil dir' name'), lookup_erase (way_ne_nil dir name), hentry]
  by_cases hv : v = dir ++ [name]
  · simp only [hv, if_true]
  · simp only [hv, if_false]

/-! ### Another file -/

/-- **A writing goes over the file of another path:** once its directory was made, the temporary
path leads to that file, or the path itself does and the writing succeeds. -/
def Overwrites (t : FileTree) (p : Path) (bytes : List UInt8) (q : Path) : Prop :=
  ∃ t₁, t.makeParent p = (.ok (), t₁) ∧
    (t₁.locate p.temporary = t₁.locate q ∨
      t₁.locate p = t₁.locate q ∧ (t.writeAtomically p bytes).1 = .ok ())

theorem read_of_lookup_none (hl : t.locate q = .ok (.named dir name false))
    (h : t.lookup (dir ++ [name]) = none) : t.read q = .error .notFound := by
  unfold read
  simp only [hl, h]

theorem Replaces.read {r : Except StoreError Unit} (h : t.Replaces p bytes r t')
    (hq : t.read q = .ok old) :
    (¬ (t.locate p.temporary = t.locate q ∨ t.locate p = t.locate q ∧ r = .ok ()) →
        t'.read q = .ok old) ∧
      (t.locate p.temporary = t.locate q ∨ t.locate p = t.locate q ∧ r = .ok () →
        t'.read q = .error .notFound ∨ t'.read q = .ok (t.taken bytes)) := by
  obtain ⟨d, n, hl, hf⟩ := read_eq_ok_iff.mp hq
  have hsame {dir : Way} {name : String} {p : Path}
      (hp : t.locate p = .ok (.named dir name false)) :
      t.locate p = t.locate q ↔ d ++ [n] = dir ++ [name] := by
    rw [hp, hl]
    simp [eq_comm]
  cases h with
  | refused closed =>
    have hnot : t.locate p.temporary ≠ t.locate q := by
      intro heq
      cases hf.symm.trans (closed d n (heq.trans hl))
    exact ⟨fun _ => hq, fun hcover => absurd hcover (by simp [hnot])⟩
  | left place kept _ entry =>
    have hd := kept.locate hl
    rw [hsame place]
    refine ⟨fun hclear => read_eq_ok_iff.mpr ⟨d, n, hd, ?_⟩, fun hcover => .inr ?_⟩
    · rw [entry, if_neg fun heq => hclear (.inl heq)]
      exact hf
    · refine read_eq_ok_iff.mpr ⟨d, n, hd, ?_⟩
      rw [entry, if_pos (hcover.resolve_right (by simp))]
  | @moved _ _ _ dir' name' place target kept _ entry =>
    have hd := kept.locate hl
    rw [hsame place, hsame target]
    refine ⟨fun hclear => read_eq_ok_iff.mpr ⟨d, n, hd, ?_⟩, fun hcover => ?_⟩
    · rw [entry, if_neg fun heq => hclear (.inr ⟨heq, rfl⟩), if_neg fun heq => hclear (.inl heq)]
      exact hf
    by_cases htarget : d ++ [n] = dir' ++ [name']
    · refine .inr (read_eq_ok_iff.mpr ⟨d, n, hd, ?_⟩)
      rw [entry, if_pos htarget]
    · refine .inl (read_of_lookup_none hd ?_)
      rw [entry, if_neg htarget, if_pos (hcover.resolve_right fun h => htarget h.1)]

theorem writeAtomically_cases (t : FileTree) (p : Path) (bytes : List UInt8) :
    (∃ e t₁, t.makeParent p = (.error e, t₁) ∧ t.writeAtomically p bytes = (.error e, t₁)) ∨
      ∃ t₁, t.makeParent p = (.ok (), t₁) ∧ t.writeAtomically p bytes = t₁.replace p bytes := by
  unfold writeAtomically
  rcases t.makeParent p with ⟨e | _, t₁⟩
  · exact .inl ⟨e, t₁, rfl, rfl⟩
  · exact .inr ⟨t₁, rfl, rfl⟩

/-- **A writing that does not go over another file** leaves it as it is, however the writing
ends. -/
theorem read_writeAtomically_of_not_overwrites (hq : t.read q = .ok old)
    (h : ¬ t.Overwrites p bytes q) : (t.writeAtomically p bytes).2.read q = .ok old := by
  rcases t.writeAtomically_cases p bytes with ⟨e, t₁, hm, hwrite⟩ | ⟨t₁, hm, hwrite⟩
  · rw [hwrite]
    exact (extends_makeParent hm).read hq
  · rw [hwrite]
    refine ((replaces_replace rfl).read ((extends_makeParent hm).read hq)).1 fun hcover =>
      h ⟨t₁, hm, ?_⟩
    rwa [hwrite]

/-- **A writing that goes over another file** leaves nothing of it: it is gone, or holds what was
written. -/
theorem read_writeAtomically_of_overwrites (hq : t.read q = .ok old) (h : t.Overwrites p bytes q) :
    (t.writeAtomically p bytes).2.read q = .error .notFound ∨
      (t.writeAtomically p bytes).2.read q = .ok (t.taken bytes) := by
  obtain ⟨t₁, hm, hcover⟩ := h
  have hwrite : t.writeAtomically p bytes = t₁.replace p bytes := by
    unfold writeAtomically
    rw [hm]
  have hfaults := faults_makeParent t p
  rw [hm] at hfaults
  rw [hwrite] at hcover
  rw [hwrite, ← taken_of_faults hfaults bytes]
  exact ((replaces_replace rfl).read ((extends_makeParent hm).read hq)).2 hcover

theorem Sound.writeAtomically (h : t.Sound) (p : Path) (bytes : List UInt8) :
    (t.writeAtomically p bytes).2.Sound := by
  have hmade (t₁ : FileTree) (hm : (t.makeParent p).2 = t₁) : t₁.Sound :=
    hm ▸ h.of_faults (faults_makeParent t p)
  rcases t.writeAtomically_cases p bytes with ⟨e, t₁, hm, hwrite⟩ | ⟨t₁, hm, hwrite⟩
  · rw [hwrite]
    exact hmade t₁ (congrArg Prod.snd hm)
  have hs := hmade t₁ (congrArg Prod.snd hm)
  rw [hwrite]
  rcases hr : t₁.replace p bytes with ⟨r, t'⟩
  cases replaces_replace hr with
  | refused => exact hs
  | left _ _ faults | moved _ _ _ faults => exact hs.of_tail faults

end VersionedStore.FileTree
