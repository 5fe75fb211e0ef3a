import Mathlib.Tactic.Common
import VersionedStore.Files.Tree

/-!
# Trees that keep their directories

A path leads through directories only, so it leads to the same place in every later tree that still
has them.  What operations on files leave of a tree is said by two relations.

* `KeepsDirectories`: all directories are still there; `KeepsDirectories.locate`: paths lead where
  they led;
* `Extends`: all entries are still there; `Extends.read`: files are read as before;
* `extends_makeFirst`, `makeFirst_again`: making directories only adds to a tree, and is done once.
-/

namespace VersionedStore.FileTree

/-- All directories of a tree are directories of a later one. -/
structure KeepsDirectories (t t' : FileTree) : Prop where
  here : t'.here = t.here
  directory : ∀ w, t.lookup w = some .directory → t'.lookup w = some .directory

/-- All entries of a tree are entries of a later one. -/
structure Extends (t t' : FileTree) : Prop where
  here : t'.here = t.here
  entry : ∀ w e, t.lookup w = some e → t'.lookup w = some e

variable {t t' t'' : FileTree} {p : Path} {w : Way}

theorem way_ne_nil (dir : Way) (name : String) : dir ++ [name] ≠ [] := by simp

theorem start_eq_of_here (h : t'.here = t.here) (p : Path) : t'.start p = t.start p := by
  unfold start
  rw [h]

theorem start_of_root (h : t.here = []) (p : Path) : t.start p = [] := by
  unfold start
  rw [h]
  exact ite_self _

theorem Extends.refl (t : FileTree) : t.Extends t := ⟨rfl, fun _ _ h => h⟩

theorem Extends.trans (h : t.Extends t') (h' : t'.Extends t'') : t.Extends t'' :=
  ⟨h'.here.trans h.here, fun w e he => h'.entry w e (h.entry w e he)⟩

theorem Extends.keepsDirectories (h : t.Extends t') : t.KeepsDirectories t' :=
  ⟨h.here, fun w => h.entry w .directory⟩

namespace KeepsDirectories

theorem refl (t : FileTree) : t.KeepsDirectories t := ⟨rfl, fun _ h => h⟩

theorem trans (h : t.KeepsDirectories t') (h' : t'.KeepsDirectories t'') : t.KeepsDirectories t'' :=
  ⟨h'.here.trans h.here, fun w hw => h'.directory w (h.directory w hw)⟩

theorem put (hw : w ≠ []) (h : t.lookup w ≠ some .directory) (e : Entry) :
    t.KeepsDirectories (t.put w e) := by
  refine ⟨rfl, fun v hv => ?_⟩
  have hne : v ≠ w := fun hvw => h (hvw ▸ hv)
  rw [lookup_put hw, if_neg hne]
  exact hv

theorem erase (hw : w ≠ []) (h : t.lookup w ≠ some .directory) :
    t.KeepsDirectories (t.erase w) := by
  refine ⟨rfl, fun v hv => ?_⟩
  have hne : v ≠ w := fun hvw => h (hvw ▸ hv)
  rw [lookup_erase hw, if_neg hne]
  exact hv

theorem walk (h : t.KeepsDirectories t') {ps : List String} {dir dir' : Way}
    (hw : t.walk dir ps = .ok dir') : t'.walk dir ps = .ok dir' := by
  induction ps generalizing dir with
  | nil => exact hw
  | cons p ps ih =>
    unfold FileTree.walk at hw ⊢
    by_cases hsilent : Path.isSilent p = true
    · rw [if_pos hsilent] at hw ⊢
      exact ih hw
    rw [if_neg hsilent] at hw ⊢
    by_cases hup : p = ".."
    · rw [if_pos hup] at hw ⊢
      exact ih hw
    rw [if_neg hup] at hw ⊢
    by_cases hlong : isTooLong p = true
    · rw [if_pos hlong] at hw
      cases hw
    rw [if_neg hlong] at hw ⊢
    rcases hl : t.lookup (dir ++ [p]) with _ | _ | bytes <;> simp only [hl] at hw
    · cases hw
    · simp only [h.directory _ hl]
      exact ih hw
    · cases hw

/-- **Paths lead where they led.** -/
theorem locate (h : t.KeepsDirectories t') {place : Place} (hp : t.locate p = .ok place) :
    t'.locate p = .ok place := by
  have hstart := start_eq_of_here h.here p
  unfold FileTree.locate at hp ⊢
  by_cases hnul : p.text.toList.any (· = '\x00') = true
  · rw [if_pos hnul] at hp
    cases hp
  rw [if_neg hnul] at hp ⊢
  by_cases hempty : p.isEmpty = true
  · rw [if_pos hempty] at hp
    cases hp
  rw [if_neg hempty] at hp ⊢
  by_cases hlong : maxPath < p.text.utf8ByteSize
  · rw [if_pos hlong] at hp
    cases hp
  rw [if_neg hlong] at hp ⊢
  rcases hdrop : p.pieces.reverse.dropWhile (· = "") with _ | ⟨last, up⟩ <;>
    simp only [hdrop] at hp ⊢
  · exact hp
  rcases hwalk : t.walk (t.start p) up.reverse with e | dir <;> simp only [hwalk] at hp
  · cases hp
  · rw [hstart, h.walk hwalk]
    exact hp

end KeepsDirectories

/-! ### Reading -/

theorem isDirectory_of_keeps (h : t.KeepsDirectories t') (hp : t.isDirectory p = true) :
    t'.isDirectory p = true := by
  unfold isDirectory at hp ⊢
  rcases hl : t.locate p with e | place <;> simp only [hl] at hp
  · cases hp
  rw [h.locate hl]
  cases place with
  | reached => rfl
  | named dir name slash => exact decide_eq_true (h.directory _ (of_decide_eq_true hp))

theorem read_eq_ok_iff {bytes : List UInt8} : t.read p = .ok bytes ↔
    ∃ dir name, t.locate p = .ok (.named dir name false) ∧
      t.lookup (dir ++ [name]) = some (.file bytes) := by
  unfold read
  constructor
  · intro h
    rcases hl : t.locate p with e | ⟨dir, name, slash⟩ | dir <;> simp only [hl] at h
    · cases h
    · rcases hf : t.lookup (dir ++ [name]) with _ | _ | found <;> simp only [hf] at h
      · cases h
      · cases h
      cases slash
      · cases h
        exact ⟨dir, name, rfl, hf⟩
      · cases h
    · cases h
  · rintro ⟨dir, name, hl, hf⟩
    simp [hl, hf]

/-- **What is there is read as before.** -/
theorem Extends.read (h : t.Extends t') {bytes : List UInt8} (hr : t.read p = .ok bytes) :
    t'.read p = .ok bytes := by
  obtain ⟨dir, name, hl, hf⟩ := read_eq_ok_iff.mp hr
  exact read_eq_ok_iff.mpr ⟨dir, name, h.keepsDirectories.locate hl, h.entry _ _ hf⟩

/-! ### Making directories -/

theorem extends_makeDirectory (h : t.makeDirectory p = .ok t') :
    t.Extends t' ∧ t'.isDirectory p = true := by
  unfold makeDirectory at h
  rcases hl : t.locate p with e | ⟨dir, name, slash⟩ | dir <;> simp only [hl] at h
  · cases h
  · rcases hf : t.lookup (dir ++ [name]) with _ | e
    swap
    · simp [hf] at h
    simp only [hf, Option.isSome_none, Bool.false_eq_true, if_false] at h
    obtain rfl := Except.ok.inj h
    have hext : t.Extends (t.put (dir ++ [name]) .directory) := by
      refine ⟨rfl, fun v e hv => ?_⟩
      have hne : v ≠ dir ++ [name] := by
        rintro rfl
        cases hf.symm.trans hv
      rw [lookup_put (way_ne_nil dir name), if_neg hne]
      exact hv
    refine ⟨hext, ?_⟩
    unfold isDirectory
    rw [hext.keepsDirectories.locate hl]
    simp [lookup_put (way_ne_nil dir name)]
  · cases h

theorem makeDirectory_of_isDirectory (h : t.isDirectory p = true) :
    t.makeDirectory p = .error .occupied := by
  unfold isDirectory at h
  unfold makeDirectory
  rcases hl : t.locate p with e | ⟨dir, name, slash⟩ | dir <;> simp only [hl] at h
  · cases h
  · simp [of_decide_eq_true h]
  · rfl

theorem makeFirst_of_isDirectory (h : t.isDirectory p = true) (ps : List Path) :
    t.makeFirst (p :: ps) = (.ok (), t) := by
  unfold makeFirst
  simp only [makeDirectory_of_isDirectory h, h, if_true]

/-- **Making directories only adds to a tree**, and where it succeeds the first of them is there. -/
theorem extends_makeFirst {ps : List Path} {r : Except FileError Unit}
    (h : t.makeFirst ps = (r, t')) :
    t.Extends t' ∧ (r = .ok () → ∀ p ∈ ps.head?, t'.isDirectory p = true) := by
  have hthere {s : FileTree} {q : Path} {e : FileError}
      (hr : (if s.isDirectory q then Except.ok () else .error e) = .ok ()) :
      s.isDirectory q = true := by
    by_contra hd
    rw [if_neg hd] at hr
    cases hr
  induction ps generalizing t t' r with
  | nil =>
    cases h
    exact ⟨.refl _, by simp⟩
  | cons p ps ih =>
    simp only [List.head?_cons, Option.mem_def, Option.some.injEq, forall_eq']
    unfold makeFirst at h
    rcases hp : t.makeDirectory p with e | t₁ <;> simp only [hp] at h
    swap
    · obtain ⟨rfl, rfl⟩ := Prod.mk.inj h
      obtain ⟨hext, hdir⟩ := extends_makeDirectory hp
      exact ⟨hext, fun _ => hdir⟩
    cases e with
    | notFound =>
      rcases hps : t.makeFirst ps with ⟨_ | _, t₁⟩ <;> simp only [hps] at h
      · obtain ⟨rfl, rfl⟩ := Prod.mk.inj h
        exact ⟨(ih hps).1, by rintro ⟨⟩⟩
      rcases hp' : t₁.makeDirectory p with e' | t₂ <;> simp only [hp'] at h <;>
        obtain ⟨rfl, rfl⟩ := Prod.mk.inj h
      · exact ⟨(ih hps).1, hthere⟩
      · obtain ⟨hext, hdir⟩ := extends_makeDirectory hp'
        exact ⟨(ih hps).1.trans hext, fun _ => hdir⟩
    | _ =>
      obtain ⟨rfl, rfl⟩ := Prod.mk.inj h
      exact ⟨.refl _, hthere⟩

/-- **Directories that were made are not made again** as long as they are kept. -/
theorem makeFirst_again {ps : List Path} (h : t.makeFirst ps = (.ok (), t'))
    (hkept : t'.KeepsDirectories t'') : t''.makeFirst ps = (.ok (), t'') := by
  cases ps with
  | nil => rfl
  | cons p ps =>
    have hdir := (extends_makeFirst h).2 rfl p (by simp)
    exact makeFirst_of_isDirectory (isDirectory_of_keeps hkept hdir) ps

end VersionedStore.FileTree
