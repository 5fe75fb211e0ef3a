import VersionedStore.Proofs.Files.Frame
import VersionedStore.Proofs.Files.Names

/-!
# Writings that are all or nothing

A writing that fails leaves every file as it was, but for the temporary file, and one that succeeds
replaces one file.

* `makeParent_of_walk`: a directory that is there is not made again;
* `WritesAt`, `writesAt_of_writeAtomically`: the ways of a writing, from the tree with the directory
  of the file;
* `WritesAt.sameFile`, `WritesAt.file_kept`: what a writing leaves of all files;
* `WritesAt.written`: what one that succeeds puts in place.
-/

namespace VersionedStore.FileTree

variable {t t' : FileTree} {p q : Path} {up blanks : List String} {name : String} {dir w : Way}
  {bytes old : List UInt8}

/-! ### The directory of a file -/

theorem makeParent_of_locate_error (h : p.parent? = some q) {e : FileError}
    (hl : t.locate q = .error e) (he : e ≠ .notFound) : (t.makeParent p).2 = t := by
  have hmade : (t.makeDirectories q).2 = t := by
    unfold makeDirectories
    rcases Path.ancestors_parent h with hnone | hfirst
    · rw [hnone]
      rfl
    · obtain ⟨rest, hrest⟩ := List.head?_eq_some_iff.mp hfirst
      have hrefused : t.makeDirectory q = .error e := by
        unfold makeDirectory
        rw [hl]
      rw [hrest]
      unfold makeFirst
      cases e <;> first | exact absurd rfl he | simp only [hrefused]
  unfold makeParent
  simp only [h]
  split
  · rfl
  · rcases hm : t.makeDirectories q with ⟨_ | _, t₁⟩ <;> rw [hm] at hmade <;> exact hmade

/-- **A directory that is there is not made again**, and neither is any on its way. -/
theorem makeParent_of_walk (h : p.Ends up name) (hw : t.walk (t.start p) up = .ok dir) :
    (t.makeParent p).2 = t := by
  obtain ⟨q, hparent, hgoes⟩ := h.parent
  by_cases hempty : q.isEmpty = true
  · unfold makeParent
    simp only [hparent, hempty, if_true]
  by_cases hnul : q.text.toList.any (· = '\x00') = true
  · refine makeParent_of_locate_error hparent (e := .nulInName) ?_ nofun
    unfold locate
    rw [if_pos hnul]
  by_cases hlong : maxPath < q.text.utf8ByteSize
  · refine makeParent_of_locate_error hparent (e := .nameTooLong) ?_ nofun
    unfold locate
    rw [if_neg hnul, if_neg hempty, if_pos hlong]
  have hwalk : t.walk (t.start q) q.pieces = .ok dir := (walk_of_goes h hgoes t).trans hw
  have hthere := isDirectory_of_walk (eq_false_of_ne_true hnul) (Nat.le_of_not_lt hlong)
    (eq_false_of_ne_true hempty) hwalk
  rw [makeParent_of_isDirectory hparent hthere]

theorem KeepsDirectories.directory? (h : t.KeepsDirectories t') (hd : t.directory? p = some dir) :
    t'.directory? p = some dir := by
  unfold FileTree.directory? at hd ⊢
  obtain ⟨q, hparent, hq⟩ := Option.bind_eq_some_iff.mp hd
  rcases hw : t.walk (t.start q) q.pieces with e | found <;> rw [hw] at hq
  · cases hq
  obtain rfl : found = dir := Option.some.inj hq
  rw [hparent, Option.bind_some, start_eq_of_here h.here, h.walk hw]
  rfl

/-! ### The ways of a writing -/

theorem temporary_of_names (h : p.Names up name blanks) {n : String} {slash : Bool}
    (hl : t.locate p.temporary = .ok (.named dir n slash)) :
    n = name ++ ".tmp" ∧ t.directory? p = some dir := by
  rw [h.temporary_eq] at hl
  obtain ⟨up', hends, hhead, hsolid⟩ := h.bare.temporary
  obtain ⟨hname, hw⟩ := named_of_names hends.names hl
  rw [directory?_eq_some_iff h, start_of_names h, ← walk_eq_of_ends h.bare hends hhead hsolid]
  exact ⟨hname, hw⟩

/-- **The ways of a writing** at a path with a file name, from the tree with the directory of the
file. No temporary file may be opened; it may be left behind, with what the device took; or it takes
the place of the file. -/
inductive WritesAt (t : FileTree) (p : Path) (name : String) (bytes : List UInt8) :
    Except StoreError Unit → FileTree → Prop
  | refused {e : StoreError} : WritesAt t p name bytes (.error e) (t.makeParent p).2
  | left {e : StoreError} {t' : FileTree} {dir : Way}
      (place : (t.makeParent p).2.directory? p = some dir)
      (kept : (t.makeParent p).2.KeepsDirectories t')
      (entry : ∀ v, t'.lookup v =
        if v = dir ++ [name ++ ".tmp"] then some (.file (t.taken bytes))
        else (t.makeParent p).2.lookup v) :
      WritesAt t p name bytes (.error e) t'
  | moved {t' : FileTree} {dir : Way} (place : (t.makeParent p).2.directory? p = some dir)
      (kept : (t.makeParent p).2.KeepsDirectories t')
      (entry : ∀ v, t'.lookup v = if v = dir ++ [name] then some (.file (t.taken bytes))
        else if v = dir ++ [name ++ ".tmp"] then none else (t.makeParent p).2.lookup v) :
      WritesAt t p name bytes (.ok ()) t'

theorem writesAt_of_writeAtomically (h : p.Names up name blanks) {r : Except StoreError Unit}
    (hwrite : t.writeAtomically p bytes = (r, t')) : t.WritesAt p name bytes r t' := by
  rcases t.writeAtomically_cases p bytes with ⟨e, t₁, hm, hcase⟩ | ⟨t₁, hm, hcase⟩
  · obtain ⟨rfl, rfl⟩ := Prod.mk.inj (hcase.symm.trans hwrite)
    have hrefused : t.WritesAt p name bytes (.error e) (t.makeParent p).2 := .refused
    rwa [hm] at hrefused
  obtain rfl : (t.makeParent p).2 = t₁ := by rw [hm]
  have htaken := taken_of_faults (faults_makeParent t p) bytes
  cases replaces_replace (hcase.symm.trans hwrite) with
  | refused => exact .refused
  | left place kept _ entry =>
    obtain ⟨rfl, hdir⟩ := temporary_of_names h place
    rw [htaken] at entry
    exact .left hdir kept entry
  | @moved _ dir _ dir' name' place target kept _ entry =>
    obtain ⟨rfl, hdir⟩ := temporary_of_names h place
    obtain ⟨rfl, hw⟩ := named_of_names h target
    obtain rfl := Option.some.inj (((directory?_eq_some_iff h).mpr hw).symm.trans hdir)
    rw [htaken] at entry
    exact .moved hdir kept entry

/-- The same file stands at the end of a way, or none in either tree. -/
def SameFile (t t' : FileTree) (w : Way) : Prop :=
  ∀ bytes, t'.lookup w = some (.file bytes) ↔ t.lookup w = some (.file bytes)

theorem sameFile_makeParent (t : FileTree) (p : Path) (w : Way) :
    t.SameFile (t.makeParent p).2 w := by
  intro bytes
  rcases hl : t.lookup w with _ | e
  · rcases entry_makeParent p hl with hnone | ⟨hdir, -⟩
    · rw [hnone]
    · rw [hdir]
      simp
  · have hext : t.Extends (t.makeParent p).2 := extends_makeParent rfl
    rw [hext.entry _ _ hl]

/-- **Files are all or nothing.**  Whatever a writing comes to, every file but the temporary one
stays as it is, and the file of the path as well if the writing fails. -/
theorem WritesAt.sameFile {r : Except StoreError Unit} (h : t.WritesAt p name bytes r t')
    (hw : ∀ dir, t'.directory? p = some dir → w ≠ dir ++ [name ++ ".tmp"])
    (hw' : ∀ dir, t'.directory? p = some dir → r = .ok () → w ≠ dir ++ [name]) :
    t.SameFile t' w := by
  intro old
  rw [← sameFile_makeParent t p w old]
  cases h with
  | refused => rfl
  | left place kept entry => rw [entry, if_neg (hw _ (kept.directory? place))]
  | moved place kept entry =>
    have hdir := kept.directory? place
    rw [entry, if_neg (hw' _ hdir rfl), if_neg (hw _ hdir)]

/-- **No file disappears** in a writing that fails. -/
theorem WritesAt.file_kept {e : StoreError} (h : t.WritesAt p name bytes (.error e) t')
    (hw : t.lookup w = some (.file old)) : ∃ new, t'.lookup w = some (.file new) := by
  rw [← sameFile_makeParent t p w old] at hw
  cases h with
  | refused => exact ⟨old, hw⟩
  | left _ _ entry =>
    rw [entry]
    split
    · exact ⟨_, rfl⟩
    · exact ⟨old, hw⟩

/-- **What a writing that succeeds puts in place:** the file is there, as the device took it, and
its temporary file is not. -/
theorem WritesAt.written (h : t.WritesAt p name bytes (.ok ()) t') :
    ∃ dir, t'.directory? p = some dir ∧
      t'.lookup (dir ++ [name]) = some (.file (t.taken bytes)) ∧
      t'.lookup (dir ++ [name ++ ".tmp"]) = none := by
  cases h with
  | @moved _ dir place kept entry =>
    refine ⟨dir, kept.directory? place, ?_, ?_⟩
    · rw [entry, if_pos rfl]
    · rw [entry, if_neg (ne_temporary dir name).symm, if_pos rfl]

end VersionedStore.FileTree
