import VersionedStore.Proofs.Files.AllOrNothing

/-!
# What is read after a writing that failed

A writing that fails may leave directories that it has made: they lie on the way to the file, and a
path can be read through them that led nowhere before.

* `Extends.walk_error`: a way that is blocked stays blocked;
* `FileTree.Closed`: nothing stands in a directory that is not there;
  `AddsDirectories.walk_of_missing`: so a way that was not there leads to nothing still, if it goes
  down only;
* `WritesAt.read_eq`: when a writing that fails leaves what is read of its own path.
-/

namespace VersionedStore

/-- The path goes down only, through names that a file can have. -/
def Path.Plain (p : Path) : Prop := ∀ q ∈ p.pieces, q ≠ ".." ∧ FileTree.isTooLong q = false

namespace FileTree

variable {t t' : FileTree} {p : Path} {up blanks : List String} {name : String} {dir w : Way}
  {bytes : List UInt8}

/-! ### What is read of the path -/

theorem read_congr (h : p.Names up name blanks)
    (hwalk : t'.walk (t'.start p) up = t.walk (t.start p) up)
    (hentry : ∀ dir, t.walk (t.start p) up = .ok dir →
      t'.lookup (dir ++ [name]) = t.lookup (dir ++ [name])) : t'.read p = t.read p := by
  rw [read_eq h, read_eq h, hwalk]
  rcases hw : t.walk (t.start p) up with e | dir
  · rfl
  · simp only [Except.bind, hentry dir hw]

/-- The way to a name is not there, or the name is not. -/
def Lacks (t : FileTree) (p : Path) (up : List String) (name : String) : Prop :=
  t.walk (t.start p) up = .error .notFound ∨
    ∃ dir, t.walk (t.start p) up = .ok dir ∧ t.lookup (dir ++ [name]) = none

theorem Lacks.read_eq (h : t.Lacks p up name) (h' : t'.Lacks p up name)
    (hp : p.Names up name blanks) (hname : isTooLong name = false) : t'.read p = t.read p := by
  have hread {s : FileTree} (hs : s.Lacks p up name) : s.read p =
      if p.text.toList.any (· = '\x00') then .error .nulInName
      else if maxPath < p.text.utf8ByteSize then .error .nameTooLong
      else .error .notFound := by
    rw [FileTree.read_eq hp]
    rcases hs with hw | ⟨dir, hw, hnone⟩
    · rw [hw]
      rfl
    · rw [hw]
      simp only [Except.bind, hname, Bool.false_eq_true, if_false, hnone, contents]
  rw [hread h, hread h']

/-- A way that is blocked stays blocked. -/
theorem Extends.walk_error (h : t.Extends t') {here : Way} {ps : List String} {e : FileError}
    (hw : t.walk here ps = .error e) (he : e ≠ .notFound) : t'.walk here ps = .error e := by
  induction ps generalizing here with
  | nil => cases hw
  | cons q ps ih =>
    unfold walk at hw ⊢
    by_cases hsilent : Path.isSilent q = true
    · rw [if_pos hsilent] at hw ⊢
      exact ih hw
    rw [if_neg hsilent] at hw ⊢
    by_cases hup : q = ".."
    · rw [if_pos hup] at hw ⊢
      exact ih hw
    rw [if_neg hup] at hw ⊢
    by_cases hlong : isTooLong q = true
    · rw [if_pos hlong] at hw ⊢
      exact hw
    rw [if_neg hlong] at hw ⊢
    rcases hl : t.lookup (here ++ [q]) with _ | entry <;> rw [hl] at hw
    · exact absurd (Except.error.inj hw).symm he
    rw [h.entry _ _ hl]
    cases entry with
    | directory => exact ih hw
    | file => exact hw

/-! ### Trees without gaps -/

/-- **Closed:** every entry stands in a directory that is there. -/
def Closed (t : FileTree) : Prop :=
  ∀ w name, t.lookup (w ++ [name]) ≠ none → t.lookup w = some .directory

theorem Closed.below (h : t.Closed) (hw : t.lookup w ≠ some .directory) {v : Way} (hv : v ≠ []) :
    t.lookup (w ++ v) = none := by
  induction v generalizing w with
  | nil => exact absurd rfl hv
  | cons name v ih =>
    have hnone : t.lookup (w ++ [name]) = none := by
      by_contra hne
      exact hw (h w name hne)
    by_cases hnil : v = []
    · rw [hnil]
      exact hnone
    · rw [List.append_cons]
      exact ih (by rw [hnone]; rintro ⟨⟩) hnil

/-- The new entries of a later tree are directories. -/
def AddsDirectories (t t' : FileTree) : Prop :=
  ∀ w, t.lookup w = none → t'.lookup w = none ∨ t'.lookup w = some .directory

theorem AddsDirectories.walk_below (h : t.AddsDirectories t') {here : Way} {ps : List String}
    (hps : ∀ q ∈ ps, q ≠ ".." ∧ isTooLong q = false)
    (hnone : ∀ v, v ≠ [] → t.lookup (here ++ v) = none) :
    t'.walk here ps = .error .notFound ∨ ∃ v, t'.walk here ps = .ok (here ++ v) := by
  induction ps generalizing here with
  | nil => exact .inr ⟨[], by rw [List.append_nil]; rfl⟩
  | cons q ps ih =>
    obtain ⟨⟨hup, hlong⟩, hrest⟩ := List.forall_mem_cons.mp hps
    unfold walk
    by_cases hsilent : Path.isSilent q = true
    · rw [if_pos hsilent]
      exact ih hrest hnone
    rw [if_neg hsilent, if_neg hup, hlong, if_neg Bool.false_ne_true]
    rcases h _ (hnone [q] (List.cons_ne_nil q [])) with hfree | hdir
    · rw [hfree]
      exact .inl rfl
    rw [hdir]
    have hbelow : ∀ v, v ≠ [] → t.lookup (here ++ [q] ++ v) = none := fun v _ => by
      rw [List.append_assoc]
      exact hnone _ (List.cons_ne_nil q v)
    rcases ih hrest hbelow with hmissing | ⟨v, hv⟩
    · exact .inl hmissing
    · exact .inr ⟨q :: v, by rw [hv, List.append_assoc]; rfl⟩

/-- **A plain way that was not there** is still not there, or leads where nothing was. -/
theorem AddsDirectories.walk_of_missing (h : t.AddsDirectories t') (hc : t.Closed)
    (hext : t.Extends t') {here : Way} {ps : List String}
    (hps : ∀ q ∈ ps, q ≠ ".." ∧ isTooLong q = false) (hw : t.walk here ps = .error .notFound) :
    t'.walk here ps = .error .notFound ∨
      ∃ dir, t'.walk here ps = .ok dir ∧ ∀ name, t.lookup (dir ++ [name]) = none := by
  induction ps generalizing here with
  | nil => cases hw
  | cons q ps ih =>
    obtain ⟨⟨hup, hlong⟩, hrest⟩ := List.forall_mem_cons.mp hps
    unfold walk at hw ⊢
    by_cases hsilent : Path.isSilent q = true
    · rw [if_pos hsilent] at hw ⊢
      exact ih hrest hw
    rw [if_neg hsilent, if_neg hup, hlong, if_neg Bool.false_ne_true] at hw ⊢
    rcases hl : t.lookup (here ++ [q]) with _ | _ | old <;> rw [hl] at hw
    · have hbelow : ∀ v, v ≠ [] → t.lookup (here ++ [q] ++ v) = none := fun v hv =>
        hc.below (by rw [hl]; rintro ⟨⟩) hv
      rcases h _ hl with hfree | hdir
      · rw [hfree]
        exact .inl rfl
      rw [hdir]
      rcases h.walk_below hrest hbelow with hmissing | ⟨v, hv⟩
      · exact .inl hmissing
      · refine .inr ⟨_, hv, fun name => ?_⟩
        rw [List.append_assoc]
        exact hbelow _ (by simp)
    · rw [hext.entry _ _ hl]
      exact ih hrest hw
    · cases hw

theorem length_of_walk {here : Way} {ps : List String} (hps : ∀ q ∈ ps, q ≠ "..")
    (hw : t.walk here ps = .ok dir) : dir.length = here.length + (Path.solid ps).length := by
  induction ps generalizing here with
  | nil =>
    obtain rfl := Except.ok.inj hw
    rfl
  | cons q ps ih =>
    obtain ⟨hup, hrest⟩ := List.forall_mem_cons.mp hps
    unfold walk at hw
    rw [Path.solid_cons]
    by_cases hsilent : Path.isSilent q = true
    · rw [if_pos hsilent] at hw ⊢
      exact ih hrest hw
    rw [if_neg hsilent] at hw ⊢
    rw [if_neg hup] at hw
    by_cases hlong : isTooLong q = true
    · rw [if_pos hlong] at hw
      cases hw
    rw [if_neg hlong] at hw
    rcases hl : t.lookup (here ++ [q]) with _ | _ | old <;> rw [hl] at hw
    · cases hw
    · have hlength := ih hrest hw
      rw [List.length_append, List.length_singleton] at hlength
      rw [List.length_cons]
      omega
    · cases hw

theorem length_le_of_mem_waysFrom {here : Way} {ps : List String} (hps : ∀ q ∈ ps, q ≠ "..")
    (hw : w ∈ waysFrom here ps) : w.length ≤ here.length + (Path.solid ps).length := by
  induction ps generalizing here with
  | nil => cases hw
  | cons q ps ih =>
    obtain ⟨hup, hrest⟩ := List.forall_mem_cons.mp hps
    unfold waysFrom at hw
    rw [Path.solid_cons]
    by_cases hsilent : Path.isSilent q = true
    · rw [if_pos hsilent] at hw ⊢
      exact ih hrest hw
    rw [if_neg hsilent] at hw ⊢
    rw [if_neg hup] at hw
    rw [List.length_cons]
    rcases List.mem_cons.mp hw with rfl | hw
    · rw [List.length_append, List.length_singleton]
      omega
    · have hlength := ih hrest hw
      rw [List.length_append, List.length_singleton] at hlength
      omega

theorem free_makeParent (h : p.Names up name blanks) (hup : ∀ q ∈ up, q ≠ "..")
    (place : (t.makeParent p).2.directory? p = some dir) (hfree : t.lookup (dir ++ [name]) = none) :
    (t.makeParent p).2.lookup (dir ++ [name]) = none := by
  rcases entry_makeParent p hfree with hnone | ⟨-, q, hparent, hmem⟩
  · exact hnone
  exfalso
  obtain ⟨q', hparent', hgoes⟩ := h.bare.parent
  obtain rfl := Option.some.inj (hparent'.symm.trans (h.parent?_eq.symm.trans hparent))
  have hdown : ∀ r ∈ q'.pieces, r ≠ ".." := by
    rintro r hr rfl
    have hsolid : ".." ∈ Path.solid q'.pieces := List.mem_filter.mpr ⟨hr, by decide⟩
    rw [← q'.solid_stem, hgoes.solid_eq] at hsolid
    exact hup _ (List.mem_filter.mp hsolid).1 rfl
  have hext : t.Extends (t.makeParent p).2 := extends_makeParent rfl
  unfold directory? at place
  rw [hparent, Option.bind_some, start_eq_of_here hext.here] at place
  rcases hw : (t.makeParent p).2.walk (t.start q') q'.pieces with e | found <;> rw [hw] at place
  · cases place
  obtain rfl : found = dir := Option.some.inj place
  have hlength := length_of_walk hdown hw
  have hle := length_le_of_mem_waysFrom hdown hmem
  rw [List.length_append, List.length_singleton] at hle
  omega

/-! ### What is read after a writing that failed -/

section Failed

variable {e : StoreError}

theorem WritesAt.read_of_walk (h : t.WritesAt p name bytes (.error e) t')
    (hp : p.Names up name blanks) (hw : t.walk (t.start p) up = .ok dir) :
    t'.read p = t.read p := by
  have hsame : (t.makeParent p).2 = t := by
    rw [start_of_names hp] at hw
    rw [makeParent_of_names hp, makeParent_of_walk hp.bare hw]
  have hplace := (directory?_eq_some_iff hp).mpr hw
  cases h with
  | refused => rw [hsame]
  | left place kept entry =>
    rw [hsame] at place kept entry
    obtain rfl := Option.some.inj (place.symm.trans hplace)
    have hw' := (directory?_eq_some_iff hp).mp (kept.directory? place)
    refine read_congr hp (hw'.trans hw.symm) fun found hfound => ?_
    obtain rfl := Except.ok.inj (hw.symm.trans hfound)
    rw [entry, if_neg (ne_temporary _ name)]

theorem WritesAt.read_of_blocked (h : t.WritesAt p name bytes (.error e) t')
    (hp : p.Names up name blanks) {blocked : FileError}
    (hw : t.walk (t.start p) up = .error blocked) (hne : blocked ≠ .notFound) :
    t'.read p = t.read p := by
  have hext : t.Extends (t.makeParent p).2 := extends_makeParent rfl
  have hw' : (t.makeParent p).2.walk ((t.makeParent p).2.start p) up = .error blocked := by
    rw [start_eq_of_here hext.here]
    exact hext.walk_error hw hne
  cases h with
  | refused =>
    refine read_congr hp (hw'.trans hw.symm) fun found hfound => ?_
    cases hw.symm.trans hfound
  | left place => cases hw'.symm.trans ((directory?_eq_some_iff hp).mp place)

theorem WritesAt.read_of_missing (h : t.WritesAt p name bytes (.error e) t')
    (hp : p.Names up name blanks) (hc : t.Closed) (hplain : p.Plain)
    (hw : t.walk (t.start p) up = .error .notFound) : t'.read p = t.read p := by
  have hup : ∀ q ∈ up, q ≠ ".." ∧ isTooLong q = false := fun q hq =>
    hplain q (by rw [hp.pieces_eq]; exact List.mem_append_left _ hq)
  have hname : isTooLong name = false := (hplain name (by rw [hp.pieces_eq]; simp)).2
  have hext : t.Extends (t.makeParent p).2 := extends_makeParent rfl
  have hadds : t.AddsDirectories (t.makeParent p).2 := fun w hw =>
    (entry_makeParent p hw).imp_right And.left
  have hstart := start_eq_of_here hext.here p
  have hfree {dir : Way} (hdir : (t.makeParent p).2.directory? p = some dir) :
      (t.makeParent p).2.lookup (dir ++ [name]) = none := by
    refine free_makeParent hp (fun q hq => (hup q hq).1) hdir ?_
    rw [directory?_eq_some_iff hp, hstart] at hdir
    rcases hadds.walk_of_missing hc hext hup hw with hmissing | ⟨found, hfound, hnone⟩
    · cases hmissing.symm.trans hdir
    · obtain rfl := Except.ok.inj (hfound.symm.trans hdir)
      exact hnone name
  have hlacks : t.Lacks p up name := .inl hw
  refine Lacks.read_eq hlacks ?_ hp hname
  cases h with
  | refused =>
    rcases hadds.walk_of_missing hc hext hup hw with hmissing | ⟨found, hfound, -⟩
    · exact .inl (by rw [hstart]; exact hmissing)
    · rw [← hstart] at hfound
      exact .inr ⟨found, hfound, hfree ((directory?_eq_some_iff hp).mpr hfound)⟩
  | left place kept entry =>
    refine .inr ⟨_, (directory?_eq_some_iff hp).mp (kept.directory? place), ?_⟩
    rw [entry, if_neg (ne_temporary _ name), hfree place]

/-- **After a writing that failed** its path is read as before if it led to anything, or its
directory was there, or the path is plain. -/
theorem WritesAt.read_eq (h : t.WritesAt p name bytes (.error e) t') (hp : p.Names up name blanks)
    (hseen : t.read p ≠ .error .notFound ∨ t.directory? p ≠ none ∨ t.Closed ∧ p.Plain) :
    t'.read p = t.read p := by
  rcases hw : t.walk (t.start p) up with blocked | dir
  swap
  · exact h.read_of_walk hp hw
  by_cases hne : blocked = .notFound
  swap
  · exact h.read_of_blocked hp hw hne
  subst hne
  rcases hseen with hread | hdir | ⟨hc, hplain⟩
  · -- what was met before the way was tried is met again
    rw [FileTree.read_eq hp, hw] at hread
    rw [FileTree.read_eq hp, FileTree.read_eq hp, hw]
    by_cases hnul : p.text.toList.any (· = '\x00') = true
    · rw [if_pos hnul, if_pos hnul]
    by_cases hlong : maxPath < p.text.utf8ByteSize
    · rw [if_neg hnul, if_neg hnul, if_pos hlong, if_pos hlong]
    · rw [if_neg hnul, if_neg hlong] at hread
      exact absurd rfl hread
  · rw [directory?_eq hp, hw] at hdir
    exact absurd rfl hdir
  · exact h.read_of_missing hp hc hplain hw

end Failed

end FileTree

end VersionedStore
