import Mathlib.Data.List.TakeWhile
import VersionedStore.Proofs.Files.Atomic

/-!
# Where the path of a file leads

Pieces that lead nowhere can be left out of a path, and with them what sets the path of a file apart
from the path of its directory is its last name.  So once the directory was made, the path of a file
leads to its name there, and its temporary path to that name with an ending.

* `Path.Ends`: a path ends in a name that a file can have; `Ends.parent`, `Ends.temporary`: its
  directory and its temporary path go the same way;
* `walk_solid`: what leads nowhere can be left out;
* `locate_of_walk`, `locate_temporary`: where the two paths lead;
* `walk_of_makeParent`: the directory on the way is there once it was made.
-/

namespace VersionedStore

namespace Path

/-- The pieces that lead somewhere. -/
def solid (ps : List String) : List String := ps.filter (!isSilent ·)

@[simp] theorem solid_reverse (ps : List String) : solid ps.reverse = (solid ps).reverse :=
  List.filter_reverse ..

theorem solid_append (ps qs : List String) : solid (ps ++ qs) = solid ps ++ solid qs :=
  List.filter_append ..

theorem solid_cons (q : String) (ps : List String) :
    solid (q :: ps) = if isSilent q = true then solid ps else q :: solid ps := by
  unfold solid
  by_cases hq : isSilent q = true <;> simp [hq]

theorem solid_dropWhile (ps : List String) :
    solid (ps.reverse.dropWhile (· = "")).reverse = solid ps := by
  have hblank : solid (ps.reverse.takeWhile (· = "")) = [] := by
    refine List.filter_eq_nil_iff.mpr fun q hq => ?_
    have hq' := List.mem_takeWhile_imp (p := fun q => decide (q = "")) hq
    rw [of_decide_eq_true hq']
    decide
  have hsplit := congrArg solid (List.takeWhile_append_dropWhile
    (p := fun q => decide (q = "")) (l := ps.reverse))
  rw [solid_append, hblank, List.nil_append, solid_reverse] at hsplit
  rw [solid_reverse, hsplit, List.reverse_reverse]

theorem trim_cons {q : String} (hq : ¬ isSilent q = true) (ps : List String) :
    trim (q :: ps) = q :: ps := by
  cases ps with
  | nil => rfl
  | cons p ps => rw [trim, if_neg hq]

theorem trim_cons_silent {q : String} (hq : isSilent q = true) {ps : List String} (hps : ps ≠ []) :
    trim (q :: ps) = trim ps := by
  cases ps with
  | nil => exact absurd rfl hps
  | cons p ps => rw [trim, if_pos hq]

theorem trim_ne_nil {ps : List String} (h : ps ≠ []) : trim ps ≠ [] := by
  induction ps with
  | nil => exact absurd rfl h
  | cons p ps ih =>
    by_cases hp : isSilent p = true
    · by_cases hps : ps = []
      · subst hps
        exact List.cons_ne_nil _ _
      · rw [trim_cons_silent hp hps]
        exact ih hps
    · rw [trim_cons hp]
      exact List.cons_ne_nil _ _

theorem trim_spec (ps : List String) : solid (trim ps) = solid ps ∧
    (trim ps).getLast? = ps.getLast? ∧ ancestorsFrom (trim ps) = ancestorsFrom ps := by
  induction ps with
  | nil => exact ⟨rfl, rfl, rfl⟩
  | cons p ps ih =>
    by_cases hp : isSilent p = true
    swap
    · rw [trim_cons hp]
      exact ⟨rfl, rfl, rfl⟩
    cases ps with
    | nil => exact ⟨rfl, rfl, rfl⟩
    | cons q ps =>
      obtain ⟨hsolid, hlast, hancestors⟩ := ih
      rw [trim_cons_silent hp (List.cons_ne_nil q ps)]
      refine ⟨?_, hlast, ?_⟩
      · rw [hsolid]
        exact (List.filter_cons_of_neg (by simp [hp])).symm
      · rw [hancestors, ancestorsFrom, if_pos hp]

theorem trim_head {ps : List String} {q : String} {qs : List String} (h : trim ps = q :: qs)
    (hq : isSilent q = true) : qs = [] := by
  induction ps with
  | nil => cases h
  | cons p ps ih =>
    by_cases hp : isSilent p = true
    swap
    · rw [trim_cons hp] at h
      exact absurd ((List.cons.inj h).1 ▸ hq) hp
    by_cases hps : ps = []
    · subst hps
      exact (List.cons.inj h).2.symm
    · rw [trim_cons_silent hp hps] at h
      exact ih h

theorem head_ancestorsFrom_trim {ps : List String} (hne : trim ps ≠ []) (hroot : trim ps ≠ [""]) :
    (ancestorsFrom (trim ps)).head? = some ⟨(trim ps).reverse⟩ := by
  rcases hps : trim ps with _ | ⟨q, _ | ⟨r, rs⟩⟩
  · exact absurd hps hne
  · have hq : q ≠ "" := by
      rintro rfl
      exact hroot hps
    rw [ancestorsFrom, if_neg hq]
    rfl
  · have hq : ¬ isSilent q = true := fun hq => by cases trim_head hps hq
    rw [ancestorsFrom, if_neg hq]
    rfl

/-! ### Paths of files -/

/-- **A path that ends in a name:** after the pieces `up` comes a name that a file can have. -/
structure Ends (p : Path) (up : List String) (name : String) : Prop where
  pieces_eq : p.pieces = up ++ [name]
  notSilent : isSilent name = false
  ne_up : name ≠ ".."

/-- A file system takes the path: it has no character that none takes, and neither it nor its last
name is too long. -/
structure Fits (p : Path) : Prop where
  nul : p.text.toList.any (· = '\x00') = false
  text_le : p.text.utf8ByteSize ≤ FileTree.maxPath
  name_le : p.pieces.getLast?.any FileTree.isTooLong = false

variable {p d : Path} {up : List String} {name : String}

theorem Ends.ne_empty (h : p.Ends up name) : name ≠ "" := by
  rintro rfl
  exact absurd h.notSilent (by decide)

theorem Ends.ne_dot (h : p.Ends up name) : name ≠ "." := by
  rintro rfl
  exact absurd h.notSilent (by decide)

theorem Ends.dropWhile_eq (h : p.Ends up name) :
    p.pieces.reverse.dropWhile (· = "") = name :: up.reverse := by
  rw [h.pieces_eq, List.reverse_append]
  exact List.dropWhile_cons_of_neg (by simp [h.ne_empty])

theorem Ends.trim_eq (h : p.Ends up name) : trim p.pieces.reverse = name :: up.reverse := by
  rw [h.pieces_eq, List.reverse_append]
  exact trim_cons (by rw [h.notSilent]; nofun) _

theorem Ends.isEmpty_eq (h : p.Ends up name) : p.isEmpty = false := by
  unfold Path.isEmpty
  rw [h.pieces_eq, List.all_append]
  simp [h.ne_empty]

theorem Ends.parent_cases (h : p.Ends up name) :
    (up = [] ∧ p.parent? = some ⟨[""]⟩) ∨ (trim up.reverse = [""] ∧ p.parent? = some ⟨["", ""]⟩) ∨
      (trim up.reverse ≠ [] ∧ trim up.reverse ≠ [""] ∧
        p.parent? = some ⟨(trim up.reverse).reverse⟩) := by
  unfold parent?
  rw [h.trim_eq]
  rcases up with _ | ⟨u, up⟩
  · simp [h.ne_empty]
  have hne : trim (u :: up).reverse ≠ [] := trim_ne_nil (by simp)
  rcases hup : (u :: up).reverse with _ | ⟨v, vs⟩
  · simp at hup
  rw [hup] at hne
  dsimp only
  split
  · rename_i htrim
    exact .inr (.inl ⟨htrim, rfl⟩)
  · rename_i htrim
    exact .inr (.inr ⟨hne, htrim, rfl⟩)

theorem Ends.fileName?_eq (h : p.Ends up name) : p.fileName? = some name := by
  unfold fileName?
  rw [h.trim_eq]
  rcases up.reverse with _ | ⟨u, us⟩ <;> simp [h.notSilent, h.ne_up]

/-! ### Names in a directory -/

/-- The pieces that stand before a name that is put at the end of a path. -/
def stem (d : Path) : List String :=
  match d.pieces.reverse with
  | "" :: up => up.reverse
  | _ => d.pieces

theorem pieces_child (d : Path) (name : String) : (d.child name).pieces = d.stem ++ [name] := by
  unfold child stem
  rcases d.pieces.reverse with _ | ⟨q, up⟩
  · rfl
  by_cases hq : q = ""
  · subst hq
    rfl
  · simp [hq]

theorem stem_cases (d : Path) : d.pieces = d.stem ∨ d.pieces = d.stem ++ [""] := by
  unfold stem
  split
  · rename_i up h
    exact .inr (by rw [← List.reverse_reverse d.pieces, h, List.reverse_cons])
  · exact .inl rfl

theorem solid_stem (d : Path) : solid d.stem = solid d.pieces := by
  rcases d.stem_cases with h | h <;> rw [h]
  rw [solid_append]
  exact (List.append_nil _).symm

theorem ancestors_eq (d : Path) : d.ancestors = ancestorsFrom d.stem.reverse := by
  unfold ancestors
  rcases d.stem_cases with h | h <;> rw [h]
  rw [List.reverse_append]
  rcases d.stem.reverse with _ | ⟨q, qs⟩ <;> rfl

theorem ends_child (d : Path) {name : String} (hsolid : isSilent name = false) (hup : name ≠ "..") :
    (d.child name).Ends d.stem name :=
  ⟨d.pieces_child name, hsolid, hup⟩

/-! ### The directory and the temporary path -/

theorem append_tmp_ne (name : String) {dots : String} (h : dots.length < 4) :
    name ++ ".tmp" ≠ dots := by
  rintro rfl
  rw [String.length_append] at h
  exact absurd (Nat.le_add_left 4 name.length) (Nat.not_le.mpr h)

theorem isSilent_append_tmp (name : String) : isSilent (name ++ ".tmp") = false := by
  unfold isSilent
  rw [decide_eq_false (append_tmp_ne name (by decide)),
    decide_eq_false (append_tmp_ne name (by decide))]
  rfl

/-- **A path goes a way:** it begins at the same place, with the same pieces that lead somewhere,
and is the first that has to be made for the way if anything has. -/
structure Goes (q : Path) (up : List String) : Prop where
  head : q.stem.head? = up.head?
  solid_eq : solid q.stem = solid up
  ancestors_eq : q.ancestors = ancestorsFrom up.reverse
  first : solid up = [] ∨ q.ancestors.head? = some q

/-- **The directory of a path that ends in a name** goes the way to it. -/
theorem Ends.parent (h : p.Ends up name) : ∃ q, p.parent? = some q ∧ q.Goes up := by
  obtain ⟨hsolid, hlast, hancestors⟩ := trim_spec up.reverse
  rw [List.getLast?_reverse] at hlast
  rw [solid_reverse] at hsolid
  -- the path is a name alone, or lies in the root, or has a directory with a name or dots
  rcases h.parent_cases with ⟨rfl, hparent⟩ | ⟨htrim, hparent⟩ | ⟨hne, hroot, hparent⟩
  · exact ⟨_, hparent, rfl, rfl, rfl, .inl rfl⟩
  · rw [htrim] at hlast hsolid hancestors
    have hnone : solid up = [] := List.reverse_eq_nil_iff.mp hsolid.symm
    exact ⟨_, hparent, hlast, hnone.symm, hancestors, .inl hnone⟩
  · have hstem : (⟨(trim up.reverse).reverse⟩ : Path).stem = (trim up.reverse).reverse := by
      unfold stem
      rw [List.reverse_reverse]
      split
      · rename_i rest htrim
        obtain rfl := trim_head htrim rfl
        exact absurd htrim hroot
      · rfl
    have htrimmed : (⟨(trim up.reverse).reverse⟩ : Path).ancestors =
        ancestorsFrom (trim up.reverse) := congrArg ancestorsFrom (List.reverse_reverse _)
    refine ⟨_, hparent, ?_, ?_, htrimmed.trans hancestors, .inr ?_⟩
    · rw [hstem, List.head?_reverse, hlast]
    · rw [hstem, solid_reverse, hsolid, List.reverse_reverse]
    · rw [htrimmed, head_ancestorsFrom_trim hne hroot]

/-- **The temporary path** ends in the name with an ending, and goes the same way. -/
theorem Ends.temporary (h : p.Ends up name) : ∃ up', p.temporary.Ends up' (name ++ ".tmp") ∧
    up'.head? = up.head? ∧ solid up' = solid up := by
  obtain ⟨q, hparent, hq⟩ := h.parent
  have hchild : p.temporary = q.child (name ++ ".tmp") := by
    unfold Path.temporary withFileName
    rw [h.fileName?_eq, hparent]
    rfl
  rw [hchild]
  exact ⟨_, q.ends_child (isSilent_append_tmp name) (append_tmp_ne name (by decide)), hq.head,
    hq.solid_eq⟩

end Path

namespace FileTree

variable {t t' : FileTree} {p d : Path} {up : List String} {name : String} {dir : Way}

/-! ### Walking -/

theorem walk_append (t : FileTree) (here : Way) (ps qs : List String) :
    t.walk here (ps ++ qs) = (t.walk here ps).bind (t.walk · qs) := by
  induction ps generalizing here with
  | nil => rfl
  | cons p ps ih =>
    rw [List.cons_append, walk, walk]
    by_cases hsilent : Path.isSilent p = true
    · rw [if_pos hsilent, if_pos hsilent, ih]
    rw [if_neg hsilent, if_neg hsilent]
    by_cases hup : p = ".."
    · rw [if_pos hup, if_pos hup, ih]
    rw [if_neg hup, if_neg hup]
    by_cases hlong : isTooLong p = true
    · rw [if_pos hlong, if_pos hlong]
      rfl
    rw [if_neg hlong, if_neg hlong]
    rcases t.lookup (here ++ [p]) with _ | _ | bytes
    · rfl
    · exact ih _
    · rfl

/-- **What leads nowhere can be left out.** -/
theorem walk_solid (t : FileTree) (here : Way) (ps : List String) :
    t.walk here (Path.solid ps) = t.walk here ps := by
  induction ps generalizing here with
  | nil => rfl
  | cons p ps ih =>
    rw [Path.solid_cons]
    by_cases hsilent : Path.isSilent p = true
    · rw [if_pos hsilent, ih, walk, if_pos hsilent]
    · rw [if_neg hsilent]
      unfold walk
      simp only [if_neg hsilent, ih]

theorem walk_eq_of_solid {ps qs : List String} (h : Path.solid ps = Path.solid qs) (t : FileTree)
    (here : Way) : t.walk here ps = t.walk here qs := by
  rw [← walk_solid, h, walk_solid]

theorem start_eq (h : p.pieces ≠ [""]) (t : FileTree) :
    t.start p = if p.pieces.head? = some "" then [] else t.here := by
  unfold start Path.isAbsolute
  rcases hp : p.pieces with _ | ⟨q, _ | ⟨r, ps⟩⟩
  · rfl
  · have hq : q ≠ "" := by
      rintro rfl
      exact h hp
    simp [hq]
  · simp

theorem start_of_ends (h : p.Ends up name) (t : FileTree) :
    t.start p = if up.head? = some "" then [] else t.here := by
  rw [start_eq, h.pieces_eq]
  · rcases up with _ | ⟨u, up⟩
    · simp [h.ne_empty]
    · rfl
  · rw [h.pieces_eq]
    intro hsingle
    obtain rfl : name = "" := by
      simpa using congrArg List.getLast? hsingle
    exact h.ne_empty rfl

theorem walk_eq_of_ends {p' : Path} {up' : List String} {name' : String} (h : p.Ends up name)
    (h' : p'.Ends up' name') (hhead : up'.head? = up.head?)
    (hsolid : Path.solid up' = Path.solid up) (t : FileTree) :
    t.walk (t.start p') up' = t.walk (t.start p) up := by
  rw [start_of_ends h, start_of_ends h', hhead, walk_eq_of_solid hsolid]

/-! ### Places -/

/-- **The path of a file leads to its name** in the directory on its way. -/
theorem locate_of_walk (h : p.Ends up name) (hfits : p.Fits)
    (hw : t.walk (t.start p) up = .ok dir) : t.locate p = .ok (.named dir name false) := by
  have hlast : p.pieces.getLast? = some name := by rw [h.pieces_eq, List.getLast?_concat]
  have hlong : isTooLong name = false := by
    rw [← hfits.name_le, hlast]
    rfl
  unfold locate
  rw [hfits.nul, if_neg nofun, h.isEmpty_eq, if_neg nofun, if_neg (Nat.not_lt.mpr hfits.text_le),
    h.dropWhile_eq, hlast]
  simp only [List.reverse_reverse, hw, if_neg h.ne_dot, if_neg h.ne_up, hlong, Option.some.injEq,
    h.ne_empty, decide_false, Bool.false_eq_true, if_false]

theorem locate_of_walk_error (h : p.Ends up name) (hfits : p.Fits) {e : FileError}
    (hw : t.walk (t.start p) up = .error e) : t.locate p = .error e := by
  unfold locate
  rw [hfits.nul, if_neg nofun, h.isEmpty_eq, if_neg nofun, if_neg (Nat.not_lt.mpr hfits.text_le),
    h.dropWhile_eq]
  simp only [List.reverse_reverse, hw]

theorem locate_of_isTooLong (h : p.Ends up name)
    (hnul : p.text.toList.any (· = '\x00') = false) (hlong : isTooLong name = true)
    (hw : t.walk (t.start p) up = .ok dir) : t.locate p = .error .nameTooLong := by
  unfold locate
  rw [hnul, if_neg nofun, h.isEmpty_eq, if_neg nofun, h.dropWhile_eq]
  by_cases htext : maxPath < p.text.utf8ByteSize
  · rw [if_pos htext]
  · simp only [if_neg htext, List.reverse_reverse, hw, if_neg h.ne_dot, if_neg h.ne_up, hlong,
      if_true]

/-! ### Directories -/

theorem locate_cases {place : Place} (h : t.locate p = .ok place) :
    (p.text.toList.any (· = '\x00') = false ∧ p.text.utf8ByteSize ≤ maxPath) ∧
      (p.pieces.reverse.dropWhile (· = "") = [] ∧ place = .reached [] ∨
        ∃ last up dir, p.pieces.reverse.dropWhile (· = "") = last :: up ∧
          t.walk (t.start p) up.reverse = .ok dir ∧
          (last = "." ∧ place = .reached dir ∨ last = ".." ∧ place = .reached dir.dropLast ∨
            last ≠ "." ∧ last ≠ ".." ∧ isTooLong last = false ∧
              place = .named dir last (p.pieces.getLast? = some ""))) := by
  unfold locate at h
  by_cases hnul : p.text.toList.any (· = '\x00') = true
  · rw [if_pos hnul] at h
    cases h
  by_cases hempty : p.isEmpty = true
  · rw [if_neg hnul, if_pos hempty] at h
    cases h
  by_cases hlong : maxPath < p.text.utf8ByteSize
  · rw [if_neg hnul, if_neg hempty, if_pos hlong] at h
    cases h
  rw [if_neg hnul, if_neg hempty, if_neg hlong] at h
  refine ⟨⟨eq_false_of_ne_true hnul, Nat.le_of_not_lt hlong⟩, ?_⟩
  rcases hdrop : p.pieces.reverse.dropWhile (· = "") with _ | ⟨last, up⟩
  · simp only [hdrop] at h
    exact .inl ⟨rfl, (Except.ok.inj h).symm⟩
  refine .inr ⟨last, up, ?_⟩
  rcases hw : t.walk (t.start p) up.reverse with e | dir <;> simp only [hdrop, hw] at h
  · cases h
  refine ⟨dir, rfl, rfl, ?_⟩
  by_cases hdot : last = "."
  · rw [if_pos hdot] at h
    exact .inl ⟨hdot, (Except.ok.inj h).symm⟩
  by_cases hup : last = ".."
  · rw [if_neg hdot, if_pos hup] at h
    exact .inr (.inl ⟨hup, (Except.ok.inj h).symm⟩)
  rw [if_neg hdot, if_neg hup] at h
  by_cases hname : isTooLong last = true
  · rw [if_pos hname] at h
    cases h
  · rw [if_neg hname] at h
    exact .inr (.inr ⟨hdot, hup, eq_false_of_ne_true hname, (Except.ok.inj h).symm⟩)

theorem locate_named {slash : Bool} (h : t.locate p = .ok (.named dir name slash)) :
    ∃ up blanks, p.pieces = up ++ name :: blanks ∧ (∀ q ∈ blanks, q = "") ∧
      (slash = false → blanks = []) ∧ t.walk (t.start p) up = .ok dir ∧
      Path.isSilent name = false ∧ name ≠ ".." ∧ isTooLong name = false := by
  obtain ⟨-, ⟨-, hplace⟩ | ⟨last, up, d, hdrop, hw, hlast⟩⟩ := locate_cases h
  · cases hplace
  rcases hlast with ⟨-, hplace⟩ | ⟨-, hplace⟩ | ⟨hdot, hup, hlong, hplace⟩
  · cases hplace
  · cases hplace
  obtain ⟨rfl, rfl, rfl⟩ := Place.named.inj hplace
  have hne : name ≠ "" := by
    have hhead := List.head_dropWhile_not (p := fun q => decide (q = "")) (l := p.pieces.reverse)
    simpa [hdrop] using hhead
  have hsplit :=
    List.takeWhile_append_dropWhile (p := fun q => decide (q = "")) (l := p.pieces.reverse)
  have hpieces :
      p.pieces = up.reverse ++ name :: (p.pieces.reverse.takeWhile (· = "")).reverse := by
    have hback := congrArg List.reverse hsplit
    rw [hdrop, List.reverse_append, List.reverse_reverse, List.reverse_cons,
      List.append_assoc] at hback
    exact hback.symm
  refine ⟨up.reverse, _, hpieces, fun q hq => ?_, fun hslash => ?_, hw, ?_, hup, hlong⟩
  · have hq' := List.mem_takeWhile_imp (p := fun q => decide (q = "")) (List.mem_reverse.mp hq)
    exact of_decide_eq_true hq'
  · -- a slash at the end would be the last piece
    have hlast := of_decide_eq_false hslash
    rw [← List.head?_reverse] at hlast
    rw [List.reverse_eq_nil_iff, List.takeWhile_eq_nil_iff]
    intro hlength hfirst
    refine hlast ?_
    rw [List.head?_eq_getElem?, List.getElem?_eq_getElem hlength]
    exact congrArg some (of_decide_eq_true hfirst)
  · unfold Path.isSilent
    rw [decide_eq_false hne, decide_eq_false hdot]
    rfl

theorem walk_of_isDirectory (h : t.isDirectory p = true) :
    ∃ dir, t.walk (t.start p) p.pieces = .ok dir := by
  rw [← walk_eq_of_solid (Path.solid_dropWhile p.pieces)]
  unfold isDirectory at h
  rcases hl : t.locate p with e | place <;> rw [hl] at h
  · cases h
  obtain ⟨-, ⟨hdrop, -⟩ | ⟨last, up, dir, hdrop, hw, hlast⟩⟩ := locate_cases hl <;> rw [hdrop]
  · exact ⟨_, rfl⟩
  rw [List.reverse_cons, walk_append, hw]
  show ∃ dir', t.walk dir [last] = .ok dir'
  unfold walk
  by_cases hsilent : Path.isSilent last = true
  · exact ⟨dir, by rw [if_pos hsilent]; rfl⟩
  rw [if_neg hsilent]
  rcases hlast with ⟨rfl, -⟩ | ⟨rfl, -⟩ | ⟨-, hup, hlong, rfl⟩
  · exact absurd rfl hsilent
  · exact ⟨dir.dropLast, by rw [if_pos rfl]; rfl⟩
  · refine ⟨dir ++ [last], ?_⟩
    rw [if_neg hup, hlong, of_decide_eq_true h]
    rfl

/-! ### The directory of a file -/

theorem start_child (h : (d.child name).Ends d.stem name) (t : FileTree) :
    t.start (d.child name) = t.start d := by
  rw [start_of_ends h]
  by_cases hd : d.pieces = [""]
  · obtain ⟨pieces⟩ := d
    obtain rfl := hd
    rfl
  rw [start_eq hd]
  rcases d.stem_cases with hstem | hstem <;> rw [hstem]
  rcases hs : d.stem with _ | ⟨q, qs⟩
  · rw [hs] at hstem
    exact absurd hstem hd
  · rfl

theorem walk_child (h : (d.child name).Ends d.stem name) (t : FileTree) :
    t.walk (t.start (d.child name)) d.stem = t.walk (t.start d) d.pieces := by
  rw [start_child h]
  exact walk_eq_of_solid d.solid_stem t _

theorem walk_of_goes (h : p.Ends up name) (hd : d.Goes up) (t : FileTree) :
    t.walk (t.start d) d.pieces = t.walk (t.start p) up := by
  have hchild := d.ends_child h.notSilent h.ne_up
  rw [← walk_child hchild, walk_eq_of_ends h hchild hd.head hd.solid_eq]

theorem makeParent_ok_iff (h : p.Ends up name) : t.makeParent p = (.ok (), t') ↔
    t.makeFirst (Path.ancestorsFrom up.reverse) = (.ok (), t') := by
  obtain ⟨q, hparent, hq⟩ := h.parent
  rw [← hq.ancestors_eq]
  unfold makeParent makeDirectories
  simp only [hparent]
  by_cases hempty : q.isEmpty = true
  · have hnone : q.ancestors = [] := by
      unfold Path.isEmpty at hempty
      unfold Path.ancestors
      rcases hpieces : q.pieces with _ | ⟨r, _ | ⟨r', rs⟩⟩ <;> simp [hpieces] at hempty
      · rfl
      · rw [hempty]
        rfl
    simp [hempty, hnone, makeFirst]
  · rw [if_neg hempty]
    rcases t.makeFirst q.ancestors with ⟨_ | _, t₁⟩ <;> simp

theorem makeParent_child (h : (d.child name).Ends d.stem name) :
    t.makeParent (d.child name) = (.ok (), t') ↔ t.makeDirectories d = (.ok (), t') := by
  rw [makeParent_ok_iff h, ← d.ancestors_eq]
  rfl

/-- **A directory that was made is there:** the path of a file leads through directories on its
way. -/
theorem walk_of_makeParent (h : p.Ends up name) (hm : t.makeParent p = (.ok (), t')) :
    ∃ dir, t'.walk (t'.start p) up = .ok dir := by
  obtain ⟨q, -, hq⟩ := h.parent
  rcases hq.first with hnone | hfirst
  · have hsolid : Path.solid up = Path.solid [] := hnone
    exact ⟨_, walk_eq_of_solid hsolid t' _⟩
  have hmade := (makeParent_ok_iff h).mp hm
  rw [← hq.ancestors_eq] at hmade
  obtain ⟨dir, hw⟩ := walk_of_isDirectory ((extends_makeFirst hmade).2 rfl q hfirst)
  rw [walk_of_goes h hq] at hw
  exact ⟨dir, hw⟩

theorem Extends.walk_cases (h : t.Extends t') {ps : List String} {w : Way}
    (hw : t'.walk w ps = .ok dir) : t.walk w ps = .ok dir ∨ t.walk w ps = .error .notFound := by
  induction ps generalizing w with
  | nil => exact .inl hw
  | cons q ps ih =>
    unfold walk at hw ⊢
    by_cases hsilent : Path.isSilent q = true
    · rw [if_pos hsilent] at hw ⊢
      exact ih hw
    rw [if_neg hsilent] at hw ⊢
    by_cases hup : q = ".."
    · rw [if_pos hup] at hw ⊢
      exact ih hw
    rw [if_neg hup] at hw ⊢
    by_cases hlong : isTooLong q = true
    · rw [if_pos hlong] at hw
      cases hw
    rw [if_neg hlong] at hw ⊢
    rcases hl : t.lookup (w ++ [q]) with _ | e
    · exact .inr rfl
    rw [h.entry _ _ hl] at hw
    cases e with
    | directory => exact ih hw
    | file bytes => cases hw

theorem read_of_absent (h : p.Ends up name) (hfits : p.Fits) (hext : t.Extends t')
    (hw : t'.walk (t'.start p) up = .ok dir) (habsent : t'.lookup (dir ++ [name]) = none) :
    t.read p = .error .notFound := by
  rw [start_eq_of_here hext.here] at hw
  unfold read
  rcases hext.walk_cases hw with hw | hw
  · have hfree : t.lookup (dir ++ [name]) = none := by
      rw [Option.eq_none_iff_forall_ne_some]
      intro e he
      cases habsent.symm.trans (hext.entry _ _ he)
    simp only [locate_of_walk h hfits hw, hfree]
  · rw [locate_of_walk_error h hfits hw]

/-! ### The temporary file -/

theorem walk_temporary (h : p.Ends up name) (hw : t.walk (t.start p) up = .ok dir) :
    ∃ up', p.temporary.Ends up' (name ++ ".tmp") ∧ t.walk (t.start p.temporary) up' = .ok dir := by
  obtain ⟨up', hends, hhead, hsolid⟩ := h.temporary
  exact ⟨up', hends, (walk_eq_of_ends h hends hhead hsolid t).trans hw⟩

/-- It leads to the name with an ending in the same directory. -/
theorem locate_temporary (h : p.Ends up name) (hfits : p.temporary.Fits)
    (hw : t.walk (t.start p) up = .ok dir) :
    t.locate p.temporary = .ok (.named dir (name ++ ".tmp") false) := by
  obtain ⟨up', hends, hw'⟩ := walk_temporary h hw
  exact locate_of_walk hends hfits hw'

end FileTree

end VersionedStore
