import VersionedStore.Proofs.Files.NewDirectories

/-!
# Paths with a file name

The file name of a path is what stands before the pieces at its end that lead nowhere.  Without
those pieces the path has the same directory and the same temporary path, and it is read in the same
place; but what stands there has to be a directory if there are such pieces.

* `Path.Names`: a path with a file name, taken apart; `names_of_fileName?`: each is;
* `directory?`: the directory that the file of a path stands in; `directory?_eq`: it is found on the
  way to the name;
* `read_eq`: what is read at such a path.
-/

namespace VersionedStore

namespace Path

theorem trim_split (ps : List String) :
    ∃ blanks, ps = blanks ++ trim ps ∧ ∀ q ∈ blanks, isSilent q = true := by
  induction ps with
  | nil => exact ⟨[], rfl, by simp⟩
  | cons p ps ih =>
    by_cases hp : isSilent p = true
    swap
    · exact ⟨[], (trim_cons hp ps).symm, by simp⟩
    by_cases hps : ps = []
    · subst hps
      exact ⟨[], rfl, by simp⟩
    · obtain ⟨blanks, hsplit, hblanks⟩ := ih
      refine ⟨p :: blanks, ?_, by simpa [hp] using hblanks⟩
      rw [trim_cons_silent hp hps, List.cons_append, ← hsplit]

theorem trim_append {blanks : List String} (hblanks : ∀ q ∈ blanks, isSilent q = true)
    {ps : List String} (hps : ps ≠ []) : trim (blanks ++ ps) = trim ps := by
  induction blanks with
  | nil => rfl
  | cons q blanks ih =>
    have hne : blanks ++ ps ≠ [] := fun h => hps (List.append_eq_nil_iff.mp h).2
    rw [List.cons_append, trim_cons_silent (hblanks q (List.mem_cons_self ..)) hne]
    exact ih fun r hr => hblanks r (List.mem_cons_of_mem q hr)

/-- **A path with a file name:** after the pieces `up` comes a name that a file can have, and after
that nothing that leads anywhere. -/
structure Names (p : Path) (up : List String) (name : String) (blanks : List String) : Prop where
  pieces_eq : p.pieces = up ++ name :: blanks
  notSilent : isSilent name = false
  ne_up : name ≠ ".."
  blank : ∀ q ∈ blanks, isSilent q = true

variable {p : Path} {up blanks : List String} {name : String}

theorem names_of_fileName? (h : p.fileName? = some name) : ∃ up blanks, p.Names up name blanks := by
  obtain ⟨blanks, hsplit, hblanks⟩ := trim_split p.pieces.reverse
  have hspec : ∃ up, trim p.pieces.reverse = name :: up ∧ isSilent name = false ∧ name ≠ ".." := by
    unfold fileName? at h
    rcases htrim : trim p.pieces.reverse with _ | ⟨q, _ | ⟨r, rs⟩⟩ <;> simp only [htrim] at h
    · cases h
    · split at h <;> cases h
      rename_i hname
      simp only [Bool.or_eq_true, decide_eq_true_eq, not_or] at hname
      exact ⟨[], rfl, eq_false_of_ne_true hname.1, hname.2⟩
    · split at h <;> cases h
      rename_i hname
      have hsolid : ¬ isSilent name = true := fun hsilent => by cases trim_head htrim hsilent
      exact ⟨r :: rs, rfl, eq_false_of_ne_true hsolid, hname⟩
  obtain ⟨up, htrim, hsilent, hup⟩ := hspec
  refine ⟨up.reverse, blanks.reverse, ?_, hsilent, hup, by simpa using hblanks⟩
  have hpieces := congrArg List.reverse hsplit
  rw [htrim, List.reverse_reverse, List.reverse_append, List.reverse_cons,
    List.append_assoc] at hpieces
  exact hpieces

theorem Names.bare (h : p.Names up name blanks) : (⟨up ++ [name]⟩ : Path).Ends up name :=
  ⟨rfl, h.notSilent, h.ne_up⟩

theorem Ends.names (h : p.Ends up name) : p.Names up name [] :=
  ⟨h.pieces_eq, h.notSilent, h.ne_up, by simp⟩

theorem Names.trim_eq (h : p.Names up name blanks) :
    trim p.pieces.reverse = name :: up.reverse := by
  rw [h.pieces_eq, List.reverse_append, List.reverse_cons, List.append_assoc,
    trim_append (by simpa using h.blank) (by simp)]
  exact trim_cons (by rw [h.notSilent]; nofun) _

theorem Names.unique {up' blanks' : List String} {name' : String} (h : p.Names up name blanks)
    (h' : p.Names up' name' blanks') : up = up' ∧ name = name' := by
  obtain ⟨hname, hup⟩ := List.cons.inj (h.trim_eq.symm.trans h'.trim_eq)
  exact ⟨List.reverse_inj.mp hup, hname⟩

theorem Names.parent?_eq (h : p.Names up name blanks) :
    p.parent? = (⟨up ++ [name]⟩ : Path).parent? := by
  unfold parent?
  rw [h.trim_eq, h.bare.trim_eq]

theorem Names.fileName?_eq (h : p.Names up name blanks) : p.fileName? = some name := by
  rw [← h.bare.fileName?_eq]
  unfold fileName?
  rw [h.trim_eq, h.bare.trim_eq]

theorem Names.temporary_eq (h : p.Names up name blanks) :
    p.temporary = (⟨up ++ [name]⟩ : Path).temporary := by
  obtain ⟨q, hparent, -⟩ := h.bare.parent
  unfold temporary withFileName
  rw [h.fileName?_eq, h.bare.fileName?_eq, h.parent?_eq, hparent]

theorem Names.ne_empty (h : p.Names up name blanks) : name ≠ "" := by
  rintro rfl
  exact absurd h.notSilent (by decide)

theorem Names.isEmpty_eq (h : p.Names up name blanks) : p.isEmpty = false := by
  unfold Path.isEmpty
  rw [h.pieces_eq, List.all_append]
  simp [h.ne_empty]

end Path

namespace FileTree

variable {t t' : FileTree} {p : Path} {up blanks : List String} {name : String} {dir : Way}

theorem start_of_names (h : p.Names up name blanks) (t : FileTree) :
    t.start p = t.start ⟨up ++ [name]⟩ := by
  rw [start_of_ends h.bare, start_eq, h.pieces_eq]
  · rcases up with _ | ⟨u, up⟩
    · simp [h.ne_empty]
    · rfl
  · rw [h.pieces_eq]
    intro hsingle
    rcases up with _ | ⟨u, up⟩
    · exact h.ne_empty (List.cons.inj hsingle).1
    · exact absurd (List.cons.inj hsingle).2 (by simp)

theorem makeParent_of_names (h : p.Names up name blanks) (t : FileTree) :
    t.makeParent p = t.makeParent ⟨up ++ [name]⟩ := by
  unfold makeParent
  rw [h.parent?_eq]

/-- **The directory that the file of a path stands in**, if it is there. -/
def directory? (t : FileTree) (p : Path) : Option Way :=
  p.parent?.bind fun q => (t.walk (t.start q) q.pieces).toOption

/-- It is found on the way to the name of the file. -/
theorem directory?_eq (h : p.Names up name blanks) (t : FileTree) :
    t.directory? p = (t.walk (t.start p) up).toOption := by
  obtain ⟨q, hparent, hgoes⟩ := h.bare.parent
  unfold directory?
  rw [h.parent?_eq, hparent, start_of_names h, ← walk_of_goes h.bare hgoes]
  rfl

theorem directory?_eq_some_iff (h : p.Names up name blanks) :
    t.directory? p = some dir ↔ t.walk (t.start p) up = .ok dir := by
  rw [directory?_eq h]
  rcases t.walk (t.start p) up with e | found <;> simp [Except.toOption]

theorem named_of_names (h : p.Names up name blanks) {found : String} {slash : Bool}
    (hl : t.locate p = .ok (.named dir found slash)) :
    found = name ∧ t.walk (t.start p) up = .ok dir := by
  obtain ⟨up', slashes, hpieces, hslashes, -, hw, hsilent, hup, -⟩ := locate_named hl
  have hnames : p.Names up' found slashes :=
    ⟨hpieces, hsilent, hup, fun q hq => by rw [hslashes q hq]; rfl⟩
  obtain ⟨rfl, rfl⟩ := h.unique hnames
  exact ⟨rfl, hw⟩

/-! ### Reading -/

/-- What is read of an entry, or where there is none; `slash` tells whether the path goes on after
it. -/
def contents (slash : Bool) : Option Entry → Except FileError (List UInt8)
  | none => .error .notFound
  | some .directory => .error .isDirectory
  | some (.file bytes) => if slash then .error .notDirectory else .ok bytes

theorem walk_silent {ps : List String} (h : ∀ q ∈ ps, Path.isSilent q = true) (t : FileTree)
    (here : Way) : t.walk here ps = .ok here := by
  have hnone : Path.solid ps = Path.solid [] :=
    List.filter_eq_nil_iff.mpr fun q hq => by simp [h q hq]
  exact walk_eq_of_solid hnone t here

theorem getLast?_of_slashes (h : p.Names up name blanks)
    (hslashes : blanks.reverse.dropWhile (· = "") = []) :
    decide (p.pieces.getLast? = some "") = !blanks.isEmpty := by
  rw [List.dropWhile_eq_nil_iff] at hslashes
  rcases List.eq_nil_or_concat blanks with rfl | ⟨rest, last, rfl⟩
  · simp [h.pieces_eq, h.ne_empty]
  · obtain rfl : last = "" := by simpa using hslashes last (by simp)
    rw [h.pieces_eq, List.concat_eq_append, ← List.cons_append, ← List.append_assoc,
      List.getLast?_concat]
    simp

theorem dot_of_dropWhile (hblanks : ∀ q ∈ blanks, Path.isSilent q = true) {last : String}
    {rest : List String} (h : blanks.reverse.dropWhile (· = "") = last :: rest) :
    last = "." ∧ ∀ q ∈ rest.reverse, Path.isSilent q = true := by
  have hmem {q : String} (hq : q ∈ last :: rest) : Path.isSilent q = true := by
    rw [← h] at hq
    exact hblanks q (List.mem_reverse.mp (List.dropWhile_subset _ hq))
  have hne : last ≠ "" := by
    have hhead := List.head_dropWhile_not (p := fun q => decide (q = "")) (l := blanks.reverse)
    simpa [h] using hhead
  refine ⟨?_, fun q hq => hmem (List.mem_cons_of_mem last (List.mem_reverse.mp hq))⟩
  have hlast := hmem (List.mem_cons_self ..)
  unfold Path.isSilent at hlast
  simpa [hne] using hlast

/-- **What is read at a path with a file name** is told by the way to the name and by the entry
there. -/
theorem read_eq (h : p.Names up name blanks) (t : FileTree) : t.read p =
    if p.text.toList.any (· = '\x00') then .error .nulInName
    else if maxPath < p.text.utf8ByteSize then .error .nameTooLong
    else (t.walk (t.start p) up).bind fun dir =>
      if isTooLong name then .error .nameTooLong
      else contents (!blanks.isEmpty) (t.lookup (dir ++ [name])) := by
  unfold read locate
  by_cases hnul : p.text.toList.any (· = '\x00') = true
  · rw [if_pos hnul, if_pos hnul]
  rw [if_neg hnul, if_neg hnul, h.isEmpty_eq, if_neg nofun]
  by_cases hlong : maxPath < p.text.utf8ByteSize
  · rw [if_pos hlong, if_pos hlong]
  rw [if_neg hlong, if_neg hlong]
  have hreverse : p.pieces.reverse = blanks.reverse ++ name :: up.reverse := by
    rw [h.pieces_eq, List.reverse_append, List.reverse_cons, List.append_assoc]
    rfl
  have hdot : name ≠ "." := h.bare.ne_dot
  rw [hreverse, List.dropWhile_append]
  -- after the name there are slashes only, or a dot among them
  rcases hdrop : blanks.reverse.dropWhile (· = "") with _ | ⟨last, rest⟩
  · have hslash := getLast?_of_slashes h hdrop
    rw [List.dropWhile_cons_of_neg (by simp [h.ne_empty])]
    simp only [List.isEmpty_nil, if_true, List.reverse_reverse]
    rcases t.walk (t.start p) up with e | dir
    · rfl
    simp only [if_neg hdot, if_neg h.ne_up, Except.bind]
    by_cases hname : isTooLong name = true
    · simp only [if_pos hname]
    simp only [if_neg hname, hslash]
    rcases t.lookup (dir ++ [name]) with _ | _ | bytes <;> rfl
  · obtain ⟨rfl, hrest⟩ := dot_of_dropWhile h.blank hdrop
    have hblanks : blanks ≠ [] := by
      rintro rfl
      cases hdrop
    simp only [List.isEmpty_cons, Bool.false_eq_true, if_false, List.cons_append,
      List.reverse_append, List.reverse_cons, List.reverse_reverse, List.append_assoc,
      List.nil_append, walk_append]
    rcases t.walk (t.start p) up with e | dir
    · rfl
    simp only [Except.bind, walk, h.notSilent, Bool.false_eq_true, if_false, if_neg h.ne_up]
    by_cases hname : isTooLong name = true
    · simp only [if_pos hname]
    simp only [if_neg hname]
    rcases t.lookup (dir ++ [name]) with _ | _ | bytes
    · rfl
    · simp only [walk_silent hrest, if_true]
      rfl
    · simp [contents, hblanks]

end FileTree

end VersionedStore
