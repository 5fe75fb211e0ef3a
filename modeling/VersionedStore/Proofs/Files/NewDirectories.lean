import VersionedStore.Proofs.Files.Writing

/-!
# Directories that are made

What is new in a tree after a directory was made with those on its way: directories, and only such
that lie before the path.

* `makeParent_of_isDirectory`, `makeParent_of_read`: a directory that is there is not made again,
  and a file that can be read has its directory;
* `locate_mem_ways`: the place of a path lies before the path;
* `entry_makeParent`: what making the directory of a file puts into a tree.
-/

namespace VersionedStore

namespace Path

variable {p q : Path}

theorem ancestors_parent (h : p.parent? = some q) :
    q.ancestors = [] ∨ q.ancestors.head? = some q := by
  unfold parent? at h
  rcases htrim : trim p.pieces.reverse with _ | ⟨r, _ | ⟨r', rs⟩⟩ <;> simp only [htrim] at h
  · cases h
  · split at h <;> cases h
    exact .inl rfl
  · split at h <;> cases h
    · exact .inl rfl
    · rename_i hroot
      have hhead := head_ancestorsFrom_trim (trim_ne_nil (List.cons_ne_nil r' rs)) hroot
      refine .inr ?_
      unfold ancestors
      rw [List.reverse_reverse]
      exact hhead

theorem text_of_prefix (h : q.pieces <+: p.pieces) : ∃ rest, p.text = q.text ++ rest := by
  obtain ⟨ps, hps⟩ := h
  unfold text
  rw [← hps]
  by_cases hq : q.pieces = []
  · refine ⟨"/".intercalate ps, ?_⟩
    rw [hq, String.intercalate_nil, String.empty_append]
    rfl
  by_cases hnone : ps = []
  · refine ⟨"", ?_⟩
    rw [hnone, List.append_nil, String.append_empty]
  · exact ⟨_, (String.intercalate_append_of_ne_nil hq hnone).trans (String.append_assoc ..)⟩

theorem any_nul_text (p : Path) : p.text.toList.any (· = '\x00') =
    p.pieces.any fun piece => piece.toList.any (· = '\x00') := by
  obtain ⟨ps⟩ := p
  unfold text
  induction ps with
  | nil => rfl
  | cons q qs ih =>
    dsimp only at ih ⊢
    rw [List.any_cons, ← ih]
    rcases qs with _ | ⟨r, rs⟩
    · rw [String.intercalate_singleton, String.intercalate_nil]
      exact (Bool.or_false _).symm
    · rw [String.intercalate_cons_cons, String.toList_append, String.toList_append, List.any_append,
        List.any_append, Bool.or_assoc]
      rfl

theorem nul_child {name : String} (hp : p.text.toList.any (· = '\x00') = false)
    (hname : name.toList.any (· = '\x00') = false) :
    (p.child name).text.toList.any (· = '\x00') = false := by
  rw [any_nul_text] at hp ⊢
  have hstem : p.stem.any (fun piece => piece.toList.any (· = '\x00')) = false := by
    rcases p.stem_cases with h | h <;> rw [h] at hp
    · exact hp
    · rw [List.any_append, Bool.or_eq_false_iff] at hp
      exact hp.1
  rw [pieces_child, List.any_append, hstem, List.any_cons, hname]
  rfl

theorem text_concat {up : List String} (hne : up ≠ []) (name : String) :
    (⟨up ++ [name]⟩ : Path).text = (⟨up⟩ : Path).text ++ "/" ++ name := by
  unfold text
  rw [String.intercalate_append_of_ne_nil hne (List.cons_ne_nil name []),
    String.intercalate_singleton]

theorem text_child (hne : p.pieces ≠ []) (hlast : p.pieces.getLast? ≠ some "") (name : String) :
    (p.child name).text = p.text ++ "/" ++ name := by
  have hstem : p.stem = p.pieces := by
    rcases p.stem_cases with h | h
    · exact h.symm
    · rw [h, List.getLast?_concat] at hlast
      exact absurd rfl hlast
  rw [show p.child name = ⟨p.pieces ++ [name]⟩ by rw [← hstem, ← pieces_child], text_concat hne]

theorem intercalate_split (cs : List Char) : split cs ≠ [] ∧ ['/'].intercalate (split cs) = cs := by
  induction cs with
  | nil => exact ⟨List.cons_ne_nil _ _, rfl⟩
  | cons c cs ih =>
    obtain ⟨hne, hcs⟩ := ih
    unfold split
    rcases hsplit : split cs with _ | ⟨q, qs⟩
    · exact absurd hsplit hne
    rw [hsplit] at hcs
    by_cases hc : c = '/'
    · rw [if_pos hc, List.intercalate_cons_cons, hcs, hc]
      exact ⟨List.cons_ne_nil _ _, rfl⟩
    · rw [if_neg hc]
      refine ⟨List.cons_ne_nil _ _, ?_⟩
      rcases qs with _ | ⟨r, rs⟩
      · rw [List.intercalate_singleton] at hcs ⊢
        rw [hcs]
      · rw [List.intercalate_cons_cons] at hcs ⊢
        rw [List.cons_append, List.cons_append, hcs]

theorem text_ofString (s : String) : (ofString s).text = s := by
  have htext : (ofString s).text.toList = ['/'].intercalate (split s.toList) := by
    unfold text ofString
    rw [String.toList_intercalate, List.map_map]
    congr 1
    exact List.map_id'' (fun cs => String.toList_ofList) _
  rw [(intercalate_split s.toList).2] at htext
  exact String.toList_inj.mp htext

theorem trim_suffix (ps : List String) : trim ps <:+ ps := by
  induction ps with
  | nil => exact List.suffix_rfl
  | cons p ps ih =>
    by_cases hp : isSilent p = true
    swap
    · exact ⟨[], trim_cons hp ps⟩
    cases ps with
    | nil => exact List.suffix_rfl
    | cons q qs =>
      rw [trim_cons_silent hp (List.cons_ne_nil q qs)]
      exact ih.trans (List.suffix_cons p _)

theorem Ends.parent_prefix {up : List String} {name : String} (h : p.Ends up name)
    (hq : p.parent? = some q) (hmade : q.ancestors ≠ []) : q.pieces <+: p.pieces := by
  rcases h.parent_cases with ⟨-, hparent⟩ | ⟨-, hparent⟩ | ⟨-, -, hparent⟩ <;>
    obtain rfl := Option.some.inj (hq.symm.trans hparent)
  · exact absurd rfl hmade
  · exact absurd rfl hmade
  · have hbegins := List.reverse_prefix.mpr (trim_suffix up.reverse)
    rw [List.reverse_reverse] at hbegins
    rw [h.pieces_eq]
    exact hbegins.trans (List.prefix_append ..)

theorem mem_ancestorsFrom {ps : List String} (h : q ∈ ancestorsFrom ps) :
    q.pieces ≠ [] ∧ q.pieces ≠ [""] ∧ q.pieces <+: ps.reverse := by
  induction ps with
  | nil => cases h
  | cons p ps ih =>
    cases ps with
    | nil =>
      unfold ancestorsFrom at h
      split at h
      · cases h
      · rename_i hp
        obtain rfl := List.mem_singleton.mp h
        exact ⟨List.cons_ne_nil p [], fun heq => hp (List.cons.inj heq).1, List.prefix_rfl⟩
    | cons r rs =>
      have hprefix : (r :: rs).reverse <+: (p :: r :: rs).reverse := ⟨[p], List.reverse_cons.symm⟩
      have hlater (h : q ∈ ancestorsFrom (r :: rs)) :
          q.pieces ≠ [] ∧ q.pieces ≠ [""] ∧ q.pieces <+: (p :: r :: rs).reverse := by
        obtain ⟨hne, hroot, hbegins⟩ := ih h
        exact ⟨hne, hroot, hbegins.trans hprefix⟩
      unfold ancestorsFrom at h
      split at h
      · exact hlater h
      · rcases List.mem_cons.mp h with rfl | h
        · refine ⟨by simp, fun heq => ?_, List.prefix_rfl⟩
          have hlength := congrArg List.length heq
          simp at hlength
        · exact hlater h

end Path

namespace FileTree

variable {t t' : FileTree} {p q dir : Path} {w : Way}

/-- **A directory that is there is not made again.** -/
theorem makeParent_of_isDirectory (h : p.parent? = some dir) (hdir : t.isDirectory dir = true) :
    t.makeParent p = (.ok (), t) := by
  have hmade : t.makeDirectories dir = (.ok (), t) := by
    unfold makeDirectories
    rcases Path.ancestors_parent h with hnone | hfirst
    · rw [hnone]
      rfl
    · obtain ⟨rest, hrest⟩ := List.head?_eq_some_iff.mp hfirst
      rw [hrest]
      exact makeFirst_of_isDirectory hdir rest
  unfold makeParent
  simp only [h, hmade]
  split <;> rfl

theorem isDirectory_of_walk (hnul : p.text.toList.any (· = '\x00') = false)
    (htext : p.text.utf8ByteSize ≤ maxPath) (hempty : p.isEmpty = false)
    (h : t.walk (t.start p) p.pieces = .ok w) : t.isDirectory p = true := by
  rw [← walk_eq_of_solid (Path.solid_dropWhile p.pieces)] at h
  unfold isDirectory locate
  rw [hnul, if_neg nofun, hempty, if_neg nofun, if_neg (Nat.not_lt.mpr htext)]
  rcases hdrop : p.pieces.reverse.dropWhile (· = "") with _ | ⟨last, up⟩
  · rfl
  rw [hdrop, List.reverse_cons, walk_append] at h
  rcases hup : t.walk (t.start p) up.reverse with e | d <;> rw [hup] at h
  · cases h
  -- the last piece is dots, or a name that the walk went through
  have hlast : t.walk d [last] = .ok w := h
  by_cases hdot : last = "."
  · simp only [hup, if_pos hdot]
  by_cases hdots : last = ".."
  · simp only [hup, if_neg hdot, if_pos hdots]
  have hne : last ≠ "" := by
    have hhead := List.head_dropWhile_not (p := fun q => decide (q = "")) (l := p.pieces.reverse)
    simpa [hdrop] using hhead
  have hsilent : ¬ Path.isSilent last = true := by simp [Path.isSilent, hne, hdot]
  unfold walk at hlast
  rw [if_neg hsilent, if_neg hdots] at hlast
  by_cases hlong : isTooLong last = true
  · rw [if_pos hlong] at hlast
    cases hlast
  rw [if_neg hlong] at hlast
  simp only [hup, if_neg hdot, if_neg hdots, if_neg hlong]
  rcases hentry : t.lookup (d ++ [last]) with _ | _ | bytes <;> rw [hentry] at hlast
  · cases hlast
  · rfl
  · cases hlast

/-- **A file that can be read has its directory**, so nothing is made for it. -/
theorem makeParent_of_read {bytes : List UInt8} (h : t.read p = .ok bytes) :
    t.makeParent p = (.ok (), t) := by
  obtain ⟨d, name, hl, -⟩ := read_eq_ok_iff.mp h
  obtain ⟨⟨hnul, htext⟩, -⟩ := locate_cases hl
  obtain ⟨up, blanks, hpieces, -, hblanks, hw, hsilent, hup, -⟩ := locate_named hl
  rw [hblanks rfl] at hpieces
  have hends : p.Ends up name := ⟨hpieces, hsilent, hup⟩
  obtain ⟨q, hparent, hgoes⟩ := hends.parent
  by_cases hnone : q.ancestors = []
  · unfold makeParent makeDirectories
    simp only [hparent, hnone]
    split <;> rfl
  by_cases hempty : q.isEmpty = true
  · unfold makeParent
    simp only [hparent, hempty, if_true]
  obtain ⟨rest, hrest⟩ := Path.text_of_prefix (hends.parent_prefix hparent hnone)
  have hnul' : q.text.toList.any (· = '\x00') = false := by
    rw [hrest, String.toList_append, List.any_append, Bool.or_eq_false_iff] at hnul
    exact hnul.1
  have htext' : q.text.utf8ByteSize ≤ maxPath := by
    rw [hrest, String.utf8ByteSize_append] at htext
    exact Nat.le_trans (Nat.le_add_right _ _) htext
  -- the directory goes the way that the file was found on
  have hwalk : t.walk (t.start q) q.pieces = .ok d := (walk_of_goes hends hgoes t).trans hw
  exact makeParent_of_isDirectory hparent
    (isDirectory_of_walk hnul' htext' (eq_false_of_ne_true hempty) hwalk)

/-! ### Ways before a path -/

theorem ways_eq (h : t'.here = t.here) (p : Path) : t'.ways p = t.ways p := by
  unfold ways
  rw [start_eq_of_here h]

theorem waysFrom_subset (here : Way) (ps qs : List String) :
    waysFrom here ps ⊆ waysFrom here (ps ++ qs) := by
  induction ps generalizing here with
  | nil => exact List.nil_subset _
  | cons p ps ih =>
    rw [List.cons_append, waysFrom, waysFrom]
    split
    · exact ih here
    split
    · exact ih _
    · exact List.cons_subset_cons _ (ih _)

theorem ways_subset (h : q ∈ p.ancestors) (t : FileTree) : t.ways q ⊆ t.ways p := by
  obtain ⟨hne, hroot, hbegins⟩ := Path.mem_ancestorsFrom h
  rw [List.reverse_reverse] at hbegins
  obtain ⟨rest, hrest⟩ := hbegins
  have hroot' : p.pieces ≠ [""] := by
    intro hp
    rw [hp] at hrest
    rcases hq : q.pieces with _ | ⟨r, rs⟩
    · exact hne hq
    · rw [hq] at hrest hroot
      obtain ⟨rfl, hnil⟩ := List.cons.inj hrest
      exact hroot (by rw [(List.append_eq_nil_iff.mp hnil).1])
  have hstart : t.start p = t.start q := by
    obtain ⟨r, rs, hq⟩ := List.exists_cons_of_ne_nil hne
    rw [start_eq hroot, start_eq hroot', ← hrest, hq]
    rfl
  unfold ways
  rw [hstart, ← hrest]
  exact waysFrom_subset _ _ _

theorem mem_waysFrom_of_walk {here d : Way} {ps rest : List String} {name : String}
    (h : t.walk here ps = .ok d) (hsilent : Path.isSilent name = false) (hup : name ≠ "..") :
    d ++ [name] ∈ waysFrom here (ps ++ name :: rest) := by
  induction ps generalizing here with
  | nil =>
    obtain rfl := Except.ok.inj h
    rw [List.nil_append, waysFrom, hsilent, if_neg nofun, if_neg hup]
    exact List.mem_cons_self ..
  | cons p ps ih =>
    unfold walk at h
    rw [List.cons_append, waysFrom]
    by_cases hp : Path.isSilent p = true
    · rw [if_pos hp] at h ⊢
      exact ih h
    rw [if_neg hp] at h ⊢
    by_cases hp' : p = ".."
    · rw [if_pos hp'] at h ⊢
      exact ih h
    rw [if_neg hp'] at h ⊢
    by_cases hlong : isTooLong p = true
    · rw [if_pos hlong] at h
      cases h
    rw [if_neg hlong] at h
    rcases hl : t.lookup (here ++ [p]) with _ | _ | bytes <;> simp only [hl] at h
    · cases h
    · exact List.mem_cons_of_mem _ (ih h)
    · cases h

/-- **The place of a path** lies before the path. -/
theorem locate_mem_ways {d : Way} {name : String} {slash : Bool}
    (h : t.locate p = .ok (.named d name slash)) : d ++ [name] ∈ t.ways p := by
  obtain ⟨up, blanks, hpieces, -, -, hw, hsilent, hup, -⟩ := locate_named h
  unfold ways
  rw [hpieces]
  exact mem_waysFrom_of_walk hw hsilent hup

/-! ### New entries -/

theorem entry_makeDirectory (h : t.makeDirectory p = .ok t') (hw : t.lookup w = none) :
    t'.lookup w = none ∨ t'.lookup w = some .directory ∧ w ∈ t.ways p := by
  unfold makeDirectory at h
  rcases hl : t.locate p with e | ⟨d, name, slash⟩ | d <;> simp only [hl] at h
  · cases h
  · split at h
    · cases h
    obtain rfl := Except.ok.inj h
    rw [lookup_put (way_ne_nil d name)]
    by_cases heq : w = d ++ [name]
    · rw [if_pos heq, heq]
      exact .inr ⟨rfl, locate_mem_ways hl⟩
    · rw [if_neg heq]
      exact .inl hw
  · cases h

theorem entry_makeFirst {ps : List Path} {r : Except FileError Unit} (h : t.makeFirst ps = (r, t'))
    (hw : t.lookup w = none) :
    t'.lookup w = none ∨ t'.lookup w = some .directory ∧ ∃ p ∈ ps, w ∈ t.ways p := by
  induction ps generalizing t' r with
  | nil =>
    cases h
    exact .inl hw
  | cons p ps ih =>
    unfold makeFirst at h
    rcases hp : t.makeDirectory p with e | t₁ <;> simp only [hp] at h
    swap
    · obtain ⟨-, rfl⟩ := Prod.mk.inj h
      exact (entry_makeDirectory hp hw).imp_right fun h => ⟨h.1, p, List.mem_cons_self .., h.2⟩
    cases e with
    | notFound =>
      rcases hps : t.makeFirst ps with ⟨r₁, t₁⟩
      have hrest : t₁.lookup w = none ∨
          t₁.lookup w = some .directory ∧ ∃ q ∈ p :: ps, w ∈ t.ways q := by
        refine (ih hps).imp_right fun h => ⟨h.1, ?_⟩
        obtain ⟨q, hq, hway⟩ := h.2
        exact ⟨q, List.mem_cons_of_mem p hq, hway⟩
      rcases r₁ with e | _ <;> simp only [hps] at h
      · obtain ⟨-, rfl⟩ := Prod.mk.inj h
        exact hrest
      rcases hp' : t₁.makeDirectory p with e' | t₂ <;> simp only [hp'] at h <;>
        obtain ⟨-, rfl⟩ := Prod.mk.inj h
      · exact hrest
      · -- the directories on the way are there, and the last one is new
        rcases hrest with hfree | ⟨hdir, hway⟩
        · have hways := ways_eq (extends_makeFirst hps).1.here p
          exact (entry_makeDirectory hp' hfree).imp_right fun h =>
            ⟨h.1, p, List.mem_cons_self .., hways ▸ h.2⟩
        · exact .inr ⟨(extends_makeDirectory hp').1.entry _ _ hdir, hway⟩
    | _ =>
      obtain ⟨-, rfl⟩ := Prod.mk.inj h
      exact .inl hw

/-- **What making the directory of a file puts into a tree:** directories before that directory. -/
theorem entry_makeParent (p : Path) (hw : t.lookup w = none) :
    (t.makeParent p).2.lookup w = none ∨ (t.makeParent p).2.lookup w = some .directory ∧
      ∃ dir, p.parent? = some dir ∧ w ∈ t.ways dir := by
  unfold makeParent
  rcases hp : p.parent? with _ | dir
  · exact .inl hw
  dsimp only
  split
  · exact .inl hw
  rcases hm : t.makeDirectories dir with ⟨r, t'⟩
  have hnew : t'.lookup w = none ∨
      t'.lookup w = some .directory ∧ ∃ d, some dir = some d ∧ w ∈ t.ways d := by
    refine (entry_makeFirst hm hw).imp_right fun h => ⟨h.1, dir, rfl, ?_⟩
    obtain ⟨q, hq, hway⟩ := h.2
    exact ways_subset hq t hway
  cases r <;> exact hnew

end FileTree

end VersionedStore
