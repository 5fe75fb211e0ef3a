import VersionedStore.Proofs.Files.FailedWriting
import VersionedStore.Proofs.Storage.Simulation

/-!
# A document is replaced or left

A writing that fails leaves the document that is in the file, and everything else that is in files;
it may leave directories that were made for it.  A writing that succeeds puts the whole document in
the place of the old one, if the device takes it.

* `set_is_all_or_nothing`: the statement for all trees, paths with a file name and entries;
* `failed_set_uncovers`: directories that a writing leaves can lead to another document, or to none,
  and a full device keeps nothing of a document that was written.
-/

namespace VersionedStore.FileStorage

variable {path : Path} {t t' : FileTree} {entries : Object} {name : String}

theorem get_eq_of_read (h : t'.read path = t.read path) (keys : Option (List String)) :
    ((storage path).get keys t').1 = ((storage path).get keys t).1 := by
  show (readDocument path t').map _ = (readDocument path t).map _
  unfold readDocument
  rw [h]

theorem base_spec (path : Path) (t : FileTree) :
    (∀ document, ((storage path).get none t).1 = .ok document → base path t = document) ∧
      ((∃ e, ((storage path).get none t).1 = .error e) ∨ t.read path = .error .notFound ∨
        t.read path = .ok [] → base path t = []) := by
  have hget : ((storage path).get none t).1 = readDocument path t := by
    show (readDocument path t).map _ = _
    rcases readDocument path t with e | document <;> rfl
  rw [hget]
  unfold base
  refine ⟨fun document h => by rw [h], ?_⟩
  rintro (⟨e, h⟩ | h | h)
  · rw [h]
  · unfold readDocument
    rw [h]
  · rw [readDocument_of_read h]
    rfl

/-- **A writing is all or nothing.**  Over any tree and any path with a file name: if a writing
fails, whichever step of it, no file appears or disappears and each keeps its bytes, but for the one
beside the file whose name has the ending of temporary files, which stays a file if it was one; and
the next reading answers what it would have answered before, provided that it would have met
anything but a missing file, or that the directory of the file was there, or that the path goes down
only, through names that a file can have.  If a writing succeeds, the temporary file is not there,
and every other file is as it was.  The file itself then holds the printed document, if the device
takes it: the document that was there before, or an empty one where that could not be read, with the
entries put to it. -/
theorem set_is_all_or_nothing (hname : path.fileName? = some name) (t : FileTree)
    (entries : Object) :
    let answer := ((storage path).set entries t).1
    let after := ((storage path).set entries t).2
    let text (old : Object) := Text.encode (Json.prettyChars 0 (.object (old.merge entries)))
    (∀ e, answer = .error e →
      (∀ w, (∀ dir, after.directory? path = some dir → w ≠ dir ++ [name ++ ".tmp"]) →
        t.SameFile after w) ∧
      (∀ w bytes, t.lookup w = some (.file bytes) → ∃ now, after.lookup w = some (.file now)) ∧
      (t.read path ≠ .error .notFound ∨ t.directory? path ≠ none ∨ t.Closed ∧ path.Plain →
        ∀ keys, ((storage path).get keys after).1 = ((storage path).get keys t).1)) ∧
    (answer = .ok () → ∃ dir old, after.directory? path = some dir ∧
      (∀ document, ((storage path).get none t).1 = .ok document → old = document) ∧
      ((∃ e, ((storage path).get none t).1 = .error e) ∨ t.read path = .error .notFound ∨
        t.read path = .ok [] → old = []) ∧
      (t.Takes (text old) → after.read path = .ok (text old) ∧
        after.lookup (dir ++ [name]) = some (.file (text old))) ∧
      after.lookup (dir ++ [name ++ ".tmp"]) = none ∧
      ∀ w, w ≠ dir ++ [name] → w ≠ dir ++ [name ++ ".tmp"] → t.SameFile after w) := by
  intro answer after text
  obtain ⟨up, blanks, hp⟩ := Path.names_of_fileName? hname
  have h : t.WritesAt path name (print ((base path t).merge entries)) answer after :=
    FileTree.writesAt_of_writeAtomically hp rfl
  refine ⟨fun e he => ?_, fun hok => ?_⟩
  · rw [he] at h
    refine ⟨fun w hw => h.sameFile hw nofun, fun w bytes hw => h.file_kept hw, fun hseen keys => ?_⟩
    exact get_eq_of_read (h.read_eq hp hseen) keys
  · have hset : (storage path).set entries t = (.ok (), after) := Prod.ext hok rfl
    rw [hok] at h
    obtain ⟨dir, hdir, hfile, htemporary⟩ := h.written
    obtain ⟨hread, hnone⟩ := base_spec path t
    refine ⟨dir, base path t, hdir, hread, hnone, fun ht => ⟨?_, ?_⟩, htemporary,
      fun w hw hw' => h.sameFile (fun d hd => ?_) fun d hd _ => ?_⟩
    · exact (FileTree.read_writeAtomically hset).trans (congrArg Except.ok ht)
    · exact hfile.trans (congrArg (fun bytes => some (Entry.file bytes)) ht)
    · rwa [Option.some.inj (hd.symm.trans hdir)]
    · rwa [Option.some.inj (hd.symm.trans hdir)]

/-- A document, and a directory where its temporary file would have to be. -/
def blockedFile : FileTree :=
  { entries := [(["state.json"], .file (print [("seen", .bool true)])),
      (["state.json.tmp"], .directory)] }

/-- A document stays as it is where its temporary file cannot be made, and a first document is put
in a directory that is made for it. -/
theorem set_is_all_or_nothing_blocked :
    (∃ e, ((storage (.ofString "state.json")).set [] blockedFile).1 = .error e ∧
      ((storage (.ofString "state.json")).get none
          ((storage (.ofString "state.json")).set [] blockedFile).2).1 =
        ((storage (.ofString "state.json")).get none blockedFile).1) ∧
    ((storage (.ofString "data/state.json")).set [("seen", .bool true)] {}).1 = .ok () ∧
      ((storage (.ofString "data/state.json")).set [("seen", .bool true)] {}).2.read
        (.ofString "data/state.json") = .ok (print [("seen", .bool true)]) := by
  refine ⟨⟨_, rfl, ?_⟩, rfl, ?_⟩
  · have hname : (Path.ofString "state.json").fileName? = some "state.json" := rfl
    have hread : blockedFile.read (.ofString "state.json") ≠ .error .notFound := nofun
    obtain ⟨-, -, hget⟩ := (set_is_all_or_nothing hname blockedFile []).1 _ rfl
    exact hget (.inl hread) none
  · have hname : (Path.ofString "data/state.json").fileName? = some "state.json" := rfl
    obtain ⟨dir, old, -, -, hnone, hread, -⟩ :=
      (set_is_all_or_nothing hname {} [("seen", .bool true)]).2 rfl
    rw [hnone (.inr (.inl rfl))] at hread
    exact (hread rfl).1

/-! ### Directories that are left -/

/-- The path of a long name in a directory that is missing. -/
def missingPath (n : Nat) : Path := ⟨["missing", longName n]⟩

theorem ends_missingPath {n : Nat} (h : 2 < n) : (missingPath n).Ends ["missing"] (longName n) :=
  ⟨rfl, (ends_longPath h).notSilent, (ends_longPath h).ne_up⟩

theorem temporary_missingPath {n : Nat} (h : 2 < n) :
    (missingPath n).temporary = ⟨["missing", longName n ++ ".tmp"]⟩ := by
  have hends := ends_missingPath h
  have hparent : (missingPath n).parent? = some ⟨["missing"]⟩ := by
    rcases hends.parent_cases with ⟨⟨⟩, -⟩ | ⟨htrim, -⟩ | ⟨-, -, hparent⟩
    · exact absurd htrim (by decide)
    · exact hparent
  unfold Path.temporary Path.withFileName
  rw [hends.fileName?_eq, hparent]
  rfl

theorem text_missing (s : String) : (⟨["missing", s]⟩ : Path).text = "missing/" ++ s := by
  unfold Path.text
  rw [String.intercalate_cons_cons, String.intercalate_singleton]
  rfl

theorem nul_missing (n : Nat) (s : String) :
    (⟨["missing", longName n ++ s]⟩ : Path).text.toList.any (· = '\x00') =
      s.toList.any (· = '\x00') := by
  rw [text_missing, String.toList_append, List.any_append, nul_longName]
  rfl

theorem nul_missingPath (n : Nat) : (missingPath n).text.toList.any (· = '\x00') = false := by
  have hnone := nul_missing n ""
  rwa [String.append_empty] at hnone

theorem utf8ByteSize_missingPath (n : Nat) : (missingPath n).text.utf8ByteSize = 8 + n := by
  unfold missingPath
  rw [text_missing, String.utf8ByteSize_append, utf8ByteSize_longName]
  rfl

/-- Once there is the directory, the name in it is too long. -/
theorem read_missingPath {n : Nat} (h : 255 < n) (hn : n < 4000) (ht : t.here = []) :
    t.read (missingPath n) = (t.walk [] ["missing"]).bind fun _ => .error .nameTooLong := by
  have hnames := (ends_missingPath (Nat.lt_trans (by decide) h)).names
  have htext : ¬ FileTree.maxPath < (missingPath n).text.utf8ByteSize := by
    rw [utf8ByteSize_missingPath]
    unfold FileTree.maxPath
    omega
  have hlong : FileTree.isTooLong (longName n) = true := by
    unfold FileTree.isTooLong
    rw [utf8ByteSize_longName]
    exact decide_eq_true h
  rw [FileTree.read_eq hnames, nul_missingPath, if_neg nofun, if_neg htext,
    FileTree.start_of_root ht]
  simp only [hlong, if_true]

theorem missingPath_differs {n : Nat} (h : 255 < n) (hn : n < 4000) (entries : Object) :
    ((storage (missingPath n)).get none {}).1 = .ok [] ∧
      (∃ e, ((storage (missingPath n)).set entries {}).1 = .error e) ∧
      ∃ e, ((storage (missingPath n)).get none
        ((storage (missingPath n)).set entries {}).2).1 = .error e := by
  have hends := ends_missingPath (Nat.lt_trans (by decide) h)
  let made : FileTree := { entries := [(["missing"], .directory)] }
  have hm : FileTree.makeParent {} (missingPath n) = (.ok (), made) :=
    (FileTree.makeParent_ok_iff hends).mpr rfl
  have hset : (storage (missingPath n)).set entries {} = (.error _, made) :=
    FileTree.writeAtomically_of_isTooLong hends
      (by rw [temporary_missingPath (Nat.lt_trans (by decide) h), nul_missing]; rfl)
      (isTooLong_temporary (Nat.lt_trans (by decide) h)) hm _
  have hbefore : FileTree.read {} (missingPath n) = .error .notFound := read_missingPath h hn rfl
  have hafter : made.read (missingPath n) = .error .nameTooLong := read_missingPath h hn rfl
  have hget (t : FileTree) : ((storage (missingPath n)).get none t).1 =
      (readDocument (missingPath n) t).map (·.select none) := rfl
  rw [hget, hset, hget]
  unfold readDocument
  rw [hbefore, hafter]
  exact ⟨rfl, ⟨_, rfl⟩, _, rfl⟩

def fullFile : FileTree :=
  { entries := [(["state.json"], .file (print [("seen", .bool true)]))]
    faults := [some (.torn 0 .noSpace)] }

/-- **A writing that fails can change what its path leads to.**  The directory that was made for it
leads by dots to a document, or to a name that no file can have; without it nothing was found.  A
writing that succeeds can leave an empty file in the place of a document, if the device is full. -/
theorem failed_set_uncovers :
    let dotted := storage (.ofString "missing/../state.json")
    let long := storage (missingPath 256)
    let plain := storage (.ofString "state.json")
    (Path.ofString "missing/../state.json").fileName? = some "state.json" ∧
      (dotted.get none blockedFile).1 = .ok [] ∧ (∃ e, (dotted.set [] blockedFile).1 = .error e) ∧
      (dotted.get none (dotted.set [] blockedFile).2).1 = .ok [("seen", .bool true)] ∧
    (missingPath 256).fileName? = some (longName 256) ∧
      ((long.get none {}).1 = .ok [] ∧ (∃ e, (long.set [] {}).1 = .error e) ∧
        ∃ e, (long.get none (long.set [] {}).2).1 = .error e) ∧
    (plain.set [] fullFile).1 = .ok () ∧
      (plain.set [] fullFile).2.read (.ofString "state.json") = .ok [] := by
  refine ⟨rfl, rfl, ⟨_, rfl⟩, ?_, (ends_missingPath (by decide)).fileName?_eq,
    missingPath_differs (by decide) (by decide) [], by decide +kernel, by decide +kernel⟩
  have hread : ((storage (.ofString "missing/../state.json")).set [] blockedFile).2.read
      (.ofString "missing/../state.json") = .ok (print [("seen", .bool true)]) := rfl
  show (readDocument _ _).map _ = _
  rw [readDocument_of_read hread, parse_print readsBack_seen]
  rfl

end VersionedStore.FileStorage
