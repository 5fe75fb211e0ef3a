import VersionedStore.Proofs.Files.Writing
import VersionedStore.Proofs.History
import VersionedStore.Proofs.Storage.File

/-!
# A file in the place of a memory

A storage is called again and again, and a file at a usable path then answers as a memory that
begins with the same entries.

* `Storage.answers`, `Storage.after`: what a storage answers along a list of requests, and what is
  left;
* `FileStorage.Holds`: a file that is missing, empty or the text of an object holds its entries;
* `Alike.step`: one request, over a file and a memory that are alike;
* `file_simulates_memory`: any requests.
-/

namespace VersionedStore

namespace Storage

variable {σ : Type}

inductive Request
  | get (keys : Option (List String))
  | set (entries : Object)

inductive Answer
  | got (answer : Except StoreError Object)
  | stored (answer : Except StoreError Unit)

/-- One request, which is always answered. -/
def step (s : Storage σ) (w : σ) : Request → Option Answer × σ
  | .get keys => (some (.got (s.get keys w).1), (s.get keys w).2)
  | .set entries => (some (.stored (s.set entries w).1), (s.set entries w).2)

/-- The answers to a list of requests, oldest first. -/
def answers (s : Storage σ) (w : σ) (requests : List Request) : List Answer :=
  History.events s.step w requests

/-- The world after a list of requests. -/
def after (s : Storage σ) (w : σ) (requests : List Request) : σ := History.after s.step w requests

end Storage

/-- The next calls of a memory do not fail. -/
structure Memory.Sound (m : Memory) : Prop where
  reads : m.readFaults = 0
  writes : m.writeFaults = 0

namespace FileStorage

variable {path : Path} {t : FileTree} {m : Memory} {entries : Object}

/-- **The entries of a file:** none if it is missing or empty, else those of the object that its
text is. -/
inductive Holds (path : Path) (t : FileTree) : Object → Prop
  | missing (read : t.read path = .error .notFound) : Holds path t []
  | empty (read : t.read path = .ok []) : Holds path t []
  | text {bytes members} (read : t.read path = .ok bytes)
      (parsed : Json.readDocument (Json.Input.ofBytes bytes) = .ok (.object members)) :
      Holds path t members

theorem Holds.readDocument_eq (h : Holds path t entries) : readDocument path t = .ok entries := by
  cases h with
  | missing read =>
    unfold readDocument
    rw [read]
  | empty read =>
    rw [readDocument_of_read read]
    rfl
  | @text bytes members read parsed =>
    rw [readDocument_of_read read]
    unfold parse
    by_cases hempty : bytes.isEmpty = true
    · rw [List.isEmpty_iff.mp hempty, Json.Input.ofBytes, Text.symbols] at parsed
      cases parsed
    · rw [if_neg hempty, parsed]

/-! ### One request -/

/-- **Alike:** the file can be written and holds what the memory holds, which does not fail. -/
structure Alike (path : Path) (t : FileTree) (m : Memory) : Prop where
  usable : t.Usable path
  document : readDocument path t = .ok m.entries
  sound : m.Sound

/-- What a request makes of a document can be read back from its text. -/
def Lasts (m : Memory) : Storage.Request → Prop
  | .get _ => True
  | .set entries => ReadsBack (m.entries.merge entries)

theorem Alike.get (h : Alike path t m) (keys : Option (List String)) :
    (storage path).get keys t = (.ok (m.entries.select keys), t) ∧
      Memory.storage.get keys m = (.ok (m.entries.select keys), { m with gets := m.gets + 1 }) := by
  constructor
  · show ((readDocument path t).map _, t) = _
    rw [h.document]
    rfl
  · show Memory.get keys m = _
    unfold Memory.get
    rw [if_pos h.sound.reads]

theorem Alike.set (h : Alike path t m) (hback : ReadsBack (m.entries.merge entries)) :
    ∃ t' m', (storage path).set entries t = (.ok (), t') ∧
      Memory.storage.set entries m = (.ok (), m') ∧ Alike path t' m' := by
  have hbase : base path t = m.entries := by
    unfold base
    rw [h.document]
  obtain ⟨t', hwrite, husable⟩ := h.usable.again (print ((base path t).merge entries))
  have hmemory : Memory.storage.set entries m =
      (.ok (), { m with sets := m.sets + 1, entries := m.entries.merge entries }) := by
    show Memory.set entries m = _
    unfold Memory.set
    rw [if_pos h.sound.writes]
  refine ⟨t', _, hwrite, hmemory, husable, ?_, h.sound.reads, h.sound.writes⟩
  rw [(readDocument_of_set hwrite (h.usable.sound.takes _)).1, hbase]
  exact parse_print hback path

/-- **One request** is answered alike, and leaves the two alike. -/
theorem Alike.step (h : Alike path t m) (request : Storage.Request) (hlasts : Lasts m request) :
    ((storage path).step t request).1 = (Memory.storage.step m request).1 ∧
      Alike path ((storage path).step t request).2 (Memory.storage.step m request).2 := by
  cases request with
  | get keys =>
    obtain ⟨hfile, hmemory⟩ := h.get keys
    simp only [Storage.step, hfile, hmemory]
    exact ⟨trivial, h.usable, h.document, h.sound.reads, h.sound.writes⟩
  | set entries =>
    obtain ⟨t', m', hfile, hmemory, halike⟩ := h.set hlasts
    simp only [Storage.step, hfile, hmemory]
    exact ⟨trivial, halike⟩

/-! ### Any requests -/

/-- **A file simulates a memory.**  Over a usable path, a file that begins with the entries of a
memory gives the same answers as the memory, whatever is asked for, as long as every document that
is stored on the way can be read back from its text. -/
theorem file_simulates_memory (husable : t.Usable path) (hholds : Holds path t m.entries)
    (hsound : m.Sound) (requests : List Storage.Request)
    (hlasts : ∀ earlier entries later, requests = earlier ++ .set entries :: later →
      ReadsBack ((Memory.storage.after m earlier).entries.merge entries)) :
    (storage path).answers t requests = Memory.storage.answers m requests := by
  have halike : Alike path t m := ⟨husable, hholds.readDocument_eq, hsound⟩
  have hstep (t : FileTree) (m : Memory) (request : Storage.Request) (h : Alike path t m)
      (hlasts : Lasts m request) := h.step request hlasts
  refine History.events_eq_of_simulation hstep halike fun earlier request later hsplit => ?_
  cases request with
  | get keys => trivial
  | set entries => exact hlasts earlier entries later hsplit

theorem readsBack_seen : ReadsBack [("seen", .bool true)] := by
  refine readsBack_of_ordered (Value.ordered_object (List.pairwise_singleton _ _) fun e he => ?_)
    (Value.doublesReadBack_object fun e he => ?_) (by decide) <;> rw [List.mem_singleton.mp he]
  · exact Value.ordered_of_depth_eq_zero rfl
  · rintro x ⟨⟩

/-- A document is set in a directory that is not there yet, and read with a key that is absent and
one that is asked for twice. -/
theorem file_simulates_memory_first :
    (storage (.ofString "data/state.json")).answers {}
        [.set [("seen", .bool true)], .get (some ["seen", "gone", "seen"])] =
      Memory.storage.answers {}
        [.set [("seen", .bool true)], .get (some ["seen", "gone", "seen"])] := by
  have husable : FileTree.Usable {} (.ofString "data/state.json") :=
    { ends := ⟨["data"], "state.json", rfl, rfl, by decide⟩
      fits := ⟨rfl, by decide, rfl⟩
      temporary_fits := ⟨rfl, by decide, rfl⟩
      sound := by rintro _ ⟨⟩
      free := ⟨_, rfl, rfl, rfl⟩ }
  refine file_simulates_memory husable (.missing rfl) ⟨rfl, rfl⟩ _ fun earlier entries later h => ?_
  rcases earlier with _ | ⟨request, _ | ⟨request', earlier⟩⟩
  · obtain ⟨⟨⟩, rfl⟩ := List.cons.inj h
    exact readsBack_seen
  · cases h
  · simp at h

/-! ### Paths that are not usable -/

/-- A missing file whose directory is there, with no directory in its way. -/
structure Missing (path : Path) (t : FileTree) : Prop where
  read : t.read path = .error .notFound
  made : t.makeParent path = (.ok (), t)
  free : t.isDirectory path = false
  temporary_free : t.isDirectory path.temporary = false

theorem answers_ne_of_error {e : StoreError} (h : ((storage path).set entries t).1 = .error e) :
    (storage path).answers t [.set entries] ≠ Memory.storage.answers {} [.set entries] := by
  intro hanswers
  have hfirst := (List.cons.inj hanswers).1
  rw [h] at hfirst
  cases hfirst

/-- A name of so many characters. -/
def longName (n : Nat) : String := String.ofList (List.replicate n 'a')

theorem utf8ByteSize_longName (n : Nat) : (longName n).utf8ByteSize = n := by
  unfold longName
  induction n with
  | zero => rfl
  | succ n ih =>
    rw [List.replicate_succ', String.ofList_append, String.utf8ByteSize_append, ih]
    rfl

theorem longName_ne {n : Nat} {s : String} (h : s.utf8ByteSize < n) : longName n ≠ s := by
  rintro rfl
  rw [utf8ByteSize_longName] at h
  exact Nat.lt_irrefl n h

theorem nul_longName (n : Nat) (s : String) :
    (longName n ++ s).toList.any (· = '\x00') = s.toList.any (· = '\x00') := by
  unfold longName
  rw [String.toList_append, String.toList_ofList, List.any_append, List.any_replicate]
  simp

def longPath (n : Nat) : Path := ⟨[longName n]⟩

theorem ends_longPath {n : Nat} (h : 2 < n) : (longPath n).Ends [] (longName n) where
  pieces_eq := rfl
  notSilent := by
    unfold Path.isSilent
    rw [decide_eq_false (longName_ne (Nat.zero_lt_of_lt h)),
      decide_eq_false (longName_ne (Nat.lt_of_succ_lt h))]
    rfl
  ne_up := longName_ne h

theorem temporary_longPath {n : Nat} (h : 2 < n) :
    (longPath n).temporary = ⟨[longName n ++ ".tmp"]⟩ := by
  have hends := ends_longPath h
  unfold Path.temporary Path.withFileName
  rw [hends.fileName?_eq]
  have hparent : (longPath n).parent? = some ⟨[""]⟩ := by
    rcases hends.parent_cases with ⟨-, hparent⟩ | ⟨htrim, -⟩ | ⟨hne, -⟩
    · exact hparent
    · cases htrim
    · exact absurd rfl hne
  rw [hparent]
  rfl

theorem nul_temporary_longPath {n : Nat} (h : 2 < n) :
    (longPath n).temporary.text.toList.any (· = '\x00') = false := by
  rw [temporary_longPath h]
  unfold Path.text
  rw [String.intercalate_singleton, nul_longName]
  rfl

theorem isTooLong_temporary {n : Nat} (h : 251 < n) :
    FileTree.isTooLong (longName n ++ ".tmp") = true := by
  unfold FileTree.isTooLong
  rw [String.utf8ByteSize_append, utf8ByteSize_longName]
  exact decide_eq_true (Nat.add_le_add_right h 4)

theorem missing_longPath {n : Nat} (h : 251 < n) (hn : n ≤ 255) : Missing (longPath n) {} := by
  have hends := ends_longPath (Nat.lt_trans (by decide) h)
  have hfits : (longPath n).Fits := by
    refine ⟨?_, ?_, ?_⟩
    · unfold Path.text longPath
      rw [String.intercalate_singleton, ← String.append_empty (s := longName n), nul_longName]
      rfl
    · unfold Path.text longPath
      rw [String.intercalate_singleton, utf8ByteSize_longName]
      exact hn.trans (by decide)
    · show decide (FileTree.maxName < (longName n).utf8ByteSize) = false
      rw [utf8ByteSize_longName]
      exact decide_eq_false (Nat.not_lt.mpr hn)
  have hstart : ({} : FileTree).start (longPath n) = [] := FileTree.start_of_root rfl _
  have hwalk : ({} : FileTree).walk (({} : FileTree).start (longPath n)) [] = .ok [] :=
    congrArg Except.ok hstart
  have hlocate := FileTree.locate_of_walk hends hfits hwalk
  obtain ⟨up', hends', hwalk'⟩ := FileTree.walk_temporary hends hwalk
  have htemporary := FileTree.locate_of_isTooLong hends'
    (nul_temporary_longPath (Nat.lt_trans (by decide) h)) (isTooLong_temporary h) hwalk'
  refine ⟨?_, (FileTree.makeParent_ok_iff hends).mpr rfl, ?_, ?_⟩
  · unfold FileTree.read
    rw [hlocate]
    rfl
  · unfold FileTree.isDirectory
    rw [hlocate]
    rfl
  · unfold FileTree.isDirectory
    rw [htemporary]

theorem longPath_differs {n : Nat} (h : 251 < n) (hn : n ≤ 255) (entries : Object) :
    (storage (longPath n)).answers {} [.set entries] ≠ Memory.storage.answers {} [.set entries] :=
  answers_ne_of_error (congrArg Prod.fst (FileTree.writeAtomically_of_isTooLong
    (ends_longPath (Nat.lt_trans (by decide) h))
    (nul_temporary_longPath (Nat.lt_trans (by decide) h))
    (isTooLong_temporary h) (missing_longPath h hn).made _))

def fullDevice : FileTree := { faults := [some (.torn 0 .noSpace)] }

theorem fullDevice_differs :
    (storage (.ofString "state.json")).answers fullDevice [.set [("seen", .bool true)], .get none] ≠
      Memory.storage.answers {} [.set [("seen", .bool true)], .get none] := by
  have hfile : (storage (.ofString "state.json")).answers fullDevice
      [.set [("seen", .bool true)], .get none] = [.stored (.ok ()), .got (.ok [])] := rfl
  have hmemory : Memory.storage.answers {} [.set [("seen", .bool true)], .get none] =
      [.stored (.ok ()), .got (.ok [("seen", .bool true)])] := rfl
  rw [hfile, hmemory]
  simp

/-- **Files that do not keep what a memory keeps:** one whose name leaves no room for the ending of
its temporary file, one whose path goes on after its name, and one on a full device. -/
theorem unusable_files_differ : ReadsBack [("seen", .bool true)] ∧
    (Missing (longPath 252) {} ∧ (storage (longPath 252)).answers {} [.set [("seen", .bool true)]] ≠
      Memory.storage.answers {} [.set [("seen", .bool true)]]) ∧
    (Missing (.ofString "state.json/") {} ∧
      (storage (.ofString "state.json/")).answers {} [.set [("seen", .bool true)]] ≠
        Memory.storage.answers {} [.set [("seen", .bool true)]]) ∧
    Missing (.ofString "state.json") fullDevice ∧
      (storage (.ofString "state.json")).answers fullDevice
      [.set [("seen", .bool true)], .get none] ≠
        Memory.storage.answers {} [.set [("seen", .bool true)], .get none] := by
  exact ⟨readsBack_seen,
    ⟨missing_longPath (by decide) (by decide), longPath_differs (by decide) (by decide) _⟩,
    ⟨⟨rfl, rfl, rfl, rfl⟩, answers_ne_of_error rfl⟩, ⟨rfl, rfl, rfl, rfl⟩, fullDevice_differs⟩

end FileStorage

end VersionedStore
