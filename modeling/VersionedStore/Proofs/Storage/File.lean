import VersionedStore.Proofs.Files.Atomic
import VersionedStore.Proofs.Gateway.Memory
import VersionedStore.Proofs.Json.Accepted
import VersionedStore.Proofs.Json.RoundTrip
import VersionedStore.Storage.File

/-!
# A document in a file

What a writing leaves in the file, and what is read from it next.

* `ReadsBack`: a document is read from the text that it is printed as;
* `readDocument_of_set`: after a writing the printed document is what is read;
* `depth_merge_le_iff`, `readsBack_merge`: whether a document is too deep to be read is a matter of
  the state alone.
-/

namespace VersionedStore

namespace FileStorage

variable {path : Path} {t t' : FileTree} {document entries data : Object} {version : Version}

theorem ofBytes_print (document : Object) : Json.Input.ofBytes (print document) =
    (Json.prettyChars 0 (.object document)).map .char := Text.symbols_encode _

theorem isEmpty_print (document : Object) : (print document).isEmpty = false := by
  rw [← Bool.not_eq_true, List.isEmpty_iff]
  intro hp
  have h := ofBytes_print document
  rw [hp, Json.Input.ofBytes, Text.symbols] at h
  cases document <;> cases h

/-- The document is read from the text that it is printed as. -/
def ReadsBack (document : Object) : Prop :=
  Json.readDocument (Json.Input.ofBytes (print document)) = .ok (.object document)

theorem readsBack_of_ordered (ho : (Value.object document).Ordered)
    (hd : (Value.object document).DoublesReadBack)
    (hdepth : (Value.object document).depth ≤ Json.maxDepth) : ReadsBack document := by
  unfold ReadsBack
  rw [ofBytes_print, Json.readDocument_pretty ho hd, if_pos hdepth]

theorem parse_print (h : ReadsBack document) (path : Path) :
    parse path (print document) = .ok document := by
  unfold parse
  rw [isEmpty_print, if_neg nofun, h]

theorem parse_error {bytes : List UInt8} {e : Json.ReadError} (hne : bytes.isEmpty = false)
    (h : Json.readDocument (Json.Input.ofBytes bytes) = .error e) (path : Path) :
    ∃ e', parse path bytes = .error e' := by
  unfold parse
  rw [hne, if_neg nofun, h]
  exact ⟨_, rfl⟩

theorem readDocument_of_read {bytes : List UInt8} (h : t.read path = .ok bytes) :
    readDocument path t = parse path bytes := by
  unfold readDocument
  rw [h]

theorem read_isAvailable {bytes : List UInt8} (h : t.read path = .ok bytes) :
    (isAvailable path t).2.read path = .ok bytes := by
  unfold isAvailable
  rcases hp : t.makeParent path with ⟨_ | _, t'⟩ <;> exact (FileTree.extends_makeParent hp).read h

/-! ### After a writing -/

/-- **What was written is what is read next**, if the device took it, and the file can be used. -/
theorem readDocument_of_set (h : (storage path).set entries t = (.ok (), t'))
    (ht : t.Takes (print ((base path t).merge entries))) :
    readDocument path t' = parse path (print ((base path t).merge entries)) ∧
      (storage path).isAvailable t' = (true, t') := by
  have hread : t'.read path = .ok _ := FileTree.read_writeAtomically h
  rw [ht] at hread
  refine ⟨readDocument_of_read hread, ?_⟩
  show isAvailable path t' = _
  unfold isAvailable
  rw [FileTree.makeParent_writeAtomically h]

theorem merge_nil_toDocument (e : Envelope) : Table.merge [] e.toDocument = e.toDocument := by
  have hsorted : Table.Sorted ([] ++ e.toDocument) := by
    unfold Envelope.toDocument Table.Sorted
    rw [List.nil_append, List.pairwise_pair]
    show Envelope.dataKey < Envelope.metaKey
    decide
  exact Table.merge_of_sorted hsorted

theorem read_of_set_unreadable {bytes : List UInt8} {unreadable : StoreError} {e : Envelope}
    (hread : t.read path = .ok bytes) (hparse : parse path bytes = .error unreadable)
    (h : (storage path).set e.toDocument t = (.ok (), t')) (ht : t.Takes (print e.toDocument)) :
    t'.read path = .ok (print e.toDocument) := by
  have hbase : base path t = [] := by
    unfold base
    rw [readDocument_of_read hread, hparse]
  have hwritten : t'.read path = .ok (t.taken (print ((base path t).merge e.toDocument))) :=
    FileTree.read_writeAtomically h
  rw [hwritten, hbase, merge_nil_toDocument, ht]

/-! ### What is written -/

theorem fits_nil : Json.Fits Json.maxDepth (.object []) :=
  ⟨Value.ordered_object List.Pairwise.nil (by simp), by decide⟩

theorem fits_of_parse {bytes : List UInt8} (h : parse path bytes = .ok document) :
    Json.Fits Json.maxDepth (.object document) := by
  unfold parse at h
  split at h
  · cases h
    exact fits_nil
  split at h
  · rename_i members hread
    cases h
    exact Json.fits_of_readDocument hread
  · cases h
  · cases h

theorem fits_base (path : Path) (t : FileTree) :
    Json.Fits Json.maxDepth (.object (base path t)) := by
  unfold base
  rcases hd : readDocument path t with e | document
  · exact fits_nil
  unfold readDocument at hd
  rcases hr : t.read path with e | bytes <;> rw [hr] at hd
  · cases e <;> cases hd
    exact fits_nil
  · exact fits_of_parse hd

theorem mem_merge_toDocument {e : String × Value}
    (h : e ∈ (base path t).merge (Envelope.toDocument ⟨version, data⟩)) :
    e.2 = .object data ∨ e.2 = Envelope.metaRecord version ∨ e ∈ base path t := by
  rcases Table.mem_merge h with h | h
  · unfold Envelope.toDocument at h
    simp only [List.mem_cons, List.not_mem_nil, or_false] at h
    rcases h with rfl | rfl
    · exact .inl rfl
    · exact .inr (.inl rfl)
  · exact .inr (.inr h)

theorem ordered_merge (ho : (Value.object data).Ordered) :
    (Value.object ((base path t).merge (Envelope.toDocument ⟨version, data⟩))).Ordered := by
  have hbase := (fits_base path t).ordered
  refine Value.ordered_object ((hbase _ (.refl _)).merge _) fun e he => ?_
  rcases mem_merge_toDocument he with hv | hv | hmem
  · rw [hv]
    exact ho
  · rw [hv]
    refine Value.ordered_object (List.pairwise_singleton _ _) fun x hx => ?_
    rw [List.mem_singleton.mp hx]
    exact Value.ordered_of_depth_eq_zero rfl
  · exact fun members hm => hbase members (.member hmem hm)

theorem doublesReadBack_merge (hdata : (Value.object data).DoublesReadBack)
    (hbase : (Value.object (base path t)).DoublesReadBack) :
    (Value.object ((base path t).merge (Envelope.toDocument ⟨version, data⟩))).DoublesReadBack := by
  refine Value.doublesReadBack_object fun e he => ?_
  rcases mem_merge_toDocument he with hv | hv | hmem
  · rw [hv]
    exact hdata
  · rw [hv]
    refine Value.doublesReadBack_object fun x hx => ?_
    rw [List.mem_singleton.mp hx]
    exact Value.doublesReadBack_integer _ _
  · exact fun x hx => hbase x (.member hmem hx)

/-- **Only a state that is too deep makes the document too deep:** it stands one bracket deeper
there, and what stands beside it was read. -/
theorem depth_merge_le_iff :
    (Value.object ((base path t).merge (Envelope.toDocument ⟨version, data⟩))).depth ≤
      Json.maxDepth ↔ (Value.object data).depth < Json.maxDepth := by
  have hbase : ∀ e ∈ base path t, e.2.depth ≤ 126 := by
    have h := (fits_base path t).depth_le
    rw [Value.depth] at h
    exact Value.depthMembers_le_iff.mp (Nat.le_of_succ_le_succ h)
  have hdata := Table.mem_of_get? (Envelope.heldBy_merge ⟨version, data⟩ (base path t)).data
  rw [Value.depth]
  constructor
  · intro h
    exact Nat.lt_succ_of_le (Value.depthMembers_le_iff.mp (Nat.le_of_succ_le_succ h) _ hdata)
  · intro h
    refine Nat.succ_le_succ (Value.depthMembers_le_iff.mpr fun e he => ?_)
    rcases mem_merge_toDocument he with hv | hv | hmem
    · rw [hv]
      exact Nat.le_of_lt_succ h
    · rw [hv]
      show 1 ≤ 126
      decide
    · exact hbase e hmem

/-- **A state that is not too deep** makes a document that reads back. -/
theorem readsBack_merge (ho : (Value.object data).Ordered)
    (hd : (Value.object ((base path t).merge
      (Envelope.toDocument ⟨version, data⟩))).DoublesReadBack)
    (hdepth : (Value.object data).depth < Json.maxDepth) :
    ReadsBack ((base path t).merge (Envelope.toDocument ⟨version, data⟩)) :=
  readsBack_of_ordered (ordered_merge ho) hd (depth_merge_le_iff.mpr hdepth)

/-! ### An envelope alone -/

section Alone

variable {e : Envelope}

theorem merge_base_missing (e : Envelope) : (base ⟨[]⟩ {}).merge e.toDocument = e.toDocument :=
  merge_nil_toDocument e

theorem doublesReadBack_toDocument (hd : (Value.object e.data).DoublesReadBack) :
    (Value.object e.toDocument).DoublesReadBack := by
  have hbase : base ⟨[]⟩ {} = [] := rfl
  rw [← merge_base_missing]
  refine doublesReadBack_merge hd ?_
  rw [hbase]
  exact Value.doublesReadBack_object (by simp)

theorem readsBack_toDocument (ho : (Value.object e.data).Ordered)
    (hd : (Value.object e.data).DoublesReadBack)
    (hdepth : (Value.object e.data).depth < Json.maxDepth) : ReadsBack e.toDocument := by
  have hdoubles := doublesReadBack_toDocument hd
  rw [← merge_base_missing] at hdoubles ⊢
  exact readsBack_merge ho hdoubles hdepth

end Alone

/-! ### A file that is no document -/

def junk : List UInt8 := Text.encode ['\x7b', 'j', 'u', 'n', 'k']

theorem parse_junk (path : Path) : ∃ e, parse path junk = .error e := by
  have hread : Json.readDocument (Json.Input.ofBytes junk) = .error .keyExpected := by
    rw [Json.Input.ofBytes, junk, Text.symbols_encode]
    rfl
  exact parse_error rfl hread path

def junkFile : FileTree := { entries := [(["state.json"], .file junk)] }

theorem read_junkFile : junkFile.read (.ofString "state.json") = .ok junk := rfl

end FileStorage

end VersionedStore
