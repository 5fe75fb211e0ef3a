import Mathlib.Tactic.Common
import VersionedStore.Envelope

/-!
# What is read as an envelope

A document is read as an envelope exactly if it has an object for the state and a record of the
version, and nothing else that it holds matters.

* `readVersion_eq_ok_iff`, `readMeta_eq_ok_iff`, `readData_eq_ok_iff`: what each reader accepts;
* `ofDocument_eq_ok_iff`: what is read as a given envelope;
* `HeldBy`, `heldBy_merge`: a document holds an envelope, perhaps beside other entries;
* `Records`: the record of an integer; `decoding_is_exact`: what is accepted, what it is read as,
  and that reading and writing undo each other.
-/

namespace VersionedStore.Envelope

open Json

variable {value : Value} {version : Version} {members document : Object} {e : Envelope}

/-! ### The readers -/

/-- **The only value that is read as a version** is the integer. -/
theorem readVersion_eq_ok_iff : readVersion value = .ok version ↔ value = .ofVersion version := by
  refine ⟨fun h => ?_, fun h => h ▸ readVersion_ofVersion version⟩
  unfold readVersion at h
  split at h
  · rename_i n fits
    split at h
    · rename_i hrange
      obtain rfl := Except.ok.inj h
      have hlt : n.toNat < 2 ^ 32 := by omega
      have hn : ((UInt32.ofNat n.toNat).toNat : Int) = n := by
        rw [UInt32.toNat_ofNat_of_lt' hlt]
        omega
      unfold Value.ofVersion
      congr 2
      exact hn.symm
    · cases h
  · cases h

theorem readMeta_singleton (value : Value) : readMeta (.array [value]) = readVersion value := by
  unfold readMeta
  rcases hread : readVersion value with e | n <;> simp [hread]

/-- A version is read from an object under its key, and from an array of it alone. -/
theorem readMeta_eq_ok_iff : readMeta value = .ok version ↔
    (∃ members, value = .object members ∧
      Table.get? members versionKey = some (.ofVersion version)) ∨
      value = .array [.ofVersion version] := by
  cases value with
  | object members =>
    rcases hget : Table.get? members versionKey with _ | v <;>
      simp [readMeta, hget, readVersion_eq_ok_iff]
  | array items =>
    rcases items with _ | ⟨v, _ | ⟨w, items⟩⟩
    · simp [readMeta]
    · simp [readMeta_singleton, readVersion_eq_ok_iff]
    · rcases hread : readVersion v with e | n <;> simp [readMeta, hread]
  | _ => simp [readMeta]

theorem readData_eq_ok_iff : readData value = .ok members ↔ value = .object members := by
  cases value <;> simp [readData]

/-! ### Documents -/

theorem readOptional_eq_ok_some_iff {α : Type} {read : Value → Except ReadError α}
    {found : Option Value} {a : α} :
    readOptional read found = .ok (some a) ↔ ∃ v, found = some v ∧ read v = .ok a := by
  rcases found with _ | v
  · simp [readOptional]
  · rcases hread : read v with e | b <;> simp [readOptional, hread]

theorem assemble_eq_ok_iff {found : Option Version} {data : Option Object} :
    assemble found data = .ok e ↔ found = some e.version ∧ data = some e.data := by
  rcases found with _ | v <;> rcases data with _ | d <;> simp [assemble]
  exact ⟨fun h => h ▸ ⟨rfl, rfl⟩, fun h => by rw [h.1, h.2]⟩

theorem decode_eq_ok_iff : decode document = .ok e ↔
    document.get? dataKey = some (.object e.data) ∧
      ∃ record, document.get? metaKey = some record ∧ readMeta record = .ok e.version := by
  have hparts : decode document = .ok e ↔
      readOptional readData (document.get? dataKey) = .ok (some e.data) ∧
        readOptional readMeta (document.get? metaKey) = .ok (some e.version) := by
    unfold decode
    rcases readOptional readData (document.get? dataKey) with _ | data
    · simp
    rcases readOptional readMeta (document.get? metaKey) with _ | version
    · simp
    · simp [assemble_eq_ok_iff, and_comm]
  rw [hparts, readOptional_eq_ok_some_iff, readOptional_eq_ok_some_iff]
  simp [readData_eq_ok_iff]

/-- **What is read as an envelope:** its state, and a record of its version. -/
theorem ofDocument_eq_ok_iff : ofDocument document = .ok e ↔
    document.get? dataKey = some (.object e.data) ∧
      ∃ record, document.get? metaKey = some record ∧ readMeta record = .ok e.version := by
  rw [← decode_eq_ok_iff]
  unfold ofDocument
  rcases decode document with _ | found <;> simp

theorem corruption_of_ofDocument {error : StoreError} (h : ofDocument document = .error error) :
    ∃ detail, error = .corruption detail := by
  unfold ofDocument at h
  split at h <;> cases h
  exact ⟨_, rfl⟩

/-! ### Documents that hold an envelope -/

/-- The document holds the two entries of an envelope. -/
structure HeldBy (e : Envelope) (document : Object) : Prop where
  data : document.get? dataKey = some (.object e.data)
  version : document.get? metaKey = some (metaRecord e.version)

theorem nodup_keys_toDocument (e : Envelope) : (Table.keys e.toDocument).Nodup := by
  show [dataKey, metaKey].Nodup
  decide

theorem heldBy_merge (e : Envelope) (document : Object) :
    e.HeldBy (document.merge e.toDocument) where
  data := Table.get?_merge_of_get? (nodup_keys_toDocument e) (get?_toDocument_data e) document
  version := Table.get?_merge_of_get? (nodup_keys_toDocument e) (get?_toDocument_meta e) document

theorem HeldBy.ofDocument {e : Envelope} {document : Object} (h : e.HeldBy document) :
    ofDocument document = .ok e :=
  ofDocument_of_decode (decode_of_get? h.data h.version)

/-! ### Integers as versions -/

/-- The record of an integer: an object that has it under the version's key, or an array of it
alone. -/
inductive Records (n : Int) : Value → Prop
  | member {members : Object} {fits : FitsWord n}
      (get : members.get? versionKey = some (.number (.integer n fits))) :
        Records n (.object members)
  | sole {fits : FitsWord n} : Records n (.array [.number (.integer n fits)])

theorem records_iff : Records version.toNat value ↔ readMeta value = .ok version := by
  rw [readMeta_eq_ok_iff]
  constructor
  · rintro (⟨get⟩ | _)
    · exact .inl ⟨_, rfl, get⟩
    · exact .inr rfl
  · rintro (⟨members, rfl, get⟩ | rfl)
    · exact .member get
    · exact .sole

/-- **Decoding is exact, and inverse to encoding.**  A document is read as an envelope iff it has an
object for its state and a record of an integer from 0 to 4294967295 for its version, whatever else
it holds, and the envelope is made of those two; any other document is corrupted.  An envelope is
read back from its own document, and from any document that this was merged into; and the document
of what was read holds the state and the version, and nothing else. -/
theorem decoding_is_exact (document : Object) :
    ((∃ e, ofDocument document = .ok e) ↔
      (∃ data, document.get? "data" = some (.object data)) ∧
        ∃ record n, document.get? "meta" = some record ∧ Records n record ∧ 0 ≤ n ∧
          n ≤ 4294967295) ∧
    (∀ e, ofDocument document = .ok e → document.get? "data" = some (.object e.data) ∧
      (∃ record, document.get? "meta" = some record ∧ Records e.version.toNat record) ∧
      e.toDocument =
        [("data", .object e.data), ("meta", .object [("version", .ofVersion e.version)])]) ∧
    ((¬ ∃ e, ofDocument document = .ok e) →
      ∃ detail, ofDocument document = .error (.corruption detail)) ∧
    ∀ e, ofDocument e.toDocument = .ok e ∧ ofDocument (document.merge e.toDocument) = .ok e := by
  refine ⟨⟨?_, ?_⟩, fun e he => ?_, fun hnone => ?_, fun e =>
    ⟨ofDocument_toDocument e, (heldBy_merge e document).ofDocument⟩⟩
  · rintro ⟨e, he⟩
    obtain ⟨hdata, record, hrecord, hversion⟩ := ofDocument_eq_ok_iff.mp he
    have hlt : e.version.toNat < 2 ^ 32 := e.version.toNat_lt
    exact ⟨⟨e.data, hdata⟩, record, e.version.toNat, hrecord, records_iff.mpr hversion, by omega,
      by omega⟩
  · rintro ⟨⟨data, hdata⟩, record, n, hrecord, hn, hlow, hhigh⟩
    have hlt : n.toNat < 2 ^ 32 := by omega
    have hversion : ((UInt32.ofNat n.toNat).toNat : Int) = n := by
      rw [UInt32.toNat_ofNat_of_lt' hlt]
      omega
    have hstamp : Records (UInt32.ofNat n.toNat).toNat record := by
      rw [hversion]
      exact hn
    exact ⟨⟨UInt32.ofNat n.toNat, data⟩,
      ofDocument_eq_ok_iff.mpr ⟨hdata, record, hrecord, records_iff.mp hstamp⟩⟩
  · obtain ⟨hdata, record, hrecord, hversion⟩ := ofDocument_eq_ok_iff.mp he
    exact ⟨hdata, ⟨record, hrecord, records_iff.mpr hversion⟩, rfl⟩
  · rcases hread : ofDocument document with error | e
    · obtain ⟨detail, rfl⟩ := corruption_of_ofDocument hread
      exact ⟨detail, rfl⟩
    · exact (hnone ⟨e, hread⟩).elim

end VersionedStore.Envelope
