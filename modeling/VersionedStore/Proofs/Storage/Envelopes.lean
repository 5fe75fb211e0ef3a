import VersionedStore.Proofs.Files.Frame
import VersionedStore.Proofs.Files.NewDirectories
import VersionedStore.Proofs.Markers.File
import VersionedStore.Proofs.Storage.File

/-!
# The envelope that a file holds

A file holds at most one envelope.  It is there after a writing, and it stays there when a marker is
set, unless the marker or its temporary file is that very file; then no envelope is left.

* `HoldsEnvelope`, `holdsEnvelope_of_set`: a file holds an envelope, as it does after a writing;
* `RecordsOver`: the marker of the first sight goes over a file;
* `holdsEnvelope_markExistence`, `not_holdsEnvelope_markExistence`: what becomes of an envelope when
  that marker is set.
-/

namespace VersionedStore

theorem Json.depth_of_beginsScalar {c : Char} (hc : BeginsScalar c) {s : Input} {v : Value}
    (h : readDocument (.char c :: s) = .ok v) : v.depth = 0 := by
  obtain ⟨hspace, -, hsquare, hcurly⟩ := hc
  have hscalar : seen (readValue maxDepth (.char c :: s)) = seen (readScalar (.char c :: s)) :=
    seen_readValue_scalar (next?_cons hspace s) (by simpa using hsquare) (by simpa using hcurly)
  unfold readDocument readAll at h
  rcases hv : readValue maxDepth (.char c :: s) with e | ⟨w, r⟩ <;> rw [hv] at h hscalar
  · cases h
  obtain ⟨hlt, hread⟩ := seen_eq_ok hscalar.symm
  simp only [ok_bind] at h
  split at h <;> cases h
  exact depth_of_readScalar hread

namespace FileStorage

variable {path : Path} {t t' : FileTree} {e e' : Envelope} {bytes : List UInt8}

/-- The file holds an envelope. -/
def HoldsEnvelope (path : Path) (t : FileTree) (e : Envelope) : Prop :=
  ∃ document, readDocument path t = .ok document ∧ Envelope.ofDocument document = .ok e

theorem HoldsEnvelope.unique (h : HoldsEnvelope path t e) (h' : HoldsEnvelope path t e') :
    e = e' := by
  obtain ⟨document, hread, he⟩ := h
  obtain ⟨document', hread', he'⟩ := h'
  obtain rfl := Except.ok.inj (hread.symm.trans hread')
  exact Except.ok.inj (he.symm.trans he')

theorem HoldsEnvelope.read (h : HoldsEnvelope path t e) :
    ∃ bytes document, t.read path = .ok bytes ∧
    parse path bytes = .ok document ∧ Envelope.ofDocument document = .ok e := by
  obtain ⟨document, hread, he⟩ := h
  unfold readDocument at hread
  rcases hbytes : t.read path with error | bytes <;> rw [hbytes] at hread
  · cases error <;> cases hread
    cases he
  · exact ⟨bytes, document, rfl, hread, he⟩

theorem HoldsEnvelope.of_read (h : HoldsEnvelope path t e) (hread : t.read path = .ok bytes)
    (hread' : t'.read path = .ok bytes) : HoldsEnvelope path t' e := by
  obtain ⟨document, hdocument, he⟩ := h
  refine ⟨document, ?_, he⟩
  rw [readDocument_of_read hread']
  rwa [readDocument_of_read hread] at hdocument

theorem HoldsEnvelope.isAvailable (h : HoldsEnvelope path t e) :
    isAvailable path t = (true, t) := by
  obtain ⟨bytes, document, hread, -, -⟩ := h.read
  unfold FileStorage.isAvailable
  rw [FileTree.makeParent_of_read hread]

theorem HoldsEnvelope.fits (h : HoldsEnvelope path t e) :
    Json.Fits (Json.maxDepth - 1) (.object e.data) := by
  obtain ⟨bytes, document, -, hparse, he⟩ := h.read
  obtain ⟨r, hr, hmembers⟩ := Json.fits_object_iff.mp (fits_of_parse hparse)
  rw [hr]
  exact hmembers.fits _ (Table.mem_of_get? (Envelope.ofDocument_eq_ok_iff.mp he).1)

theorem holdsEnvelope_of_read (hread : t.read path = .ok (print e.toDocument))
    (hback : ReadsBack e.toDocument) : HoldsEnvelope path t e :=
  ⟨_, (readDocument_of_read hread).trans (parse_print hback path), Envelope.ofDocument_toDocument e⟩

/-- **An envelope that was written is held,** if the device takes it and the doubles of the document
are read back. -/
theorem holdsEnvelope_of_set (h : (storage path).set e.toDocument t = (.ok (), t')) (ht : t.Sound)
    (he : Json.Fits (Json.maxDepth - 1) (.object e.data))
    (hd : (Value.object ((base path t).merge e.toDocument)).DoublesReadBack) :
    HoldsEnvelope path t' e := by
  have hdepth : (Value.object e.data).depth < Json.maxDepth := Nat.lt_succ_of_le he.depth_le
  have hback : ReadsBack ((base path t).merge e.toDocument) := readsBack_merge he.ordered hd hdepth
  exact ⟨_, (readDocument_of_set h (ht.takes _)).1.trans (parse_print hback path),
    (Envelope.heldBy_merge e _).ofDocument⟩

/-! ### Digits hold no envelope -/

theorem encode_digits {cs : List Char} (h : ∀ c ∈ cs, c.isDigit = true) :
    Text.encode cs = cs.map fun c => c.val.toUInt8 := by
  have hbyte (c : Char) (hc : c ∈ cs) : String.utf8EncodeChar c = [c.val.toUInt8] := by
    have hdigit : c.toNat ≤ 57 := (Char.isDigit_iff_toNat.mp (h c hc)).2
    have hsize : c.toNat ≤ 127 := by omega
    exact String.utf8EncodeChar_eq_singleton
      (Char.utf8Size_eq_one_iff.mpr (UInt32.le_iff_toNat_le.mpr hsize))
  unfold Text.encode
  rw [List.map_eq_flatMap, List.flatMap_def, List.flatMap_def, List.map_congr_left hbyte]

theorem take_encode {cs : List Char} (h : ∀ c ∈ cs, c.isDigit = true) (k : Nat) :
    (Text.encode cs).take k = Text.encode (cs.take k) := by
  rw [encode_digits h, ← List.map_take, encode_digits fun c hc => h c (List.mem_of_mem_take hc)]

theorem parse_digits {cs : List Char} (h : ∀ c ∈ cs, c.isDigit = true) (path : Path) :
    parse path (Text.encode cs) = .ok [] ∨ ∃ e, parse path (Text.encode cs) = .error e := by
  unfold parse
  by_cases hempty : (Text.encode cs).isEmpty = true
  · rw [if_pos hempty]
    exact .inl rfl
  rw [if_neg hempty]
  rcases hread : Json.readDocument (Json.Input.ofBytes (Text.encode cs)) with e | v
  · exact .inr ⟨_, rfl⟩
  have hscalar : v.depth = 0 := by
    cases cs with
    | nil => exact absurd rfl hempty
    | cons c cs =>
      rw [Json.Input.ofBytes, Text.symbols_encode] at hread
      exact Json.depth_of_beginsScalar (Json.beginsScalar_of_isDigit (h c (List.mem_cons_self ..)))
        hread
  cases v with
  | object => cases hscalar
  | _ => exact .inr ⟨_, rfl⟩

end FileStorage

/-! ### Setting a marker -/

namespace FileMarkers

open FileStorage

variable {dir store : Path} {key value : String} {now : Nat} {t : FileTree} {e : Envelope}

/-- **The marker of the first sight goes over a file:** it is not set, its key is one, and the
writing of its file goes over that file. -/
def RecordsOver (dir : Path) (key : String) (now : Nat) (t : FileTree) (store : Path) : Prop :=
  (∀ seen, get dir key t ≠ .ok (some seen)) ∧ isKey key = true ∧
    t.Overwrites (dir.child key) (Text.bytes (Nat.repr now)) store

theorem markExistence_cases (dir : Path) (key : String) (now : Nat) (t : FileTree) :
    ((∃ seen, get dir key t = .ok (some seen)) ∧ (markers dir).markExistence key now t = t) ∨
      (∀ seen, get dir key t ≠ .ok (some seen)) ∧
        (markers dir).markExistence key now t = (set dir key (Nat.repr now) t).2 := by
  unfold Markers.markExistence markers
  rcases hget : get dir key t with _ | _ | seen <;> simp [hget]

theorem sound_markExistence (h : t.Sound) (dir : Path) (key : String) (now : Nat) :
    ((markers dir).markExistence key now t).Sound := by
  rcases markExistence_cases dir key now t with ⟨-, hsame⟩ | ⟨-, hset⟩
  · rw [hsame]
    exact h
  rw [hset]
  by_cases hkey : isKey key = true
  · unfold set
    rw [path_of_isKey hkey]
    exact h.writeAtomically _ _
  · rw [set_of_not_isKey (eq_false_of_ne_true hkey)]
    exact h

/-- **An envelope stays** where a marker is set, unless the marker goes over it. -/
theorem holdsEnvelope_markExistence (h : HoldsEnvelope store t e)
    (hclear : ¬ RecordsOver dir key now t store) :
    HoldsEnvelope store ((markers dir).markExistence key now t) e := by
  rcases markExistence_cases dir key now t with ⟨-, hsame⟩ | ⟨hunset, hset⟩
  · rw [hsame]
    exact h
  rw [hset]
  by_cases hkey : isKey key = true
  · obtain ⟨bytes, document, hread, -, -⟩ := h.read
    have hkept := FileTree.read_writeAtomically_of_not_overwrites hread fun hover =>
      hclear ⟨hunset, hkey, hover⟩
    unfold set
    rw [path_of_isKey hkey]
    exact h.of_read hread hkept
  · rw [set_of_not_isKey (eq_false_of_ne_true hkey)]
    exact h

/-- **No envelope is left** where the marker went over it. -/
theorem not_holdsEnvelope_markExistence (h : HoldsEnvelope store t e)
    (hover : RecordsOver dir key now t store) (e' : Envelope) :
    ¬ HoldsEnvelope store ((markers dir).markExistence key now t) e' := by
  obtain ⟨hunset, hkey, hover⟩ := hover
  obtain ⟨bytes, document, hread, -, -⟩ := h.read
  rcases markExistence_cases dir key now t with ⟨⟨seen, hseen⟩, -⟩ | ⟨-, hset⟩
  · exact absurd hseen (hunset seen)
  rw [hset]
  unfold set
  rw [path_of_isKey hkey]
  intro hheld
  obtain ⟨bytes', document', hread', hparse, he'⟩ := hheld.read
  rcases FileTree.read_writeAtomically_of_overwrites hread hover with hgone | hdigits
  · cases hgone.symm.trans hread'
  obtain rfl := Except.ok.inj (hdigits.symm.trans hread')
  obtain ⟨k, hk⟩ := t.exists_taken (Text.bytes (Nat.repr now))
  -- what is left of the digits is a number or nothing at all
  have hdigit : ∀ c ∈ Nat.toDigits 10 now, c.isDigit = true := fun c hc =>
    Nat.isDigit_of_mem_toDigits (by decide) (by decide) hc
  rw [hk, Text.bytes, Nat.toList_repr, take_encode hdigit] at hparse
  rcases parse_digits (fun c hc => hdigit c (List.mem_of_mem_take hc)) store with
    hnone | ⟨error, herror⟩
  · obtain rfl := Except.ok.inj (hnone.symm.trans hparse)
    cases he'
  · cases herror.symm.trans hparse

end FileMarkers

end VersionedStore
