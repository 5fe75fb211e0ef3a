import VersionedStore.Proofs.Gateway.Operations

/-!
# What is handed to the storage

Over ports that keep a record of all calls, the documents that each operation of a gateway hands to
the storage, whatever the storage makes of them.

* `Writes`: the record grew, and only by documents with a property;
* `Loads.writes_nothing`, `Persists.writes_stamped`: a load writes nothing, and a persist writes the
  state that it is handed, under the version that was configured;
* `HandsOver`: the record grew by these documents, one after another; `Persists.handsOver`: a
  persist that meets no corruption hands its state over once;
* `Loads.reads`: what a load finds was read in it.
-/

namespace VersionedStore

variable {σ : Type}

/-- From one world to a later one the record grew, and all documents that were written since then
have a property. -/
def Writes (Q : Object → Prop) (w w' : List Call × σ) : Prop :=
  ∃ cs, w'.1 = w.1 ++ cs ∧ ∀ document answer, .write document answer ∈ cs → Q document

namespace Writes

variable {Q R : Object → Prop} {w w' w'' : List Call × σ}

theorem refl (Q : Object → Prop) (w : List Call × σ) : Writes Q w w := ⟨[], by simp, by simp⟩

theorem trans (h : Writes Q w w') (h' : Writes Q w' w'') : Writes Q w w'' := by
  obtain ⟨cs, hcs, hQ⟩ := h
  obtain ⟨cs', hcs', hQ'⟩ := h'
  refine ⟨cs ++ cs', by rw [hcs', hcs, List.append_assoc], fun document answer hmem => ?_⟩
  rcases List.mem_append.mp hmem with hmem | hmem
  · exact hQ document answer hmem
  · exact hQ' document answer hmem

theorem mono (h : Writes Q w w') (hQR : ∀ document, Q document → R document) : Writes R w w' := by
  obtain ⟨cs, hcs, hQ⟩ := h
  exact ⟨cs, hcs, fun document answer hmem => hQR document (hQ document answer hmem)⟩

theorem of_call {c : Call} (h : w'.1 = w.1 ++ [c])
    (hc : ∀ document answer, c ≠ .write document answer) :
    Writes (fun _ => False) w w' := by
  refine ⟨[c], h, fun document answer hmem => ?_⟩
  exact hc document answer (List.mem_singleton.mp hmem).symm

theorem of_mem_drop (h : Writes Q w w') {document : Object} {answer : Except StoreError Unit}
    (hmem : .write document answer ∈ w'.1.drop w.1.length) : Q document := by
  obtain ⟨cs, hcs, hQ⟩ := h
  rw [hcs, List.drop_left] at hmem
  exact hQ document answer hmem

end Writes

/-! ### Calls of the ports -/

section Recorded

variable {io : Ports σ} {w w' : List Call × σ}

theorem Storage.get_writes_nothing {keys : Option (List String)} {r : Except StoreError Object}
    (h : io.recorded.storage.get keys w = (r, w')) : Writes (fun _ => False) w w' := by
  cases h
  exact .of_call rfl (by rintro _ _ ⟨⟩)

theorem Markers.get_writes_nothing {key : String} {r : Except StoreError (Option String)}
    (h : io.recorded.markers.get key w = (r, w')) : Writes (fun _ => False) w w' :=
  .of_call (Markers.get_recorded h).2 (by rintro _ _ ⟨⟩)

theorem Markers.set_writes_nothing {key value : String} {r : Except StoreError Unit}
    (h : io.recorded.markers.set key value w = (r, w')) : Writes (fun _ => False) w w' := by
  cases h
  exact .of_call rfl (by rintro _ _ ⟨⟩)

theorem Storage.set_writes {document : Object} {r : Except StoreError Unit}
    (h : io.recorded.storage.set document w = (r, w')) : Writes (· = document) w w' := by
  refine ⟨_, (Storage.set_recorded h).2, fun found answer hmem => ?_⟩
  obtain ⟨rfl, -⟩ := Call.write.inj (List.mem_singleton.mp hmem)
  rfl

theorem Markers.markExistence_writes_nothing (key : String) (now : Nat) :
    Writes (fun _ => False) w (io.recorded.markers.markExistence key now w) := by
  unfold markExistence
  rcases hget : io.recorded.markers.get key w with ⟨_ | _ | _, w'⟩
  · exact (get_writes_nothing hget).trans (set_writes_nothing rfl)
  · exact (get_writes_nothing hget).trans (set_writes_nothing rfl)
  · exact get_writes_nothing hget

end Recorded

/-! ### The documents in a record -/

/-- The document that a call handed to the storage. -/
def Call.document? : Call → Option Object
  | .write document _ => some document
  | _ => none

/-- The documents that calls handed to the storage, oldest first. -/
def documents (cs : List Call) : List Object := cs.filterMap Call.document?

/-- From one world to a later one the record grew, and these are the documents that were written
since then. -/
def HandsOver (ds : List Object) (w w' : List Call × σ) : Prop :=
  ∃ cs, w'.1 = w.1 ++ cs ∧ documents cs = ds

namespace HandsOver

variable {ds ds' : List Object} {w w' w'' : List Call × σ}

theorem refl (w : List Call × σ) : HandsOver [] w w := ⟨[], by simp, rfl⟩

theorem trans (h : HandsOver ds w w') (h' : HandsOver ds' w' w'') :
    HandsOver (ds ++ ds') w w'' := by
  obtain ⟨cs, hcs, rfl⟩ := h
  obtain ⟨cs', hcs', rfl⟩ := h'
  exact ⟨cs ++ cs', by rw [hcs', hcs, List.append_assoc], List.filterMap_append⟩

theorem documents_drop (h : HandsOver ds w w') : documents (w'.1.drop w.1.length) = ds := by
  obtain ⟨cs, hcs, rfl⟩ := h
  rw [hcs, List.drop_left]

theorem of_writes (h : Writes (fun _ => False) w w') : HandsOver [] w w' := by
  obtain ⟨cs, hcs, hnone⟩ := h
  refine ⟨cs, hcs, List.filterMap_eq_nil_iff.mpr fun c hc => ?_⟩
  cases c with
  | write document answer => exact (hnone document answer hc).elim
  | _ => rfl

theorem of_set {io : Ports σ} {document : Object} {r : Except StoreError Unit}
    (h : io.recorded.storage.set document w = (r, w')) : HandsOver [document] w w' :=
  ⟨_, (Storage.set_recorded h).2, rfl⟩

end HandsOver

namespace Gateway

variable {io : Ports σ} {now : Nat} {g g' : Gateway (List Call × σ)}

/-- **A load writes nothing.** -/
theorem Loads.writes_nothing {r : Loaded} (h : Loads io.recorded now g r g') :
    Writes (fun _ => False) g.world g'.world := by
  cases h with
  | unsupported => exact .refl _ _
  | unreadable _ read => exact Storage.get_writes_nothing read
  | fresh _ read marker | lost _ read marker | unmarked _ read marker =>
    exact (Storage.get_writes_nothing read).trans (Markers.get_writes_nothing marker)
  | decoded _ read | undecoded _ read =>
    exact (Storage.get_writes_nothing read).trans (Markers.markExistence_writes_nothing _ _)

theorem Open.writes_nothing {w : List Call × σ} (h : g.Open io.recorded w) :
    Writes (fun _ => False) g.world w := by
  rcases h with ⟨-, rfl⟩ | ⟨-, read⟩
  · exact .refl _ _
  · exact Markers.get_writes_nothing read

/-- **A persist writes the state that it is handed,** under the version that was configured. -/
theorem Persists.writes_stamped {state : Value} {r : Except StoreError Persisted}
    (h : Persists io.recorded g state r g') :
    Writes (fun document => ∃ version data, state = .object data ∧ g.metadata = some version ∧
      document = Envelope.toDocument ⟨version, data⟩) g.world g'.world := by
  have hwrite {version data w w' answer} (metadata : g.metadata = some version)
      (opened : g.Open io.recorded w)
      (write : io.recorded.storage.set (Envelope.toDocument ⟨version, data⟩) w = (answer, w')) :
      Writes (fun document => ∃ v d, Value.object data = .object d ∧ g.metadata = some v ∧
        document = Envelope.toDocument ⟨v, d⟩) g.world w' := by
    refine (opened.writes_nothing.mono fun _ => False.elim).trans ?_
    refine (Storage.set_writes write).mono fun document hdocument => ?_
    exact ⟨version, data, rfl, metadata, hdocument⟩
  cases h with
  | unsupported | missing | invalid | unset => exact .refl _ _
  | skipped _ _ shut => exact (Markers.get_writes_nothing shut.read).mono fun _ => False.elim
  | written _ metadata opened write => exact hwrite metadata opened write
  | failed _ metadata opened write => split <;> exact hwrite metadata opened write

/-- **A persist hands its state over once,** where no corruption was met and nothing refuses it. -/
theorem Persists.handsOver {data : Object} {r : Except StoreError Persisted} {version : Version}
    (h : Persists io.recorded g (.object data) r g') (ready : g.ready = true)
    (metadata : g.metadata = some version) (uncorrupted : g.corrupted = false) :
    HandsOver [Envelope.toDocument ⟨version, data⟩] g.world g'.world := by
  rcases h.of_ready ready metadata with ⟨_, _, shut, -⟩ | ⟨_, w, opened, write, -⟩
  · cases uncorrupted.symm.trans shut.corrupted
  · rcases opened with ⟨-, rfl⟩ | ⟨corrupted, -⟩
    · exact .of_set write
    · cases uncorrupted.symm.trans corrupted

/-- **What a load finds** is what a document is decoded to that was read in it. -/
theorem Loads.reads {e : Envelope} (h : Loads io.recorded now g (.envelope e) g') :
    ∃ document, Envelope.ofDocument document = .ok e ∧
      .read none (.ok document) ∈ g'.world.1.drop g.world.1.length := by
  cases h with
  | @decoded w document _ _ read _ decode =>
    refine ⟨document, decode, ?_⟩
    have hread : w.1 = g.world.1 ++ [.read none (.ok document)] := (Storage.get_recorded read).2
    have hmark :
        Writes (fun _ => False) w (io.recorded.markers.markExistence g.config.existenceKey now w) :=
      Markers.markExistence_writes_nothing _ _
    obtain ⟨cs, hcs, -⟩ := hmark
    show _ ∈ (io.recorded.markers.markExistence g.config.existenceKey now w).1.drop _
    rw [hcs, hread, List.append_assoc, List.drop_left]
    exact List.mem_cons_self ..

end Gateway

end VersionedStore
