import VersionedStore.Proofs.Gateway.Calls
import VersionedStore.Proofs.Gateway.Reports
import VersionedStore.Storage.Memory

/-!
# The envelope that was last read

A gateway keeps the envelope that its last good load found.  A load that finds the storage empty
gives it up, and nothing else does: neither a reading that fails nor a document that is no envelope.

* `HandsBack`: the record grew by these answers of the storage to readings; `Loads.recent_cases`:
  what each way of a load reads, and what it does to the envelope;
* `Event.FindsNothing`, `LastRead`: an empty storage was read; the last envelope of a history;
* `recent_follows_reads`: the envelope that is kept, at every point of every run.
-/

namespace VersionedStore

variable {σ : Type}

/-! ### Answers on record -/

/-- What a call was answered by the storage, if it was a reading. -/
def Call.reading? : Call → Option (Except StoreError Object)
  | .read _ answer => some answer
  | _ => none

def readings (cs : List Call) : List (Except StoreError Object) := cs.filterMap Call.reading?

/-- From one world to a later one the record grew, and these are the answers to the readings since
then. -/
def HandsBack (rs : List (Except StoreError Object)) (w w' : List Call × σ) : Prop :=
  ∃ cs, w'.1 = w.1 ++ cs ∧ readings cs = rs

namespace HandsBack

variable {io : Ports σ} {rs rs' : List (Except StoreError Object)} {w w' w'' : List Call × σ}

theorem refl (w : List Call × σ) : HandsBack [] w w := ⟨[], by simp, rfl⟩

theorem trans (h : HandsBack rs w w') (h' : HandsBack rs' w' w'') :
    HandsBack (rs ++ rs') w w'' := by
  obtain ⟨cs, hcs, rfl⟩ := h
  obtain ⟨cs', hcs', rfl⟩ := h'
  exact ⟨cs ++ cs', by rw [hcs', hcs, List.append_assoc], List.filterMap_append⟩

theorem readings_drop (h : HandsBack rs w w') : readings (w'.1.drop w.1.length) = rs := by
  obtain ⟨cs, hcs, rfl⟩ := h
  rw [hcs, List.drop_left]

theorem of_get {keys : Option (List String)} {r : Except StoreError Object}
    (h : io.recorded.storage.get keys w = (r, w')) : HandsBack [r] w w' :=
  ⟨_, (Storage.get_recorded h).2, rfl⟩

theorem of_getMarker {key : String} {r : Except StoreError (Option String)}
    (h : io.recorded.markers.get key w = (r, w')) : HandsBack [] w w' :=
  ⟨_, (Markers.get_recorded h).2, rfl⟩

theorem of_get_getMarker {r : Except StoreError Object} {key : String}
    {answer : Except StoreError (Option String)} (read : io.recorded.storage.get none w = (r, w'))
    (marker : io.recorded.markers.get key w' = (answer, w'')) : HandsBack [r] w w'' :=
  (of_get read).trans (of_getMarker marker)

theorem of_markExistence (key : String) (now : Nat) (w : List Call × σ) :
    HandsBack [] w (io.recorded.markers.markExistence key now w) := by
  unfold Markers.markExistence
  rcases hget : io.recorded.markers.get key w with ⟨_ | _ | _, w'⟩
  · exact (of_getMarker hget).trans ⟨_, rfl, rfl⟩
  · exact (of_getMarker hget).trans ⟨_, rfl, rfl⟩
  · exact of_getMarker hget

end HandsBack

namespace Gateway

variable {io : Ports σ} {now : Nat} {g g' : Gateway (List Call × σ)} {r : Loaded}

/-- **What a load does to the envelope that is kept:** it replaces it by the one that it finds,
gives it up if the storage is read and empty, and else leaves it as it is. -/
theorem Loads.recent_cases (h : Loads io.recorded now g r g') :
    (∃ e, r = .envelope e ∧ g'.recent = some e) ∨
      (HandsBack [.ok []] g.world g'.world ∧ (∀ e, r ≠ .envelope e) ∧ g'.recent = none) ∨
      ∃ rs, HandsBack rs g.world g'.world ∧ .ok [] ∉ rs ∧ (∀ e, r ≠ .envelope e) ∧
        g'.recent = g.recent := by
  cases h with
  | unsupported => exact .inr (.inr ⟨[], .refl _, by simp, by rintro _ ⟨⟩, rfl⟩)
  | unreadable _ read => exact .inr (.inr ⟨_, .of_get read, by simp, by rintro _ ⟨⟩, rfl⟩)
  | fresh _ read marker | lost _ read marker | unmarked _ read marker =>
    exact .inr (.inl ⟨.of_get_getMarker read marker, by rintro _ ⟨⟩, rfl⟩)
  | decoded => exact .inl ⟨_, rfl, rfl⟩
  | undecoded _ read ne =>
    exact .inr (.inr ⟨_, (HandsBack.of_get read).trans (.of_markExistence _ _ _),
      by simpa using ne.symm, by rintro _ ⟨⟩, rfl⟩)

theorem Performs.recent_eq {request : Request} {answer : Answer} {g g' : Gateway σ} {io : Ports σ}
    (h : Performs io g request answer g') (hload : ∀ now, request ≠ .load now) :
    (∀ r, answer ≠ .loaded r) ∧ g'.recent = g.recent := by
  cases h with
  | configured | configuredTwice | consented => exact ⟨by rintro _ ⟨⟩, rfl⟩
  | loaded => exact absurd rfl (hload _)
  | persisted h => exact ⟨by rintro _ ⟨⟩, h.frame.2.2.2.2⟩

end Gateway

/-! ### Histories -/

namespace Event

variable {io : Ports σ} {e : Event io.recorded}

/-- What the storage answered to the readings of an event, oldest first. -/
def readings (e : Event io.recorded) : List (Except StoreError Object) :=
  VersionedStore.readings (e.after.world.1.drop e.before.world.1.length)

/-- **A load that read an empty storage.** -/
structure FindsNothing (e : Event io.recorded) : Prop where
  load : ∃ now, e.request = .load now
  empty : .ok [] ∈ e.readings

/-- **A load that found an envelope.** -/
def Finds (e : Event io.recorded) (envelope : Envelope) : Prop :=
  e.answer = .loaded (.envelope envelope)

/-- **What an event does to the envelope that is kept.** -/
theorem recent_cases (e : Event io.recorded) :
    (∃ envelope, e.Finds envelope ∧ e.after.recent = some envelope) ∨
      (e.FindsNothing ∧ (∀ envelope, ¬ e.Finds envelope) ∧ e.after.recent = none) ∨
      (¬ e.FindsNothing ∧ (∀ envelope, ¬ e.Finds envelope) ∧ e.after.recent = e.before.recent) := by
  by_cases hload : ∃ now, e.request = .load now
  swap
  · obtain ⟨hanswer, hrecent⟩ := e.performs.recent_eq fun now h => hload ⟨now, h⟩
    exact .inr (.inr ⟨fun h => hload h.load, fun _ => hanswer _, hrecent⟩)
  obtain ⟨now, hnow⟩ := hload
  obtain ⟨r, hr, hloads⟩ := e.loads hnow
  have hfinds (envelope : Envelope) : e.Finds envelope ↔ r = .envelope envelope := by
    unfold Finds
    rw [hr, Answer.loaded.injEq]
  simp only [hfinds]
  rcases hloads.recent_cases with hfound | ⟨hback, hne, hnone⟩ | ⟨rs, hback, hempty, hne, hsame⟩
  · exact .inl hfound
  · refine .inr (.inl ⟨⟨⟨now, hnow⟩, ?_⟩, hne, hnone⟩)
    unfold readings
    rw [hback.readings_drop]
    exact List.mem_singleton_self _
  · refine .inr (.inr ⟨fun h => hempty ?_, hne, hsame⟩)
    have hread := h.empty
    unfold readings at hread
    rwa [hback.readings_drop] at hread

end Event

section History

variable {io : Ports σ} {es : List (Event io.recorded)} {e : Event io.recorded}
  {envelope : Envelope}

/-- **The envelope that was last read:** a load found it, and since then none found an envelope or
an empty storage. -/
def LastRead (es : List (Event io.recorded)) (envelope : Envelope) : Prop :=
  ∃ past e later, es = past ++ e :: later ∧ e.Finds envelope ∧
    ∀ l ∈ later, (∀ other, ¬ l.Finds other) ∧ ¬ l.FindsNothing

theorem lastRead_concat : LastRead (es ++ [e]) envelope ↔
    e.Finds envelope ∨ LastRead es envelope ∧ (∀ other, ¬ e.Finds other) ∧ ¬ e.FindsNothing :=
  History.since_concat

end History

namespace Gateway

variable {io : Ports σ}

/-- The envelope that a gateway keeps is the last one of the history. -/
def KeepsLastRead (es : List (Event io.recorded)) (g : Gateway (List Call × σ)) : Prop :=
  ∀ envelope, g.recent = some envelope ↔ LastRead es envelope

theorem keeps_lastRead (requests : List Request) :
    History.Keeps (step io.recorded) requests (@KeepsLastRead σ io) := by
  intro es g request _ h envelope
  generalize he : g.event io.recorded request = e
  have hstep : step io.recorded g request = (some e, e.after) := by rw [← he]; rfl
  have hbefore : e.before = g := by rw [← he]; rfl
  rw [hstep, Option.toList_some, lastRead_concat]
  rcases e.recent_cases with
    ⟨found, hfinds, hrecent⟩ | ⟨hempty, hnone, hrecent⟩ | ⟨hempty, hnone, hrecent⟩
  · have hfound : e.Finds envelope ↔ found = envelope := by
      unfold Event.Finds at hfinds ⊢
      rw [hfinds, Answer.loaded.injEq, Loaded.envelope.injEq]
    rw [hrecent, Option.some.injEq, hfound]
    exact ⟨.inl, fun h => h.resolve_right fun ⟨_, hno, _⟩ => hno found hfinds⟩
  · rw [hrecent]
    refine ⟨nofun, fun h => ?_⟩
    rcases h with hfinds | ⟨-, -, hno⟩
    · exact absurd hfinds (hnone envelope)
    · exact absurd hempty hno
  · rw [hrecent, hbefore, h envelope]
    exact ⟨fun hlast => .inr ⟨hlast, hnone, hempty⟩, fun h => (h.resolve_left (hnone envelope)).1⟩

theorem start_recent (io : Ports σ) (config : Config) (world : σ) (log : List Diagnostic) :
    (start io config world log).recent = none := by
  unfold start
  rcases io.storage.isAvailable world with ⟨_ | _, w⟩ <;> rfl

theorem Loads.of_not_ready {now : Nat} {g g' : Gateway σ} {r : Loaded} (h : Loads io now g r g')
    (hready : g.ready = false) : r = .freshInstall ∧ g' = g := by
  cases h with
  | unsupported => exact ⟨rfl, rfl⟩
  | unreadable ready | fresh ready | lost ready | unmarked ready | decoded ready
  | undecoded ready => cases hready.symm.trans ready

theorem recent_of_not_ready {g : Gateway σ} (hready : g.ready = false) (hrecent : g.recent = none)
    (requests : List Request) : (g.after io requests).recent = none := by
  refine (History.after_of_kept (Q := fun g : Gateway σ => g.ready = false ∧ g.recent = none)
    (fun g request _ hg => ?_) ⟨hready, hrecent⟩).2
  obtain ⟨hready, hrecent⟩ := hg
  have hperforms : Performs io g request _ (step io g request).2 := (g.event io request).performs
  refine ⟨hperforms.frame.2.trans hready, ?_⟩
  by_cases hload : ∃ now, request = .load now
  · obtain ⟨now, rfl⟩ := hload
    obtain ⟨r, -, hloads⟩ := (g.event io (.load now)).loads rfl
    have hsame : (step io g (.load now)).2 = g := (hloads.of_not_ready hready).2
    rw [hsame, hrecent]
  · exact (hperforms.recent_eq fun now h => hload ⟨now, h⟩).2.trans hrecent

/-- **The envelope that is kept follows the readings.**  The ports answer and fail as they like, and
requests are handed to one gateway in any order and number.  At every point of the run the gateway
keeps just the envelope that the last good load found, if no load has found the storage empty since
then; only a load that finds an envelope or an empty storage changes what is kept; and where the
storage cannot be used, nothing is ever kept. -/
theorem recent_follows_reads (io : Ports σ) (config : Config) (world : σ) (log : List Diagnostic)
    (requests : List Request) :
    let g := start io.recorded config ([], world) log
    (∀ envelope, (g.after io.recorded requests).recent = some envelope ↔
      LastRead (g.events io.recorded requests) envelope) ∧
    (∀ e ∈ g.events io.recorded requests, e.after.recent ≠ e.before.recent →
      (∃ now, e.request = .load now) ∧ (e.FindsNothing ∨ ∃ envelope, e.Finds envelope)) ∧
    ((io.storage.isAvailable world).1 = false → (g.after io.recorded requests).recent = none) := by
  intro g
  have hstart : g.recent = none := start_recent io.recorded config ([], world) log
  refine ⟨?_, fun e _ hchanged => ?_, fun havailable => ?_⟩
  · have hopened : KeepsLastRead ([] : List (Event io.recorded)) g := by
      intro envelope
      rw [hstart]
      exact ⟨nofun, fun h => absurd h History.not_since_nil⟩
    exact (keeps_lastRead requests).after hopened
  · refine ⟨not_not.mp fun hload => hchanged ?_, ?_⟩
    · exact (e.performs.recent_eq fun now h => hload ⟨now, h⟩).2
    · rcases e.recent_cases with ⟨envelope, hfinds, -⟩ | ⟨hempty, -⟩ | ⟨-, -, hsame⟩
      · exact .inr ⟨envelope, hfinds⟩
      · exact .inl hempty
      · exact absurd hsame hchanged
  · have hready : g.ready = false :=
      (start_frame io.recorded config ([], world) log).2.1.trans havailable
    exact recent_of_not_ready hready hstart requests

/-- A memory with an envelope, which fails the first writing. -/
def failingMemory : Memory × Table String String :=
  (⟨Envelope.toDocument ⟨1, []⟩, true, 0, 1, 0, 0⟩, [])

/-- The envelope that was found stays the last one over a writing that fails and a consent. -/
theorem recent_follows_reads_failing :
    LastRead ((start (Ports.beside Memory.storage Markers.memory).recorded {}
        ([], failingMemory) []).events (Ports.beside Memory.storage Markers.memory).recorded
      [.load 5, .setMetadata 2, .persist (.object []), .consent]) ⟨1, []⟩ :=
  ((recent_follows_reads (.beside Memory.storage Markers.memory) {} failingMemory [] _).1 _).mp
    (by decide +kernel)

end Gateway

end VersionedStore
