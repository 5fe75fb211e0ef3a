import VersionedStore.Proofs.Installation.Basic
import VersionedStore.Storage.Memory

/-!
# The corruption gate

Corruption is met by loads alone and never forgotten, and a gateway that met it writes only with the
user's consent, read at that very persist.

* `Installation.Remembers`: a gateway knows of corruption iff one of its loads answered so;
* `Persists.calls`: the calls of a persist, one after another;
* `corruption_gate`: the statement for whole runs, over any ports.
-/

namespace VersionedStore

variable {σ τ : Type}

namespace Gateway

variable {io : Ports σ} {g g' : Gateway (List Call × σ)}

theorem Open.calls {w : List Call × σ} (h : g.Open io.recorded w) :
    (g.corrupted = false ∧ w.1 = g.world.1) ∨
      w.1 = g.world.1 ++ [.readMarker g.config.recoveryKey (.ok (some consentValue))] := by
  rcases h with ⟨hc, rfl⟩ | ⟨-, read⟩
  · exact Or.inl ⟨hc, rfl⟩
  · exact Or.inr (Markers.get_recorded read).2

/-- **The calls of a persist:** none, a reading of the consent alone, or a writing, which follows a
consent if corruption was met. -/
theorem Persists.calls {state : Value} {r : Except StoreError Persisted}
    (h : Persists io.recorded g state r g') : ∃ cs, g'.world.1 = g.world.1 ++ cs ∧
      (cs = [] ∨ (∃ answer, cs = [.readMarker g.config.recoveryKey answer]) ∨
        (g.corrupted = false ∧ ∃ document answer, cs = [.write document answer]) ∨
        ∃ document answer, cs =
          [.readMarker g.config.recoveryKey (.ok (some consentValue)),
            .write document answer]) := by
  have hwrite {w w' : List Call × σ} {document answer} (opened : g.Open io.recorded w)
      (write : io.recorded.storage.set document w = (answer, w')) : ∃ cs, w'.1 = g.world.1 ++ cs ∧
        ((g.corrupted = false ∧ cs = [.write document answer]) ∨ cs =
          [.readMarker g.config.recoveryKey (.ok (some consentValue)),
            .write document answer]) := by
    rw [(Storage.set_recorded write).2]
    rcases opened.calls with ⟨hc, hw⟩ | hw
    · exact ⟨_, by rw [hw], Or.inl ⟨hc, rfl⟩⟩
    · exact ⟨_, by rw [hw, List.append_assoc]; rfl, Or.inr rfl⟩
  cases h with
  | unsupported | missing | invalid | unset => exact ⟨[], by simp, Or.inl rfl⟩
  | skipped _ _ shut =>
    exact ⟨_, (Markers.get_recorded shut.read).2, Or.inr (Or.inl ⟨_, rfl⟩)⟩
  | written _ _ opened write =>
    obtain ⟨cs, hcs, ⟨hc, rfl⟩ | rfl⟩ := hwrite opened write
    · exact ⟨_, hcs, Or.inr (Or.inr (Or.inl ⟨hc, _, _, rfl⟩))⟩
    · exact ⟨_, hcs, Or.inr (Or.inr (Or.inr ⟨_, _, rfl⟩))⟩
  | failed _ _ opened write =>
    obtain ⟨cs, hcs, ⟨hc, rfl⟩ | rfl⟩ := hwrite opened write
    · exact ⟨_, by split <;> exact hcs, Or.inr (Or.inr (Or.inl ⟨hc, _, _, rfl⟩))⟩
    · exact ⟨_, by split <;> exact hcs, Or.inr (Or.inr (Or.inr ⟨_, _, rfl⟩))⟩

theorem Persists.skipped_of_shut {io : Ports σ} {g g' : Gateway σ} {data : Object}
    {r : Except StoreError Persisted} {answer : Except StoreError (Option String)} {w : σ}
    (h : Persists io g (.object data) r g') (ready : g.ready = true) (metadata : g.metadata ≠ none)
    (shut : g.Shut io answer w) : r = .ok .skipped ∧ g' = { g with world := w } := by
  obtain ⟨version, hversion⟩ := Option.ne_none_iff_exists'.mp metadata
  rcases h.of_ready ready hversion with ⟨_, _, shut', hr, hg⟩ | ⟨_, _, opened, -⟩
  · have read := shut'.read
    rw [shut.read] at read
    obtain ⟨-, rfl⟩ := Prod.mk.inj read
    exact ⟨hr, hg⟩
  · exact absurd opened shut.not_open

end Gateway

/-- The calls that were made in an event, oldest first. -/
def Event.calls {io : Ports σ} (e : Event io.recorded) : List Call :=
  e.after.world.1.drop e.before.world.1.length

namespace Event

variable {io : Ports σ} {e : Event io.recorded}

theorem calls_eq {cs : List Call} (h : e.after.world.1 = e.before.world.1 ++ cs) :
    e.calls = cs := by
  unfold calls
  rw [h, List.drop_left]

theorem consent_of_write {state : Value} (h : e.request = .persist state) {document : Object}
    {answer : Except StoreError Unit} (hwrite : .write document answer ∈ e.calls) :
    e.before.corrupted = false ∨ e.calls =
      [.readMarker e.before.config.recoveryKey (.ok (some "true")), .write document answer] := by
  obtain ⟨_, -, hpersists⟩ := e.persists h
  obtain ⟨cs, hcs, hcases⟩ := hpersists.calls
  rw [calls_eq hcs] at hwrite ⊢
  rcases hcases with rfl | ⟨_, rfl⟩ | ⟨hc, -⟩ | ⟨_, _, rfl⟩
  · cases hwrite
  · simp at hwrite
  · exact Or.inl hc
  · refine Or.inr ?_
    simp only [List.mem_cons, reduceCtorEq, List.not_mem_nil, or_false, false_or,
      Call.write.injEq] at hwrite
    rw [hwrite.1, hwrite.2]
    rfl

theorem skipped_of_no_consent {data : Object} (h : e.request = .persist (.object data))
    (ready : e.before.ready = true) (corrupted : e.before.corrupted = true)
    (metadata : e.before.metadata ≠ none) {answer : Except StoreError (Option String)}
    (hanswer : (io.markers.get e.before.config.recoveryKey e.before.world.2).1 = answer)
    (hne : answer ≠ .ok (some "true")) :
    e.answer = .persisted (.ok .skipped) ∧
      e.calls = [.readMarker e.before.config.recoveryKey answer] ∧
      e.after.world.2 = (io.markers.get e.before.config.recoveryKey e.before.world.2).2 := by
  obtain ⟨r, hr, hpersists⟩ := e.persists h
  rcases hread : io.recorded.markers.get e.before.config.recoveryKey e.before.world with
    ⟨answer', w⟩
  obtain ⟨hmarker, hcalls⟩ := Markers.get_recorded hread
  rw [hmarker] at hanswer ⊢
  obtain rfl : answer' = answer := hanswer
  obtain ⟨rfl, hafter⟩ := hpersists.skipped_of_shut ready metadata ⟨corrupted, hread, hne⟩
  refine ⟨hr, calls_eq ?_, ?_⟩
  · rw [hafter]
    exact hcalls
  · rw [hafter]

end Event

namespace Installation

/-- **A gateway knows of corruption iff one of its loads answered so.** -/
structure Remembers {io : Ports σ} (es : List (Event io)) (i : Installation σ) : Prop where
  number_lt : ∀ e ∈ es, e.number < i.gateways.length
  corrupted_iff : ∀ n g, i.gateways[n]? = some g →
    (g.corrupted = true ↔ ∃ e ∈ es, e.number = n ∧ e.answer = .loaded .corrupted)

variable {io : Ports σ} {es : List (Event io)} {i : Installation σ}

theorem Remembers.opened (h : Remembers es i) (config : Config) :
    Remembers es (i.opened io config) := by
  have hlength : (i.opened io config).gateways.length = i.gateways.length + 1 :=
    List.length_append
  refine ⟨fun e he => ?_, fun n g hg => ?_⟩
  · have := h.number_lt e he
    omega
  rcases Nat.lt_trichotomy n i.gateways.length with hn | rfl | hn
  · refine h.corrupted_iff n g ?_
    rw [← hg]
    exact (List.getElem?_append_left hn).symm
  · have hstart : g.corrupted = false := by
      rw [show (i.opened io config).gateways = i.gateways ++ [_] from rfl,
        List.getElem?_concat_length] at hg
      rw [← Option.some.inj hg]
      exact (Gateway.start_frame io config i.world i.log).2.2.2.1
    rw [hstart]
    refine ⟨nofun, ?_⟩
    rintro ⟨e, he, hnumber, -⟩
    have := h.number_lt e he
    omega
  · rw [List.getElem?_eq_none (by omega)] at hg
    cases hg

theorem Remembers.put (h : Remembers es i) {g : Gateway σ} {e : Event io}
    (hg : i.gateways[e.number]? = some g) (hb : e.before = i.resume g) :
    Remembers (es ++ [e]) (i.put e) := by
  have hlength : (i.put e).gateways.length = i.gateways.length := List.length_set
  have hlt : e.number < i.gateways.length := (List.getElem?_eq_some_iff.mp hg).1
  refine ⟨fun x hx => ?_, fun n g' hg' => ?_⟩
  · rw [hlength]
    rcases List.mem_append.mp hx with hx | hx
    · exact h.number_lt x hx
    · rwa [List.mem_singleton.mp hx]
  have hput : (i.put e).gateways[n]? = (i.gateways.set e.number e.after)[n]? := rfl
  rw [hput] at hg'
  simp only [List.mem_append, List.mem_singleton, or_and_right, exists_or, exists_eq_left]
  by_cases hn : e.number = n
  · subst hn
    rw [List.getElem?_set_self hlt] at hg'
    obtain rfl := Option.some.inj hg'
    have hbefore : e.before.corrupted = g.corrupted := by rw [hb]; rfl
    rw [e.performs.corrupted_iff, hbefore, h.corrupted_iff _ g hg]
    simp only [true_and]
  · rw [List.getElem?_set_ne hn] at hg'
    rw [h.corrupted_iff n g' hg']
    simp only [hn, false_and, or_false]

theorem preserved_remembers (steps : List (Step σ)) :
    Preserved io steps (Remembers : List (Event io) → Installation σ → Prop) where
  start _ h := h.opened _
  use hg hb h := h.put hg hb
  disturb _ h := ⟨h.number_lt, h.corrupted_iff⟩

/-- **The corruption gate.**  In every run over any ports, however they fail: a gateway knows of
corruption at any point iff one of its loads answered so before; a persist writes only if its
gateway has met no corruption or the consent is read at that very call; and where there is no
consent, a state that could be written is skipped, with no call to the storage, and what is stored
stays, which readings of markers leave alone. -/
theorem corruption_gate (io : Ports σ) {stored : σ → τ}
    (hstored : ∀ key w, stored (io.markers.get key w).2 = stored w) (world : σ)
    (log : List Diagnostic) (steps : List (Step (List Call × σ))) :
    let i := bare ([], world) log
    (∀ n g, (i.after io.recorded steps).gateways[n]? = some g → (g.corrupted = true ↔
      ∃ e ∈ i.events io.recorded steps, e.number = n ∧ e.answer = .loaded .corrupted)) ∧
    ∀ e ∈ i.events io.recorded steps, ∀ state, e.request = .persist state →
      (∀ document r, .write document r ∈ e.calls → e.before.corrupted = false ∨
        e.calls =
          [.readMarker e.before.config.recoveryKey (.ok (some "true")), .write document r]) ∧
      ∀ data answer, state = .object data → e.before.ready = true → e.before.corrupted = true →
        e.before.metadata ≠ none →
        (io.markers.get e.before.config.recoveryKey e.before.world.2).1 = answer →
        answer ≠ .ok (some "true") →
          e.answer = .persisted (.ok .skipped) ∧
          e.calls = [.readMarker e.before.config.recoveryKey answer] ∧
          stored e.after.world.2 = stored e.before.world.2 := by
  intro i
  have hinit : Remembers ([] : List (Event io.recorded)) i := by
    refine ⟨fun e he => ?_, fun n g hg => ?_⟩
    · cases he
    · cases hg
  refine ⟨((preserved_remembers steps).after hinit).corrupted_iff, fun e _ state hstate =>
    ⟨fun document r hwrite => e.consent_of_write hstate hwrite, ?_⟩⟩
  rintro data answer rfl ready corrupted metadata hanswer hne
  obtain ⟨hskipped, hcalls, hworld⟩ :=
    e.skipped_of_no_consent hstate ready corrupted metadata hanswer hne
  refine ⟨hskipped, hcalls, ?_⟩
  rw [hworld]
  exact hstored _ _

/-- The existence marker is there and the document is not; then a state is handed over. -/
def lost : List (Step (List Call × (Memory × Table String String))) :=
  [.start {}, .use 0 (.load 5), .use 0 (.setMetadata 7), .use 0 (.persist (.object []))]

theorem corruption_gate_lost :
    let io := Ports.beside Memory.storage .memory
    ∃ e ∈ (bare ([], ({}, [("state_existed", "1")])) []).events io.recorded lost,
      e.before.corrupted = true ∧ e.answer = .persisted (.ok .skipped) ∧
        e.calls = [.readMarker "user_opted_in_to_restore" (.ok none)] ∧
        e.after.world.2.1 = e.before.world.2.1 := by
  intro io
  have hrun : ∃ a b e,
      (bare ([], ({}, [("state_existed", "1")])) []).events io.recorded lost = [a, b, e] ∧
        e.request = .persist (.object []) ∧ e.before.ready = true ∧ e.before.corrupted = true ∧
        e.before.metadata = some 7 ∧
        e.before.config.recoveryKey = "user_opted_in_to_restore" ∧
        (io.markers.get e.before.config.recoveryKey e.before.world.2).1 = .ok none :=
    ⟨_, _, _, rfl, rfl, rfl, rfl, rfl, rfl, rfl⟩
  obtain ⟨a, b, e, hes, hrequest, hready, hcorrupted, hmetadata, hkey, hmarker⟩ := hrun
  have he : e ∈ (bare ([], ({}, [("state_existed", "1")])) []).events io.recorded lost := by
    rw [hes]
    simp
  have hstored : ∀ key w, (io.markers.get key w).2.1 = w.1 := fun _ _ => rfl
  obtain ⟨hanswer, hcalls, hkept⟩ :=
    ((corruption_gate io hstored _ [] lost).2 e he _ hrequest).2 [] (.ok none) rfl hready hcorrupted
      (by rw [hmetadata]; nofun) hmarker nofun
  rw [hkey] at hcalls
  exact ⟨e, he, hcorrupted, hanswer, hcalls, hkept⟩

end Installation

end VersionedStore
