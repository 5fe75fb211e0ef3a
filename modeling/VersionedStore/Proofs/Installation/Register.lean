import VersionedStore.Proofs.Gateway.Memory
import VersionedStore.Proofs.Installation.Basic

/-!
# The store is a register

Over one memory, with any number of gateways that come and go, with failures armed at any time and
with any markers, a load that can read the memory finds what was written last.

* `Step.KeepsDocument`: the world may change on its own, but the document is left to the gateways;
* `load_finds_last_written`: the statement for whole runs.
-/

namespace VersionedStore

variable {ρ : Type} {markers : Markers ρ}

/-- The memory changes on its own only in what it counts and which calls it fails; the markers may
change in any way. -/
def Step.KeepsDocument : Step (Memory × ρ) → Prop
  | .disturb f => ∀ w, (f w).1.entries = w.1.entries ∧ (f w).1.available = w.1.available
  | _ => True

def Event.IsWritten {σ : Type} {io : Ports σ} (e : Event io) : Prop :=
  e.answer = .persisted (.ok .written)

namespace Installation

/-- **The document is a register.**  The memory can be used, so that all gateways are ready, and the
document holds what was written last. -/
structure Register (es : List (Event (.beside Memory.storage markers)))
    (i : Installation (Memory × ρ)) : Prop where
  available : i.world.1.available = true
  ready : ∀ g ∈ i.gateways, g.ready = true
  last : ∀ {past w between}, es = past ++ w :: between → w.IsWritten →
    (∀ x ∈ between, ¬ x.IsWritten) → ∃ data version, w.request = .persist (.object data) ∧
      w.before.metadata = some version ∧ Envelope.HeldBy ⟨version, data⟩ i.world.1.entries

variable {es : List (Event (.beside Memory.storage markers))} {i : Installation (Memory × ρ)}

theorem Register.opened (h : Register es i) (config : Config) :
    Register es (i.opened (.beside Memory.storage markers) config) := by
  obtain ⟨-, hready, hworld, -⟩ :=
    Gateway.start_frame (.beside Memory.storage markers) config i.world i.log
  have hworld' : (i.opened (.beside Memory.storage markers) config).world = i.world := hworld
  refine ⟨by rw [hworld']; exact h.available, fun g hg => ?_, by rw [hworld']; exact h.last⟩
  rcases List.mem_append.mp hg with hg | hg
  · exact h.ready g hg
  · rw [List.mem_singleton.mp hg, hready]
    exact h.available

theorem Register.put (h : Register es i) {g : Gateway (Memory × ρ)}
    {e : Event (.beside Memory.storage markers)} (hg : i.gateways[e.number]? = some g)
    (hb : e.before = i.resume g) : Register (es ++ [e]) (i.put e) := by
  have hworld : e.before.world = i.world := by rw [hb]; rfl
  have hready : e.before.ready = true := by
    rw [hb]
    exact h.ready g (List.mem_of_getElem? hg)
  refine ⟨?_, fun g' hg' => ?_, fun {past w between} hes hw hbetween => ?_⟩
  · show e.after.world.1.available = true
    rw [e.performs.available_eq, hworld]
    exact h.available
  · rcases List.mem_or_eq_of_mem_set hg' with hg' | rfl
    · exact h.ready g' hg'
    · rw [e.performs.frame.2]
      exact hready
  show ∃ data version, _ ∧ _ ∧ Envelope.HeldBy _ e.after.world.1.entries
  rcases List.eq_nil_or_concat between with rfl | ⟨between, x, rfl⟩
  · -- the last event is the one that was written
    obtain ⟨-, hex⟩ := List.append_inj' hes rfl
    obtain rfl : e = w := List.head_eq_of_cons_eq hex
    have hp := e.performs
    rw [hw] at hp
    obtain ⟨data, version, hrequest, hmetadata, hentries⟩ := hp.entries_written
    refine ⟨data, version, hrequest, hmetadata, ?_⟩
    rw [hentries]
    exact Envelope.heldBy_merge _ _
  · -- it is not, so the document is the one of before
    rw [List.concat_eq_append, ← List.cons_append, ← List.append_assoc] at hes
    obtain ⟨hpast, hex⟩ := List.append_inj' hes rfl
    obtain rfl : e = x := List.head_eq_of_cons_eq hex
    have hx : ¬ e.IsWritten := hbetween e (by simp)
    rw [e.performs.entries_kept hx, hworld]
    exact h.last hpast hw fun y hy => hbetween y (by simp [hy])

theorem preserved_register {steps : List (Step (Memory × ρ))} (hs : ∀ s ∈ steps, s.KeepsDocument) :
    Preserved (.beside Memory.storage markers) steps Register where
  start _ h := h.opened _
  use hg hb h := h.put hg hb
  disturb {es i f} hf h := by
    have hf := hs _ hf i.world
    refine ⟨hf.2.trans h.available, h.ready, ?_⟩
    show ∀ {past w between}, _ → _ → _ → ∃ data version, _ ∧ _ ∧
      Envelope.HeldBy _ (f i.world).1.entries
    rw [hf.1]
    exact h.last

/-- **The store is a register across restarts and failures.**  In every run over an available
memory, a load that can read it finds the state and the version that were written last, by whichever
gateway; whatever was refused, skipped or failed in between makes no difference. -/
theorem load_finds_last_written {m : Memory} {r : ρ} {log : List Diagnostic}
    {steps : List (Step (Memory × ρ))} (hm : m.available = true)
    (hs : ∀ s ∈ steps, s.KeepsDocument)
    {past between future : List (Event (.beside Memory.storage markers))}
    {w e : Event (.beside Memory.storage markers)}
    (hrun : (bare (m, r) log).events (.beside Memory.storage markers) steps =
      past ++ w :: between ++ e :: future)
    (hw : w.answer = .persisted (.ok .written))
    (hbetween : ∀ x ∈ between, x.answer ≠ .persisted (.ok .written))
    {now : Nat} (he : e.request = .load now)
    {document : Object} (hread : (Memory.get none e.before.world.1).1 = .ok document) :
    ∃ data version, w.request = .persist (.object data) ∧ w.before.metadata = some version ∧
      e.answer = .loaded (.envelope ⟨version, data⟩) := by
  have hinit : Register ([] : List (Event (.beside Memory.storage markers))) (bare (m, r) log) := by
    refine ⟨hm, fun g hg => ?_, fun h => ?_⟩
    · cases hg
    · simp at h
  obtain ⟨i, g, hi, hg, hb⟩ := (preserved_register hs).at_event hinit hrun
  obtain ⟨data, version, hrequest, hmetadata, hheld⟩ := hi.last rfl hw hbetween
  obtain ⟨found, hanswer, hloads⟩ := e.loads he
  refine ⟨data, version, hrequest, hmetadata, ?_⟩
  have hready : e.before.ready = true := by
    rw [hb]
    exact hi.ready g (List.mem_of_getElem? hg)
  have hworld : e.before.world = i.world := by rw [hb]; rfl
  rw [← hworld] at hheld
  rw [hanswer, hloads.of_heldBy hready hread hheld]

/-- A state is written, a second one fails to be, and a gateway that is opened later finds the
first. -/
def restarted : List (Step (Memory × Table String String)) :=
  [.start {}, .use 0 (.setMetadata 7), .use 0 (.persist (.object [("a", .null)])),
    .disturb fun w => (w.1.failWrites 1, w.2), .use 0 (.persist (.object [])), .start {},
    .use 1 (.load 5)]

theorem load_finds_last_written_restarted : ∃ a b c d,
    (bare ({}, []) []).events (.beside Memory.storage .memory) restarted = [a, b, c, d] ∧
      b.answer = .persisted (.ok .written) ∧ c.answer = .persisted (.ok .failed) ∧
      ∃ data version, b.request = .persist (.object data) ∧ b.before.metadata = some version ∧
        d.answer = .loaded (.envelope ⟨version, data⟩) := by
  have hrun : ∃ a b c d, (bare ({}, []) []).events (.beside Memory.storage .memory) restarted =
      [a] ++ b :: [c] ++ d :: [] ∧ b.answer = .persisted (.ok .written) ∧
        c.answer = .persisted (.ok .failed) ∧ d.request = .load 5 ∧
        ∃ document, (Memory.get none d.before.world.1).1 = .ok document :=
    ⟨_, _, _, _, rfl, rfl, rfl, rfl, _, rfl⟩
  obtain ⟨a, b, c, d, hes, hb, hc, hd, document, hread⟩ := hrun
  refine ⟨a, b, c, d, hes, hb, hc, load_finds_last_written rfl ?_ hes hb ?_ hd hread⟩
  · intro s hs
    simp only [restarted, List.mem_cons, List.not_mem_nil, or_false] at hs
    rcases hs with rfl | rfl | rfl | rfl | rfl | rfl | rfl
    all_goals first | trivial | exact fun w => ⟨rfl, rfl⟩
  · intro x hx
    rw [List.mem_singleton.mp hx, hc]
    nofun

end Installation

end VersionedStore
