import VersionedStore.Proofs.Envelope
import VersionedStore.Proofs.Migration.Unchanged
import VersionedStore.Proofs.Session.Stamp

/-!
# Write-backs

Whether a bootstrap writes is decided by versions alone, and the change that must not be lost is in
the state.  Nothing escapes that decision: a run that leaves the version leaves the state.

* `Boots.handsOver`: what a bootstrap hands to the storage;
* `Boots.loads_stored`: where the version stayed, the application is given what was read;
* `Session.Unmet`: a session meets no corruption before its bootstrap;
* `no_change_escapes_write_back`: the statement for all runs of a session, over any ports.
-/

namespace VersionedStore.Session

variable {σ : Type} {io : Ports σ} {now : Nat}

/-! ### One bootstrap -/

section Bootstrap

variable {s s' : Session (List Call × σ)}

/-- **A bootstrap writes once, or not at all:** once iff it loaded an envelope whose version the
chain has changed, and the configuration wants it written. -/
theorem Boots.handsOver {r : Except StoreError Outcome} (h : s.Boots io.recorded now r s')
    (uncorrupted : s.bootstrapped = false → s.gateway.corrupted = false) :
    (∃ report p, r = .ok (.loaded report p) ∧ report.versionChanged = true ∧
        s.gateway.config.writeBack = true ∧
        HandsOver [report.envelope.toDocument] s.gateway.world s'.gateway.world) ∨
      (¬ ∃ report p, r = .ok (.loaded report p) ∧ report.versionChanged = true ∧
        s.gateway.config.writeBack = true) ∧ HandsOver [] s.gateway.world s'.gateway.world := by
  cases h with
  | again => exact .inr ⟨by simp, .refl _⟩
  | fresh _ load | corrupted _ load => exact .inr ⟨by simp, .of_writes load.writes_nothing⟩
  | @kept g e report _ load _ same =>
    refine .inr ⟨?_, .of_writes load.writes_nothing⟩
    rintro ⟨found, p, hfound, hchanged, hwanted⟩
    obtain ⟨rfl, -⟩ := Outcome.loaded.inj (Except.ok.inj hfound)
    rw [load.frame.1, hchanged, hwanted] at same
    cases same
  | @writtenBack g e report p g' new load run changed persist =>
    subst run
    obtain ⟨hchanged, hwanted⟩ := Bool.and_eq_true_iff.mp changed
    rw [load.frame.1] at hwanted
    have hready : g.ready = true := load.frame.2.1.trans (load.ready nofun)
    have hclear : g.corrupted = false := by
      have hmet : ¬ g.corrupted = true := by
        rw [load.corrupted_iff, uncorrupted new]
        rintro (h | h) <;> cases h
      exact eq_false_of_ne_true hmet
    have hload : HandsOver [] s.gateway.world g.world := .of_writes load.writes_nothing
    have hpersist : HandsOver [(s.chain.run s.onFault e).1.envelope.toDocument] g.world g'.world :=
      persist.handsOver hready rfl hclear
    exact .inl ⟨_, _, rfl, hchanged, hwanted, hload.trans hpersist⟩

/-- **Where the version stayed,** the application is given the envelope that was read. -/
theorem Boots.loads_stored {report : Report} {p : Option Persisted}
    (h : s.Boots io.recorded now (.ok (.loaded report p)) s')
    (same : report.versionChanged = false) :
    ∃ document, Envelope.ofDocument document = .ok report.envelope ∧
      .read none (.ok document) ∈ s'.gateway.world.1.drop s.gateway.world.1.length := by
  cases h with
  | kept _ load run =>
    subst run
    rw [(Chain.run_unchanged same).1]
    exact load.reads
  | writtenBack _ _ _ changed =>
    rw [same] at changed
    cases changed

end Bootstrap

theorem Performs.boots {b : Event io} (h : b.before.Performs io b.request b.answer b.after)
    (hb : b.IsBootstrap) : ∃ now r, b.answer = .booted r ∧ b.before.Boots io now r b.after := by
  obtain ⟨now, hnow⟩ := hb
  rw [hnow] at h
  generalize b.answer = answer at h
  cases h with
  | booted hboots => exact ⟨now, _, rfl, hboots⟩

/-! ### Before the bootstrap -/

/-- **A session has met no corruption** before its bootstrap, and keeps its configuration. -/
structure Unmet (config : Config) (s : Session σ) : Prop where
  config_eq : s.gateway.config = config
  uncorrupted : s.bootstrapped = false → s.gateway.corrupted = false

theorem unmet_start (io : Ports σ) (chain : Chain) (config : Config) (initial : Object) (world : σ)
    (log : List Diagnostic) : (start io chain config initial world log).Unmet config := by
  obtain ⟨hconfig, -, -, hcorrupted, -⟩ := Gateway.start_frame io config world log
  exact ⟨hconfig, fun _ => hcorrupted⟩

theorem Performs.corrupted_eq {s s' : Session σ} {request : Request} {answer : Answer}
    (h : s.Performs io request answer s') (hne : ∀ now, request ≠ .bootstrap now) :
    s'.gateway.corrupted = s.gateway.corrupted := by
  cases h with
  | booted => exact absurd rfl (hne _)
  | persisted h => exact h.frame.2.2.2.1
  | refused => rfl
  | recovered _ h => exact h.frame.2.2.2.1

theorem Unmet.performs {config : Config} {s s' : Session σ} {request : Request} {answer : Answer}
    (h : s.Unmet config) (hp : s.Performs io request answer s') : s'.Unmet config := by
  refine ⟨hp.config_eq.trans h.config_eq, fun hnew => ?_⟩
  by_cases hboot : ∃ now, request = .bootstrap now
  · obtain ⟨now, rfl⟩ := hboot
    cases hp with
    | booted hboots =>
      rw [hboots.frame.2.2] at hnew
      cases hnew
  · have hne : ∀ now, request ≠ .bootstrap now := fun now hnow => hboot ⟨now, hnow⟩
    rw [hp.corrupted_eq hne]
    exact h.uncorrupted ((hp.handover_frame hne).1.symm.trans hnew)

theorem preserved_unmet {config : Config} {steps : List (Step σ)} (hs : ∀ x ∈ steps, x.Stays) :
    Preserved io steps fun _ s => s.Unmet config where
  restart hrestart _ := (hs _ hrestart).elim
  use hp h := h.performs hp
  disturb _ h := ⟨h.config_eq, h.uncorrupted⟩

/-! ### Runs of a session -/

/-- The documents that were handed to the storage in an event, oldest first. -/
def Event.documents (e : Event io.recorded) : List Object := VersionedStore.documents e.calls

/-- **No change escapes the write-back.**  A run over a chain, whatever its migrations look at,
never lowers the version, and where it leaves the version it leaves the whole envelope and has
applied nothing.  So over any ports, whatever happens to their world and whatever was asked of a
session before, a bootstrap writes at most once, and does so iff it loaded an envelope whose version
has changed and the configuration wants it written; and where the version has not changed, the
application is given the state that was read. -/
theorem no_change_escapes_write_back (io : Ports σ) (chain : Chain) (config : Config)
    (initial : Object) (world : σ) (log : List Diagnostic) {steps : List (Step (List Call × σ))}
    (hs : ∀ x ∈ steps, x.Stays) :
    (∀ policy e, chain.run policy e = (chain.runIn .plain policy e ()).1) ∧
    (∀ (ω : Type) (answers : Answers ω) (policy : OnFault) (e : Envelope) (w : ω),
      let report := (chain.runIn answers policy e w).1.1
      report.fromVersion = e.version ∧ e.version ≤ report.envelope.version ∧
        (report.versionChanged = false → report.envelope = e ∧ report.applied = [])) ∧
    let s := start io.recorded chain config initial ([], world) log
    ∀ b ∈ s.events io.recorded steps, b.IsBootstrap →
      b.documents.length ≤ 1 ∧
      (b.documents ≠ [] ↔ ∃ report p, b.answer = .booted (.ok (.loaded report p)) ∧
        report.versionChanged = true ∧ config.writeBack = true) ∧
      ∀ report p, b.answer = .booted (.ok (.loaded report p)) → report.versionChanged = false →
        b.documents = [] ∧ ∃ document, .read none (.ok document) ∈ b.calls ∧
          Envelope.ofDocument document = .ok report.envelope ∧
          document.get? "data" = some (.object report.envelope.data) := by
  refine ⟨fun policy e => by rw [Chain.runIn_plain], fun ω answers policy e w => ?_, ?_⟩
  · obtain ⟨hfrom, hle⟩ := chain.version_le_runIn answers policy e w
    exact ⟨hfrom, hle, Chain.runIn_unchanged⟩
  intro s b hb hboot
  obtain ⟨past, future, hes⟩ := List.append_of_mem hb
  have hsound : s.Sound := sound_start io.recorded chain config initial ([], world) log
  have hinit : s.Unmet config := unmet_start io.recorded chain config initial ([], world) log
  have hkeeps : Preserved io.recorded steps fun _ s => s.Unmet config := preserved_unmet hs
  obtain ⟨-, hunmet, hp⟩ := hkeeps.at_event hsound hinit hes
  obtain ⟨now, r, hanswer, hboots⟩ := hp.boots hboot
  rw [hanswer]
  rcases hboots.handsOver hunmet.uncorrupted with ⟨report, p, rfl, hchanged, hwanted, hdocuments⟩ |
    ⟨hnone, hdocuments⟩
  · have hone : b.documents = [report.envelope.toDocument] := hdocuments.documents_drop
    rw [hunmet.config_eq] at hwanted
    rw [hone]
    refine ⟨Nat.le_refl 1, iff_of_true (List.cons_ne_nil _ _) ⟨report, p, rfl, hchanged, hwanted⟩,
      ?_⟩
    intro found q hfound hsame
    obtain ⟨rfl, -⟩ := Outcome.loaded.inj (Except.ok.inj (Answer.booted.inj hfound))
    cases hsame.symm.trans hchanged
  · have hempty : b.documents = [] := hdocuments.documents_drop
    rw [hempty]
    rw [hunmet.config_eq] at hnone
    refine ⟨Nat.zero_le 1, iff_of_false (fun h => h rfl) ?_, fun report p hfound hsame => ⟨rfl, ?_⟩⟩
    · rintro ⟨report, p, hfound, hchanged⟩
      exact hnone ⟨report, p, Answer.booted.inj hfound, hchanged⟩
    · obtain rfl := Answer.booted.inj hfound
      obtain ⟨document, he, hread⟩ := hboots.loads_stored hsame
      exact ⟨document, hread, he, (Envelope.ofDocument_eq_ok_iff.mp he).1⟩

/-- A session over a document whose run is halted at once. -/
def overHalted : Session (List Call × (Memory × Table String String)) :=
  start (Ports.beside Memory.storage .memory).recorded .faulty {} []
    ([], ({ entries := Envelope.toDocument ⟨1, [("x", .null)]⟩ }, [])) []

/-- A run that is halted on its way is written back, and one that is halted at once is not. -/
theorem no_change_escapes_write_back_halted :
    (∃ a b c : Event (Ports.beside Memory.storage .memory).recorded,
        overOld.events _ halting = [a, b, c] ∧ b.documents.length ≤ 1 ∧ b.documents ≠ []) ∧
      ∃ (d : Event (Ports.beside Memory.storage .memory).recorded) (report : Report),
        overHalted.events _ [.use (.bootstrap 5)] = [d] ∧
        d.answer = .booted (.ok (.loaded report none)) ∧ report.halted = true ∧ d.documents = [] ∧
        ∃ document, .read none (.ok document) ∈ d.calls ∧
          document.get? "data" = some (.object report.envelope.data) := by
  have hs : ∀ x ∈ [Step.use (σ := List Call × (Memory × Table String String)) (.bootstrap 5)],
      x.Stays := by
    intro x hx
    obtain rfl := List.mem_singleton.mp hx
    trivial
  constructor
  · have hrun : ∃ a b c : Event (Ports.beside Memory.storage .memory).recorded,
        overOld.events _ halting = [a, b, c] ∧ b.request = .bootstrap 5 ∧
          ∃ report p, b.answer = .booted (.ok (.loaded report p)) ∧ report.versionChanged = true :=
      ⟨_, _, _, rfl, rfl, (Chain.faulty.run .halt ⟨0, []⟩).1, some .written,
        congrArg Answer.booted (by decide +kernel), by decide +kernel⟩
    obtain ⟨a, b, c, hes, hb, report, p, hanswer, hchanged⟩ := hrun
    obtain ⟨-, -, hall⟩ :=
      no_change_escapes_write_back (Ports.beside Memory.storage .memory) .faulty {} []
      ({ entries := Envelope.toDocument ⟨0, []⟩ }, []) [] stays_halting
    have hmem : b ∈ overOld.events _ halting := by rw [hes]; simp
    obtain ⟨hone, hwritten, -⟩ := hall b hmem ⟨5, hb⟩
    exact ⟨a, b, c, hes, hone, hwritten.mpr ⟨report, p, hanswer, hchanged, rfl⟩⟩
  · have hrun : ∃ (d : Event (Ports.beside Memory.storage .memory).recorded) (report : Report),
        overHalted.events _ [.use (.bootstrap 5)] = [d] ∧ d.request = .bootstrap 5 ∧
          d.answer = .booted (.ok (.loaded report none)) ∧ report.halted = true ∧
            report.versionChanged = false :=
      ⟨_, (Chain.faulty.run .halt ⟨1, [("x", .null)]⟩).1, rfl, rfl,
        congrArg Answer.booted (by decide +kernel), by decide +kernel, by decide +kernel⟩
    obtain ⟨d, report, hes, hd, hanswer, hhalted, hsame⟩ := hrun
    obtain ⟨-, -, hall⟩ :=
      no_change_escapes_write_back (Ports.beside Memory.storage .memory) .faulty {} []
      ({ entries := Envelope.toDocument ⟨1, [("x", .null)]⟩ }, []) [] hs
    have hmem : d ∈ overHalted.events _ [.use (.bootstrap 5)] := by
      rw [hes]
      exact List.mem_singleton_self d
    obtain ⟨-, -, hkept⟩ := hall d hmem ⟨5, hd⟩
    obtain ⟨hnone, document, hread, -, hdata⟩ := hkept report none hanswer hsame
    exact ⟨d, report, hes, hanswer, hhalted, hnone, document, hread, hdata⟩

end VersionedStore.Session
