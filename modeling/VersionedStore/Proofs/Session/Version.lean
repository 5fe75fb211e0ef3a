import VersionedStore.Proofs.Gateway.Memory
import VersionedStore.Proofs.Migration.UpgradePath
import VersionedStore.Proofs.Session.Succession

/-!
# The stored version

Over one memory, with any sessions one after another, what is stored is never replaced by something
older, unless the user has consented to a recovery.

* `NotOlder`: an older document and a newer one;
* `Gateway.Ahead`: a gateway writes under no older version than what is stored has;
* `version_never_goes_back`: the statement for whole runs.
-/

namespace VersionedStore

variable {ρ : Type} {markers : Markers ρ}

/-- Where the old document holds an envelope, the new one holds one of the same version or a
later one. -/
def NotOlder (old new : Object) : Prop :=
  ∀ e, Envelope.ofDocument old = .ok e →
    ∃ e', Envelope.ofDocument new = .ok e' ∧ e.version ≤ e'.version

theorem NotOlder.refl (document : Object) : NotOlder document document :=
  fun e he => ⟨e, he, UInt32.le_refl _⟩

theorem NotOlder.of_eq {old new : Object} (h : new = old) : NotOlder old new := by
  rw [h]
  exact .refl old

theorem NotOlder.trans {a b c : Object} (h : NotOlder a b) (h' : NotOlder b c) : NotOlder a c := by
  intro e he
  obtain ⟨e', he', hle⟩ := h e he
  obtain ⟨e'', he'', hle'⟩ := h' e' he'
  exact ⟨e'', he'', UInt32.le_trans hle hle'⟩

namespace Gateway

variable {now : Nat} {g g' : Gateway (Memory × ρ)}

/-- **Ahead:** what is stored is not newer than the version that states are written under. -/
def Ahead (g : Gateway (Memory × ρ)) : Prop :=
  ∀ version, g.metadata = some version →
    ∀ e, Envelope.ofDocument g.world.1.entries = .ok e → e.version ≤ version

theorem Ahead.persists (h : g.Ahead) {state : Value} {r : Except StoreError Persisted}
    (hp : Persists (.beside Memory.storage markers) g state r g') :
    g'.Ahead ∧ NotOlder g.world.1.entries g'.world.1.entries := by
  have hmetadata : g'.metadata = g.metadata := hp.frame.2.2.1
  unfold Ahead
  rw [hmetadata]
  by_cases hr : r = .ok .written
  · subst hr
    obtain ⟨data, version, -, hversion, hentries⟩ := hp.entries_written
    have hnew : Envelope.ofDocument g'.world.1.entries = .ok ⟨version, data⟩ := by
      rw [hentries]
      exact (Envelope.heldBy_merge _ _).ofDocument
    refine ⟨fun v hv e he => ?_, fun e he => ⟨_, hnew, h version hversion e he⟩⟩
    obtain rfl := Option.some.inj (hversion.symm.trans hv)
    obtain rfl := Except.ok.inj (hnew.symm.trans he)
    exact UInt32.le_refl _
  · rw [hp.entries_kept hr]
    exact ⟨h, .refl _⟩

theorem Persists.opened_of_written {σ : Type} {io : Ports σ} {g g' : Gateway σ} {state : Value}
    (h : Persists io g state (.ok .written) g') : g.ready = true ∧ ∃ w, g.Open io w := by
  cases h with
  | written ready _ opened => exact ⟨ready, _, opened⟩

end Gateway

namespace Session

variable {now : Nat} {s s' : Session (Memory × ρ)}

/-- The session's gateway is ahead, unless it cannot write or needs a consent. -/
def Ahead (s : Session (Memory × ρ)) : Prop :=
  s.gateway.ready = true → s.gateway.corrupted = false → s.gateway.Ahead

theorem Boots.ahead {r : Except StoreError Outcome}
    (h : s.Boots (.beside Memory.storage markers) now r s') (hs : s.Ahead) :
    s'.Ahead ∧ NotOlder s.gateway.world.1.entries s'.gateway.world.1.entries := by
  have hmigrated {g e}
      (load : s.gateway.Loads (.beside Memory.storage markers) now (.envelope e) g) :
      (s.migrated g e).gateway.Ahead := by
    rintro version hversion stored hstored
    obtain rfl := Option.some.inj hversion
    have hsame : (s.migrated g e).gateway.world.1.entries = s.gateway.world.1.entries :=
      load.memory_frame.1
    rw [hsame, load.decodes] at hstored
    obtain rfl := Except.ok.inj hstored
    exact s.chain.version_le_run s.onFault _
  cases h with
  | again => exact ⟨hs, .refl _⟩
  | @fresh g _ load =>
    have hsame := load.memory_frame.1
    refine ⟨fun ready _ version _ e he => ?_, .of_eq hsame⟩
    have hready : s.gateway.ready = true := load.frame.2.1.symm.trans ready
    have hnone : g.world.1.entries = [] := hsame.trans (load.entries_of_fresh hready)
    have hdecodes : Envelope.ofDocument g.world.1.entries = .ok e := he
    rw [hnone] at hdecodes
    cases hdecodes
  | @corrupted g _ load =>
    refine ⟨fun _ hc => ?_, .of_eq load.memory_frame.1⟩
    cases (load.corrupted_iff.mpr (Or.inr rfl)).symm.trans hc
  | kept _ load => exact ⟨fun _ _ => hmigrated load, .of_eq load.memory_frame.1⟩
  | writtenBack _ load _ _ persist =>
    obtain ⟨hahead, hnot⟩ := (hmigrated load).persists persist
    exact ⟨fun _ _ => hahead, (NotOlder.of_eq load.memory_frame.1).trans hnot⟩

/-! ### Without a consent -/

/-- The event asks for no recovery, and no consent could be read when it began. -/
structure Event.Unasked (e : Event (.beside Memory.storage markers)) : Prop where
  request : ∀ state, e.request ≠ .recover state
  marker : (markers.get e.before.gateway.config.recoveryKey e.before.gateway.world.2).1 ≠
    .ok (some "true")

theorem Ahead.persists (h : s.Ahead) {state : Value} {r : Except StoreError Persisted}
    {g : Gateway (Memory × ρ)}
    (hmarker : (markers.get s.gateway.config.recoveryKey s.gateway.world.2).1 ≠ .ok (some "true"))
    (hp : s.gateway.Persists (.beside Memory.storage markers) state r g) :
    (s.withGateway g).Ahead ∧ NotOlder s.gateway.world.1.entries g.world.1.entries := by
  obtain ⟨-, hready, hmetadata, hcorrupted, -⟩ := hp.frame
  by_cases hr : r = .ok .written
  · subst hr
    obtain ⟨ready, w, opened⟩ := hp.opened_of_written
    have hc : s.gateway.corrupted = false := by
      rcases opened with ⟨hc, -⟩ | ⟨-, read⟩
      · exact hc
      · exact absurd (congrArg Prod.fst (Ports.getMarker_beside read).1) hmarker
    obtain ⟨hahead, hnot⟩ := (h ready hc).persists hp
    exact ⟨fun _ _ => hahead, hnot⟩
  · have hsame := hp.entries_kept hr
    refine ⟨fun ready hc version hversion => ?_, .of_eq hsame⟩
    have := h (hready.symm.trans ready) (hcorrupted.symm.trans hc) version
      (hmetadata.symm.trans hversion)
    rw [← hsame] at this
    exact this

theorem Event.Unasked.ahead {e : Event (.beside Memory.storage markers)} (h : e.Unasked)
    (hp : e.before.Performs (.beside Memory.storage markers) e.request e.answer e.after)
    (hs : e.before.Ahead) :
    e.after.Ahead ∧
      NotOlder e.before.gateway.world.1.entries e.after.gateway.world.1.entries := by
  have hrequest := h.request
  generalize e.request = request at hp hrequest
  generalize e.answer = answer at hp
  generalize hafter : e.after = after at hp ⊢
  cases hp with
  | booted hboots => exact hboots.ahead hs
  | persisted hpersists => exact hs.persists h.marker hpersists
  | refused | recovered => exact absurd rfl (hrequest _)

/-! ### Runs -/

/-- The world may change on its own, but the document is left to the sessions. -/
def Step.KeepsEntries : Step (Memory × ρ) → Prop
  | .disturb f => ∀ w, (f w).1.entries = w.1.entries
  | _ => True

theorem preserved_ahead {steps : List (Step (Memory × ρ))} (hs : ∀ x ∈ steps, x.KeepsEntries)
    (base : Object) : Preserved (.beside Memory.storage markers) steps fun es s =>
      (∀ x ∈ es, x.Unasked) → s.Ahead ∧ NotOlder base s.gateway.world.1.entries where
  restart {es s chain config initial} _ h hes := by
    obtain ⟨-, -, hworld, -, hmetadata⟩ :=
      Gateway.start_frame (.beside Memory.storage markers) config
      s.gateway.world s.gateway.log
    have hsame := congrArg (fun w : Memory × ρ => w.1.entries) hworld
    refine ⟨fun _ _ version hversion => ?_, (h hes).2.trans (.of_eq hsame)⟩
    cases hmetadata.symm.trans hversion
  use {es e} hp h hes := by
    obtain ⟨hahead, hnot⟩ := h fun x hx => hes x (List.mem_append_left _ hx)
    obtain ⟨hahead', hnot'⟩ := (hes e (by simp)).ahead hp hahead
    exact ⟨hahead', hnot.trans hnot'⟩
  disturb {es s f} hf h hes := by
    obtain ⟨hahead, hnot⟩ := h hes
    have hsame : (s.disturbed f).gateway.world.1.entries = s.gateway.world.1.entries :=
      hs _ hf s.gateway.world
    refine ⟨fun ready hc version hversion => ?_, hnot.trans (.of_eq hsame)⟩
    rw [hsame]
    exact hahead ready hc version hversion

theorem ahead_start (chain : Chain) (config : Config) (initial : Object) (w : Memory × ρ)
    (log : List Diagnostic) :
    (start (.beside Memory.storage markers) chain config initial w log).Ahead := by
  intro _ _ version hversion
  cases (Gateway.start_frame (.beside Memory.storage markers) config w log).2.2.2.2.symm.trans
    hversion

/-- **The stored version never goes back without a consent.**  Over one memory that is left to the
sessions, in every run of any sessions one after another, whatever chains and configurations they
have and whichever calls fail: where no recovery is asked for and no consent can be read, an
envelope that is stored at some point is there at every later one, in its own version or a later
one. -/
theorem version_never_goes_back (chain : Chain) (config : Config) (initial : Object) (m : Memory)
    (r : ρ) (log : List Diagnostic) {steps later : List (Step (Memory × ρ))}
    (hs : ∀ x ∈ steps ++ later, x.KeepsEntries) :
    let io := Ports.beside Memory.storage markers
    let s := start io chain config initial (m, r) log
    (∀ x ∈ s.events io (steps ++ later), x.Unasked) →
    ∀ e, Envelope.ofDocument (s.after io steps).gateway.world.1.entries = .ok e →
      ∃ e', Envelope.ofDocument (s.after io (steps ++ later)).gateway.world.1.entries = .ok e' ∧
        e.version ≤ e'.version := by
  intro io s hunasked
  have hsound : s.Sound := sound_start io chain config initial (m, r) log
  have hstart : s.Ahead := ahead_start chain config initial (m, r) log
  rw [events_append] at hunasked
  have hsteps : ∀ x ∈ steps, x.KeepsEntries := fun x hx => hs x (List.mem_append_left _ hx)
  have hlater : ∀ x ∈ later, x.KeepsEntries := fun x hx => hs x (List.mem_append_right _ hx)
  obtain ⟨hsound', hfirst⟩ := (preserved_ahead hsteps s.gateway.world.1.entries).after hsound
    fun _ => ⟨hstart, .refl _⟩
  obtain ⟨hahead, -⟩ := hfirst fun x hx => hunasked x (List.mem_append_left _ hx)
  obtain ⟨-, hsecond⟩ := (preserved_ahead hlater (s.after io steps).gateway.world.1.entries).after
    hsound' fun _ => ⟨hahead, .refl _⟩
  rw [after_append]
  exact (hsecond fun x hx => hunasked x (List.mem_append_right _ hx)).2

/-- A document of version zero is brought to version three. -/
def upgraded : List (Step (Memory × Table String String)) := [.use (.bootstrap 5)]

/-- An older program starts over it and hands a state over, first when writing fails. -/
def downgraded : List (Step (Memory × Table String String)) :=
  [.restart .early {} [], .use (.bootstrap 6), .disturb fun w => (w.1.failWrites 1, w.2),
    .use (.persist (.object [])), .use (.persist (.object []))]

theorem version_never_goes_back_downgraded :
    let io := Ports.beside Memory.storage .memory
    let s := start io .faulty { onFault := .skip } []
      ({ entries := Envelope.toDocument ⟨0, []⟩ }, []) []
    Envelope.ofDocument (s.after io upgraded).gateway.world.1.entries =
        .ok ⟨3, [("a", .null), ("c", .null)]⟩ ∧
      (s.after io (upgraded ++ downgraded)).gateway.world.1.entries = Envelope.toDocument ⟨3, []⟩ ∧
      ∃ e', Envelope.ofDocument (s.after io (upgraded ++ downgraded)).gateway.world.1.entries =
        .ok e' ∧ 3 ≤ e'.version := by
  intro io s
  have hs : ∀ x ∈ upgraded ++ downgraded, x.KeepsEntries := by
    intro x hx
    simp only [upgraded, downgraded, List.cons_append, List.nil_append, List.mem_cons,
      List.not_mem_nil, or_false] at hx
    rcases hx with rfl | rfl | rfl | rfl | rfl | rfl
    all_goals first | trivial | exact fun w => rfl
  have hrun : ∃ a b c d, s.events io (upgraded ++ downgraded) = [a, b, c, d] ∧ a.Unasked ∧
      b.Unasked ∧ c.Unasked ∧ d.Unasked := by
    refine ⟨_, _, _, _, rfl, ?_, ?_, ?_, ?_⟩
    all_goals exact ⟨by rintro _ ⟨⟩, fun h => absurd (Except.ok.inj h) (by decide +kernel)⟩
  have hunasked : ∀ x ∈ s.events io (upgraded ++ downgraded), x.Unasked := by
    obtain ⟨a, b, c, d, hes, ha, hb, hc, hd⟩ := hrun
    rw [hes]
    simp only [List.mem_cons, List.not_mem_nil, or_false]
    rintro x (rfl | rfl | rfl | rfl) <;> assumption
  have hupgraded : (s.after io upgraded).gateway.world.1.entries =
      Envelope.toDocument ⟨3, [("a", .null), ("c", .null)]⟩ := by decide +kernel
  have hstored : Envelope.ofDocument (s.after io upgraded).gateway.world.1.entries =
      .ok ⟨3, [("a", .null), ("c", .null)]⟩ := by
    rw [hupgraded]
    exact Envelope.ofDocument_toDocument _
  exact ⟨hstored, by decide +kernel,
    version_never_goes_back .faulty { onFault := .skip } [] _ [] [] hs hunasked _ hstored⟩

end Session

end VersionedStore
