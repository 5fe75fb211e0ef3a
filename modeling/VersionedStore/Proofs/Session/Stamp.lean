import VersionedStore.Proofs.Gateway.Calls
import VersionedStore.Proofs.Migration.UpgradePath
import VersionedStore.Proofs.Session.Succession
import VersionedStore.Storage.Memory

/-!
# The version that states are written under

A bootstrap decides, once for the whole session, under which version states are written: the one
that the application was given its state in.

* `Performs.writes_stamped`: what a request hands to the storage;
* `Session.Stamped`: the version stays as the bootstrap has set it;
* `documents_are_stamped`: the statement for all runs of a session, over any ports.
-/

namespace VersionedStore.Session

variable {σ : Type} {io : Ports σ} {now : Nat}

/-- The state that a request hands to the storage, if it gets there: the one that it was given, or
the migrated one that a bootstrap writes back. -/
inductive Hands : Request → Answer → Object → Prop
  | persist {data answer} : Hands (.persist (.object data)) answer data
  | recover {data answer} : Hands (.recover (.object data)) answer data
  | writeBack {now report p} :
      Hands (.bootstrap now) (.booted (.ok (.loaded report (some p)))) report.envelope.data

/-- The calls that were made in an event, oldest first. -/
def Event.calls (e : Event io.recorded) : List Call :=
  e.after.gateway.world.1.drop e.before.gateway.world.1.length

/-! ### One request -/

section Requests

variable {s s' : Session (List Call × σ)}

theorem Boots.writes_stamped {r : Except StoreError Outcome} (h : s.Boots io.recorded now r s') :
    Writes (fun document => ∃ version data, Hands (.bootstrap now) (.booted r) data ∧
      s'.gateway.metadata = some version ∧ document = Envelope.toDocument ⟨version, data⟩)
      s.gateway.world s'.gateway.world := by
  cases h with
  | again => exact .refl _ _
  | fresh _ load | corrupted _ load | kept _ load =>
    exact load.writes_nothing.mono fun _ => False.elim
  | writtenBack _ load _ _ persist =>
    refine (load.writes_nothing.mono fun _ => False.elim).trans ?_
    refine persist.writes_stamped.mono ?_
    rintro document ⟨version, data, hdata, hmetadata, rfl⟩
    obtain rfl := Value.object.inj hdata
    exact ⟨version, _, .writeBack, persist.frame.2.2.1.trans hmetadata, rfl⟩

/-- **What a request hands to the storage** is written under the version that is then configured. -/
theorem Performs.writes_stamped {request : Request} {answer : Answer}
    (h : s.Performs io.recorded request answer s') :
    Writes (fun document => ∃ version data, Hands request answer data ∧
      s'.gateway.metadata = some version ∧ document = Envelope.toDocument ⟨version, data⟩)
      s.gateway.world s'.gateway.world := by
  cases h with
  | booted h => exact h.writes_stamped
  | persisted h =>
    refine h.writes_stamped.mono ?_
    rintro document ⟨version, data, rfl, hmetadata, rfl⟩
    exact ⟨version, data, .persist, h.frame.2.2.1.trans hmetadata, rfl⟩
  | refused set => exact (Markers.set_writes_nothing set).mono fun _ => False.elim
  | recovered set h =>
    refine ((Markers.set_writes_nothing set).mono fun _ => False.elim).trans ?_
    refine h.writes_stamped.mono ?_
    rintro document ⟨version, data, rfl, hmetadata, rfl⟩
    exact ⟨version, data, .recover, h.frame.2.2.1.trans hmetadata, rfl⟩

end Requests

theorem Boots.stamps {s s' : Session σ} {r : Except StoreError Outcome} (h : s.Boots io now r s')
    (new : s.bootstrapped = false) :
    ∃ outcome, r = .ok outcome ∧
      s'.gateway.metadata = some (outcome.version?.getD s.chain.current) := by
  cases h with
  | again done => cases new.symm.trans done
  | fresh => exact ⟨_, rfl, rfl⟩
  | corrupted => exact ⟨_, rfl, rfl⟩
  | kept _ _ run =>
    subst run
    exact ⟨_, rfl, rfl⟩
  | writtenBack _ _ run _ persist =>
    subst run
    exact ⟨_, rfl, persist.frame.2.2.1⟩

theorem Boots.of_bootstrapped {s s' : Session σ} {r : Except StoreError Outcome}
    (h : s.Boots io now r s') (done : s.bootstrapped = true) :
    r = .error .alreadyBootstrapped ∧ s' = s := by
  cases h with
  | again => exact ⟨rfl, rfl⟩
  | fresh new | corrupted new | kept new | writtenBack new => cases new.symm.trans done

/-! ### Runs of a session -/

/-- **A session keeps the version** that a bootstrap has configured; before that it has none. -/
structure Stamped (chain : Chain) (es : List (Event io)) (s : Session σ) : Prop where
  chain_eq : s.chain = chain
  new : (∀ b ∈ es, ¬ b.IsBootstrap) → s.bootstrapped = false
  kept : ∀ b ∈ es, b.IsBootstrap →
    s.bootstrapped = true ∧ s.gateway.metadata = b.after.gateway.metadata

theorem Performs.stamp_kept {s s' : Session σ} {request : Request} {answer : Answer}
    (h : s.Performs io request answer s') (done : s.bootstrapped = true) :
    s'.bootstrapped = true ∧ s'.gateway.metadata = s.gateway.metadata := by
  by_cases hboot : ∃ now, request = .bootstrap now
  · obtain ⟨now, rfl⟩ := hboot
    cases h with
    | booted h =>
      rw [(h.of_bootstrapped done).2]
      exact ⟨done, rfl⟩
  · obtain ⟨hbootstrapped, hmetadata⟩ := h.handover_frame fun now hnow => hboot ⟨now, hnow⟩
    exact ⟨hbootstrapped.trans done, hmetadata⟩

theorem Stamped.put {chain : Chain} {es : List (Event io)} {e : Event io}
    (h : Stamped chain es e.before) (hp : e.before.Performs io e.request e.answer e.after) :
    Stamped chain (es ++ [e]) e.after := by
  refine ⟨hp.frame.1.trans h.chain_eq, fun hnone => ?_, fun b hb hboot => ?_⟩
  · have hnew := h.new fun b hb => hnone b (List.mem_append_left _ hb)
    have he : ¬ e.IsBootstrap := hnone e (by simp)
    rw [(hp.handover_frame fun now hnow => he ⟨now, hnow⟩).1]
    exact hnew
  rcases List.mem_append.mp hb with hb | hb
  · obtain ⟨hdone, hmetadata⟩ := h.kept b hb hboot
    obtain ⟨hdone', hmetadata'⟩ := hp.stamp_kept hdone
    exact ⟨hdone', hmetadata'.trans hmetadata⟩
  · obtain rfl := List.mem_singleton.mp hb
    obtain ⟨now, hnow⟩ := hboot
    rw [hnow] at hp
    generalize b.answer = answer at hp
    cases hp with
    | booted hboots => exact ⟨hboots.frame.2.2, rfl⟩

theorem preserved_stamped {chain : Chain} {steps : List (Step σ)} (hs : ∀ x ∈ steps, x.Stays) :
    Preserved io steps (Stamped chain) where
  restart hrestart _ := (hs _ hrestart).elim
  use hp h := h.put hp
  disturb _ h := ⟨h.chain_eq, h.new, h.kept⟩

theorem stamped_start (io : Ports σ) (chain : Chain) (config : Config) (initial : Object)
    (world : σ) (log : List Diagnostic) :
    Stamped chain ([] : List (Event io)) (start io chain config initial world log) :=
  ⟨rfl, fun _ => rfl, fun b hb => by cases hb⟩

theorem Event.hands_of_write {e : Event io.recorded}
    (h : e.before.Performs io.recorded e.request e.answer e.after) {document : Object}
    {answer : Except StoreError Unit} (hmem : .write document answer ∈ e.calls) :
    ∃ version data, Hands e.request e.answer data ∧ e.after.gateway.metadata = some version ∧
      document = Envelope.toDocument ⟨version, data⟩ :=
  h.writes_stamped.of_mem_drop hmem

theorem Event.document_of_write {e : Event io.recorded}
    (h : e.before.Performs io.recorded e.request e.answer e.after) {version : Version}
    (hversion : e.after.gateway.metadata = some version) {document : Object}
    {answer : Except StoreError Unit} (hmem : .write document answer ∈ e.calls) :
    ∃ data, Hands e.request e.answer data ∧
      document = [("data", .object data), ("meta", .object [("version", .ofVersion version)])] := by
  obtain ⟨found, data, hhands, hfound, rfl⟩ := Event.hands_of_write h hmem
  obtain rfl := Option.some.inj (hfound.symm.trans hversion)
  exact ⟨data, hhands, rfl⟩

section Run

variable {s : Session σ} {chain : Chain} {steps : List (Step σ)} {past later : List (Event io)}
  {b : Event io}

theorem Stamped.bootstrap (h : Stamped chain past b.before)
    (hp : b.before.Performs io b.request b.answer b.after) (hpast : ∀ x ∈ past, ¬ x.IsBootstrap)
    (hb : b.IsBootstrap) : ∃ outcome, b.answer = .booted (.ok outcome) ∧
      b.after.gateway.metadata = some (outcome.version?.getD chain.current) := by
  obtain ⟨now, hnow⟩ := hb
  rw [hnow] at hp
  generalize b.answer = answer at hp
  cases hp with
  | booted hboots =>
    obtain ⟨outcome, rfl, hmetadata⟩ := hboots.stamps (h.new hpast)
    rw [h.chain_eq] at hmetadata
    exact ⟨outcome, rfl, hmetadata⟩

theorem stamp_of_later (hs : ∀ x ∈ steps, x.Stays) (hsound : s.Sound)
    (hinit : Stamped chain ([] : List (Event io)) s)
    (hes : s.events io steps = past ++ b :: later) (hb : b.IsBootstrap) {x : Event io}
    (hx : x ∈ later) : x.before.Performs io x.request x.answer x.after ∧
      x.before.gateway.metadata = b.after.gateway.metadata ∧
      x.after.gateway.metadata = b.after.gateway.metadata := by
  obtain ⟨between, future, rfl⟩ := List.append_of_mem hx
  have hes' : s.events io steps = (past ++ b :: between) ++ x :: future := by
    rw [hes, List.append_assoc, List.cons_append]
  obtain ⟨-, hstamped, hp⟩ := (preserved_stamped hs).at_event hsound hinit hes'
  obtain ⟨hdone, hkept⟩ := hstamped.kept b (by simp) hb
  exact ⟨hp, hkept, (hp.stamp_kept hdone).2.trans hkept⟩

end Run

/-- **Every document is stamped with the version that the application was given.**  Over any ports,
however they fail and whatever happens to their world: before the bootstrap nothing is written; the
bootstrap is not refused and configures the version of its state, or that of the schema where the
store is corrupted, and that version stays; and from then on every document that is handed to the
storage holds that version and the state that was handed over, and nothing else. -/
theorem documents_are_stamped (io : Ports σ) (chain : Chain) (config : Config) (initial : Object)
    (world : σ) (log : List Diagnostic) {steps : List (Step (List Call × σ))}
    (hs : ∀ x ∈ steps, x.Stays) :
    let s := start io.recorded chain config initial ([], world) log
    (∀ past e future, s.events io.recorded steps = past ++ e :: future →
      (∀ x ∈ past, ¬ x.IsBootstrap) → ¬ e.IsBootstrap →
        ∀ document r, .write document r ∉ e.calls) ∧
    ∀ past b later, s.events io.recorded steps = past ++ b :: later →
      (∀ x ∈ past, ¬ x.IsBootstrap) → b.IsBootstrap →
      ∃ outcome, b.answer = .booted (.ok outcome) ∧
        let version := outcome.version?.getD chain.current
        b.after.gateway.metadata = some version ∧
        (s.after io.recorded steps).gateway.metadata = some version ∧
        (∀ x ∈ later, x.before.gateway.metadata = some version ∧
          x.after.gateway.metadata = some version) ∧
        ∀ x ∈ b :: later, ∀ document r, .write document r ∈ x.calls →
          ∃ data, Hands x.request x.answer data ∧ document =
            [("data", .object data), ("meta", .object [("version", .ofVersion version)])] := by
  intro s
  have hsound : s.Sound := sound_start io.recorded chain config initial ([], world) log
  have hinit : Stamped chain ([] : List (Event io.recorded)) s := stamped_start ..
  have hkeeps : Preserved io.recorded steps (Stamped chain) := preserved_stamped hs
  refine ⟨fun past e future hes hpast he document r hwrite => ?_,
    fun past b later hes hpast hb => ?_⟩
  · obtain ⟨hsound', hstamped, hp⟩ := hkeeps.at_event hsound hinit hes
    obtain ⟨version, data, -, hversion, -⟩ := Event.hands_of_write hp hwrite
    have hnone := hsound' (hstamped.new hpast)
    rw [(hp.handover_frame fun now hnow => he ⟨now, hnow⟩).2, hnone] at hversion
    cases hversion
  obtain ⟨-, hstamped, hp⟩ := hkeeps.at_event hsound hinit hes
  obtain ⟨outcome, hanswer, hmetadata⟩ := hstamped.bootstrap hp hpast hb
  refine ⟨outcome, hanswer, hmetadata, ?_, fun x hx => ?_, fun x hx document r hwrite => ?_⟩
  · have hend := (hkeeps.after hsound hinit).2.kept b (by rw [hes]; simp) hb
    exact hend.2.trans hmetadata
  · obtain ⟨-, hbefore, hafter⟩ := stamp_of_later hs hsound hinit hes hb hx
    exact ⟨hbefore.trans hmetadata, hafter.trans hmetadata⟩
  rcases List.mem_cons.mp hx with rfl | hx
  · exact Event.document_of_write hp hmetadata hwrite
  · obtain ⟨hp', -, hafter⟩ := stamp_of_later hs hsound hinit hes hb hx
    exact Event.document_of_write hp' (hafter.trans hmetadata) hwrite

/-- A state is handed over too early, the migration of what is stored halts at its second version,
and then the state is handed over once more. -/
def halting : List (Step (List Call × (Memory × Table String String))) :=
  [.use (.persist (.object [("x", .null)])), .use (.bootstrap 5),
    .use (.persist (.object [("x", .null)]))]

theorem stays_halting : ∀ x ∈ halting, x.Stays := by
  intro x hx
  simp only [halting, List.mem_cons, List.not_mem_nil, or_false] at hx
  rcases hx with rfl | rfl | rfl <;> trivial

/-- A session over a document of version zero, with a chain whose second migration breaks down. -/
def overOld : Session (List Call × (Memory × Table String String)) :=
  start (Ports.beside Memory.storage .memory).recorded .faulty {} []
    ([], ({ entries := Envelope.toDocument ⟨0, []⟩ }, [])) []

/-- The schema is at version three, but the state that the application is given is at version one,
and so is what is written. -/
theorem documents_are_stamped_halted :
    let document : Object :=
      [("data", .object [("x", .null)]), ("meta", .object [("version", .ofVersion 1)])]
    ∃ a b c : Event (Ports.beside Memory.storage .memory).recorded,
      overOld.events _ halting = [a, b, c] ∧ (∀ document r, .write document r ∉ a.calls) ∧
        b.after.gateway.metadata = some 1 ∧ c.after.gateway.metadata = some 1 ∧
        c.after.gateway.world.2.1.entries = document ∧
        ∀ found r, .write found r ∈ c.calls → found = document := by
  intro document
  have hrun : ∃ a b c : Event (Ports.beside Memory.storage .memory).recorded,
      overOld.events _ halting = [a, b, c] ∧ a.request = .persist (.object [("x", .null)]) ∧
        b.request = .bootstrap 5 ∧ c.request = .persist (.object [("x", .null)]) ∧
        b.after.gateway.metadata = some 1 ∧ c.after.gateway.world.2.1.entries = document :=
    ⟨_, _, _, rfl, rfl, rfl, rfl, by decide +kernel, by decide +kernel⟩
  obtain ⟨a, b, c, hes, ha, hb, hc, hversion, hentries⟩ := hrun
  have ha' : ¬ a.IsBootstrap := by
    rintro ⟨now, hnow⟩
    cases ha.symm.trans hnow
  obtain ⟨hbefore, hafter⟩ :=
    documents_are_stamped (Ports.beside Memory.storage .memory) .faulty {} []
    ({ entries := Envelope.toDocument ⟨0, []⟩ }, []) [] stays_halting
  have hnone := hbefore [] a [b, c] hes (by simp) ha'
  obtain ⟨outcome, -, hstamp, -, hlater, hwrites⟩ :=
    hafter [a] b [c] hes (by simpa using ha') ⟨5, hb⟩
  rw [Option.some.inj (hstamp.symm.trans hversion)] at hlater hwrites
  refine ⟨a, b, c, hes, hnone, hversion, (hlater c (by simp)).2, hentries, fun found r hfound => ?_⟩
  obtain ⟨data, hhands, rfl⟩ := hwrites c (by simp) found r hfound
  rw [hc] at hhands
  cases hhands
  rfl

end VersionedStore.Session
