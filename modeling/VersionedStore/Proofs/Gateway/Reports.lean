import Mathlib.Data.List.Basic
import VersionedStore.Proofs.Envelope
import VersionedStore.Proofs.Gateway.Request
import VersionedStore.Proofs.History

/-!
# What a gateway reports

A gateway reports a storage that cannot be used, every corruption that one of its loads meets, and
the first of every streak of failed writings; and it reports nothing else.

* `Gateway.Blames`, `Gateway.Refuses`: what is to be reported of a load and of a writing;
* `Streak`: the last state that was written or refused was refused;
* `Tells`: the reports that a history calls for, one after another;
* `reports_are_exact`: the reports of whole runs.
-/

namespace VersionedStore

variable {σ : Type}

namespace Gateway

/-- **What a load that meets corruption reports**, by what it reads. -/
inductive Blames (io : Ports σ) (g : Gateway σ) (error : StoreError) : Prop
  | unreadable {e w} (read : io.storage.get none g.world = (.error e, w))
      (eq : error = e.asReadFailure) (kind : error.kind = "StorageReadFailure")
  | lost {w w' seen} (read : io.storage.get none g.world = (.ok [], w))
      (marker : io.markers.get g.config.existenceKey w = (.ok (some seen), w'))
      (eq : error = .corruption ("storage is empty but state was first observed at " ++ seen))
      (kind : error.kind = "CorruptionDetected")
  | unmarked {w w'} (read : io.storage.get none g.world = (.ok [], w))
      (marker : io.markers.get g.config.existenceKey w = (.error error, w'))
  | undecoded {w document} (read : io.storage.get none g.world = (.ok document, w))
      (ne : document ≠ []) (decode : Envelope.ofDocument document = .error error)
      (kind : error.kind = "CorruptionDetected")

/-- **What is to be reported of a state that the storage refuses**, with the version that it was to
be written under. -/
inductive Refuses (io : Ports σ) (g : Gateway σ) :
    VersionedStore.Request → Version → StoreError → Prop
  | write {data version w e w'} (metadata : g.metadata = some version) (opened : g.Open io w)
      (write : io.storage.set (Envelope.toDocument ⟨version, data⟩) w = (.error e, w'))
      (kind : e.asWriteFailure.kind = "StorageWriteFailure") :
      Refuses io g (.persist (.object data)) version e.asWriteFailure

variable {io : Ports σ} {now : Nat} {g g' : Gateway σ}

/-! ### One request -/

theorem Loads.reports {r : Loaded} (h : Loads io now g r g') :
    (r ≠ .corrupted ∧ g'.log = g.log) ∨
      (r = .corrupted ∧ ∃ error, g.Blames io error ∧
        g'.log = g.log ++ [⟨error, "load", none⟩]) := by
  cases h with
  | unsupported | fresh | decoded => exact .inl ⟨nofun, rfl⟩
  | unreadable _ read => exact .inr ⟨rfl, _, .unreadable read rfl (by simp), rfl⟩
  | lost _ read marker => exact .inr ⟨rfl, _, .lost read marker rfl rfl, rfl⟩
  | unmarked _ read marker => exact .inr ⟨rfl, _, .unmarked read marker, rfl⟩
  | undecoded _ read ne decode =>
    obtain ⟨detail, rfl⟩ := Envelope.corruption_of_ofDocument decode
    exact .inr ⟨rfl, _, .undecoded read ne decode rfl, rfl⟩

theorem Persists.reports {state : Value} {r : Except StoreError Persisted}
    (h : Persists io g state r g') :
    (r ≠ .ok .failed ∧ g'.log = g.log) ∨
      (r = .ok .failed ∧ ∃ version error, g.Refuses io (.persist state) version error ∧
        g'.log = g.log ++
          if g.failing.latched then [] else [⟨error, "persist", some version⟩]) := by
  cases h with
  | unsupported | missing | invalid | unset | skipped | written => exact .inl ⟨nofun, rfl⟩
  | failed _ metadata opened write =>
    refine .inr ⟨rfl, _, _, .write metadata opened write (by simp), ?_⟩
    rcases hl : g.failing.latched <;> simp [hl, report]

theorem Performs.failing_cases {request : Request} {answer : Answer}
    (h : Performs io g request answer g') :
    (answer = .persisted (.ok .failed) ∧ g'.failing.latched = true) ∨
      (answer = .persisted (.ok .written) ∧ g'.failing.latched = false) ∨
      (answer ≠ .persisted (.ok .failed) ∧ answer ≠ .persisted (.ok .written) ∧
        g'.failing = g.failing) := by
  cases h with
  | configured | configuredTwice | consented => exact .inr (.inr ⟨nofun, nofun, rfl⟩)
  | loaded h => exact .inr (.inr ⟨nofun, nofun, h.frame.2.2.2⟩)
  | persisted h =>
    cases h with
    | unsupported | missing | invalid | unset | skipped => exact .inr (.inr ⟨nofun, nofun, rfl⟩)
    | written => exact .inr (.inl ⟨rfl, rfl⟩)
    | failed => exact .inl ⟨rfl, by split <;> rfl⟩

end Gateway

/-! ### Histories -/

section History

variable {io : Ports σ}

/-- **A failing streak:** a state was refused, and none was written since then. -/
def Streak (es : List (Event io)) : Prop :=
  ∃ past e later, es = past ++ e :: later ∧ e.answer = .persisted (.ok .failed) ∧
    ∀ l ∈ later, l.answer ≠ .persisted (.ok .written)

theorem not_streak_nil : ¬ Streak ([] : List (Event io)) := History.not_since_nil

theorem streak_concat {es : List (Event io)} {e : Event io} :
    Streak (es ++ [e]) ↔ e.answer = .persisted (.ok .failed) ∨
      Streak es ∧ e.answer ≠ .persisted (.ok .written) := History.since_concat

/-- **The reports that a history calls for:** one for each load that met corruption, one for each
refused state outside a streak, and none for anything else. -/
inductive Tells : List (Event io) → List Diagnostic → Prop
  | nil : Tells [] []
  | quiet {es ds e} (h : Tells es ds) (loaded : e.answer ≠ .loaded .corrupted)
      (persisted : e.answer ≠ .persisted (.ok .failed)) : Tells (es ++ [e]) ds
  | corruption {es ds e error} (h : Tells es ds) (loaded : e.answer = .loaded .corrupted)
      (blames : e.before.Blames io error) : Tells (es ++ [e]) (ds ++ [⟨error, "load", none⟩])
  | failure {es ds e version error} (h : Tells es ds)
      (persisted : e.answer = .persisted (.ok .failed)) (first : ¬ Streak es)
      (refuses : e.before.Refuses io e.request version error) :
      Tells (es ++ [e]) (ds ++ [⟨error, "persist", some version⟩])
  | again {es ds e} (h : Tells es ds) (persisted : e.answer = .persisted (.ok .failed))
      (streak : Streak es) : Tells (es ++ [e]) ds

end History

namespace Gateway

variable {io : Ports σ}

/-! ### Runs -/

def event (io : Ports σ) (g : Gateway σ) (request : Request) : Event io :=
  ⟨0, g, request, (g.perform io request).1, (g.perform io request).2, rfl⟩

def step (io : Ports σ) (g : Gateway σ) (request : Request) : Option (Event io) × Gateway σ :=
  (some (g.event io request), (g.event io request).after)

/-- What happens when one request after another is handed to the gateway, oldest first. -/
def events (io : Ports σ) (g : Gateway σ) (requests : List Request) : List (Event io) :=
  History.events (step io) g requests

/-- The gateway after these requests. -/
def after (io : Ports σ) (g : Gateway σ) (requests : List Request) : Gateway σ :=
  History.after (step io) g requests

/-- What is reported when a gateway is opened. -/
def opening (io : Ports σ) (world : σ) : List Diagnostic :=
  if (io.storage.isAvailable world).1 then [] else [⟨.unavailable, "open", none⟩]

theorem start_reports (io : Ports σ) (config : Config) (world : σ) (log : List Diagnostic) :
    (start io config world log).log = log ++ opening io world ∧
      (start io config world log).failing.latched = false := by
  unfold start opening
  rcases io.storage.isAvailable world with ⟨_ | _, w⟩ <;> simp [report]

/-- **The log tells the history**, after what it held before, and the latch is closed inside a
streak. -/
structure Accounts (log : List Diagnostic) (es : List (Event io)) (g : Gateway σ) : Prop where
  log_eq : ∃ ds, g.log = log ++ ds ∧ Tells es ds
  latched_iff : g.failing.latched = true ↔ Streak es

theorem Accounts.event {log : List Diagnostic} {es : List (Event io)} {g : Gateway σ}
    (h : Accounts log es g) (request : Request) :
    Accounts log (es ++ [g.event io request]) (g.event io request).after := by
  obtain ⟨⟨ds, hlog, htells⟩, hlatched⟩ := h
  generalize he : g.event io request = e
  have hbefore : e.before = g := by rw [← he]; rfl
  have hperforms := e.performs
  subst hbefore
  constructor
  · generalize hrequest : e.request = request', hanswer : e.answer = answer at hperforms
    generalize hafter : e.after = g' at hperforms
    cases hperforms with
    | configured | configuredTwice | consented =>
      exact ⟨ds, hlog, htells.quiet (by rw [hanswer]; nofun) (by rw [hanswer]; nofun)⟩
    | loaded h =>
      rcases h.reports with ⟨hr, hg⟩ | ⟨rfl, error, hblames, hg⟩
      · refine ⟨ds, hg.trans hlog, htells.quiet ?_ (by rw [hanswer]; nofun)⟩
        rw [hanswer]
        exact fun h => hr (Answer.loaded.inj h)
      · exact ⟨_, by rw [hg, hlog, List.append_assoc], htells.corruption hanswer hblames⟩
    | persisted h =>
      rcases h.reports with ⟨hr, hg⟩ | ⟨rfl, version, error, hrefuses, hg⟩
      · refine ⟨ds, hg.trans hlog, htells.quiet (by rw [hanswer]; nofun) ?_⟩
        rw [hanswer]
        exact fun h => hr (Answer.persisted.inj h)
      rw [← hrequest] at hrefuses
      by_cases hstreak : Streak es
      · rw [if_pos (hlatched.mpr hstreak), List.append_nil] at hg
        exact ⟨ds, hg.trans hlog, htells.again hanswer hstreak⟩
      · rw [if_neg fun hl => hstreak (hlatched.mp hl)] at hg
        exact ⟨_, by rw [hg, hlog, List.append_assoc], htells.failure hanswer hstreak hrefuses⟩
  · rw [streak_concat, ← hlatched]
    rcases hperforms.failing_cases with ⟨hanswer, hl⟩ | ⟨hanswer, hl⟩ | ⟨hfailed, hwritten, hl⟩
    · simp [hanswer, hl]
    · simp [hanswer, hl]
    · simp [hfailed, hwritten, hl]

theorem keeps_accounts (io : Ports σ) (log : List Diagnostic) (requests : List Request) :
    History.Keeps (step io) requests (Accounts log) :=
  fun _ _ request _ h => h.event request

/-- **The reports of a gateway are exact.**  The ports answer and fail as they like, and requests
are handed to one gateway in any order and number.  At every point of the run the log holds what it
held before the gateway was opened, a report if the storage could not be used, and then just what
the history calls for; the gateway is failing exactly inside a streak; and only a state that was
written or refused changes whether it is. -/
theorem reports_are_exact (io : Ports σ) (config : Config) (world : σ) (log : List Diagnostic)
    (requests : List Request) :
    let g := start io config world log
    (∃ ds, (g.after io requests).log = log ++ opening io world ++ ds ∧
      Tells (g.events io requests) ds) ∧
    ((g.after io requests).failing.latched = true ↔ Streak (g.events io requests)) ∧
    ∀ e ∈ g.events io requests, e.answer ≠ .persisted (.ok .written) →
      e.answer ≠ .persisted (.ok .failed) → e.after.failing = e.before.failing := by
  intro g
  obtain ⟨hlog, hlatched⟩ := start_reports io config world log
  have hopened : Accounts (log ++ opening io world) ([] : List (Event io)) g :=
    ⟨⟨[], by rw [hlog, List.append_nil], .nil⟩, by simp [g, hlatched, not_streak_nil]⟩
  obtain ⟨htold, hfailing⟩ := (keeps_accounts io _ requests).after hopened
  refine ⟨htold, hfailing, fun e _ hwritten hfailed => ?_⟩
  rcases e.performs.failing_cases with ⟨hanswer, -⟩ | ⟨hanswer, -⟩ | ⟨-, -, hsame⟩
  · exact absurd hanswer hfailed
  · exact absurd hanswer hwritten
  · exact hsame

end Gateway

end VersionedStore
