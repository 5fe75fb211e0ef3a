import Mathlib.Data.List.Chain
import VersionedStore.Proofs.Gateway.Memory
import VersionedStore.Proofs.Migration.UpgradePath
import VersionedStore.Proofs.Session.Operations

/-!
# Launches over one memory

A program is launched again and again over a memory that holds a document, and from launch to launch
its chain may have grown.  Nothing but the write-backs changes the document, and any of them may
fail.

* `Launch`: what happens to the world since the last launch, and what the program is launched with;
* `Memory.Holds`: what is stored is what a chain makes of an envelope;
* `Boots.of_holds`, `Boots.of_done`: a bootstrap goes on from there, or has nothing to do;
* `Upgrades.holds_after`: any number of launches leave what one of their chains makes of it;
* `launches_are_stable`: no launch notices what became of the write-backs before it.
-/

namespace VersionedStore

/-- What is stored can be read, and is what a chain makes of an envelope. -/
structure Memory.Holds (m : Memory) (policy : OnFault) (e : Envelope) (p : Chain) : Prop where
  available : m.available = true
  readable : m.readFaults = 0
  decodes : Envelope.ofDocument m.entries = .ok (p.run policy e).1.envelope

namespace Session

variable {σ ρ : Type} {markers : Markers ρ}

/-- A launch of a program: the world has changed since the last one, a session starts over it and is
bootstrapped. -/
structure Launch (σ : Type) where
  meanwhile : σ → σ
  chain : Chain
  config : Config
  initial : Object
  log : List Diagnostic
  now : Nat

namespace Launch

def session (io : Ports σ) (l : Launch σ) (w : σ) : Session σ :=
  start io l.chain l.config l.initial (l.meanwhile w) l.log

def outcome (io : Ports σ) (l : Launch σ) (w : σ) : Except StoreError Outcome :=
  ((l.session io w).bootstrap io l.now).1

def after (io : Ports σ) (l : Launch σ) (w : σ) : σ :=
  ((l.session io w).bootstrap io l.now).2.gateway.world

end Launch

def afterLaunches (io : Ports σ) (ls : List (Launch σ)) (w : σ) : σ :=
  ls.foldl (fun w l => l.after io w) w

/-! ### One bootstrap -/

section Bootstrap

variable {now : Nat} {s s' : Session (Memory × ρ)} {r : Except StoreError Outcome} {e : Envelope}
  {p : Chain}

theorem Boots.of_decoded (h : s.Boots (.beside Memory.storage markers) now r s')
    (new : s.bootstrapped = false) (ready : s.gateway.ready = true)
    (readable : s.gateway.world.1.readFaults = 0)
    (he : Envelope.ofDocument s.gateway.world.1.entries = .ok e) :
    let report := (s.chain.run s.onFault e).1
    ∃ g, g.world.1 = { s.gateway.world.1 with gets := s.gateway.world.1.gets + 1 } ∧
      ((r = .ok (.loaded report none) ∧ s' = s.migrated g e) ∨
        ∃ q g', report.versionChanged = true ∧ r = .ok (.loaded report (some q)) ∧
          (s.migrated g e).gateway.Persists (.beside Memory.storage markers)
            (.object report.envelope.data) (.ok q) g' ∧
          s' = (s.migrated g e).withGateway g') := by
  intro report
  have hget := Memory.get_of_readable readable
  have hfinds {found g} (load : s.gateway.Loads (.beside Memory.storage markers) now found g) :
      found = .envelope e := load.of_decoded ready (congrArg Prod.fst hget) he
  have hworld {found g} (load : s.gateway.Loads (.beside Memory.storage markers) now found g) :
      g.world.1 = { s.gateway.world.1 with gets := s.gateway.world.1.gets + 1 } :=
    (load.storage_eq ready).trans (congrArg Prod.snd hget)
  cases h with
  | again done => cases new.symm.trans done
  | fresh _ load | corrupted _ load => cases hfinds load
  | kept _ load run =>
    obtain rfl := Loaded.envelope.inj (hfinds load)
    exact ⟨_, hworld load, .inl ⟨by rw [← run], rfl⟩⟩
  | writtenBack _ load run changed persist =>
    obtain rfl := Loaded.envelope.inj (hfinds load)
    subst run
    exact ⟨_, hworld load, .inr ⟨_, _, (Bool.and_eq_true_iff.mp changed).1, rfl, persist, rfl⟩⟩

/-- **A bootstrap takes up what is stored** where the earlier chain has left it, and what is stored
is then what either of the two chains makes of the envelope. -/
theorem Boots.of_holds (hb : s.Boots (.beside Memory.storage markers) now r s')
    (new : s.bootstrapped = false) (ready : s.gateway.ready = true)
    (h : s.gateway.world.1.Holds s.onFault e p) (hbegins : p.migrations <+: s.chain.migrations) :
    ∃ report q, r = .ok (.loaded report q) ∧
      report.envelope = (s.chain.run s.onFault e).1.envelope ∧
      s'.gateway.world.1.Holds s.onFault e (if q = some .written then s.chain else p) := by
  obtain ⟨hrun, -⟩ := Chain.run_after_run hbegins s.onFault e
  obtain ⟨g, hworld, hcases⟩ := hb.of_decoded new ready h.readable h.decodes
  have hread : g.world.1.Holds s.onFault e p := by
    rw [hworld]
    exact ⟨h.available, h.readable, h.decodes⟩
  rcases hcases with ⟨rfl, rfl⟩ | ⟨q, g', -, rfl, persist, rfl⟩
  · exact ⟨_, none, rfl, hrun, hread⟩
  refine ⟨_, some q, rfl, hrun, ?_⟩
  obtain ⟨havailable, hreadable⟩ := persist.device_frame
  by_cases hq : q = .written
  · subst hq
    obtain ⟨data, version, hdata, hversion, hentries⟩ := persist.entries_written
    obtain rfl := Value.object.inj hdata
    obtain rfl := Option.some.inj hversion
    have hstored : Envelope.ofDocument g'.world.1.entries =
        .ok (s.chain.run s.onFault e).1.envelope := by
      rw [hentries, ← hrun]
      exact (Envelope.heldBy_merge _ _).ofDocument
    rw [if_pos rfl]
    exact ⟨havailable.trans hread.available, hreadable.trans hread.readable, hstored⟩
  · have hkept := persist.entries_kept fun h => hq (Except.ok.inj h)
    rw [if_neg fun h => hq (Option.some.inj h)]
    exact ⟨havailable.trans hread.available, hreadable.trans hread.readable,
      (congrArg Envelope.ofDocument hkept).trans hread.decodes⟩

/-- **A bootstrap that finds its work done** writes nothing. -/
theorem Boots.of_done (hb : s.Boots (.beside Memory.storage markers) now r s')
    (new : s.bootstrapped = false) (ready : s.gateway.ready = true)
    (h : s.gateway.world.1.Holds s.onFault e s.chain) :
    ∃ report, r = .ok (.loaded report none) ∧
      s'.gateway.world.1.sets = s.gateway.world.1.sets := by
  obtain ⟨hagain, -⟩ := s.chain.run_again s.onFault e
  obtain ⟨g, hworld, ⟨rfl, rfl⟩ | ⟨q, g', hchanged, -⟩⟩ :=
    hb.of_decoded new ready h.readable h.decodes
  · have hsets : g.world.1.sets = s.gateway.world.1.sets := by rw [hworld]
    exact ⟨_, rfl, hsets⟩
  · unfold Report.versionChanged at hchanged
    rw [hagain, Chain.fromVersion_run] at hchanged
    simp at hchanged

end Bootstrap

/-! ### Launches -/

/-- Since the last launch the document was left alone and can still be read; writing it may fail. -/
def Launch.Quiet (l : Launch (Memory × ρ)) : Prop :=
  ∀ w, (l.meanwhile w).1.entries = w.1.entries ∧ (l.meanwhile w).1.available = w.1.available ∧
    (l.meanwhile w).1.readFaults = w.1.readFaults

section Launches

variable {policy : OnFault} {e : Envelope} {p : Chain} {l : Launch (Memory × ρ)} {w : Memory × ρ}

theorem Launch.Quiet.holds (hl : l.Quiet) (h : w.1.Holds policy e p) :
    (l.meanwhile w).1.Holds policy e p := by
  obtain ⟨hentries, havailable, hreadable⟩ := hl w
  refine ⟨havailable.trans h.available, hreadable.trans h.readable, ?_⟩
  rw [hentries]
  exact h.decodes

theorem Launch.boots (markers : Markers ρ) (hl : l.Quiet) (h : w.1.Holds policy e p) :
    let s := l.session (.beside Memory.storage markers) w
    s.gateway.ready = true ∧ s.gateway.world = l.meanwhile w ∧
      ∃ s', s'.gateway.world = l.after (.beside Memory.storage markers) w ∧
        s.Boots (.beside Memory.storage markers) l.now
          (l.outcome (.beside Memory.storage markers) w) s' := by
  intro s
  obtain ⟨-, hready, hworld, -⟩ := Gateway.start_frame (.beside Memory.storage markers) l.config
    (l.meanwhile w) l.log
  refine ⟨hready.trans (hl.holds h).available, hworld, _, rfl, ?_⟩
  exact boots_of_bootstrap (sound_start _ l.chain l.config l.initial _ l.log) rfl

theorem Launch.loads (markers : Markers ρ) (hl : l.Quiet) (hpolicy : l.config.onFault = policy)
    (h : w.1.Holds policy e p) (hbegins : p.migrations <+: l.chain.migrations) :
    ∃ report q, l.outcome (.beside Memory.storage markers) w = .ok (.loaded report q) ∧
      report.envelope = (l.chain.run policy e).1.envelope ∧
      (l.after (.beside Memory.storage markers) w).1.Holds policy e
        (if q = some .written then l.chain else p) := by
  subst hpolicy
  obtain ⟨ready, hworld, s', hafter, hboots⟩ := Launch.boots markers hl h
  have hholds := hl.holds h
  rw [← hworld] at hholds
  rw [← hafter]
  exact hboots.of_holds rfl ready hholds hbegins

theorem Launch.rests (markers : Markers ρ) (hl : l.Quiet) (hpolicy : l.config.onFault = policy)
    (h : w.1.Holds policy e l.chain) :
    ∃ report, l.outcome (.beside Memory.storage markers) w = .ok (.loaded report none) ∧
      (l.after (.beside Memory.storage markers) w).1.sets = (l.meanwhile w).1.sets := by
  subst hpolicy
  obtain ⟨ready, hworld, s', hafter, hboots⟩ := Launch.boots markers hl h
  have hholds := hl.holds h
  rw [← hworld] at hholds
  rw [← hafter, ← hworld]
  exact hboots.of_done rfl ready hholds

end Launches

/-! ### Launches one after another -/

/-- Launches of a program that grows from a chain on, under one policy, over a document that is left
to them. -/
structure Upgrades (policy : OnFault) (p : Chain) (ls : List (Launch (Memory × ρ))) : Prop where
  quiet : ∀ l ∈ ls, l.Quiet
  onFault : ∀ l ∈ ls, l.config.onFault = policy
  grows : (p :: ls.map (·.chain)).Pairwise (·.migrations <+: ·.migrations)

namespace Upgrades

variable {policy : OnFault} {e : Envelope} {p : Chain} {l : Launch (Memory × ρ)}
  {ls past future : List (Launch (Memory × ρ))} {w : Memory × ρ}

theorem of_isChain (hquiet : ∀ l ∈ ls, l.Quiet) (hpolicy : ∀ l ∈ ls, l.config.onFault = policy)
    (hgrow : (ls.map (·.chain)).IsChain (·.migrations <+: ·.migrations)) :
    Upgrades policy {} ls := by
  have : Trans (fun p u : Chain => p.migrations <+: u.migrations)
      (fun p u : Chain => p.migrations <+: u.migrations)
      (fun p u : Chain => p.migrations <+: u.migrations) := ⟨List.IsPrefix.trans⟩
  refine ⟨hquiet, hpolicy, List.pairwise_cons.mpr ⟨fun c _ => List.nil_prefix, ?_⟩⟩
  exact List.isChain_iff_pairwise.mp hgrow

theorem begins (h : Upgrades policy p ls) (hl : l ∈ ls) : p.migrations <+: l.chain.migrations :=
  List.rel_of_pairwise_cons h.grows (List.mem_map_of_mem hl)

theorem of_sublist {ls' : List (Launch (Memory × ρ))} (h : Upgrades policy p ls)
    (hsub : ls'.Sublist ls) : Upgrades policy p ls' :=
  ⟨fun x hx => h.quiet x (hsub.subset hx), fun x hx => h.onFault x (hsub.subset hx),
    h.grows.sublist ((hsub.map _).cons_cons p)⟩

theorem tail (h : Upgrades policy p (l :: ls)) : Upgrades policy l.chain ls :=
  ⟨fun x hx => h.quiet x (List.mem_cons_of_mem _ hx),
    fun x hx => h.onFault x (List.mem_cons_of_mem _ hx), h.grows.of_cons⟩

/-- **Any number of launches** leave in store what one of their chains, or the first one, makes of
the envelope. -/
theorem holds_after (markers : Markers ρ) (h : Upgrades policy p ls) (hw : w.1.Holds policy e p) :
    ∃ c ∈ p :: ls.map (·.chain),
      (afterLaunches (.beside Memory.storage markers) ls w).1.Holds policy e c := by
  induction ls generalizing p w with
  | nil => exact ⟨p, List.mem_singleton.mpr rfl, hw⟩
  | cons l ls ih =>
    have hl : l ∈ l :: ls := List.mem_cons_self ..
    obtain ⟨report, q, -, -, hafter⟩ :=
      Launch.loads markers (h.quiet l hl) (h.onFault l hl) hw (h.begins hl)
    by_cases hq : q = some .written
    · rw [if_pos hq] at hafter
      obtain ⟨c, hc, hholds⟩ := ih h.tail hafter
      exact ⟨c, List.mem_cons_of_mem _ hc, hholds⟩
    · -- the launch wrote nothing, so it is as if it had not been
      rw [if_neg hq] at hafter
      have hsub : ls.Sublist (l :: ls) := List.sublist_cons_self ..
      obtain ⟨c, hc, hholds⟩ := ih (h.of_sublist hsub) hafter
      exact ⟨c, ((hsub.map _).cons_cons p).subset hc, hholds⟩

theorem holds_before (markers : Markers ρ) (h : Upgrades policy p (past ++ l :: future))
    (hw : w.1.Holds policy e p) :
    ∃ c : Chain, p.migrations <+: c.migrations ∧ c.migrations <+: l.chain.migrations ∧
      (afterLaunches (.beside Memory.storage markers) past w).1.Holds policy e c := by
  obtain ⟨c, hc, hholds⟩ :=
    (h.of_sublist (List.sublist_append_left ..)).holds_after markers hw
  have hgrows := h.grows
  rw [List.map_append, ← List.cons_append, List.pairwise_append] at hgrows
  obtain ⟨hpast, -, hnext⟩ := hgrows
  refine ⟨c, ?_, hnext c hc l.chain (by simp), hholds⟩
  rcases List.mem_cons.mp hc with rfl | hc
  · exact List.prefix_rfl
  · exact List.rel_of_pairwise_cons hpast hc

theorem loads (markers : Markers ρ) (h : Upgrades policy p (past ++ l :: future))
    (hw : w.1.Holds policy e p) :
    let w' := afterLaunches (.beside Memory.storage markers) past w
    ∃ report q, l.outcome (.beside Memory.storage markers) w' = .ok (.loaded report q) ∧
      report.envelope = (l.chain.run policy e).1.envelope ∧
      (q = some .written →
        (l.after (.beside Memory.storage markers) w').1.Holds policy e l.chain) := by
  intro w'
  have hl : l ∈ past ++ l :: future := by simp
  obtain ⟨c, -, hbegins, hholds⟩ := h.holds_before markers hw
  obtain ⟨report, q, houtcome, henvelope, hafter⟩ :=
    Launch.loads markers (h.quiet l hl) (h.onFault l hl) hholds hbegins
  refine ⟨report, q, houtcome, henvelope, fun hq => ?_⟩
  rwa [if_pos hq] at hafter

theorem rests (markers : Markers ρ) (h : Upgrades policy l.chain (past ++ l :: future))
    (hw : w.1.Holds policy e l.chain) :
    let w' := afterLaunches (.beside Memory.storage markers) past w
    ∃ report, l.outcome (.beside Memory.storage markers) w' = .ok (.loaded report none) ∧
      (l.after (.beside Memory.storage markers) w').1.sets = (l.meanwhile w').1.sets := by
  intro w'
  have hl : l ∈ past ++ l :: future := by simp
  obtain ⟨c, hbegins, hnext, hholds⟩ := h.holds_before markers hw
  -- between two launches of one chain there is no other
  rw [Chain.eq_of_isPrefix hnext hbegins] at hholds
  exact Launch.rests markers (h.quiet l hl) (h.onFault l hl) hholds

end Upgrades

/-- **No launch notices what became of the write-backs before it.**  Over a memory that can be used
and read and holds an envelope, in every sequence of launches with chains that only grow and one
policy: each loads what its chain makes of that envelope, whether the earlier ones wrote anything
back, failed to, or were told not to; and once a launch has written it back, a later one of the same
chain writes nothing. -/
theorem launches_are_stable (markers : Markers ρ) {m : Memory} (r : ρ) {policy : OnFault}
    {e : Envelope} {ls : List (Launch (Memory × ρ))} (available : m.available = true)
    (readable : m.readFaults = 0) (stored : Envelope.ofDocument m.entries = .ok e)
    (hquiet : ∀ l ∈ ls, l.Quiet) (hpolicy : ∀ l ∈ ls, l.config.onFault = policy)
    (hgrow : (ls.map (·.chain)).IsChain (·.migrations <+: ·.migrations)) :
    let io := Ports.beside Memory.storage markers
    (∀ past l future, ls = past ++ l :: future →
      ∃ report q, l.outcome io (afterLaunches io past (m, r)) = .ok (.loaded report q) ∧
        report.envelope = (l.chain.run policy e).1.envelope) ∧
    ∀ past a between b future report, ls = past ++ a :: (between ++ b :: future) →
      a.outcome io (afterLaunches io past (m, r)) = .ok (.loaded report (some .written)) →
      b.chain = a.chain →
      let w := afterLaunches io (past ++ a :: between) (m, r)
      ∃ report', b.outcome io w = .ok (.loaded report' none) ∧
        (b.after io w).1.sets = (b.meanwhile w).1.sets := by
  intro io
  have hupgrades : Upgrades policy {} ls := .of_isChain hquiet hpolicy hgrow
  -- the envelope is what the chain without migrations makes of it
  have hinit : m.Holds policy e {} := by
    refine ⟨available, readable, ?_⟩
    rw [stored]
    simp [Chain.run, Chain.pending, runFrom]
  refine ⟨fun past l future hls => ?_, fun past a between b future report hls hwritten hsame => ?_⟩
  · subst hls
    obtain ⟨report, q, houtcome, henvelope, -⟩ := hupgrades.loads markers (w := (m, r)) hinit
    exact ⟨report, q, houtcome, henvelope⟩
  subst hls
  obtain ⟨report', q, houtcome, -, hafter⟩ := hupgrades.loads markers (w := (m, r)) hinit
  obtain ⟨-, rfl⟩ := Outcome.loaded.inj (Except.ok.inj (houtcome.symm.trans hwritten))
  have hholds := hafter rfl
  have hrest := (hupgrades.of_sublist (List.sublist_append_right past _)).tail
  rw [← hsame] at hholds hrest
  have hw : afterLaunches io (past ++ a :: between) (m, r) =
      afterLaunches io between (a.after io (afterLaunches io past (m, r))) := List.foldl_append
  rw [hw]
  exact hrest.rests markers hholds

/-- A program is launched three times, the first time when writing fails, and then a later version
of it, which skips what breaks down. -/
def launched : List (Launch (Memory × Table String String)) :=
  let config : Config := { onFault := .skip }
  [⟨fun w => (w.1.failWrites 1, w.2), .early, config, [], [], 5⟩, ⟨id, .early, config, [], [], 6⟩,
    ⟨id, .early, config, [], [], 7⟩, ⟨id, .faulty, config, [], [], 8⟩]

theorem launches_are_stable_failed_first :
    let io := Ports.beside Memory.storage .memory
    let w : Memory × Table String String := ({ entries := Envelope.toDocument ⟨0, []⟩ }, [])
    let report : Report := ⟨⟨1, [("a", .null)]⟩, 0, [1], [], false⟩
    ∃ a b c d, launched = [a, b, c, d] ∧
      a.outcome io w = .ok (.loaded report (some .failed)) ∧
      b.outcome io (afterLaunches io [a] w) = .ok (.loaded report (some .written)) ∧
      (∃ report, c.outcome io (afterLaunches io [a, b] w) = .ok (.loaded report none)) ∧
      (afterLaunches io [a, b, c] w).1.sets = (afterLaunches io [a, b] w).1.sets ∧
      ∃ report q, d.outcome io (afterLaunches io [a, b, c] w) = .ok (.loaded report q) ∧
        report.envelope = ⟨3, [("a", .null), ("c", .null)]⟩ := by
  intro io w report
  have hquiet : ∀ l ∈ launched, l.Quiet := by
    intro l hl
    simp only [launched, List.mem_cons, List.not_mem_nil, or_false] at hl
    rcases hl with rfl | rfl | rfl | rfl <;> exact fun w => ⟨rfl, rfl, rfl⟩
  have hpolicy : ∀ l ∈ launched, l.config.onFault = .skip := by
    intro l hl
    simp only [launched, List.mem_cons, List.not_mem_nil, or_false] at hl
    rcases hl with rfl | rfl | rfl | rfl <;> rfl
  have hgrow : (launched.map (·.chain)).IsChain (·.migrations <+: ·.migrations) :=
    .cons_cons List.prefix_rfl (.cons_cons List.prefix_rfl
      (.cons_cons (List.take_prefix ..) (.singleton _)))
  obtain ⟨hloads, hrests⟩ := launches_are_stable .memory (m := w.1) w.2 rfl rfl
    (Envelope.ofDocument_toDocument _) hquiet hpolicy hgrow
  have hruns : ∃ a b c d, launched = [a, b, c, d] ∧ b.chain = c.chain ∧ d.chain = .faulty ∧
      c.meanwhile = id ∧ a.outcome io w = .ok (.loaded report (some .failed)) ∧
      b.outcome io (afterLaunches io [a] w) = .ok (.loaded report (some .written)) := by
    refine ⟨_, _, _, _, rfl, rfl, rfl, rfl, ?_, ?_⟩
    all_goals decide +kernel
  obtain ⟨a, b, c, d, hlaunched, hsame, hd, hc, hfailed, hwritten⟩ := hruns
  obtain ⟨report', houtcome, hsets⟩ := hrests [a] b [] c [d] report hlaunched hwritten hsame.symm
  rw [hc] at hsets
  obtain ⟨report'', q, hlast, henvelope⟩ := hloads [a, b, c] d [] hlaunched
  refine ⟨a, b, c, d, hlaunched, hfailed, hwritten, ⟨report', houtcome⟩, hsets, report'', q, hlast,
    ?_⟩
  rw [henvelope, hd]
  decide +kernel

/-- Over a memory that says it cannot be used, a session does not look at the document: it is given
its initial state. -/
theorem launch_over_unavailable :
    let e : Envelope := ⟨113, [("a", .null)]⟩
    let m : Memory := { Memory.unavailable with entries := e.toDocument }
    let l : Launch (Memory × Table String String) := ⟨id, .shipped, {}, [], [], 5⟩
    Envelope.ofDocument m.entries = .ok e ∧ m.readFaults = 0 ∧ l.Quiet ∧
      l.outcome (.beside Memory.storage .memory) (m, []) = .ok (.fresh [] 113) :=
  ⟨Envelope.ofDocument_toDocument _, rfl, fun _ => ⟨rfl, rfl, rfl⟩, by decide +kernel⟩

end Session

end VersionedStore
