import VersionedStore.Migration.Run
import VersionedStore.Proofs.Migration.Pending

/-!
# What a run can do

Everything that a run over a list of migrations can come to, one constructor for each way the first
of them can go.

* `Runs`, `runs_runFrom`: the ways of a run; `Chain.run_of_runs`: one of them is all that a run over
  a chain can be;
* `Runs.version_le`: a run over ascending migrations never lowers the version;
* `Runs.resume`: where a run over the first migrations stopped, a later run over all of them goes
  on.
-/

namespace VersionedStore

/-- **The ways of a run** from one envelope to another, with the versions that were applied, the
faults, and whether the last of them ended it. -/
inductive Runs (policy : OnFault) :
    List Migration → Envelope → Envelope → List Version → List Fault → Bool → Prop
  | done {e} : Runs policy [] e e [] [] false
  | applied {m ms e data e' vs fs b} (attempt : m.attempt e = .ok data)
      (rest : Runs policy ms ⟨m.target, data⟩ e' vs fs b) :
      Runs policy (m :: ms) e e' (m.target :: vs) fs b
  | halted {m ms e reason} (halt : policy = .halt) (attempt : m.attempt e = .error reason) :
      Runs policy (m :: ms) e e [] [⟨m.target, reason⟩] true
  | skipped {m ms e reason e' vs fs b} (skip : policy = .skip)
      (attempt : m.attempt e = .error reason)
      (rest : Runs policy ms ⟨m.target, e.data⟩ e' vs fs b) :
      Runs policy (m :: ms) e e' vs (⟨m.target, reason⟩ :: fs) b

variable {policy : OnFault} {ms rest : List Migration} {e e' d : Envelope}
  {vs ws : List Version} {fs gs : List Fault} {b c : Bool}

/-- A run adds to the report that it is handed what it does itself. -/
theorem runs_runFrom (policy : OnFault) (ms : List Migration) (r : Report) (h : r.halted = false) :
    ∃ e' vs fs b, Runs policy ms r.envelope e' vs fs b ∧
      runFrom policy ms r =
        (⟨e', r.fromVersion, r.applied ++ vs, r.faults ++ fs, b⟩, fs.map Fault.diagnostic) := by
  induction ms generalizing r with
  | nil => exact ⟨r.envelope, [], [], false, .done, by simp [runFrom, ← h]⟩
  | cons m ms ih =>
    rcases hm : m.attempt r.envelope with reason | data
    · cases policy with
      | halt => exact ⟨r.envelope, [], _, true, .halted rfl hm, by simp [runFrom, hm]⟩
      | skip =>
        obtain ⟨e', vs, fs, b, hruns, heq⟩ :=
          ih ⟨⟨m.target, r.envelope.data⟩, r.fromVersion, r.applied,
            r.faults ++ [⟨m.target, reason⟩], r.halted⟩ h
        exact ⟨e', vs, _, b, .skipped rfl hm hruns, by simp [runFrom, hm, heq]⟩
    · obtain ⟨e', vs, fs, b, hruns, heq⟩ :=
        ih ⟨⟨m.target, data⟩, r.fromVersion, r.applied ++ [m.target], r.faults, r.halted⟩ h
      exact ⟨e', _, fs, b, .applied hm hruns, by simp [runFrom, hm, heq]⟩

namespace Runs

theorem unique (h : Runs policy ms e e' vs fs b) (h' : Runs policy ms e d ws gs c) :
    e' = d ∧ vs = ws ∧ fs = gs ∧ b = c := by
  induction h generalizing d ws gs c with
  | done =>
    cases h'
    exact ⟨rfl, rfl, rfl, rfl⟩
  | applied attempt _ ih =>
    cases h' with
    | applied attempt' rest' =>
      obtain rfl := Except.ok.inj (attempt.symm.trans attempt')
      obtain ⟨rfl, rfl, rfl, rfl⟩ := ih rest'
      exact ⟨rfl, rfl, rfl, rfl⟩
    | halted _ attempt' | skipped _ attempt' => cases attempt.symm.trans attempt'
  | halted halt attempt =>
    cases h' with
    | applied attempt' => cases attempt.symm.trans attempt'
    | halted _ attempt' =>
      obtain rfl := Except.error.inj (attempt.symm.trans attempt')
      exact ⟨rfl, rfl, rfl, rfl⟩
    | skipped skip => cases halt.symm.trans skip
  | skipped skip attempt _ ih =>
    cases h' with
    | applied attempt' => cases attempt.symm.trans attempt'
    | halted halt => cases halt.symm.trans skip
    | skipped _ attempt' rest' =>
      obtain rfl := Except.error.inj (attempt.symm.trans attempt')
      obtain ⟨rfl, rfl, rfl, rfl⟩ := ih rest'
      exact ⟨rfl, rfl, rfl, rfl⟩

/-- **A run over ascending migrations never lowers the version.** -/
theorem version_le (h : Runs policy ms e e' vs fs b) (asc : Ascends e.version ms) :
    e.version ≤ e'.version := by
  induction h with
  | done | halted => exact UInt32.le_refl _
  | applied _ _ ih | skipped _ _ _ ih =>
    exact UInt32.le_of_lt (UInt32.lt_of_lt_of_le asc.head_lt (ih asc.rest))

theorem filter_rest {m : Migration} {v : Version} (h : m.target ≤ v) :
    (m :: ms).filter (v < ·.target) = ms.filter (v < ·.target) := by
  have hnot : ¬ v < m.target := UInt32.not_lt.mpr h
  rw [List.filter_cons_of_neg]
  simpa using hnot

/-- **A run is resumed where it stopped.**  A run over more migrations first does what the run over
the first of them did, and then what a run does that starts from where that one stopped. -/
theorem resume (h : Runs policy ms e e' vs fs b) (asc : Ascends e.version (ms ++ rest))
    (direct : Runs policy (ms ++ rest) e d ws gs c) :
    ∃ vs' fs' b', ws = vs ++ vs' ∧
      Runs policy ((ms ++ rest).filter (e'.version < ·.target)) e' d vs' fs' b' := by
  induction h generalizing d ws gs c with
  | done | halted =>
    -- nothing was done, so all is left to do
    exact ⟨ws, gs, c, rfl, by rwa [asc.filter_eq_self]⟩
  | @applied m ms _ _ _ _ _ _ attempt run ih =>
    cases direct with
    | applied attempt' direct =>
      obtain rfl := Except.ok.inj (attempt.symm.trans attempt')
      obtain ⟨vs', fs', b', rfl, hruns⟩ := ih asc.rest direct
      have hpast := run.version_le (List.Pairwise.sublist (by simp) asc.rest)
      refine ⟨vs', fs', b', rfl, ?_⟩
      rw [List.cons_append, filter_rest hpast]
      exact hruns
    | halted _ attempt' | skipped _ attempt' => cases attempt.symm.trans attempt'
  | @skipped m ms _ _ _ _ _ _ skip attempt run ih =>
    cases direct with
    | applied attempt' => cases attempt.symm.trans attempt'
    | halted halt => cases halt.symm.trans skip
    | skipped _ attempt' direct =>
      obtain ⟨vs', fs', b', rfl, hruns⟩ := ih asc.rest direct
      have hpast := run.version_le (List.Pairwise.sublist (by simp) asc.rest)
      refine ⟨vs', fs', b', rfl, ?_⟩
      rw [List.cons_append, filter_rest hpast]
      exact hruns

end Runs

namespace Chain

variable {c p u : Chain}

theorem exists_runs (c : Chain) (policy : OnFault) (e : Envelope) :
    ∃ e' vs fs b, Runs policy (c.pending e.version) e e' vs fs b ∧
      c.run policy e = (⟨e', e.version, vs, fs, b⟩, fs.map Fault.diagnostic) :=
  runs_runFrom policy (c.pending e.version) ⟨e, e.version, [], [], false⟩ rfl

theorem run_of_runs (h : Runs policy (c.pending e.version) e e' vs fs b) :
    c.run policy e = (⟨e', e.version, vs, fs, b⟩, fs.map Fault.diagnostic) := by
  obtain ⟨d, ws, gs, b', hruns, hrun⟩ := c.exists_runs policy e
  obtain ⟨rfl, rfl, rfl, rfl⟩ := hruns.unique h
  exact hrun

theorem runs_run (c : Chain) (policy : OnFault) (e : Envelope) :
    Runs policy (c.pending e.version) e (c.run policy e).1.envelope (c.run policy e).1.applied
      (c.run policy e).1.faults (c.run policy e).1.halted := by
  obtain ⟨e', vs, fs, b, hruns, hrun⟩ := c.exists_runs policy e
  rw [hrun]
  exact hruns

@[simp] theorem fromVersion_run (c : Chain) (policy : OnFault) (e : Envelope) :
    (c.run policy e).1.fromVersion = e.version := by
  obtain ⟨e', vs, fs, b, -, hrun⟩ := c.exists_runs policy e
  rw [hrun]

theorem version_le_run (c : Chain) (policy : OnFault) (e : Envelope) :
    e.version ≤ (c.run policy e).1.envelope.version :=
  (c.runs_run policy e).version_le (c.ascends_pending e.version)

end Chain

end VersionedStore
