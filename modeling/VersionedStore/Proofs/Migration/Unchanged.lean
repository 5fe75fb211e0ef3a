import VersionedStore.Proofs.Migration.Runs
import VersionedStore.Proofs.Migration.Visits

/-!
# Runs that change nothing

Whether a run has done anything is told by its version alone: over ascending migrations a run that
ends at the version it began with has left everything as it was.

* `Runs.eq_of_version_eq`: such a run did nothing;
* `Chain.exists_run_eq`: one run over migrations that look at a world tells what a run over some
  migrations tells that look at their envelope alone;
* `Chain.version_le_runIn`, `Chain.runIn_unchanged`: so all this holds of them as well.
-/

namespace VersionedStore

variable {ω : Type}

/-- **A run that ends at the version it began with** did nothing. -/
theorem Runs.eq_of_version_eq {policy : OnFault} {ms : List Migration} {e e' : Envelope}
    {vs : List Version} {fs : List Fault} {b : Bool} (h : Runs policy ms e e' vs fs b)
    (asc : Ascends e.version ms) (same : e'.version = e.version) : e' = e ∧ vs = [] := by
  have hnever {m : Migration} {ms : List Migration} {data : Object} {vs : List Version}
    {fs : List Fault}
      (rest : Runs policy ms ⟨m.target, data⟩ e' vs fs b) (asc : Ascends e.version (m :: ms)) :
        False := by
    have hle : m.target ≤ e'.version := rest.version_le asc.rest
    rw [same] at hle
    exact UInt32.not_le.mpr asc.head_lt hle
  cases h with
  | done | halted => exact ⟨rfl, rfl⟩
  | applied _ rest | skipped _ _ rest => exact (hnever rest asc).elim

theorem exists_runFrom_eq (answers : Answers ω) (policy : OnFault) (ms : List Migration)
    (r : Report) (w : ω) : ∃ ms', ms'.map (·.target) = ms.map (·.target) ∧
      runFrom policy ms' r = (runIn answers policy ms r w).1 := by
  induction ms generalizing r w with
  | nil => exact ⟨[], rfl, rfl⟩
  | cons m ms ih =>
    rcases hanswer : answers m r.envelope w with ⟨verdict, w₁⟩
    let fixed : Migration := ⟨m.target, m.description, fun _ => verdict⟩
    have hattempt : fixed.attempt r.envelope = verdict.outcome r.envelope.data := rfl
    have htargets {ms' : List Migration} (h : ms'.map (·.target) = ms.map (·.target)) :
        (fixed :: ms').map (·.target) = (m :: ms).map (·.target) := congrArg (m.target :: ·) h
    rcases houtcome : verdict.outcome r.envelope.data with reason | data <;>
      rw [houtcome] at hattempt
    · cases policy with
      | halt =>
        refine ⟨fixed :: ms, htargets rfl, ?_⟩
        simp [runFrom, runIn, hattempt, hanswer, houtcome, fixed]
      | skip =>
        obtain ⟨ms', hms, hrun⟩ := ih ⟨⟨m.target, r.envelope.data⟩, r.fromVersion, r.applied,
          r.faults ++ [⟨m.target, reason⟩], r.halted⟩ w₁
        exact ⟨fixed :: ms', htargets hms,
          by simp [runFrom, runIn, hattempt, hanswer, houtcome, hrun, fixed]⟩
    · obtain ⟨ms', hms, hrun⟩ :=
        ih ⟨⟨m.target, data⟩, r.fromVersion, r.applied ++ [m.target], r.faults, r.halted⟩ w₁
      exact ⟨fixed :: ms', htargets hms,
        by simp [runFrom, runIn, hattempt, hanswer, houtcome, hrun, fixed]⟩

namespace Chain

variable {c : Chain} {policy : OnFault} {e : Envelope}

theorem exists_pending_eq (c : Chain) (v : Version) {ms : List Migration}
    (h : ms.map (·.target) = (c.pending v).map (·.target)) :
    ∃ c' : Chain, c'.targets = c.targets ∧ c'.pending v = ms := by
  have hsplit : c.migrations = c.migrations.take (c.start v) ++ c.pending v :=
    (List.take_append_drop ..).symm
  have htargets : (c.migrations.take (c.start v) ++ ms).map (·.target) = c.targets := by
    unfold targets
    rw [hsplit, List.map_append, List.map_append, h]
    simp [pending]
  have hascending : (c.migrations.take (c.start v) ++ ms).Pairwise (·.target < ·.target) := by
    rw [← List.pairwise_map, htargets]
    exact c.pairwise_targets
  have hmore : Ascends v ms := by
    unfold Ascends
    rw [h]
    exact c.ascends_pending v
  have hnone : (c.migrations.take (c.start v)).filter (v < ·.target) = [] := by
    have hall := c.pending_eq_filter v
    rw [hsplit, List.filter_append, (c.ascends_pending v).filter_eq_self] at hall
    exact List.self_eq_append_left.mp hall
  refine ⟨⟨_, hascending⟩, htargets, ?_⟩
  rw [pending_eq_filter, List.filter_append, hnone, hmore.filter_eq_self, List.nil_append]

/-- **One run in a world is a run without it,** over a chain to the same versions. -/
theorem exists_run_eq (c : Chain) (answers : Answers ω) (policy : OnFault) (e : Envelope) (w : ω) :
    ∃ c' : Chain, c'.targets = c.targets ∧ c'.run policy e = (c.runIn answers policy e w).1 := by
  obtain ⟨ms, htargets, hrun⟩ :=
    exists_runFrom_eq answers policy (c.pending e.version) ⟨e, e.version, [], [], false⟩ w
  obtain ⟨c', htargets', hpending⟩ := c.exists_pending_eq e.version htargets
  refine ⟨c', htargets', ?_⟩
  unfold run runIn
  rw [hpending]
  exact hrun

theorem run_unchanged (h : (c.run policy e).1.versionChanged = false) :
    (c.run policy e).1.envelope = e ∧ (c.run policy e).1.applied = [] := by
  have hsame : (c.run policy e).1.envelope.version = e.version := by
    simpa [Report.versionChanged] using h
  exact (c.runs_run policy e).eq_of_version_eq (c.ascends_pending e.version) hsame

theorem version_le_runIn (c : Chain) (answers : Answers ω) (policy : OnFault) (e : Envelope)
    (w : ω) :
    (c.runIn answers policy e w).1.1.fromVersion = e.version ∧
      e.version ≤ (c.runIn answers policy e w).1.1.envelope.version := by
  obtain ⟨c', -, hrun⟩ := c.exists_run_eq answers policy e w
  rw [← hrun]
  exact ⟨c'.fromVersion_run policy e, c'.version_le_run policy e⟩

theorem runIn_unchanged {answers : Answers ω} {w : ω}
    (h : (c.runIn answers policy e w).1.1.versionChanged = false) :
    (c.runIn answers policy e w).1.1.envelope = e ∧
    (c.runIn answers policy e w).1.1.applied = [] := by
  obtain ⟨c', -, hrun⟩ := c.exists_run_eq answers policy e w
  rw [← hrun] at h ⊢
  exact run_unchanged h

end Chain

end VersionedStore
