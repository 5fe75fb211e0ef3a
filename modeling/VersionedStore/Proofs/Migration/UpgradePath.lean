import VersionedStore.Proofs.Migration.Runs

/-!
# Upgrade paths

A program that grew reads what earlier versions of it have stored.  Whichever of them took an
envelope part of the way, the envelope ends as if the last one had taken it there alone.

* `Chain.run_after_run`: a run goes on where an earlier version's run ended;
* `Chain.run_again`: a second run has nothing left to do;
* `upgrade_path_independence`: both, for every chain, each of its beginnings and either policy.
-/

namespace VersionedStore

namespace Chain

variable {p u : Chain}

/-- A run over what an earlier version of the chain has made of an envelope ends where a run over
the envelope itself ends, and applies what the earlier version did not. -/
theorem run_after_run (h : p.migrations <+: u.migrations) (policy : OnFault) (e : Envelope) :
    (u.run policy (p.run policy e).1.envelope).1.envelope = (u.run policy e).1.envelope ∧
      (u.run policy e).1.applied = (p.run policy e).1.applied ++
        (u.run policy (p.run policy e).1.envelope).1.applied := by
  obtain ⟨rest, hrest⟩ := pending_of_isPrefix h e.version
  have hasc := u.ascends_pending e.version
  have hdirect := u.runs_run policy e
  rw [hrest] at hasc hdirect
  obtain ⟨vs, fs, b, happlied, hruns⟩ := (p.runs_run policy e).resume hasc hdirect
  rw [← hrest, ← pending_of_le u (p.version_le_run policy e)] at hruns
  obtain ⟨henvelope, hvs, -, -⟩ := (u.runs_run policy (p.run policy e).1.envelope).unique hruns
  exact ⟨henvelope, by rw [happlied, hvs]⟩

/-- **A second run changes nothing**, whether or not the first one came to its end. -/
theorem run_again (c : Chain) (policy : OnFault) (e : Envelope) :
    (c.run policy (c.run policy e).1.envelope).1.envelope = (c.run policy e).1.envelope ∧
      (c.run policy (c.run policy e).1.envelope).1.applied = [] := by
  obtain ⟨henvelope, happlied⟩ := run_after_run (List.prefix_rfl (l := c.migrations)) policy e
  exact ⟨henvelope, List.self_eq_append_right.mp happlied⟩

/-- **The path of an upgrade does not matter.**  Under either policy, a run over what an earlier
version of the chain has made of an envelope ends where the direct run ends, and the direct run
applied what the two applied one after the other; and a second run over the same chain leaves the
envelope as it is and applies nothing. -/
theorem upgrade_path_independence {p u : Chain} (h : p.migrations <+: u.migrations)
    (policy : OnFault) (e : Envelope) :
    (let first := (p.run policy e).1
      let second := (u.run policy first.envelope).1
      let direct := (u.run policy e).1
      second.envelope = direct.envelope ∧ direct.applied = first.applied ++ second.applied) ∧
    (let once := (u.run policy e).1
      let twice := (u.run policy once.envelope).1
      twice.envelope = once.envelope ∧ twice.applied = []) :=
  ⟨run_after_run h policy e, u.run_again policy e⟩

/-- The first and the third version add an entry each; the second one breaks down. -/
def faulty : Chain where
  migrations :=
    [⟨1, "", fun e => .migrated (e.data.put "a" .null)⟩, ⟨2, "", fun _ => .panicked none⟩,
    ⟨3, "", fun e => .migrated (e.data.put "c" .null)⟩]
  ascending := by decide

/-- The chain when it had its first migration only. -/
def early : Chain := ⟨faulty.migrations.take 1, faulty.ascending.sublist (List.take_sublist ..)⟩

/-- The run that halts at the fault is taken up at the fault, and skipping it reaches the end. -/
theorem upgrade_path_independence_faulty : early.migrations <+: faulty.migrations ∧
    (faulty.run .halt ⟨0, []⟩).1.halted = true ∧
    (faulty.run .halt (early.run .halt ⟨0, []⟩).1.envelope).1.envelope = ⟨1, [("a", .null)]⟩ ∧
    (faulty.run .halt ⟨1, [("a", .null)]⟩).1.applied = [] ∧
    (faulty.run .skip (early.run .skip ⟨0, []⟩).1.envelope).1.envelope =
      ⟨3, [("a", .null), ("c", .null)]⟩ := by
  have hbegins : early.migrations <+: faulty.migrations := List.take_prefix ..
  have hhalt : (faulty.run .halt ⟨0, []⟩).1 =
      ⟨⟨1, [("a", .null)]⟩, 0, [1], [⟨2, "transform panicked: unknown panic"⟩], true⟩ := by
    decide +kernel
  have hskip : (faulty.run .skip ⟨0, []⟩).1.envelope = ⟨3, [("a", .null), ("c", .null)]⟩ := by
    decide +kernel
  obtain ⟨⟨hfirst, -⟩, -, hagain⟩ := upgrade_path_independence hbegins .halt ⟨0, []⟩
  obtain ⟨⟨hsecond, -⟩, -⟩ := upgrade_path_independence hbegins .skip ⟨0, []⟩
  rw [hhalt] at hfirst hagain
  rw [hskip] at hsecond
  exact ⟨hbegins, by rw [hhalt], hfirst, hagain, hsecond⟩

end Chain

end VersionedStore
