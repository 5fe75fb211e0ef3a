import VersionedStore.Proofs.Migration.UpgradePath

/-!
# Up to the first fault

The policy of a run matters only from the first fault on.  There a run that halts stops, and what it
leaves is where a run that skips faults passes that migration by.

* `Runs.of_faultless`: a run without faults is the same under either policy;
* `Runs.at_first_fault`: a run that skips faults, cut at the first of them;
* `Chain.halt_begins_skip`: a run that halts does what one that skips faults does before its first
  fault, and leaves the rest of it to be done.
-/

namespace VersionedStore

namespace Runs

variable {policy : OnFault} {ms : List Migration} {e e' : Envelope} {vs : List Version}
  {fs : List Fault} {b : Bool}

/-- **Without a fault** the policy does not matter. -/
theorem of_faultless (h : Runs policy ms e e' vs [] b) (other : OnFault) :
    Runs other ms e e' vs [] b := by
  generalize hfs : ([] : List Fault) = fs at h
  induction h with
  | done => exact .done
  | applied attempt _ ih => exact .applied attempt (ih hfs)
  | halted | skipped => cases hfs

theorem applied_sublist (h : Runs policy ms e e' vs fs b) : vs.Sublist (ms.map (·.target)) := by
  induction h with
  | done => exact .slnil
  | applied _ _ ih => exact ih.cons_cons _
  | halted => exact List.nil_sublist _
  | skipped _ _ _ ih => exact ih.cons _

theorem lt_of_applied (h : Runs policy ms e e' vs fs b) {v : Version} (asc : Ascends v ms)
    {w : Version} (hw : w ∈ vs) : v < w :=
  List.rel_of_pairwise_cons asc (h.applied_sublist.subset hw)

/-- **A run that skips faults, cut at the first of them.**  What it applied before, a run that halts
applies; and from where that one stopped, a run that skips faults does the rest and meets all the
faults. -/
theorem at_first_fault {fault : Fault} {later : List Fault}
    (h : Runs .skip ms e e' vs (fault :: later) b) (asc : Ascends e.version ms) :
    ∃ d before after, vs = before ++ after ∧
      Runs .halt ms e d before [fault] true ∧
      Runs .skip (ms.filter (d.version < ·.target)) d e' after (fault :: later) b ∧
      d.version < fault.version ∧ (∀ v ∈ before, v < fault.version) ∧
        ∀ v ∈ after, fault.version < v := by
  generalize hfs : fault :: later = fs at h
  induction h with
  | done => cases hfs
  | halted halt => cases halt
  | @applied m ms e data e' vs fs b attempt rest ih =>
    obtain ⟨d, before, after, rfl, hhalt, hskip, hlt, hbefore, hafter⟩ := ih asc.rest hfs
    have hpast : m.target ≤ d.version := hhalt.version_le asc.rest
    have hm : m.target < fault.version := UInt32.lt_of_le_of_lt hpast hlt
    refine ⟨d, m.target :: before, after, rfl, .applied attempt hhalt, ?_, hlt,
      List.forall_mem_cons.mpr ⟨hm, hbefore⟩, hafter⟩
    rw [filter_rest hpast]
    exact hskip
  | @skipped m ms e reason e' vs fs b skip attempt rest =>
    -- this is the first fault: nothing was done before it, and all of the run is left to do
    obtain ⟨rfl, rfl⟩ := List.cons.inj hfs
    refine ⟨e, [], vs, rfl, .halted rfl attempt, ?_, asc.head_lt, by simp,
      fun v => rest.lt_of_applied asc.rest⟩
    rw [asc.filter_eq_self]
    exact .skipped skip attempt rest

end Runs

namespace Chain

/-- **A run that halts is the beginning of one that skips faults.**  Where that one meets no fault,
the two report the same.  Else the one that halts applies what the other applied to versions before
its first fault, reports that fault alone, and leaves an envelope from which a run that skips faults
meets all the faults and ends where the other ended. -/
theorem halt_begins_skip (c : Chain) (e : Envelope) :
    let halt := c.run .halt e
    let skip := c.run .skip e
    (skip.1.faults = [] → halt = skip) ∧
    ∀ fault later, skip.1.faults = fault :: later →
      halt.1.applied = skip.1.applied.filter (· < fault.version) ∧
      halt.1.faults = [fault] ∧ halt.1.halted = true ∧ halt.2 = [fault.diagnostic] ∧
      let resumed := c.run .skip halt.1.envelope
      resumed.1.envelope = skip.1.envelope ∧ resumed.1.faults = skip.1.faults ∧ resumed.2 = skip.2 ∧
        halt.1.applied ++ resumed.1.applied = skip.1.applied := by
  intro halt skip
  obtain ⟨e', vs, fs, b, hruns, hskip⟩ := c.exists_runs .skip e
  have hskip' : skip = (⟨e', e.version, vs, fs, b⟩, fs.map Fault.diagnostic) := hskip
  rw [hskip']
  constructor
  · rintro rfl
    exact run_of_runs (hruns.of_faultless .halt)
  · rintro fault later rfl
    obtain ⟨d, before, after, rfl, hhalts, hrest, -, hbefore, hafter⟩ :=
      hruns.at_first_fault (c.ascends_pending e.version)
    have hhalt : halt = (⟨d, e.version, before, [fault], true⟩, [fault.diagnostic]) :=
      run_of_runs hhalts
    have hle : e.version ≤ d.version := hhalts.version_le (c.ascends_pending e.version)
    rw [← pending_of_le c hle] at hrest
    have hresumed : c.run .skip d =
        (⟨e', d.version, after, fault :: later, b⟩, (fault :: later).map Fault.diagnostic) :=
      run_of_runs hrest
    have happlied : (before ++ after).filter (· < fault.version) = before := by
      have hall : before.filter (· < fault.version) = before := by simpa using hbefore
      have hnone : after.filter (· < fault.version) = [] := by
        simpa using fun v hv => UInt32.le_of_lt (hafter v hv)
      rw [List.filter_append, hall, hnone, List.append_nil]
    rw [hhalt]
    exact ⟨happlied.symm, rfl, rfl, rfl, by rw [hresumed], by rw [hresumed], by rw [hresumed],
      by rw [hresumed]⟩

/-- Between two migrations that pass stands one that breaks down, and the resumed run passes it
by. -/
theorem halt_begins_skip_faulty :
    let fault : Fault := ⟨2, "transform panicked: unknown panic"⟩
    let halt := (faulty.run .halt ⟨0, []⟩).1
    (faulty.run .skip ⟨0, []⟩).1.faults = [fault] ∧ halt.applied = [1] ∧ halt.faults = [fault] ∧
      (faulty.run .skip halt.envelope).1.envelope = ⟨3, [("a", .null), ("c", .null)]⟩ := by
  intro fault halt
  have hskip : (faulty.run .skip ⟨0, []⟩).1 =
      ⟨⟨3, [("a", .null), ("c", .null)]⟩, 0, [1, 3], [fault], false⟩ := by decide +kernel
  have hfaults : (faulty.run .skip ⟨0, []⟩).1.faults = [fault] := by rw [hskip]
  obtain ⟨happlied, hhalt, -, -, hresumed, -⟩ :=
    (halt_begins_skip faulty ⟨0, []⟩).2 fault [] hfaults
  rw [hskip] at happlied hresumed
  exact ⟨hfaults, happlied.trans (by decide), hhalt, hresumed⟩

end Chain

end VersionedStore
