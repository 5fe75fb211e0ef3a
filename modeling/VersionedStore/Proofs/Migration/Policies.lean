import VersionedStore.Proofs.Migration.Visits

/-!
# What a run keeps under either policy

* `Chain.last_pending`: the version behind all migrations that are pending;
* `Visits.perm_targets`, `Visits.disjoint_targets`: each migration that was asked is applied or at
  fault, and not both;
* `Chain.halt_keeps_longest_prefix`: a run that halts keeps the migrations up to the first fault,
  and asks none after it;
* `Chain.skip_visits_every_migration`: a run that skips faults asks each pending migration once, and
  loses none.
-/

namespace VersionedStore

variable {ω : Type}

/-- **Behind all that is pending** stands the version of the schema, unless the version is past
it. -/
theorem Chain.last_pending (c : Chain) (v : Version) :
    ((c.pending v).map (·.target)).getLast?.getD v = if v < c.current then c.current else v := by
  have hasc := c.ascends_pending v
  rcases hlast : ((c.pending v).map (·.target)).getLast? with _ | t
  · -- nothing leads past the version, so the version of the schema does not either
    have hnone : c.pending v = [] := by simpa using hlast
    have hle : ¬ v < c.current := by
      intro hlt
      rcases hlatest : c.latest? with _ | latest
      · have hzero : c.current = 0 := by unfold current; rw [hlatest]; rfl
        rw [hzero] at hlt
        exact UInt32.not_lt_zero hlt
      · have hcurrent : c.current = latest := by unfold current; rw [hlatest]; rfl
        obtain ⟨m, hm, rfl⟩ := List.mem_map.mp (List.mem_of_getLast? hlatest)
        have hmem : m ∈ c.pending v := by
          rw [pending_eq_filter]
          exact List.mem_filter.mpr ⟨hm, decide_eq_true (hcurrent ▸ hlt)⟩
        rw [hnone] at hmem
        cases hmem
    rw [if_neg hle, hlast]
    rfl
  · have hmem : t ∈ (c.pending v).map (·.target) := List.mem_of_getLast? hlast
    have hlt : v < t := List.rel_of_pairwise_cons hasc hmem
    have hcurrent : c.current = t := by
      obtain ⟨earlier, hsplit⟩ : ∃ earlier, c.migrations = earlier ++ c.pending v :=
        ⟨_, (List.take_append_drop (c.start v) c.migrations).symm⟩
      unfold current latest? targets
      rw [hsplit, List.map_append, List.getLast?_append, hlast]
      rfl
    rw [hcurrent, if_pos hlt, hlast]
    rfl

/-! ### Applied and faulty versions -/

theorem map_version_faults (vs : List Visit) :
    (faults vs).map (·.version) = (vs.filter (!·.passed)).map (·.target) := by
  unfold faults
  induction vs with
  | nil => rfl
  | cons v vs ih =>
    rcases hreason : v.verdict.reason? with _ | reason
    · have hfault : v.fault? = none := by simp [Visit.fault?, hreason]
      have hpassed : ¬ (!v.passed) = true := by simp [Visit.passed, hreason]
      rw [List.filterMap_cons_none hfault,
        List.filter_cons_of_neg (p := fun v : Visit => !v.passed) hpassed]
      exact ih
    · have hfault : v.fault? = some ⟨v.target, reason⟩ := by simp [Visit.fault?, hreason]
      have hpassed : (!v.passed) = true := by simp [Visit.passed, hreason]
      rw [List.filterMap_cons_some hfault,
        List.filter_cons_of_pos (p := fun v : Visit => !v.passed) hpassed]
      exact congrArg (v.target :: ·) ih

namespace Visits

variable {vs : List Visit}

/-- **Each visit is either applied or a fault.** -/
theorem perm_targets (vs : List Visit) :
    (applied vs ++ (faults vs).map (·.version)).Perm (vs.map (·.target)) := by
  unfold applied
  rw [map_version_faults, ← List.map_append]
  exact (List.filter_append_perm _ vs).map _

theorem pairwise_applied (h : (vs.map (·.target)).Pairwise (· < ·)) :
    (applied vs).Pairwise (· < ·) :=
  h.sublist (List.filter_sublist.map _)

theorem pairwise_faults (h : (vs.map (·.target)).Pairwise (· < ·)) :
    ((faults vs).map (·.version)).Pairwise (· < ·) := by
  rw [map_version_faults]
  exact h.sublist (List.filter_sublist.map _)

/-- Where the versions ascend, none is both applied and at fault. -/
theorem disjoint_targets (h : (vs.map (·.target)).Pairwise (· < ·)) :
    (applied vs).Disjoint ((faults vs).map (·.version)) := by
  have hnodup : (vs.map (·.target)).Nodup := h.imp UInt32.ne_of_lt
  have hboth := (perm_targets vs).nodup_iff.mpr hnodup
  exact fun t ht ht' => (List.nodup_append.mp hboth).2.2 t ht t ht' rfl

end Visits

namespace Chain

/-- **A run that halts keeps the longest prefix of migrations that pass.**  The pending migrations
are asked one after another, each given what the ones before it left, up to the first that faults.
What is left is the work of those before it, the report tells of them and of that fault, and neither
a later migration nor the sink of diagnostics hears of anything else. -/
theorem halt_keeps_longest_prefix (c : Chain) (e : Envelope) (answers : Answers ω) (w : ω) :
    c.run .halt e = (c.runIn .plain .halt e ()).1 ∧
    ∃ kept e' w', Visits answers e w kept e' w' ∧
      kept.map (·.migration) <+: c.migrations.filter (e.version < ·.target) ∧
      (∀ x ∈ kept, x.passed = true ∧ ∀ before after, kept = before ++ x :: after →
        x.given = reached e before) ∧
      (∀ others d v, Visits answers e w others d v → (∀ x ∈ others, x.passed = true) →
        others.map (·.migration) <+: c.migrations.filter (e.version < ·.target) →
        others.length ≤ kept.length) ∧
      e' = reached e kept ∧
      (kept.map (·.migration) = c.migrations.filter (e.version < ·.target) ∧
          c.runIn answers .halt e w = ((⟨e', e.version, kept.map (·.target), [], false⟩, []), w') ∨
        ∃ m rest verdict reason w'',
          c.migrations.filter (e.version < ·.target) = kept.map (·.migration) ++ m :: rest ∧
          answers m e' w' = (verdict, w'') ∧ verdict.reason? = some reason ∧
          c.runIn answers .halt e w =
            ((⟨e', e.version, kept.map (·.target), [⟨m.target, reason⟩], true⟩,
              [Fault.diagnostic ⟨m.target, reason⟩]), w'')) := by
  refine ⟨by rw [runIn_plain], ?_⟩
  obtain ⟨kept, e', w', hvisits, hpassed, hend⟩ :=
    exists_visits_halt answers (c.pending e.version) ⟨e, e.version, [], [], false⟩ w
  rw [c.pending_eq_filter] at hend
  have hgiven : ∀ x ∈ kept, x.passed = true ∧ ∀ before after, kept = before ++ x :: after →
      x.given = reached e before := fun x hx => ⟨hpassed x hx, fun _ _ => hvisits.given⟩
  refine ⟨kept, e', w', hvisits, ?_, hgiven, ?_, hvisits.eq_reached, ?_⟩
  · rcases hend with ⟨hall, -⟩ | ⟨m, rest, -, -, -, hall, -⟩
    · exact hall ▸ List.prefix_rfl
    · exact ⟨m :: rest, hall.symm⟩
  · intro others d v hothers hpass hbegins
    rcases hend with ⟨hall, -⟩ | ⟨m, rest, verdict, reason, w'', hall, hanswer, hreason, -⟩
    · have hle := hbegins.length_le
      rw [← hall] at hle
      simpa using hle
    · have hfirst : (answers m e' w').1 = verdict := by rw [hanswer]
      exact hvisits.length_le_of_fault hfirst hreason hothers (hall ▸ hbegins) hpass
  · unfold runIn
    rw [c.pending_eq_filter]
    exact hend

/-- **A run that skips faults visits every pending migration**, each once, in ascending order and
given the state that was made last before it, under the version before its own.  Each is applied or
at fault, the version is that of the schema behind them, and the sink of diagnostics hears of the
faults. -/
theorem skip_visits_every_migration (c : Chain) (e : Envelope) (answers : Answers ω) (w : ω) :
    c.run .skip e = (c.runIn .plain .skip e ()).1 ∧
    ∃ vs e' w', Visits answers e w vs e' w' ∧
      vs.map (·.migration) = c.migrations.filter (e.version < ·.target) ∧
      (vs.map (·.target)).Pairwise (· < ·) ∧
      c.runIn answers .skip e w =
        ((⟨e', e.version, applied vs, faults vs, false⟩, (faults vs).map Fault.diagnostic), w') ∧
      (applied vs).Pairwise (· < ·) ∧ ((faults vs).map (·.version)).Pairwise (· < ·) ∧
      (applied vs).Disjoint ((faults vs).map (·.version)) ∧
      (applied vs ++ (faults vs).map (·.version)).Perm
        ((c.migrations.filter (e.version < ·.target)).map (·.target)) ∧
      e'.version = (if e.version < c.current then c.current else e.version) ∧
      e' = reached e vs ∧
      ∀ before x after, vs = before ++ x :: after → x.given = reached e before := by
  refine ⟨by rw [runIn_plain], ?_⟩
  obtain ⟨vs, e', w', hvisits, hall, hrun⟩ :=
    exists_visits_skip answers (c.pending e.version) ⟨e, e.version, [], [], false⟩ w
  have htargets : vs.map (·.target) = (c.pending e.version).map (·.target) := by
    rw [← hall, List.map_map]
    rfl
  have hasc : (vs.map (·.target)).Pairwise (· < ·) :=
    htargets ▸ (c.ascends_pending e.version).of_cons
  have hversion : e'.version = if e.version < c.current then c.current else e.version := by
    rw [← c.last_pending, ← htargets, hvisits.eq_reached]
    rfl
  have hperm := Visits.perm_targets vs
  rw [htargets, c.pending_eq_filter] at hperm
  exact ⟨vs, e', w', hvisits, by rw [hall, c.pending_eq_filter], hasc, hrun,
    Visits.pairwise_applied hasc, Visits.pairwise_faults hasc, Visits.disjoint_targets hasc, hperm,
    hversion, hvisits.eq_reached, fun _ _ _ => hvisits.given⟩

end Chain

end VersionedStore
