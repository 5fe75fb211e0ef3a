import VersionedStore.Proofs.Migration.FirstVisit
import VersionedStore.Proofs.Migration.Runs

/-!
# The chain that is shipped

It has one migration, so a run over it changes the version or leaves the envelope as it is.

* `Chain.run_shipped`: the three ways of a run; `Chain.current_le_run_shipped_iff`: it reaches the
  version of the schema unless it halts;
* `Chain.fits_run_shipped`: what is in order and not too deep stays so.
-/

namespace VersionedStore

open Json

namespace Chain

variable {policy : OnFault} {e : Envelope} {n : Nat}

theorem current_shipped : shipped.current = FirstVisit.version := rfl

theorem pending_shipped (v : Version) :
    shipped.pending v = if v < shipped.current then [FirstVisit.migration] else [] := by
  rw [pending_eq_filter, current_shipped]
  show [FirstVisit.migration].filter (v < ·.target) = _
  rw [List.filter_cons]
  by_cases hv : v < FirstVisit.version <;> simp [hv, FirstVisit.migration]

/-- **The ways of a run over the chain that is shipped:** nothing is pending; or the migration fails
and the run halts, with the envelope as it was; or the version is reached, with the state that the
migration made or, where it failed and was skipped, with the state as it was.  Only then did the
version change. -/
theorem run_shipped (policy : OnFault) (e : Envelope) :
    let r := (shipped.run policy e).1
    (shipped.current ≤ e.version ∧ r.halted = false ∧ r.versionChanged = false ∧ r.envelope = e) ∨
      (e.version < shipped.current ∧ r.halted = true ∧ r.versionChanged = false ∧ r.envelope = e) ∨
      (e.version < shipped.current ∧ r.halted = false ∧ r.versionChanged = true ∧
        r.envelope.version = shipped.current ∧
        (FirstVisit.migration.attempt e = .ok r.envelope.data ∨ r.envelope.data = e.data)) := by
  intro r
  have hruns : Runs policy (shipped.pending e.version) e r.envelope r.applied r.faults r.halted :=
    shipped.runs_run policy e
  have hchanged : r.versionChanged = decide (r.envelope.version ≠ e.version) := by
    unfold Report.versionChanged
    rw [shipped.fromVersion_run]
  rw [hchanged]
  generalize r.envelope = e', r.applied = vs, r.faults = fs, r.halted = b at hruns ⊢
  rw [pending_shipped] at hruns
  by_cases hv : e.version < shipped.current
  swap
  · rw [if_neg hv] at hruns
    cases hruns
    exact .inl ⟨UInt32.not_lt.mp hv, rfl, by simp, rfl⟩
  rw [if_pos hv] at hruns
  have hne : shipped.current ≠ e.version := (UInt32.ne_of_lt hv).symm
  cases hruns with
  | applied attempt rest =>
    cases rest
    exact .inr (.inr ⟨hv, rfl, decide_eq_true hne, rfl, .inl attempt⟩)
  | halted => exact .inr (.inl ⟨hv, rfl, by simp, rfl⟩)
  | skipped _ _ rest =>
    cases rest
    exact .inr (.inr ⟨hv, rfl, decide_eq_true hne, rfl, .inr rfl⟩)

theorem versionChanged_shipped_iff (policy : OnFault) (e : Envelope) :
    (shipped.run policy e).1.versionChanged = false ↔
      shipped.current ≤ e.version ∨ (shipped.run policy e).1.halted = true := by
  rcases run_shipped policy e with ⟨hle, -, hchanged, -⟩ | ⟨-, hhalted, hchanged, -⟩ |
    ⟨hlt, hhalted, hchanged, -⟩
  · exact iff_of_true hchanged (.inl hle)
  · exact iff_of_true hchanged (.inr hhalted)
  · refine iff_of_false (by rw [hchanged]; nofun) (not_or.mpr ⟨UInt32.not_le.mpr hlt, ?_⟩)
    rw [hhalted]
    nofun

/-- **The version of the schema is reached** unless the run halts. -/
theorem current_le_run_shipped_iff (policy : OnFault) (e : Envelope) :
    shipped.current ≤ (shipped.run policy e).1.envelope.version ↔
      (shipped.run policy e).1.halted = false := by
  rcases run_shipped policy e with ⟨hle, hhalted, -, heq⟩ | ⟨hlt, hhalted, -, heq⟩ |
    ⟨-, hhalted, -, hversion, -⟩
  · exact iff_of_true (by rw [heq]; exact hle) hhalted
  · refine iff_of_false ?_ (by rw [hhalted]; nofun)
    rw [heq]
    exact UInt32.not_le.mpr hlt
  · exact iff_of_true (by rw [hversion]; exact UInt32.le_refl _) hhalted

/-- **The envelope of a run** can be stored if the one that it began with could be. -/
theorem fits_run_shipped (policy : OnFault) (h : Fits n (.object e.data)) :
    Fits n (.object (shipped.run policy e).1.envelope.data) := by
  rcases run_shipped policy e with ⟨-, -, -, heq⟩ | ⟨-, -, -, heq⟩ | ⟨-, -, -, -, hattempt | hdata⟩
  · rw [heq]
    exact h
  · rw [heq]
    exact h
  · exact FirstVisit.fits_attempt hattempt h
  · rw [hdata]
    exact h

end Chain

end VersionedStore
