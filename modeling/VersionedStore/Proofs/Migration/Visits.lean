import VersionedStore.Proofs.Migration.Pending
import VersionedStore.Migration.Run

/-!
# What a run asks of its migrations

A migration may look at a world each time it is asked, and leave its traces there, as one does that
counts its calls.  A run over such migrations is the run over a list of migrations with a world
handed through, and the world that is left tells which of them were asked, with what and in which
order.

* `Answers`: how migrations answer in a world; `Chain.runIn`: the run; `Chain.runIn_plain`:
  migrations that look at their envelope alone;
* `Visits`: migrations that were asked one after another, each given what the ones before it left;
* `Visits.eq_reached`, `Visits.given`: the envelope after some visits, and what each of them was
  given;
* `exists_visits_halt`, `exists_visits_skip`: the visits of a run under either policy.
-/

namespace VersionedStore

variable {ω : Type}

/-! ### Verdicts -/

namespace Verdict

def data? : Verdict → Option Object
  | migrated d => some d
  | _ => none

def reason? : Verdict → Option String
  | migrated _ | unchanged => none
  | malformed reason => some reason
  | failed e => some e.message
  | panicked message => some ("transform panicked: " ++ message.getD "unknown panic")

theorem outcome_eq (v : Verdict) (data : Object) :
    v.outcome data = (v.reason?.map Except.error).getD (.ok (v.data?.getD data)) := by
  cases v <;> rfl

theorem data?_of_reason? {v : Verdict} {reason : String} (h : v.reason? = some reason) :
    v.data? = none := by
  cases v <;> first | rfl | cases h

end Verdict

/-! ### Runs in a world -/

/-- How migrations answer in a world: the verdict on an envelope, and the world after it. -/
abbrev Answers (ω : Type) := Migration → Envelope → ω → Verdict × ω

/-- Migrations that look at the envelope alone. -/
def Answers.plain : Answers ω := fun m e w => (m.transform e, w)

/-- Continues a run over the given migrations in a world. -/
def runIn (answers : Answers ω) (policy : OnFault) :
    List Migration → Report → ω → (Report × List Diagnostic) × ω
  | [], r, w => ((r, []), w)
  | m :: ms, r, w =>
    let (verdict, w₁) := answers m r.envelope w
    match verdict.outcome r.envelope.data with
    | .ok data =>
      runIn answers policy ms
        { r with envelope := ⟨m.target, data⟩, applied := r.applied ++ [m.target] } w₁
    | .error reason =>
      let fault : Fault := ⟨m.target, reason⟩
      let r' := { r with faults := r.faults ++ [fault] }
      match policy with
      | .halt => (({ r' with halted := true }, [fault.diagnostic]), w₁)
      | .skip =>
        let ((last, ds), w₂) :=
          runIn answers policy ms { r' with envelope := ⟨m.target, r.envelope.data⟩ } w₁
        ((last, fault.diagnostic :: ds), w₂)

theorem runIn_plain (policy : OnFault) (ms : List Migration) (r : Report) (w : ω) :
    runIn .plain policy ms r w = (runFrom policy ms r, w) := by
  induction ms generalizing r with
  | nil => rfl
  | cons m ms ih =>
    have hattempt : (m.transform r.envelope).outcome r.envelope.data = m.attempt r.envelope := rfl
    unfold runIn runFrom Answers.plain
    simp only [hattempt]
    rcases m.attempt r.envelope with reason | data
    · cases policy with
      | halt => rfl
      | skip =>
        have hrest := ih ⟨⟨m.target, r.envelope.data⟩, r.fromVersion, r.applied,
          r.faults ++ [⟨m.target, reason⟩], r.halted⟩
        unfold Answers.plain at hrest
        simp only [hrest]
    · exact ih _

/-- Takes an envelope through the migrations past its version, in a world. -/
def Chain.runIn (c : Chain) (answers : Answers ω) (policy : OnFault) (e : Envelope) (w : ω) :
    (Report × List Diagnostic) × ω :=
  VersionedStore.runIn answers policy (c.pending e.version) ⟨e, e.version, [], [], false⟩ w

/-- **A run over migrations that look at their envelope alone** leaves any world as it is. -/
theorem Chain.runIn_plain (c : Chain) (policy : OnFault) (e : Envelope) (w : ω) :
    c.runIn .plain policy e w = (c.run policy e, w) :=
  VersionedStore.runIn_plain policy _ _ w

/-! ### Visits -/

/-- A migration that was asked, with what it was given and what it made of it. -/
structure Visit where
  migration : Migration
  given : Envelope
  verdict : Verdict

namespace Visit

def target (v : Visit) : Version := v.migration.target

/-- Whether the migration did its work. -/
def passed (v : Visit) : Bool := v.verdict.reason?.isNone

/-- The state that the migration made, if it made one. -/
def data? (v : Visit) : Option Object := v.verdict.data?

def fault? (v : Visit) : Option Fault := v.verdict.reason?.map (⟨v.target, ·⟩)

end Visit

def applied (vs : List Visit) : List Version := (vs.filter (·.passed)).map (·.target)

def faults (vs : List Visit) : List Fault := vs.filterMap (·.fault?)

/-- The envelope after some visits: the state that was made last, under the version that was visited
last. -/
def reached (e : Envelope) (vs : List Visit) : Envelope :=
  ⟨(vs.map (·.target)).getLast?.getD e.version, (vs.filterMap (·.data?)).getLast?.getD e.data⟩

/-- **Visits one after another**, from an envelope and a world to others.  Each migration is asked
once, in the world that the one before it left. -/
inductive Visits (answers : Answers ω) : Envelope → ω → List Visit → Envelope → ω → Prop
  | done {e w} : Visits answers e w [] e w
  | next {m e w verdict w₁ vs e' w'} (answer : answers m e w = (verdict, w₁))
      (rest : Visits answers ⟨m.target, verdict.data?.getD e.data⟩ w₁ vs e' w') :
      Visits answers e w (⟨m, e, verdict⟩ :: vs) e' w'

theorem reached_cons (e : Envelope) (v : Visit) (vs : List Visit) :
    reached e (v :: vs) = reached ⟨v.target, v.data?.getD e.data⟩ vs := by
  have hversion : ((v :: vs).map Visit.target).getLast?.getD e.version =
      (vs.map Visit.target).getLast?.getD v.target := by
    rw [List.map_cons, List.getLast?_cons]
    rfl
  have hdata : ((v :: vs).filterMap Visit.data?).getLast?.getD e.data =
      (vs.filterMap Visit.data?).getLast?.getD (v.data?.getD e.data) := by
    rcases hv : v.data? with _ | d
    · rw [List.filterMap_cons_none hv]
      rfl
    · rw [List.filterMap_cons_some hv, List.getLast?_cons]
      rfl
  unfold reached
  exact congrArg₂ Envelope.mk hversion hdata

namespace Visits

variable {answers : Answers ω} {e e' d : Envelope} {w w' v : ω} {vs us : List Visit}

/-- **The envelope after some visits.** -/
theorem eq_reached (h : Visits answers e w vs e' w') : e' = reached e vs := by
  induction h with
  | done => rfl
  | next _ _ ih => rw [ih, reached_cons]; rfl

theorem split {before after : List Visit} {x : Visit}
    (h : Visits answers e w (before ++ x :: after) e' w') :
    ∃ d v v', Visits answers e w before d v ∧ x.given = d ∧
      answers x.migration d v = (x.verdict, v') := by
  induction before generalizing e w with
  | nil =>
    cases h with
    | next answer rest => exact ⟨_, _, _, .done, rfl, answer⟩
  | cons y before ih =>
    cases h with
    | next answer rest =>
      obtain ⟨d, v, v', hbefore, hx⟩ := ih rest
      exact ⟨d, v, v', .next answer hbefore, hx⟩

/-- **What a migration is given:** the state that was made last before it, under the version that
was visited last. -/
theorem given {before after : List Visit} {x : Visit} (h : Visits answers e w vs e' w')
    (hsplit : vs = before ++ x :: after) : x.given = reached e before := by
  obtain ⟨d, v, v', hbefore, hgiven, -⟩ := (hsplit ▸ h).split
  rw [hgiven]
  exact hbefore.eq_reached

theorem unique (h : Visits answers e w vs e' w') (h' : Visits answers e w us d v)
    (hsame : vs.map (·.migration) = us.map (·.migration)) : e' = d ∧ w' = v := by
  induction h generalizing us with
  | done =>
    obtain rfl := List.map_eq_nil_iff.mp hsame.symm
    cases h'
    exact ⟨rfl, rfl⟩
  | next answer _ ih =>
    cases h' with
    | done => cases hsame
    | next answer' rest' =>
      rw [List.map_cons, List.map_cons] at hsame
      obtain ⟨rfl, hrest⟩ := List.cons.inj hsame
      obtain ⟨rfl, rfl⟩ := Prod.mk.inj (answer.symm.trans answer')
      exact ih rest' hrest

theorem length_le_of_fault {m : Migration} {rest : List Migration} {verdict : Verdict}
    {reason : String} (h : Visits answers e w vs e' w') (answer : (answers m e' w').1 = verdict)
    (fault : verdict.reason? = some reason) (h' : Visits answers e w us d v)
    (hbegins : us.map (·.migration) <+: vs.map (·.migration) ++ m :: rest)
    (hpassed : ∀ x ∈ us, x.passed = true) : us.length ≤ vs.length := by
  by_contra hlonger
  have hlt : vs.length < us.length := by omega
  -- the visit after as many as there are in `vs` is the one that faults
  have hsplit : us = us.take vs.length ++ us[vs.length] :: us.drop (vs.length + 1) := by simp
  have hbefore : (us.map (·.migration)).take vs.length = vs.map (·.migration) := by
    have hshort : vs.length ≤ (us.map (·.migration)).length := by simpa using Nat.le_of_lt hlt
    obtain ⟨after, hafter⟩ := hbegins
    rw [← List.take_append_of_le_length hshort, hafter]
    exact List.take_left' (by simp)
  have hm : us[vs.length].migration = m := by
    have hget := hbegins.getElem (i := vs.length) (by simpa using hlt)
    simpa using hget
  have hmigrations : (us.take vs.length).map (·.migration) = vs.map (·.migration) := by
    rw [List.map_take, hbefore]
  rw [hsplit] at h'
  obtain ⟨d', v', v'', hvisits, -, hanswer⟩ := h'.split
  obtain ⟨rfl, rfl⟩ := hvisits.unique h hmigrations
  rw [hm] at hanswer
  have hverdict : us[vs.length].verdict = verdict := (congrArg Prod.fst hanswer).symm.trans answer
  have hpass := hpassed us[vs.length] (List.getElem_mem hlt)
  unfold Visit.passed at hpass
  rw [hverdict, fault] at hpass
  cases hpass

end Visits

/-! ### The visits of a run -/

section Run

variable (answers : Answers ω) (ms : List Migration) (r : Report) (w : ω)

/-- **A run that halts** at a fault visits the migrations up to the first fault.  What was visited
before it is what the report tells of, besides the fault. -/
theorem exists_visits_halt : ∃ vs e' w', Visits answers r.envelope w vs e' w' ∧
    (∀ x ∈ vs, x.passed = true) ∧
    (vs.map (·.migration) = ms ∧ runIn answers .halt ms r w =
        ((⟨e', r.fromVersion, r.applied ++ vs.map (·.target), r.faults, r.halted⟩, []), w') ∨
      ∃ m rest verdict reason w'', ms = vs.map (·.migration) ++ m :: rest ∧
        answers m e' w' = (verdict, w'') ∧ verdict.reason? = some reason ∧
        runIn answers .halt ms r w =
          ((⟨e', r.fromVersion, r.applied ++ vs.map (·.target), r.faults ++ [⟨m.target, reason⟩],
            true⟩,
            [Fault.diagnostic ⟨m.target, reason⟩]), w'')) := by
  induction ms generalizing r w with
  | nil => exact ⟨[], r.envelope, w, .done, by simp, .inl ⟨rfl, by simp [runIn]⟩⟩
  | cons m ms ih =>
    rcases hanswer : answers m r.envelope w with ⟨verdict, w₁⟩
    have houtcome := verdict.outcome_eq r.envelope.data
    rcases hreason : verdict.reason? with _ | reason <;> simp only [hreason] at houtcome
    · -- the migration passes, and the run goes on with what it left
      obtain ⟨vs, e', w', hvisits, hpassed, hend⟩ :=
        ih ⟨⟨m.target, verdict.data?.getD r.envelope.data⟩, r.fromVersion, r.applied ++ [m.target],
          r.faults, r.halted⟩ w₁
      have hrun : runIn answers .halt (m :: ms) r w = runIn answers .halt ms
          ⟨⟨m.target, verdict.data?.getD r.envelope.data⟩, r.fromVersion, r.applied ++ [m.target],
            r.faults, r.halted⟩ w₁ := by
        simp [runIn, hanswer, houtcome]
      refine ⟨⟨m, r.envelope, verdict⟩ :: vs, e', w', .next hanswer hvisits, ?_, ?_⟩
      · have hfirst : Visit.passed ⟨m, r.envelope, verdict⟩ = true := by
          unfold Visit.passed
          rw [hreason]
          rfl
        exact List.forall_mem_cons.mpr ⟨hfirst, hpassed⟩
      rw [hrun]
      rcases hend with ⟨rfl, heq⟩ | ⟨m', rest, verdict', reason, w'', rfl, hfault⟩
      · exact .inl ⟨rfl, by simp [heq, Visit.target]⟩
      · refine .inr ⟨m', rest, verdict', reason, w'', rfl, hfault.1, hfault.2.1, ?_⟩
        simp [hfault.2.2, Visit.target]
    · refine ⟨[], r.envelope, w, .done, by simp,
        .inr ⟨m, ms, verdict, reason, w₁, rfl, hanswer, hreason, ?_⟩⟩
      simp [runIn, hanswer, houtcome]

/-- **A run that skips faults** visits all migrations. -/
theorem exists_visits_skip : ∃ vs e' w', Visits answers r.envelope w vs e' w' ∧
    vs.map (·.migration) = ms ∧ runIn answers .skip ms r w =
      ((⟨e', r.fromVersion, r.applied ++ applied vs, r.faults ++ faults vs, r.halted⟩,
        (faults vs).map Fault.diagnostic), w') := by
  induction ms generalizing r w with
  | nil => exact ⟨[], r.envelope, w, .done, rfl, by simp [runIn, applied, faults]⟩
  | cons m ms ih =>
    rcases hanswer : answers m r.envelope w with ⟨verdict, w₁⟩
    have houtcome := verdict.outcome_eq r.envelope.data
    rcases hreason : verdict.reason? with _ | reason <;> simp only [hreason] at houtcome
    · obtain ⟨vs, e', w', hvisits, rfl, heq⟩ :=
        ih ⟨⟨m.target, verdict.data?.getD r.envelope.data⟩, r.fromVersion, r.applied ++ [m.target],
          r.faults, r.halted⟩ w₁
      refine ⟨⟨m, r.envelope, verdict⟩ :: vs, e', w', .next hanswer hvisits, rfl, ?_⟩
      simp [runIn, hanswer, houtcome, heq, applied, faults, Visit.passed, Visit.fault?,
        Visit.target, hreason]
    · -- the fault leaves the state alone, and the version moves on
      have hdata := Verdict.data?_of_reason? hreason
      obtain ⟨vs, e', w', hvisits, rfl, heq⟩ :=
        ih ⟨⟨m.target, r.envelope.data⟩, r.fromVersion, r.applied,
          r.faults ++ [⟨m.target, reason⟩], r.halted⟩ w₁
      have hnext : Visits answers r.envelope w (⟨m, r.envelope, verdict⟩ :: vs) e' w' := by
        refine .next hanswer ?_
        rw [hdata]
        exact hvisits
      refine ⟨_, e', w', hnext, rfl, ?_⟩
      simp [runIn, hanswer, houtcome, heq, applied, faults, Visit.passed, Visit.fault?,
        Visit.target, hreason]

end Run

end VersionedStore
