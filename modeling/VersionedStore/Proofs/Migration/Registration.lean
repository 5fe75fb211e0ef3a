import Mathlib.Data.List.Induction
import Mathlib.Tactic.Common
import VersionedStore.Migration.Chain
import VersionedStore.Proofs.History

/-!
# Registrations

Migrations are offered to a chain one after another.  It takes those that lead past everything it
was offered before, and refuses the others.

* `Chain.Registers`, `Chain.registers_register`: the ways of a registration;
* `runningMaxima`: the running maxima of a list of migrations;
* `Chain.Covers`: what was offered to a chain leads nowhere past it, an invariant of registrations;
* `Chain.migrations_registered`: a chain holds the running maxima of what it was offered;
* `Chain.registered_migrations`, `Chain.ofList_migrations`: every chain comes of registrations;
* `Chain.registration_keeps_running_maxima`: what is held after any attempts, and what each of them
  was told.
-/

namespace VersionedStore

/-- The greater of two versions is one of them, and no less than either. -/
instance : Std.LawfulOrderMax Version where
  max_eq_or a b := by
    change (if a ≤ b then b else a) = a ∨ (if a ≤ b then b else a) = b
    split
    · exact .inr rfl
    · exact .inl rfl
  max_le_iff a b c := by
    change (if a ≤ b then b else a) ≤ c ↔ a ≤ c ∧ b ≤ c
    split
    case isTrue h => exact ⟨fun hb => ⟨UInt32.le_trans h hb, hb⟩, fun hc => hc.2⟩
    case isFalse h =>
      have hba : b ≤ a := (UInt32.le_total a b).resolve_left h
      exact ⟨fun ha => ⟨ha, UInt32.le_trans hba ha⟩, fun hc => hc.1⟩

/-- A migration that leaves every state as it is. -/
def Migration.inert (target : Version) : Migration := ⟨target, "", fun _ => .unchanged⟩

/-! ### Running maxima -/

/-- **The running maxima** of a list of migrations: those that lead past all that stand before
them. -/
def runningMaxima (ms : List Migration) : List Migration :=
  (ms.zipIdx.filter fun p => (ms.take p.2).all (·.target < p.1.target)).map (·.1)

theorem runningMaxima_concat (ms : List Migration) (m : Migration) :
    runningMaxima (ms ++ [m]) =
      runningMaxima ms ++ if ms.all (·.target < m.target) then [m] else [] := by
  have hold : ms.zipIdx.filter (fun p => ((ms ++ [m]).take p.2).all (·.target < p.1.target)) =
      ms.zipIdx.filter fun p => (ms.take p.2).all (·.target < p.1.target) := by
    refine List.filter_congr fun p hp => ?_
    have hlt : p.2 < ms.length := List.snd_lt_of_mem_zipIdx hp
    rw [List.take_append_of_le_length (Nat.le_of_lt hlt)]
  have hnew : (ms ++ [m]).take ms.length = ms := List.take_left
  unfold runningMaxima
  rw [List.zipIdx_append, List.filter_append, hold, List.map_append, Nat.zero_add,
    List.zipIdx_singleton, List.filter_singleton, hnew]
  rcases hall : ms.all (·.target < m.target) <;> rfl

theorem runningMaxima_of_pairwise {ms : List Migration} (h : ms.Pairwise (·.target < ·.target)) :
    runningMaxima ms = ms := by
  induction ms using List.reverseRecOn with
  | nil => rfl
  | append_singleton ms m ih =>
    obtain ⟨hms, -, hm⟩ := List.pairwise_append.mp h
    have hall : ms.all (·.target < m.target) = true := by
      rw [List.all_eq_true]
      exact fun k hk => decide_eq_true (hm k hk m (List.mem_singleton_self m))
    rw [runningMaxima_concat, ih hms, if_pos hall]

namespace Chain

variable {c d : Chain} {m : Migration} {ms : List Migration} {r : Option StoreError}

/-! ### One registration -/

theorem add_of_held (h : m.target ∈ c.targets) : c.add m = .error (.duplicateVersion m.target) :=
  if_pos h

theorem add_of_past (h : ∀ t ∈ c.targets, t < m.target) :
    c.add m = .ok (c.extend m fun _ hlatest => h _ (List.mem_of_getLast? hlatest)) := by
  have hnew : m.target ∉ c.targets := fun hheld => UInt32.lt_irrefl _ (h _ hheld)
  unfold add
  rw [if_neg hnew]
  split
  case h_1 => rfl
  case h_2 latest hlatest => rw [dif_pos (h latest (List.mem_of_getLast? hlatest))]

theorem add_of_below {latest : Version} (new : m.target ∉ c.targets)
    (greatest : c.latest? = some latest) (below : m.target < latest) :
    c.add m = .error (.outOfOrder m.target latest) := by
  unfold add
  rw [if_neg new]
  split
  case h_1 hnone => cases hnone.symm.trans greatest
  case h_2 other hother =>
    obtain rfl := Option.some.inj (hother.symm.trans greatest)
    rw [dif_neg (UInt32.lt_asymm below)]

/-- **The ways of a registration:** the migration is taken at the end, or refused and the chain
stays. -/
inductive Registers (c : Chain) (m : Migration) : Option StoreError → Chain → Prop
  | taken {d : Chain} (past : ∀ t ∈ c.targets, t < m.target)
      (held : d.migrations = c.migrations ++ [m]) : Registers c m none d
  | duplicate (held : m.target ∈ c.targets) : Registers c m (some (.duplicateVersion m.target)) c
  | outOfOrder {latest : Version} (new : m.target ∉ c.targets) (greatest : c.latest? = some latest)
      (below : m.target < latest) : Registers c m (some (.outOfOrder m.target latest)) c

theorem registers_register (c : Chain) (m : Migration) :
    Registers c m (c.register m).1 (c.register m).2 := by
  unfold register
  by_cases hheld : m.target ∈ c.targets
  · rw [add_of_held hheld]
    exact .duplicate hheld
  by_cases hpast : ∀ t ∈ c.targets, t < m.target
  · rw [add_of_past hpast]
    exact .taken hpast rfl
  · -- some version held is not below, and the latest is not below that one
    obtain ⟨t, ht, hle⟩ : ∃ t ∈ c.targets, ¬ t < m.target := by simpa using hpast
    obtain ⟨latest, hlatest⟩ := Option.isSome_iff_exists.mp (List.getLast?_isSome.mpr
      (List.ne_nil_of_mem ht))
    have hmem : latest ∈ c.targets := List.mem_of_getLast? hlatest
    have hbelow : m.target < latest := by
      refine UInt32.lt_of_le_of_ne ?_ fun h => hheld (h ▸ hmem)
      exact UInt32.le_trans (UInt32.not_lt.mp hle) (le_of_latest? hlatest ht)
    rw [add_of_below hheld hlatest hbelow]
    exact .outOfOrder hheld hlatest hbelow

namespace Registers

variable {e : StoreError}

theorem migrations_taken (h : Registers c m none d) : d.migrations = c.migrations ++ [m] := by
  cases h with
  | taken _ held => exact held

theorem refused (h : Registers c m (some e) d) : d = c ∧
    (m.target ∈ c.targets ∧ e = .duplicateVersion m.target ∨
      m.target ∉ c.targets ∧ ∃ latest ∈ c.targets, (∀ t ∈ c.targets, t ≤ latest) ∧
        e = .outOfOrder m.target latest) := by
  cases h with
  | duplicate held => exact ⟨rfl, .inl ⟨held, rfl⟩⟩
  | @outOfOrder latest new greatest =>
    have hmem : latest ∈ c.targets := List.mem_of_getLast? greatest
    exact ⟨rfl, .inr ⟨new, latest, hmem, fun t ht => le_of_latest? greatest ht, rfl⟩⟩

theorem taken_iff (h : Registers c m r d) : r = none ↔ ∀ t ∈ c.targets, t < m.target := by
  cases h with
  | taken past => exact ⟨fun _ => past, fun _ => rfl⟩
  | duplicate held =>
    refine ⟨fun h => ?_, fun past => absurd (past m.target held) (UInt32.lt_irrefl _)⟩
    cases h
  | outOfOrder _ greatest below =>
    refine ⟨fun h => ?_, fun past => ?_⟩
    · cases h
    · have hlt := past _ (List.mem_of_getLast? greatest)
      exact absurd (UInt32.lt_trans below hlt) (UInt32.lt_irrefl _)

end Registers

theorem add_of_register (h : (c.register m).1 = none) : c.add m = .ok (c.register m).2 := by
  unfold register at h ⊢
  rcases hadd : c.add m with e | d
  · rw [hadd] at h
    cases h
  · rfl

/-! ### Any number of registrations -/

/-- The chain after the given attempts, from the empty one on. -/
def registered (attempts : List Migration) : Chain := History.after register empty attempts

theorem registered_concat (attempts : List Migration) (m : Migration) :
    registered (attempts ++ [m]) = ((registered attempts).register m).2 := by
  unfold registered
  rw [History.after_append]
  rfl

/-- **The chain covers what it was offered:** it holds nothing else, and nothing leads past all it
holds. -/
structure Covers (attempts : List Migration) (c : Chain) : Prop where
  offered : ∀ k ∈ c.migrations, k ∈ attempts
  covered : ∀ k ∈ attempts, ∃ t ∈ c.targets, k.target ≤ t

namespace Covers

variable {attempts : List Migration}

theorem past_iff (h : Covers attempts c) (v : Version) :
    (∀ t ∈ c.targets, t < v) ↔ ∀ k ∈ attempts, k.target < v := by
  constructor
  · intro past k hk
    obtain ⟨t, ht, hle⟩ := h.covered k hk
    exact UInt32.lt_of_le_of_lt hle (past t ht)
  · intro past t ht
    obtain ⟨k, hk, rfl⟩ := List.mem_map.mp ht
    exact past k (h.offered k hk)

theorem registers (h : Covers attempts c) (hr : Registers c m r d) :
    Covers (attempts ++ [m]) d := by
  -- an attempt that is covered by what was held before is so afterwards
  have hstay (hheld : ∃ t ∈ c.targets, m.target ≤ t) : Covers (attempts ++ [m]) c := by
    refine ⟨fun k hk => List.mem_append_left _ (h.offered k hk), fun k hk => ?_⟩
    rcases List.mem_append.mp hk with hk | hk
    · exact h.covered k hk
    · rwa [List.mem_singleton.mp hk]
  cases hr with
  | duplicate held => exact hstay ⟨m.target, held, UInt32.le_refl _⟩
  | @outOfOrder latest _ greatest below =>
    exact hstay ⟨latest, List.mem_of_getLast? greatest, UInt32.le_of_lt below⟩
  | taken past held =>
    have htargets : d.targets = c.targets ++ [m.target] := by
      unfold targets
      rw [held, List.map_append]
      rfl
    refine ⟨fun k hk => ?_, fun k hk => ?_⟩
    · rw [held] at hk
      rcases List.mem_append.mp hk with hk | hk
      · exact List.mem_append_left _ (h.offered k hk)
      · exact List.mem_append_right _ hk
    · rw [htargets]
      rcases List.mem_append.mp hk with hk | hk
      · obtain ⟨t, ht, hle⟩ := h.covered k hk
        exact ⟨t, List.mem_append_left _ ht, hle⟩
      · obtain rfl := List.mem_singleton.mp hk
        exact ⟨k.target, by simp, UInt32.le_refl _⟩

end Covers

theorem covers_registered (attempts : List Migration) : Covers attempts (registered attempts) := by
  induction attempts using List.reverseRecOn with
  | nil => exact ⟨fun _ hk => hk, fun _ hk => absurd hk List.not_mem_nil⟩
  | append_singleton attempts m ih =>
    rw [registered_concat]
    exact ih.registers (registers_register _ m)

/-- **A chain holds the running maxima** of what it was offered. -/
theorem migrations_registered (attempts : List Migration) :
    (registered attempts).migrations = runningMaxima attempts := by
  induction attempts using List.reverseRecOn with
  | nil => rfl
  | append_singleton attempts m ih =>
    have hpast := (covers_registered attempts).past_iff m.target
    have hregisters := registers_register (registered attempts) m
    have htaken := hregisters.taken_iff
    rw [registered_concat, runningMaxima_concat, ← ih]
    rcases hanswer : ((registered attempts).register m).1 with _ | e
    · rw [hanswer] at hregisters
      have hall : attempts.all (·.target < m.target) = true := by
        simpa using hpast.mp (htaken.mp hanswer)
      rw [if_pos hall]
      exact hregisters.migrations_taken
    · rw [hanswer] at hregisters
      have hnot : ¬ attempts.all (·.target < m.target) = true := by
        intro hall
        rw [htaken.mpr (hpast.mpr (by simpa using hall))] at hanswer
        cases hanswer
      rw [if_neg hnot, List.append_nil, hregisters.refused.1]

theorem latest?_registered (attempts : List Migration) :
    (registered attempts).latest? = (attempts.map (·.target)).max? := by
  have hcovers := covers_registered attempts
  rcases hlatest : (registered attempts).latest? with _ | latest
  · have hnone : (registered attempts).targets = [] := List.getLast?_eq_none_iff.mp hlatest
    have hempty : attempts = [] := by
      refine List.eq_nil_iff_forall_not_mem.mpr fun k hk => ?_
      obtain ⟨t, ht, -⟩ := hcovers.covered k hk
      rw [hnone] at ht
      cases ht
    rw [hempty]
    rfl
  · refine (List.max?_eq_some_iff.mpr ⟨?_, fun v hv => ?_⟩).symm
    · obtain ⟨k, hk, hlast⟩ := List.mem_map.mp (List.mem_of_getLast? hlatest)
      exact List.mem_map.mpr ⟨k, hcovers.offered k hk, hlast⟩
    · obtain ⟨k, hk, rfl⟩ := List.mem_map.mp hv
      obtain ⟨t, ht, hle⟩ := hcovers.covered k hk
      exact UInt32.le_trans hle (le_of_latest? hlatest ht)

/-! ### Every chain comes of registrations -/

theorem eq_of_migrations (h : c.migrations = d.migrations) : c = d := by
  obtain ⟨ms, hms⟩ := c
  obtain ⟨ns, hns⟩ := d
  obtain rfl : ms = ns := h
  rfl

theorem registered_migrations (c : Chain) : registered c.migrations = c :=
  eq_of_migrations (by rw [migrations_registered, runningMaxima_of_pairwise c.ascending])

theorem ofList_of_pairwise (h : ms.Pairwise (·.target < ·.target)) :
    ofList ms = .ok (registered ms) := by
  induction ms using List.reverseRecOn with
  | nil => rfl
  | append_singleton ms m ih =>
    obtain ⟨hms, -, hm⟩ := List.pairwise_append.mp h
    have hpast : ∀ k ∈ ms, k.target < m.target :=
      fun k hk => hm k hk m (List.mem_singleton_self m)
    have htaken : ((registered ms).register m).1 = none :=
      (registers_register _ m).taken_iff.mpr (((covers_registered ms).past_iff _).mpr hpast)
    have hsplit : ofList (ms ++ [m]) = ofList ms >>= (·.add m) := by
      unfold ofList
      simp only [List.foldlM_append, List.foldlM_cons, List.foldlM_nil, bind_pure]
    rw [hsplit, ih hms, registered_concat]
    exact add_of_register htaken

theorem ofList_migrations (c : Chain) : ofList c.migrations = .ok c := by
  rw [ofList_of_pairwise c.ascending, registered_migrations]

/-! ### What any attempts come to -/

/-- **Registration keeps exactly the strict running maxima.**  Migrations are offered to an empty
chain one after another, in any order and number.  It then holds those that led past all that were
offered before them, so its versions ascend, the latest is the maximum of all that were ever
offered, and so is the version of the schema, which is zero before there is one.  Each attempt is
taken just when it leads past all before it; otherwise the chain stays as it is, and the attempt is
told that its version is held, or else which is the greatest version that is held. -/
theorem registration_keeps_running_maxima (attempts : List Migration) :
    let held := registered attempts
    held.migrations = runningMaxima attempts ∧
    held.targets.Pairwise (· < ·) ∧
    held.latest? = (attempts.map (·.target)).max? ∧
    held.current = (attempts.map (·.target)).max?.getD 0 ∧
    ∀ past m future, attempts = past ++ m :: future →
      let before := registered past
      ((before.register m).1 = none ↔ ∀ k ∈ past, k.target < m.target) ∧
      ∀ e, (before.register m).1 = some e →
        (before.register m).2 = before ∧
        (m.target ∈ before.targets ∧ e = .duplicateVersion m.target ∨
          m.target ∉ before.targets ∧ ∃ latest ∈ before.targets,
            (∀ t ∈ before.targets, t ≤ latest) ∧ e = .outOfOrder m.target latest) := by
  intro held
  have hlatest := latest?_registered attempts
  have hcurrent : held.current = (attempts.map (·.target)).max?.getD 0 := by rw [← hlatest]; rfl
  refine ⟨migrations_registered attempts, held.pairwise_targets, hlatest, hcurrent, ?_⟩
  intro past m _ _ before
  have hregisters := registers_register before m
  refine ⟨hregisters.taken_iff.trans ((covers_registered past).past_iff m.target), fun e he => ?_⟩
  rw [he] at hregisters
  exact hregisters.refused

/-- Migrations in some disorder, with one version given twice that is taken and one that never
is. -/
def disorder : List Migration := [5, 3, 5, 3, 9].map Migration.inert

/-- The second attempt at version 3 is refused as the first one was, since neither was taken. -/
theorem registration_keeps_running_maxima_disorder :
    (registered disorder).targets = [5, 9] ∧ disorder = disorder.take 3 ++ .inert 3 :: [.inert 9] ∧
    ((registered (disorder.take 3)).register (.inert 3)).1 = some (.outOfOrder 3 5) ∧
    ((registered (disorder.take 3)).register (.inert 3)).2 = registered (disorder.take 3) := by
  have hanswer :
      ((registered (disorder.take 3)).register (.inert 3)).1 = some (.outOfOrder 3 5) := by
    decide +kernel
  obtain ⟨-, -, -, -, heach⟩ := registration_keeps_running_maxima disorder
  obtain ⟨-, hrefused⟩ := heach (disorder.take 3) (.inert 3) [.inert 9] rfl
  exact ⟨by decide +kernel, rfl, hanswer, (hrefused _ hanswer).1⟩

end Chain

end VersionedStore
