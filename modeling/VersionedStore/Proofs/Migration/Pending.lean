import VersionedStore.Proofs.Migration.Registration

/-!
# What an envelope still needs

The search by halving finds the migrations past a version, all of them and no other.

* `Chain.pending_eq_filter`: the pending migrations are those that lead past the version;
* `Ascends`: migrations that lead upwards, one after another, from a version;
* `Chain.pending_current`: there is none at the version of the schema;
* `Chain.pending_of_isPrefix`: a chain that was extended needs what the earlier one needs, and more;
* `Chain.halving_is_filtering`: where the search ends, and what it finds, in every chain that
  registrations lead to.
-/

namespace VersionedStore

/-- The migrations lead upwards from a version, each past the one before it. -/
def Ascends (v : Version) (ms : List Migration) : Prop :=
  (v :: ms.map (·.target)).Pairwise (· < ·)

namespace Ascends

variable {v w : Version} {m : Migration} {ms ms' : List Migration}

theorem lt_of_mem (h : Ascends v ms) (hm : m ∈ ms) : v < m.target :=
  List.rel_of_pairwise_cons h (List.mem_map_of_mem hm)

theorem head_lt (h : Ascends v (m :: ms)) : v < m.target := h.lt_of_mem (List.mem_cons_self ..)

theorem rest (h : Ascends v (m :: ms)) : Ascends m.target ms := h.of_cons

theorem filter_eq_self (h : Ascends v ms) : ms.filter (v < ·.target) = ms := by
  rw [List.filter_eq_self]
  intro m hm
  exact decide_eq_true (h.lt_of_mem hm)

end Ascends

theorem exists_border {ms : List Migration} (h : ms.Pairwise (·.target < ·.target)) (v : Version) :
    ∃ old new, ms = old ++ new ∧ (∀ m ∈ old, m.target ≤ v) ∧ ∀ m ∈ new, v < m.target := by
  induction ms with
  | nil => exact ⟨[], [], rfl, by simp, by simp⟩
  | cons m ms ih =>
    obtain ⟨hm, hms⟩ := List.pairwise_cons.mp h
    by_cases hv : m.target ≤ v
    · obtain ⟨old, new, rfl, hold, hnew⟩ := ih hms
      refine ⟨m :: old, new, rfl, fun x hx => ?_, hnew⟩
      rcases List.mem_cons.mp hx with rfl | hx
      · exact hv
      · exact hold x hx
    · -- the first migration leads past the version, so all of them do
      have hlt : v < m.target := UInt32.not_le.mp hv
      refine ⟨[], m :: ms, rfl, by simp, fun x hx => ?_⟩
      rcases List.mem_cons.mp hx with rfl | hx
      · exact hlt
      · exact UInt32.lt_trans hlt (hm x hx)

namespace Chain

variable {c p u : Chain} {v : Version}

theorem start_eq_length {old new : List Migration} (h : c.migrations = old ++ new)
    (hold : ∀ m ∈ old, m.target ≤ v) (hnew : ∀ m ∈ new, v < m.target) :
    c.start v = old.length := by
  have hlength : c.migrations.length = old.length + new.length := by rw [h, List.length_append]
  have htarget : ∀ i : Nat, c.targets[i]? = (old ++ new)[i]?.map Migration.target := by
    intro i
    unfold targets
    rw [List.getElem?_map, h]
  unfold start
  refine partitionPoint_eq (Nat.zero_le _) (by omega) (fun i _ hi => ?_) (fun i hi hi' => ?_)
  · rw [htarget, List.getElem?_append_left hi, List.getElem?_eq_getElem hi]
    exact decide_eq_true (hold _ (List.getElem_mem hi))
  · have hlt : i - old.length < new.length := by omega
    rw [htarget, List.getElem?_append_right hi, List.getElem?_eq_getElem hlt]
    exact decide_eq_false (UInt32.not_le.mpr (hnew _ (List.getElem_mem hlt)))

theorem start_eq_countP (c : Chain) (v : Version) :
    c.start v = c.migrations.countP (·.target ≤ v) := by
  obtain ⟨old, new, h, hold, hnew⟩ := exists_border c.ascending v
  have hall : old.countP (·.target ≤ v) = old.length := by
    rw [List.countP_eq_length]
    exact fun m hm => decide_eq_true (hold m hm)
  have hnone : new.countP (·.target ≤ v) = 0 := by
    rw [List.countP_eq_zero]
    intro m hm
    have hlt := UInt32.not_le.mpr (hnew m hm)
    simpa using hlt
  rw [start_eq_length h hold hnew, h, List.countP_append, hall, hnone, Nat.add_zero]

/-- **The pending migrations** are those that lead past the version, in their order. -/
theorem pending_eq_filter (c : Chain) (v : Version) :
    c.pending v = c.migrations.filter (v < ·.target) := by
  obtain ⟨old, new, h, hold, hnew⟩ := exists_border c.ascending v
  have hnone : old.filter (v < ·.target) = [] := by
    rw [List.filter_eq_nil_iff]
    intro m hm
    have hle := UInt32.not_lt.mpr (hold m hm)
    simpa using hle
  have hall : new.filter (v < ·.target) = new := by
    rw [List.filter_eq_self]
    intro m hm
    exact decide_eq_true (hnew m hm)
  unfold pending
  rw [start_eq_length h hold hnew, h, List.drop_left, List.filter_append, hnone, hall,
    List.nil_append]

theorem ascends_pending (c : Chain) (v : Version) : Ascends v (c.pending v) := by
  rw [pending_eq_filter]
  refine List.pairwise_cons.mpr ⟨fun t ht => ?_, ?_⟩
  · obtain ⟨m, hm, rfl⟩ := List.mem_map.mp ht
    exact of_decide_eq_true (List.mem_filter.mp hm).2
  · exact List.pairwise_map.mpr (c.ascending.filter _)

theorem pending_of_isPrefix (h : p.migrations <+: u.migrations) (v : Version) :
    ∃ rest, u.pending v = p.pending v ++ rest := by
  obtain ⟨rest, hrest⟩ := h
  refine ⟨rest.filter (v < ·.target), ?_⟩
  rw [pending_eq_filter, pending_eq_filter, ← hrest, List.filter_append]

theorem pending_of_le (c : Chain) {v w : Version} (h : v ≤ w) :
    c.pending w = (c.pending v).filter (w < ·.target) := by
  rw [pending_eq_filter, pending_eq_filter, List.filter_filter]
  refine List.filter_congr fun m _ => ?_
  by_cases hw : w < m.target
  · have hv : v < m.target := UInt32.lt_of_le_of_lt h hw
    simp [hw, hv]
  · simp [hw]

/-- Nothing is pending at the version of the schema. -/
theorem pending_current (c : Chain) : c.pending c.current = [] := by
  rw [pending_eq_filter, List.filter_eq_nil_iff]
  intro m hm
  have hmem : m.target ∈ c.targets := List.mem_map_of_mem hm
  have hlatest : c.latest? = some c.current := by
    unfold current latest?
    rw [List.getLast?_eq_some_getLast (List.ne_nil_of_mem hmem), Option.getD_some]
  have hle := UInt32.not_lt.mpr (le_of_latest? hlatest hmem)
  simpa using hle

theorem eq_of_isPrefix (h : p.migrations <+: u.migrations) (h' : u.migrations <+: p.migrations) :
    p = u :=
  eq_of_migrations (h.eq_of_length_le h'.length_le)

/-- **Searching by halving is filtering.**  Every chain comes of registrations, in place or one
chain made from the other.  The search ends behind the migrations that lead to the version or below,
and what it leaves are all those that lead past the version and no other, each once and in strictly
ascending order; and what is pending at a later version is the part that leads past it of what was
pending before. -/
theorem halving_is_filtering (c : Chain) (v : Version) :
    (registered c.migrations = c ∧ ofList c.migrations = .ok c) ∧
    c.start v = c.migrations.countP (·.target ≤ v) ∧
    c.pending v = c.migrations.filter (v < ·.target) ∧
    (c.pending v).Pairwise (·.target < ·.target) ∧
    ∀ w, v ≤ w → c.pending w = (c.pending v).filter (w < ·.target) := by
  have hascending : (c.pending v).Pairwise (·.target < ·.target) :=
    List.pairwise_map.mp (c.ascends_pending v).of_cons
  exact ⟨⟨c.registered_migrations, c.ofList_migrations⟩, c.start_eq_countP v, c.pending_eq_filter v,
    hascending, fun w h => c.pending_of_le h⟩

/-- A chain that leaves out versions. -/
def spaced : Chain := registered ([2, 5, 9].map .inert)

/-- Version 2 is one of the chain, and version 6 lies between two of it. -/
theorem halving_is_filtering_spaced : (2 : Version) ≤ 6 ∧
    spaced.pending 6 = (spaced.pending 2).filter (6 < ·.target) ∧
    (spaced.pending 2).map (·.target) = [5, 9] ∧ (spaced.pending 6).map (·.target) = [9] := by
  have hle : (2 : Version) ≤ 6 := by decide
  obtain ⟨-, -, -, -, hlater⟩ := halving_is_filtering spaced 2
  exact ⟨hle, hlater 6 hle, by decide +kernel, by decide +kernel⟩

end Chain

end VersionedStore
