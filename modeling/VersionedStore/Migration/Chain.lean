import VersionedStore.Migration.Basic

/-!
# Chains of migrations

The migrations of a program in ascending order of their versions, which is part of the type.  A
chain grows at its end only, and the migrations an envelope still needs are found by halving.

* `Chain.add`: a migration is taken if it leads past the latest version;
* `Chain.register`: the same in place, where a refusal leaves the chain as it is;
* `Chain.pending`: the migrations after a version;
* `partitionPoint_eq`: the search by halving finds the border of any property that holds up to it
  and not after.
-/

namespace VersionedStore

/-- The first number from `low` on, and not past `high`, without a property, for a property that
holds up to some place and nowhere after it.  The range is halved until it is empty. -/
def partitionPoint (p : Nat → Bool) (low high : Nat) : Nat :=
  if low < high then
    let middle := (low + high) / 2
    if p middle then partitionPoint p (middle + 1) high else partitionPoint p low middle
  else low
termination_by high - low

theorem partitionPoint_eq {p : Nat → Bool} {low high border : Nat} (hl : low ≤ border)
    (hh : border ≤ high) (hp : ∀ i, low ≤ i → i < border → p i = true)
    (hn : ∀ i, border ≤ i → i < high → p i = false) : partitionPoint p low high = border := by
  fun_induction partitionPoint p low high with
  | case1 low high h middle hm ih =>
    refine ih ?_ hh (fun i hi => hp i (by omega)) hn
    refine Nat.lt_of_not_le fun hb => ?_
    have := hn middle hb (by omega)
    simp_all
  | case2 low high h middle hm ih =>
    refine ih hl ?_ hp (fun i hi _ => hn i hi (by omega))
    refine Nat.le_of_not_lt fun hb => ?_
    exact hm (hp middle (by omega) hb)
  | case3 => omega

/-- The migrations of a program, oldest first. -/
structure Chain where
  migrations : List Migration := []
  ascending : migrations.Pairwise (·.target < ·.target) := by simp

namespace Chain

/-- The chain before there is any migration. -/
def empty : Chain := {}

def targets (c : Chain) : List Version := c.migrations.map (·.target)

def latest? (c : Chain) : Option Version := c.targets.getLast?

/-- The version of the schema: that of the last migration, or zero before there is one. -/
def current (c : Chain) : Version := c.latest?.getD 0

theorem pairwise_targets (c : Chain) : c.targets.Pairwise (· < ·) :=
  List.pairwise_map.2 c.ascending

theorem le_of_latest? {c : Chain} {latest v : Version} (h : c.latest? = some latest)
    (hv : v ∈ c.targets) : v ≤ latest := by
  obtain ⟨earlier, he⟩ := List.getLast?_eq_some_iff.1 h
  have hp := c.pairwise_targets
  rw [he, List.pairwise_append] at hp
  rw [he, List.mem_append, List.mem_singleton] at hv
  rcases hv with hv | rfl
  · exact UInt32.le_of_lt (hp.2.2 v hv latest (List.mem_singleton.2 rfl))
  · exact UInt32.le_refl v

theorem lt_of_latest? {c : Chain} {target v : Version}
    (h : ∀ latest, c.latest? = some latest → latest < target) (hv : v ∈ c.targets) :
    v < target := by
  cases hl : c.latest? with
  | none => rw [List.getLast?_eq_none_iff.1 hl] at hv; cases hv
  | some latest => exact UInt32.lt_of_le_of_lt (le_of_latest? hl hv) (h latest hl)

/-- A chain with one migration more, which leads past the latest version. -/
def extend (c : Chain) (m : Migration) (h : ∀ latest, c.latest? = some latest → latest < m.target) :
    Chain where
  migrations := c.migrations ++ [m]
  ascending := List.pairwise_append.2 ⟨c.ascending, List.pairwise_singleton _ _, fun _ hk _ hm =>
    List.mem_singleton.1 hm ▸ lt_of_latest? h (List.mem_map_of_mem hk)⟩

/-- Adds a migration at the end.  Its version must be new and greater than the latest. -/
def add (c : Chain) (m : Migration) : Except StoreError Chain :=
  if m.target ∈ c.targets then .error (.duplicateVersion m.target)
  else
    match h : c.latest? with
    | none => .ok (c.extend m (by simp [h]))
    | some latest =>
      if hl : latest < m.target then .ok (c.extend m (by simpa [h] using hl))
      else .error (.outOfOrder m.target latest)

/-- Offers a migration to a chain that is there before and after: the reason of a refusal, and the
chain to go on with. -/
def register (c : Chain) (m : Migration) : Option StoreError × Chain :=
  match c.add m with
  | .ok c' => (none, c')
  | .error e => (some e, c)

/-- The chain of the given migrations, or the first reason why there is none. -/
def ofList (ms : List Migration) : Except StoreError Chain := ms.foldlM add {}

/-- Where in the chain the migrations past a version begin. -/
def start (c : Chain) (v : Version) : Nat :=
  partitionPoint (fun i => (c.targets[i]?).any (· ≤ v)) 0 c.migrations.length

/-- The migrations past a version, in order. -/
def pending (c : Chain) (v : Version) : List Migration := c.migrations.drop (c.start v)

def listing (c : Chain) : String := "[" ++ ", ".intercalate (c.migrations.map (·.listing)) ++ "]"

end Chain

end VersionedStore
