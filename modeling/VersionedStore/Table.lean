/-!
# Tables

A table is a list of keys with their values, kept in ascending order of the keys by `put`.
Everything about a table is said through the look-up `get?`:

* `get?_put`, `get?_erase`: what a single change does to every look-up, whatever the table;
* `get?_merge_of_notMem`, `get?_merge_of_get?`: a merge takes the newer entry where there is one and
  leaves the others alone.

None of these needs the keys to be in order; the order only fixes how a table is listed.
-/

namespace VersionedStore

/-- Keys with values. -/
abbrev Table (κ α : Type) := List (κ × α)

namespace Table

variable {κ α : Type} [DecidableEq κ]

/-- The value of a key. -/
def get? : Table κ α → κ → Option α
  | [], _ => none
  | (k', v) :: t, k => if k' = k then some v else get? t k

def keys (t : Table κ α) : List κ := t.map (·.1)

/-- Sets the value of a key: in place if the key is there, else before the first greater key. -/
def put [LT κ] [DecidableLT κ] : Table κ α → κ → α → Table κ α
  | [], k, v => [(k, v)]
  | (k', v') :: t, k, v =>
    if k' = k then (k, v) :: t
    else if k < k' then (k, v) :: (k', v') :: t
    else (k', v') :: put t k v

def erase (t : Table κ α) (k : κ) : Table κ α := t.filter fun e => e.1 ≠ k

/-- Puts the entries of the second table into the first, one after another. -/
def merge [LT κ] [DecidableLT κ] (old new : Table κ α) : Table κ α :=
  new.foldl (fun t e => put t e.1 e.2) old

/-- The table of the given entries; of two entries with one key the later stays. -/
def ofList [LT κ] [DecidableLT κ] (entries : List (κ × α)) : Table κ α := merge [] entries

/-- The part of a table under the given keys, or all of it. -/
def select [LT κ] [DecidableLT κ] (t : Table κ α) : Option (List κ) → Table κ α
  | none => t
  | some ks => ofList (ks.filterMap fun k => (get? t k).map (k, ·))

/-! ### Look-ups after a change -/

@[simp] theorem get?_nil (k : κ) : get? ([] : Table κ α) k = none := rfl

@[simp] theorem get?_cons (e : κ × α) (t : Table κ α) (k : κ) :
    get? (e :: t) k = if e.1 = k then some e.2 else get? t k := rfl

theorem get?_erase (t : Table κ α) (k l : κ) :
    get? (erase t k) l = if l = k then none else get? t l := by
  induction t with
  | nil => simp [erase]
  | cons e t ih =>
    unfold erase at ih ⊢
    by_cases he : e.1 = k <;> by_cases hl : l = k <;> by_cases hel : e.1 = l <;> simp_all

section Ordered

variable [LT κ] [DecidableLT κ]

theorem get?_put (t : Table κ α) (k l : κ) (v : α) :
    get? (put t k v) l = if l = k then some v else get? t l := by
  induction t with
  | nil => simp [put, eq_comm]
  | cons e t ih =>
    obtain ⟨k', v'⟩ := e
    unfold put
    split
    · rename_i h
      subst h
      by_cases hl : l = k' <;> simp [hl, eq_comm]
    split
    · by_cases hl : l = k
      · subst hl; simp
      · have : ¬ k = l := fun h => hl h.symm
        simp [hl, this]
    · rename_i h _
      by_cases hl : l = k
      · subst hl; simp [h, ih]
      · by_cases hk : k' = l <;> simp [hk, hl, ih]

@[simp] theorem get?_put_self (t : Table κ α) (k : κ) (v : α) : get? (put t k v) k = some v := by
  simp [get?_put]

theorem get?_put_of_ne {k l : κ} (h : l ≠ k) (t : Table κ α) (v : α) :
    get? (put t k v) l = get? t l := by
  simp [get?_put, h]

@[simp] theorem merge_cons (t u : Table κ α) (e : κ × α) :
    merge t (e :: u) = merge (put t e.1 e.2) u := rfl

theorem get?_merge_of_notMem {u : Table κ α} {k : κ} (h : k ∉ keys u) (t : Table κ α) :
    get? (merge t u) k = get? t k := by
  induction u generalizing t with
  | nil => rfl
  | cons e u ih =>
    simp only [keys, List.map_cons, List.mem_cons, not_or] at h
    rw [merge_cons, ih h.2, get?_put_of_ne h.1]

theorem get?_merge_of_get? {u : Table κ α} {k : κ} {v : α} (hu : (keys u).Nodup)
    (h : get? u k = some v) (t : Table κ α) : get? (merge t u) k = some v := by
  induction u generalizing t with
  | nil => simp at h
  | cons e u ih =>
    simp only [keys, List.map_cons, List.nodup_cons] at hu
    rw [merge_cons]
    by_cases he : e.1 = k
    · subst he
      rw [get?_merge_of_notMem hu.1, get?_put_self]
      simpa using h
    · simp only [get?_cons, if_neg he] at h
      exact ih hu.2 h _

end Ordered

end Table

end VersionedStore
