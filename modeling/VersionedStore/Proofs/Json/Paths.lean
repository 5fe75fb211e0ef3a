import VersionedStore.Proofs.Json.Accepted

/-!
# Paths into a value

A path leads from a value through its objects, from key to key.  A change in depth is given by a
pattern, which names a key at every level or takes them all, and by what becomes of the values it
leads to.

* `Table.put_eq_mapValues`: putting a key that is there changes its value and nothing else;
* `Value.get?`: the value at the end of a path; `Value.edit`: a change along a pattern;
* `Value.get?_edit_of_hits`, `Value.keys?_edit`, `Value.get?_edit_of_apart`: what a change does
  where the pattern leads to, on the way there, and everywhere else;
* `Value.edit_edit`: a change that makes no difference the second time makes none along a pattern;
* `Json.Fits.edit`: what is in order and not too deep stays so.
-/

namespace VersionedStore

namespace Table

variable {α : Type} {t : Table String α} {k : String} {v : α}

/-- The values of a table, each changed by its key. -/
def mapValues (g : String → α → α) (t : Table String α) : Table String α :=
  t.map fun e => (e.1, g e.1 e.2)

@[simp] theorem keys_mapValues (g : String → α → α) (t : Table String α) :
    (t.mapValues g).keys = t.keys := by
  simp [mapValues, keys]

theorem mapValues_cons (g : String → α → α) (e : String × α) (t : Table String α) :
    mapValues g (e :: t) = (e.1, g e.1 e.2) :: mapValues g t := rfl

theorem get?_mapValues (g : String → α → α) (t : Table String α) (k : String) :
    (t.mapValues g).get? k = (t.get? k).map (g k) := by
  induction t with
  | nil => rfl
  | cons e t ih =>
    rw [mapValues_cons, get?_cons, get?_cons, ih]
    by_cases hk : e.1 = k
    · simp [hk]
    · simp [hk]

theorem sorted_iff_keys : t.Sorted ↔ t.keys.Pairwise (· < ·) := List.pairwise_map.symm

theorem Sorted.mapValues (h : t.Sorted) (g : String → α → α) : (t.mapValues g).Sorted := by
  rw [sorted_iff_keys, keys_mapValues]
  exact sorted_iff_keys.mp h

theorem mapValues_mapValues {g : String → α → α} (hg : ∀ k v, g k (g k v) = g k v)
    (t : Table String α) :
    (t.mapValues g).mapValues g = t.mapValues g := by
  simp [mapValues, hg]

theorem mapValues_eq_self {g : String → α → α} (h : ∀ e ∈ t, g e.1 e.2 = e.2) : t.mapValues g = t :=
  calc t.mapValues g = t.map id := List.map_congr_left fun e he => Prod.ext rfl (h e he)
    _ = t := List.map_id t

/-- **Putting a key that is there** changes its value and nothing else. -/
theorem put_eq_mapValues (h : t.Sorted) (hk : t.get? k = some v) (g : α → α) :
    t.put k (g v) = t.mapValues fun l w => if k = l then g w else w := by
  induction t with
  | nil => cases hk
  | cons e t ih =>
    obtain ⟨hlt, ht⟩ := List.pairwise_cons.mp h
    rw [get?_cons] at hk
    rw [put, mapValues_cons]
    by_cases he : e.1 = k
    · subst he
      obtain rfl := Option.some.inj ((if_pos rfl).symm.trans hk)
      -- the other keys are greater
      have hrest : mapValues (fun l w => if e.1 = l then g w else w) t = t :=
        mapValues_eq_self fun x hx => if_neg (String.ne_of_lt (hlt x hx))
      rw [if_pos rfl, hrest, if_pos rfl]
    · have hget : get? t k = some v := (if_neg he).symm.trans hk
      have hbelow : e.1 < k := hlt _ (mem_of_get? hget)
      rw [if_neg he, if_neg (String.lt_asymm hbelow), if_neg (Ne.symm he), ih ht hget]

theorem put_put (t : Table String α) (k : String) (v w : α) : (t.put k v).put k w = t.put k w := by
  induction t with
  | nil => simp [put]
  | cons e t ih =>
    obtain ⟨l, x⟩ := e
    by_cases he : l = k
    · simp [put, he]
    by_cases hlt : k < l
    · simp [put, he, hlt]
    · simp [put, he, hlt, ih]

end Table

namespace Value

variable {f : Value → Value} {g : String → Value → Value} {v : Value} {k : String}
  {path hit : List String} {step : Option String} {steps : List (Option String)}

/-! ### Members -/

def keys? (v : Value) : Option (List String) := v.object?.map Table.keys

def member? (v : Value) (k : String) : Option Value := v.object?.bind fun ms => Table.get? ms k

/-- The members of an object, each changed by its key; any other value stays. -/
def mapMembers (g : String → Value → Value) : Value → Value
  | object ms => object (Table.mapValues g ms)
  | v => v

@[simp] theorem keys?_mapMembers (g : String → Value → Value) (v : Value) :
    (v.mapMembers g).keys? = v.keys? := by
  cases v with
  | object ms => exact congrArg some (Table.keys_mapValues g ms)
  | _ => rfl

theorem member?_mapMembers (g : String → Value → Value) (v : Value) (k : String) :
    (v.mapMembers g).member? k = (v.member? k).map (g k) := by
  cases v with
  | object ms => exact Table.get?_mapValues g ms k
  | _ => rfl

theorem mapMembers_mapMembers (hg : ∀ k v, g k (g k v) = g k v) (v : Value) :
    (v.mapMembers g).mapMembers g = v.mapMembers g := by
  cases v with
  | object ms => exact congrArg object (Table.mapValues_mapValues hg ms)
  | _ => rfl

/-! ### Paths and patterns -/

/-- The value at the end of a path. -/
def get? : Value → List String → Option Value
  | v, [] => some v
  | v, k :: path => (v.member? k).bind fun w => get? w path

@[simp] theorem get?_cons (v : Value) (k : String) (path : List String) :
    v.get? (k :: path) = (v.member? k).bind (get? · path) := rfl

/-- Whether a step leads to a key: a step names the key that it leads to, or it leads to all of
them. -/
def Takes (step : Option String) (k : String) : Prop := step.getD k = k

instance (step : Option String) (k : String) : Decidable (Takes step k) :=
  inferInstanceAs (Decidable (_ = _))

theorem takes_some (k : String) : Takes (some k) k := rfl

theorem takes_none (k : String) : Takes none k := rfl

/-- The paths that a pattern leads along. -/
def Hits (steps : List (Option String)) (path : List String) : Prop := List.Forall₂ Takes steps path

theorem hits_getD (steps : List (Option String)) : Hits steps (steps.map (·.getD "")) := by
  induction steps with
  | nil => exact .nil
  | cons step steps ih =>
    refine .cons ?_ ih
    cases step with
    | none => exact takes_none _
    | some k => exact takes_some k

/-- Changes the values that a pattern leads to. -/
def edit (f : Value → Value) : List (Option String) → Value → Value
  | [], v => f v
  | step :: steps, v => v.mapMembers fun k w => if Takes step k then edit f steps w else w

theorem edit_cons (f : Value → Value) (step : Option String) (steps : List (Option String))
    (v : Value) :
    edit f (step :: steps) v = v.mapMembers fun k w => if Takes step k then edit f steps w else w :=
  rfl

theorem edit_every (f : Value → Value) (steps : List (Option String)) (v : Value) :
    edit f (none :: steps) v = v.mapMembers fun _ => edit f steps := by
  rw [edit_cons]
  exact congrArg (v.mapMembers ·) (funext fun k => funext fun w => if_pos (takes_none k))

theorem object_put_edit {ms : Object} {w : Value} (h : Table.Sorted ms) (hk : ms.get? k = some w)
    (f : Value → Value) (steps : List (Option String)) :
    object (ms.put k (edit f steps w)) = edit f (some k :: steps) (object ms) :=
  congrArg object (Table.put_eq_mapValues h hk (edit f steps))

theorem member?_edit (h : Takes step k) (f : Value → Value) (steps : List (Option String))
    (v : Value) :
    (edit f (step :: steps) v).member? k = (v.member? k).map (edit f steps) := by
  rw [edit_cons, member?_mapMembers]
  exact congrArg (Option.map · _) (funext fun w => if_pos h)

theorem member?_edit_of_not (h : ¬ Takes step k) (f : Value → Value) (steps : List (Option String))
    (v : Value) : (edit f (step :: steps) v).member? k = v.member? k := by
  rw [edit_cons, member?_mapMembers]
  exact (congrArg (Option.map · _) (funext fun w => if_neg h)).trans Option.map_id'

/-- **Where a pattern leads to,** the value is changed. -/
theorem get?_edit_of_hits (h : Hits steps path) (v : Value) :
    (edit f steps v).get? path = (v.get? path).map f := by
  induction h generalizing v with
  | nil => rfl
  | cons htakes _ ih =>
    rw [get?_cons, member?_edit htakes, get?_cons, Option.bind_map, Option.map_bind]
    exact congrArg _ (funext ih)

/-- **On the way** to where a pattern leads, no key comes or goes. -/
theorem keys?_edit (h : Hits steps hit) (hpath : path <+: hit) (hne : path ≠ hit) (v : Value) :
    ((edit f steps v).get? path).bind keys? = (v.get? path).bind keys? := by
  induction h generalizing path v with
  | nil => exact absurd (List.prefix_nil.mp hpath) hne
  | cons htakes _ ih =>
    cases path with
    | nil => exact keys?_mapMembers _ v
    | cons k path =>
      obtain ⟨rfl, hrest⟩ := List.cons_prefix_cons.mp hpath
      rw [get?_cons, member?_edit htakes, get?_cons, Option.bind_map, Option.bind_assoc,
        Option.bind_assoc]
      exact congrArg _ (funext (ih hrest fun heq => hne (congrArg (k :: ·) heq)))

/-- **Everywhere else** the value stays. -/
theorem get?_edit_of_apart (h : ∀ hit, Hits steps hit → ¬ path <+: hit ∧ ¬ hit <+: path)
    (v : Value) :
    (edit f steps v).get? path = v.get? path := by
  induction steps generalizing path v with
  | nil => exact absurd List.nil_prefix (h [] .nil).2
  | cons step steps ih =>
    cases path with
    | nil => exact absurd List.nil_prefix (h _ (hits_getD _)).1
    | cons k path =>
      by_cases htakes : Takes step k
      swap
      · rw [get?_cons, member?_edit_of_not htakes, get?_cons]
      have hrest : ∀ hit, Hits steps hit → ¬ path <+: hit ∧ ¬ hit <+: path := by
        intro hit hhit
        obtain ⟨hnot, hnot'⟩ := h (k :: hit) (.cons htakes hhit)
        exact ⟨fun hp => hnot (List.cons_prefix_cons.mpr ⟨rfl, hp⟩),
          fun hp => hnot' (List.cons_prefix_cons.mpr ⟨rfl, hp⟩)⟩
      rw [get?_cons, member?_edit htakes, get?_cons, Option.bind_map]
      exact congrArg _ (funext (ih hrest))

/-- **A change that makes no difference the second time** makes none along a pattern. -/
theorem edit_edit (hf : ∀ v, f (f v) = f v) (steps : List (Option String)) (v : Value) :
    edit f steps (edit f steps v) = edit f steps v := by
  induction steps generalizing v with
  | nil => exact hf v
  | cons step steps ih =>
    refine mapMembers_mapMembers (fun k w => ?_) v
    split
    · exact ih w
    · rfl

end Value

namespace Json

variable {f : Value → Value} {v : Value} {n : Nat}

theorem FitMembers.mapValues {ms : Object} {g : String → Value → Value}
    (h : FitMembers n ms) (hg : ∀ k {w}, Fits n w → Fits n (g k w)) :
    FitMembers n (Table.mapValues g ms) := by
  refine ⟨h.sorted.mapValues g, fun e he => ?_⟩
  obtain ⟨x, hx, rfl⟩ := List.mem_map.mp he
  exact hg x.1 (h.fits x hx)

/-- **What can be stored** can be stored when it is changed along a pattern. -/
theorem Fits.edit (hf : ∀ {n v}, Fits n v → Fits n (f v)) (steps : List (Option String))
    (h : Fits n v) :
    Fits n (v.edit f steps) := by
  induction steps generalizing n v with
  | nil => exact hf h
  | cons step steps ih =>
    rw [Value.edit_cons]
    cases v with
    | object ms =>
      obtain ⟨m, rfl, hm⟩ := fits_object_iff.mp h
      refine fits_object_iff.mpr ⟨m, rfl, hm.mapValues fun k w hw => ?_⟩
      split
      · exact ih hw
      · exact hw
    | _ => exact h

end Json

end VersionedStore
