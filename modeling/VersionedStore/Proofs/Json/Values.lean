import Mathlib.Tactic.Common
import VersionedStore.Json.Value

/-!
# What is inside a value

A document is judged by the values inside it: the members of its objects are in ascending order, and
so deep it goes.

* `Table.Sorted`: a table in ascending order; `put_of_lt`: a greater key is put at the end;
* `Value.Within`: a value is a part of another one, at any depth;
* `Value.Ordered`: all objects inside a value are in ascending order;
* `depthItems_le_iff`, `depthMembers_le_iff`: a value is as deep as its deepest part, and one more.
-/

namespace VersionedStore

namespace Table

variable {α : Type} {t u : Table String α} {k : String} {v : α}

/-- The table is in ascending order of its keys. -/
def Sorted (t : Table String α) : Prop := t.Pairwise (·.1 < ·.1)

theorem mem_of_get? (h : t.get? k = some v) : (k, v) ∈ t := by
  induction t with
  | nil => cases h
  | cons e t ih =>
    rw [get?_cons] at h
    split at h
    · rename_i hk
      obtain rfl := Option.some.inj h
      exact hk ▸ List.mem_cons_self ..
    · exact List.mem_cons_of_mem e (ih h)

theorem put_of_lt (h : ∀ e ∈ t, e.1 < k) : t.put k v = t ++ [(k, v)] := by
  induction t with
  | nil => rfl
  | cons e t ih =>
    have he : e.1 < k := h e (List.mem_cons_self ..)
    have hne : e.1 ≠ k := fun heq => String.lt_irrefl k (heq ▸ he)
    rw [put, if_neg hne, if_neg (String.lt_asymm he),
      ih fun x hx => h x (List.mem_cons_of_mem e hx)]
    rfl

theorem merge_of_sorted (h : Sorted (t ++ u)) : t.merge u = t ++ u := by
  induction u generalizing t with
  | nil => exact (List.append_nil t).symm
  | cons e u ih =>
    have hput : t.put e.1 e.2 = t ++ [e] :=
      put_of_lt fun x hx => (List.pairwise_append.mp h).2.2 x hx e (List.mem_cons_self ..)
    rw [merge_cons, hput, ih (by rwa [List.append_assoc]), List.append_assoc]
    rfl

theorem mem_put {e : String × α} (h : e ∈ t.put k v) : e = (k, v) ∨ e ∈ t := by
  induction t with
  | nil => exact .inl (List.mem_singleton.mp h)
  | cons x t ih =>
    rw [put] at h
    split at h
    · rcases List.mem_cons.mp h with h | h
      · exact .inl h
      · exact .inr (List.mem_cons_of_mem x h)
    split at h
    · exact List.mem_cons.mp h
    · rcases List.mem_cons.mp h with h | h
      · exact .inr (h ▸ List.mem_cons_self ..)
      · exact (ih h).imp_right (List.mem_cons_of_mem x)

theorem Sorted.put (h : t.Sorted) (k : String) (v : α) : (t.put k v).Sorted := by
  induction t with
  | nil => exact List.pairwise_singleton _ _
  | cons x t ih =>
    obtain ⟨hx, ht⟩ := List.pairwise_cons.mp h
    rw [Table.put]
    split
    · rename_i heq
      exact List.pairwise_cons.mpr ⟨heq ▸ hx, ht⟩
    rename_i hne
    split
    · rename_i hlt
      refine List.pairwise_cons.mpr ⟨fun e he => ?_, h⟩
      rcases List.mem_cons.mp he with rfl | he
      · exact hlt
      · exact String.lt_trans hlt (hx e he)
    · rename_i hle
      have hgt : x.1 < k :=
        (Std.lt_trichotomy x.1 k).resolve_right (by rintro (h | h) <;> contradiction)
      refine List.pairwise_cons.mpr ⟨fun e he => ?_, ih ht⟩
      rcases mem_put he with rfl | he
      · exact hgt
      · exact hx e he

theorem mem_merge {e : String × α} (h : e ∈ t.merge u) : e ∈ u ∨ e ∈ t := by
  induction u generalizing t with
  | nil => exact .inr h
  | cons x u ih =>
    rw [merge_cons] at h
    rcases ih h with h | h
    · exact .inl (List.mem_cons_of_mem x h)
    · rcases mem_put h with rfl | h
      · exact .inl (List.mem_cons_self ..)
      · exact .inr h

theorem Sorted.merge (h : t.Sorted) (u : Table String α) : (t.merge u).Sorted := by
  induction u generalizing t with
  | nil => exact h
  | cons x u ih => exact ih (h.put x.1 x.2)

end Table

namespace Value

/-- The first value is the second one or a part of it, at any depth. -/
inductive Within : Value → Value → Prop
  | refl (v : Value) : Within v v
  | item {v w : Value} {items : List Value} (mem : w ∈ items) (h : Within v w) :
      Within v (.array items)
  | member {v w : Value} {k : String} {members : List (String × Value)} (mem : (k, w) ∈ members)
      (h : Within v w) : Within v (.object members)

/-- The members of all objects inside a value are in ascending order. -/
def Ordered (v : Value) : Prop := ∀ members, Within (.object members) v → Table.Sorted members

variable {v : Value} {items : List Value} {members : List (String × Value)} {n : Nat}

theorem ordered_array (h : ∀ w ∈ items, w.Ordered) : (array items).Ordered := by
  intro members hm
  cases hm with
  | item mem hw => exact h _ mem _ hw

theorem ordered_object (h : Table.Sorted members) (hall : ∀ e ∈ members, e.2.Ordered) :
    (object members).Ordered := by
  intro members' hm
  cases hm with
  | refl => exact h
  | member mem hw => exact hall _ mem _ hw

theorem ordered_singleton {k : String} (h : v.Ordered) : (object [(k, v)]).Ordered :=
  ordered_object (List.pairwise_singleton _ _) (List.forall_mem_singleton.mpr h)

theorem ordered_of_depth_eq_zero (h : v.depth = 0) : v.Ordered := by
  intro members hm
  cases hm with
  | refl => cases h
  | item | member => cases h

/-! ### Depth -/

theorem depthItems_le_iff : depthItems items ≤ n ↔ ∀ w ∈ items, w.depth ≤ n := by
  induction items with
  | nil => simp [depthItems]
  | cons w items ih => rw [depthItems, Nat.max_le, ih, List.forall_mem_cons]

theorem depthMembers_le_iff : depthMembers members ≤ n ↔ ∀ e ∈ members, e.2.depth ≤ n := by
  induction members with
  | nil => simp [depthMembers]
  | cons e members ih => rw [depthMembers, Nat.max_le, ih, List.forall_mem_cons]

end Value

end VersionedStore
