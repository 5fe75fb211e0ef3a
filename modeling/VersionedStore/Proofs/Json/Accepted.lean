import VersionedStore.Proofs.Json.Numbers
import VersionedStore.Proofs.Json.Values

/-!
# What a reader accepts

Whatever text a document is read from, its objects are in ascending order, and it opens no more
brackets at once than a reader has room for.

* `forall_of_readItems`, `of_readMembers`: what holds of every item, and what every member keeps,
  holds of what the two loops collect;
* `Fits`, `fits_of_readDocument`: a document that was read is in order and not too deep.
-/

namespace VersionedStore.Json

/-! ### The two loops -/

section Loops

variable {α : Type} {P : α → Prop} {s : Input}

theorem forall_of_readItemsFrom {item : Reader α} (hitem : ∀ {s a r}, item s = .ok (a, r) → P a)
    {as : List α} {r : Rest s} (h : readItemsFrom item s = .ok (as, r)) : ∀ a ∈ as, P a := by
  induction hlength : s.length using Nat.strongRecOn generalizing s as with
  | _ n ih =>
    rw [readItemsFrom] at h
    rcases hi : item s with e | ⟨a, r₁⟩ <;> simp only [hi, ok_bind, error_bind] at h
    · cases h
    split at h
    · cases h
    · cases h
      simpa using hitem hi
    · rename_i r₂ hn
      split at h
      · cases h
      · cases h
      · rename_i x r₃ hx hn'
        rcases hrest : readItemsFrom item (r₃.putBack x).input with e | ⟨bs, r'⟩ <;>
          simp only [hrest, ok_bind, error_bind] at h
        · cases h
        cases h
        have hlt : (r₃.putBack x).input.length < n := by
          have h₁ := (r₃.putBack x).length_le
          have h₂ := r₂.length_lt
          have h₃ := r₁.length_lt
          omega
        intro b hb
        rcases List.mem_cons.mp hb with rfl | hb
        · exact hitem hi
        · exact ih _ hlt hrest rfl b hb
    · cases h

theorem forall_of_readItems {item : Reader α} (hitem : ∀ {s a r}, item s = .ok (a, r) → P a)
    {as : List α} {r : Rest s} (h : readItems item s = .ok (as, r)) : ∀ a ∈ as, P a := by
  unfold readItems at h
  split at h
  · cases h
  · cases h
    simp
  · rename_i x r₁ hx hn
    rcases hrest : readItemsFrom item (r₁.putBack x).input with e | ⟨bs, r'⟩ <;>
      simp only [hrest, ok_bind, error_bind] at h
    · cases h
    cases h
    exact forall_of_readItemsFrom hitem hrest

variable {member : α → String → Reader α}

theorem of_readMembersFrom (hmember : ∀ {a key s b r}, P a → member a key s = .ok (b, r) → P b)
    {collected b : α} {r : Rest s} (hc : P collected)
    (h : readMembersFrom member collected s = .ok (b, r)) : P b := by
  induction hlength : s.length using Nat.strongRecOn generalizing s collected with
  | _ n ih =>
    rw [readMembersFrom] at h
    rcases hk : readString s with e | ⟨key, r₁⟩ <;> simp only [hk, ok_bind, error_bind] at h
    · cases h
    rcases hm : member collected key r₁.input with e | ⟨a, r₂⟩ <;>
      simp only [hm, ok_bind, error_bind] at h
    · cases h
    have ha := hmember hc hm
    split at h
    · cases h
    · cases h
      exact ha
    · rename_i r₃ hn
      split at h
      · cases h
      · rename_i r₄ hn'
        rcases hrest : readMembersFrom member a r₄.input with e | ⟨c, r'⟩ <;>
          simp only [hrest, ok_bind, error_bind] at h
        · cases h
        cases h
        have hlt : r₄.input.length < n := by
          have h₁ := r₁.length_lt
          have h₂ := r₂.length_lt
          have h₃ := r₃.length_lt
          have h₄ := r₄.length_lt
          omega
        exact ih _ hlt ha hrest rfl
      · cases h
      · cases h
    · cases h

theorem of_readMembers (hmember : ∀ {a key s b r}, P a → member a key s = .ok (b, r) → P b)
    {collected b : α} {r : Rest s} (hc : P collected)
    (h : readMembers member collected s = .ok (b, r)) : P b := by
  unfold readMembers at h
  split at h
  · cases h
  · cases h
    exact hc
  · rename_i r₁ hn
    rcases hrest : readMembersFrom member collected r₁.input with e | ⟨c, r'⟩ <;>
      simp only [hrest, ok_bind, error_bind] at h
    · cases h
    cases h
    exact of_readMembersFrom hmember hc hrest
  · cases h

end Loops

/-! ### Values -/

theorem depth_of_readScalar {s : Input} {v : Value} {r : Rest s} (h : readScalar s = .ok (v, r)) :
    v.depth = 0 := by
  rcases s with _ | ⟨c | b, s⟩
  · cases h
  swap
  · cases h
  unfold readScalar at h
  dsimp only at h
  split at h
  · rcases hw : readWord ['u', 'l', 'l'] s with e | t <;> rw [hw] at h <;> cases h
    rfl
  split at h
  · rcases hw : readWord ['r', 'u', 'e'] s with e | t <;> rw [hw] at h <;> cases h
    rfl
  split at h
  · rcases hw : readWord ['a', 'l', 's', 'e'] s with e | t <;> rw [hw] at h <;> cases h
    rfl
  split at h
  · rcases hw : readString s with e | ⟨k, t⟩ <;> rw [hw] at h <;> cases h
    rfl
  split at h
  · rcases hw : readNumber true s with e | ⟨n, t⟩ <;> rw [hw] at h <;> cases h
    rfl
  split at h
  · rcases hw : readNumber false (.char c :: s) with e | ⟨n, t⟩ <;> rw [hw] at h <;> cases h
    rfl
  · cases h

/-- A value whose objects are in order and that opens no more brackets than there is room for. -/
structure Fits (room : Nat) (v : Value) : Prop where
  ordered : v.Ordered
  depth_le : v.depth ≤ room

theorem fits_scalar {v : Value} (hv : v.depth = 0) (room : Nat) : Fits room v :=
  ⟨Value.ordered_of_depth_eq_zero hv, by omega⟩

/-- The members of an object that is being read. -/
structure FitMembers (room : Nat) (members : Object) : Prop where
  sorted : Table.Sorted members
  fits : ∀ e ∈ members, Fits room e.2

theorem FitMembers.put {room : Nat} {members : Object} (h : FitMembers room members) (key : String)
    {v : Value} (hv : Fits room v) : FitMembers room (members.put key v) := by
  refine ⟨h.sorted.put key v, fun e he => ?_⟩
  rcases Table.mem_put he with rfl | he
  · exact hv
  · exact h.fits e he

theorem FitMembers.readMember {room : Nat} {members members' : Object} {key : String} {s : Input}
    {r : Rest s} (hvalue : ∀ {s v r}, readValue room s = .ok (v, r) → Fits room v)
    (hm : FitMembers room members)
    (h : readMember (readValue room) members key s = .ok (members', r)) :
    FitMembers room members' := by
  unfold Json.readMember readAfterColon at h
  rcases hc : readColon s with e | r₁ <;> simp only [hc, ok_bind, error_bind] at h
  · cases h
  rcases hv : readValue room r₁.input with e | ⟨v, r₂⟩ <;> simp only [hv, ok_bind, error_bind] at h
  · cases h
  cases h
  exact hm.put key (hvalue hv)

theorem fits_object_iff {room : Nat} {members : Object} : Fits room (.object members) ↔
    ∃ r, room = r + 1 ∧ FitMembers r members := by
  constructor
  · rintro ⟨ho, hd⟩
    rw [Value.depth] at hd
    obtain ⟨r, rfl⟩ : ∃ r, room = r + 1 := ⟨room - 1, by omega⟩
    have hmembers := Value.depthMembers_le_iff.mp (Nat.le_of_succ_le_succ hd)
    exact ⟨r, rfl, ho members (.refl _), fun e he =>
      ⟨fun inner hin => ho inner (.member he hin), hmembers e he⟩⟩
  · rintro ⟨r, rfl, hm⟩
    refine ⟨Value.ordered_object hm.sorted fun e he => (hm.fits e he).ordered, ?_⟩
    rw [Value.depth, Nat.add_le_add_iff_right, Value.depthMembers_le_iff]
    exact fun e he => (hm.fits e he).depth_le

theorem fits_of_readValue {room : Nat} {s : Input} {v : Value} {r : Rest s}
    (h : readValue room s = .ok (v, r)) : Fits room v := by
  induction room generalizing s v with
  | zero =>
    rw [readValue] at h
    split at h
    · cases h
    · cases h
    · cases h
    · rename_i x r₁ _ _ hn
      rcases hs : readScalar (r₁.putBack x).input with e | ⟨w, r₂⟩ <;>
        simp only [hs, ok_bind, error_bind] at h <;> cases h
      exact fits_scalar (depth_of_readScalar hs) 0
  | succ room ih =>
    rw [readValue] at h
    split at h
    · cases h
    · rename_i r₁ hn
      rcases hi : readItems (readValue room) r₁.input with e | ⟨items, r₂⟩ <;>
        simp only [hi, ok_bind, error_bind] at h <;> cases h
      have hitems := forall_of_readItems (fun h => ih h) hi
      refine ⟨Value.ordered_array fun w hw => (hitems w hw).ordered, ?_⟩
      rw [Value.depth, Nat.add_le_add_iff_right, Value.depthItems_le_iff]
      exact fun w hw => (hitems w hw).depth_le
    · rename_i r₁ hn
      rcases hm : readMembers (readMember (readValue room)) [] r₁.input with e | ⟨members, r₂⟩ <;>
        simp only [hm, ok_bind, error_bind] at h <;> cases h
      have hmembers : FitMembers room members :=
        of_readMembers (fun hp h => hp.readMember (fun h => ih h) h)
          ⟨List.Pairwise.nil, by simp⟩ hm
      exact fits_object_iff.mpr ⟨room, rfl, hmembers⟩
    · rename_i x r₁ _ _ hn
      rcases hs : readScalar (r₁.putBack x).input with e | ⟨w, r₂⟩ <;>
        simp only [hs, ok_bind, error_bind] at h <;> cases h
      exact fits_scalar (depth_of_readScalar hs) _

theorem fits_of_readDocument {s : Input} {v : Value} (h : readDocument s = .ok v) :
    Fits maxDepth v := by
  unfold readDocument readAll at h
  rcases hv : readValue maxDepth s with e | ⟨w, r⟩ <;> simp only [hv, ok_bind, error_bind] at h
  · cases h
  split at h <;> cases h
  exact fits_of_readValue hv

end VersionedStore.Json
