import Mathlib.Tactic.Common
import VersionedStore.Proofs.Json.Numbers

/-!
# What a reading comes to

A reader keeps what it leaves of a text together with a proof about its length.  Here that is looked
at in plain view (`seen`), and the loops over arrays and objects are taken one step at a time.

* `taken`: the same with the error of a failed reading forgotten;
* `Blank`, `next?_blank`: what stands between the parts of a text is passed over;
* `seen_readItemsFrom_more`, `seen_readMembersFrom_more`: one step of the two loops;
* `seen_readValue_array`, `seen_readValue_object`: a bracket takes its place of the room.
-/

namespace VersionedStore.Json

open Text (Symbol)

/-! ### What a reading comes to -/

section Seen

variable {α : Type} {s : Input} {a : α} {rest : Input}

/-- What a reading comes to, with what is left in plain view. -/
def seen (r : Except ReadError (α × Rest s)) : Except ReadError (α × Input) :=
  r.map fun p => (p.1, p.2.input)

theorem seen_eq_ok {r : Except ReadError (α × Rest s)} (h : seen r = .ok (a, rest)) :
    ∃ h, r = .ok (a, ⟨rest, h⟩) := by
  rcases r with e | ⟨b, left, hlt⟩
  · cases h
  · obtain ⟨rfl, rfl⟩ := Prod.mk.inj (Except.ok.inj h)
    exact ⟨hlt, rfl⟩

theorem seen_eq_error {r : Except ReadError (α × Rest s)} {e : ReadError} (h : seen r = .error e) :
    r = .error e := by
  rcases r with e' | p
  · exact congrArg Except.error (Except.error.inj h)
  · cases h

/-- What a reading comes to, its error forgotten. -/
def taken (r : Except ReadError (α × Rest s)) : Option (α × Input) := (seen r).toOption

@[simp] theorem taken_ok (a : α) (r : Rest s) : taken (.ok (a, r)) = some (a, r.input) := rfl

theorem taken_eq_some {r : Except ReadError (α × Rest s)} (h : taken r = some (a, rest)) :
    ∃ h, r = .ok (a, ⟨rest, h⟩) := by
  rcases r with e | ⟨b, left, hlt⟩
  · cases h
  · obtain ⟨rfl, rfl⟩ := Prod.mk.inj (Option.some.inj h)
    exact ⟨hlt, rfl⟩

theorem taken_eq_none {r : Except ReadError (α × Rest s)} (h : taken r = none) :
    ∃ e, r = .error e := by
  rcases r with e | p
  · exact ⟨e, rfl⟩
  · cases h

end Seen

/-! ### Blanks -/

/-- A text of blanks only. -/
def Blank (bs : Input) : Prop := ∀ x ∈ bs, isSpace x = true

theorem blank_nil : Blank [] := by simp [Blank]

theorem blank_space : Blank [.char ' '] := by simp [Blank, isSpace]

theorem blank_newLine (level : Nat) : Blank ((newLine level).map .char) := by
  intro x hx
  obtain ⟨c, hc, rfl⟩ := List.mem_map.mp hx
  rcases List.mem_cons.mp hc with rfl | hc
  · rfl
  · rw [List.eq_of_mem_replicate hc]
    rfl

theorem next?_of_blank {bs : Input} (hb : Blank bs) : next? bs = none := by
  induction bs with
  | nil => rfl
  | cons b bs ih =>
    rw [next?, if_pos (hb b (List.mem_cons_self ..)),
      ih fun x hx => hb x (List.mem_cons_of_mem b hx)]
    rfl

theorem next?_blank {bs : Input} (hb : Blank bs) {x : Symbol} (hx : isSpace x = false) (s : Input) :
    ∃ h, next? (bs ++ x :: s) = some (x, ⟨s, h⟩) := by
  induction bs with
  | nil => exact ⟨_, next?_cons hx s⟩
  | cons b bs ih =>
    obtain ⟨hlt, heq⟩ := ih fun y hy => hb y (List.mem_cons_of_mem b hy)
    refine ⟨Nat.lt_succ_of_lt hlt, ?_⟩
    show next? (b :: (bs ++ x :: s)) = _
    rw [next?, if_pos (hb b (List.mem_cons_self ..)), heq]
    rfl

theorem endsNumber_cons {x : Symbol}
    (h : x = .char ',' ∨ x = .char ']' ∨ x = .char '\x7d' ∨ isSpace x = true) (s : Input) :
    EndsNumber (x :: s) := by
  rintro y ⟨⟩
  rcases h with rfl | rfl | rfl | h <;> try decide
  unfold isSpace at h
  simp only [Bool.or_eq_true, decide_eq_true_eq] at h
  rcases h with ((rfl | rfl) | rfl) | rfl <;> decide

theorem endsNumber_blank {bs : Input} (hb : Blank bs) {x : Symbol}
    (hx : x = .char ',' ∨ x = .char ']' ∨ x = .char '\x7d') (s : Input) :
    EndsNumber (bs ++ x :: s) := by
  rcases bs with _ | ⟨b, bs⟩
  · exact endsNumber_cons (by tauto) s
  · exact endsNumber_cons (.inr (.inr (.inr (hb b (List.mem_cons_self ..))))) _

/-! ### One item, one member -/

section Steps

variable {α : Type} {item : Reader α} {s s₁ s₂ s₃ s₄ rest : Input} {a : α} {x : Symbol}
  {e : ReadError}

theorem seen_readItems_nil {h : s₁.length < s.length} (hn : next? s = some (.char ']', ⟨s₁, h⟩)) :
    seen (readItems item s) = .ok ([], s₁) := by
  unfold readItems
  rw [hn]
  rfl

theorem seen_readItems {h : s₁.length < s.length} (hn : next? s = some (x, ⟨s₁, h⟩))
    (hx : x ≠ .char ']') : seen (readItems item s) = seen (readItemsFrom item (x :: s₁)) := by
  unfold readItems
  rw [hn]
  split
  · contradiction
  · rename_i heq
    exact absurd (Prod.mk.inj (Option.some.inj heq)).1 hx
  · rename_i heq
    obtain ⟨rfl, rfl⟩ := Prod.mk.inj (Option.some.inj heq)
    dsimp only [Rest.putBack]
    rcases readItemsFrom item (x :: s₁) with e | ⟨as, r⟩ <;> rfl

theorem seen_readItemsFrom_error (hi : seen (item s) = .error e) :
    seen (readItemsFrom item s) = .error e := by
  rw [readItemsFrom, seen_eq_error hi]
  rfl

theorem seen_readItemsFrom_last (hi : seen (item s) = .ok (a, s₁)) {h : s₂.length < s₁.length}
    (hn : next? s₁ = some (.char ']', ⟨s₂, h⟩)) :
    seen (readItemsFrom item s) = .ok ([a], s₂) := by
  obtain ⟨hlt, heq⟩ := seen_eq_ok hi
  rw [readItemsFrom, heq, ok_bind]
  dsimp only
  rw [hn]
  rfl

/-- An item with another one after it. -/
theorem seen_readItemsFrom_more (hi : seen (item s) = .ok (a, s₁)) {h : s₂.length < s₁.length}
    (hn : next? s₁ = some (.char ',', ⟨s₂, h⟩)) {h' : s₃.length < s₂.length}
    (hn' : next? s₂ = some (x, ⟨s₃, h'⟩)) (hx : x ≠ .char ']') :
    seen (readItemsFrom item s) =
      (seen (readItemsFrom item (x :: s₃))).map fun p => (a :: p.1, p.2) := by
  obtain ⟨hlt, heq⟩ := seen_eq_ok hi
  rw [readItemsFrom, heq, ok_bind]
  simp only [hn, hn']
  dsimp only [Rest.putBack]
  rcases readItemsFrom item (x :: s₃) with e | ⟨as, r⟩ <;> rfl

variable {member : α → String → Reader α} {collected : α} {key : String}

theorem seen_readMembers_nil {h : s₁.length < s.length}
    (hn : next? s = some (.char '\x7d', ⟨s₁, h⟩)) :
    seen (readMembers member collected s) = .ok (collected, s₁) := by
  unfold readMembers
  rw [hn]
  rfl

theorem seen_readMembers {h : s₁.length < s.length} (hn : next? s = some (.char '"', ⟨s₁, h⟩)) :
    seen (readMembers member collected s) = seen (readMembersFrom member collected s₁) := by
  unfold readMembers
  simp only [hn]
  rcases readMembersFrom member collected s₁ with e | ⟨b, r⟩ <;> rfl

theorem seen_readMembersFrom_error {h : s₁.length < s.length}
    (hk : readString s = .ok (key, ⟨s₁, h⟩)) (hm : seen (member collected key s₁) = .error e) :
    seen (readMembersFrom member collected s) = .error e := by
  rw [readMembersFrom, hk, ok_bind]
  dsimp only
  rw [seen_eq_error hm]
  rfl

theorem seen_readMembersFrom_last {h : s₁.length < s.length}
    (hk : readString s = .ok (key, ⟨s₁, h⟩)) (hm : seen (member collected key s₁) = .ok (a, s₂))
    {h' : s₃.length < s₂.length} (hn : next? s₂ = some (.char '\x7d', ⟨s₃, h'⟩)) :
    seen (readMembersFrom member collected s) = .ok (a, s₃) := by
  obtain ⟨hlt, heq⟩ := seen_eq_ok hm
  rw [readMembersFrom, hk, ok_bind]
  dsimp only
  rw [heq, ok_bind]
  dsimp only
  rw [hn]
  rfl

/-- A member with another one after it. -/
theorem seen_readMembersFrom_more {h : s₁.length < s.length}
    (hk : readString s = .ok (key, ⟨s₁, h⟩)) (hm : seen (member collected key s₁) = .ok (a, s₂))
    {h' : s₃.length < s₂.length} (hn : next? s₂ = some (.char ',', ⟨s₃, h'⟩))
    {h'' : s₄.length < s₃.length} (hn' : next? s₃ = some (.char '"', ⟨s₄, h''⟩)) :
    seen (readMembersFrom member collected s) = seen (readMembersFrom member a s₄) := by
  obtain ⟨hlt, heq⟩ := seen_eq_ok hm
  rw [readMembersFrom, hk, ok_bind]
  dsimp only
  rw [heq, ok_bind]
  simp only [hn, hn']
  rcases readMembersFrom member a s₄ with e | ⟨b, r⟩ <;> rfl

theorem seen_readMember {value : Reader Value} {members : Object} {h : s₁.length < s.length}
    (hn : next? s = some (.char ':', ⟨s₁, h⟩)) :
    seen (readMember value members key s) =
      (seen (value s₁)).map fun p => (members.put key p.1, p.2) := by
  unfold readMember readAfterColon readColon
  simp only [hn, ok_bind]
  rcases value s₁ with e | ⟨v, r⟩ <;> rfl

/-! ### One value -/

theorem seen_readValue_scalar {room : Nat} {h : s₁.length < s.length}
    (hn : next? s = some (x, ⟨s₁, h⟩)) (hsquare : x ≠ .char '[') (hcurly : x ≠ .char '\x7b') :
    seen (readValue room s) = seen (readScalar (x :: s₁)) := by
  unfold readValue
  rw [hn]
  split
  · contradiction
  · rename_i heq
    exact absurd (Prod.mk.inj (Option.some.inj heq)).1 hsquare
  · rename_i heq
    exact absurd (Prod.mk.inj (Option.some.inj heq)).1 hcurly
  · rename_i heq
    obtain ⟨rfl, rfl⟩ := Prod.mk.inj (Option.some.inj heq)
    dsimp only [Rest.putBack]
    rcases readScalar (x :: s₁) with e | ⟨v, r⟩ <;> rfl

theorem seen_readValue_array {h : s₁.length < s.length} (hn : next? s = some (.char '[', ⟨s₁, h⟩))
    (room : Nat) : seen (readValue room s) = match room with
      | 0 => .error .tooDeep
      | room + 1 => (seen (readItems (readValue room) s₁)).map fun p => (.array p.1, p.2) := by
  cases room with
  | zero =>
    rw [readValue, hn]
    rfl
  | succ room =>
    simp only [readValue, hn]
    rcases readItems (readValue room) s₁ with e | ⟨items, r⟩ <;> rfl

theorem seen_readValue_object {h : s₁.length < s.length}
    (hn : next? s = some (.char '\x7b', ⟨s₁, h⟩)) (room : Nat) :
    seen (readValue room s) = match room with
      | 0 => .error .tooDeep
      | room + 1 => (seen (readMembers (readMember (readValue room)) [] s₁)).map fun p =>
        (.object p.1, p.2) := by
  cases room with
  | zero =>
    rw [readValue, hn]
    rfl
  | succ room =>
    simp only [readValue, hn]
    rcases readMembers (readMember (readValue room)) [] s₁ with e | ⟨members, r⟩ <;> rfl

end Steps

end VersionedStore.Json
