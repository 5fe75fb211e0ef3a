import Mathlib.Data.List.Basic
import Mathlib.Tactic.Common

/-!
# Histories

A machine takes inputs one after another, and each step may be an event.  What every step keeps is
kept along the whole way, and held before each of its events.

* `History.events`, `History.after`: what happens on the way, and what is left;
* `History.Keeps`: every step keeps a property of what has happened and of the machine as it is;
* `Keeps.after`, `Keeps.at_event`: it holds at the end, and before each event for the events up to
  there;
* `after_of_kept`, `before_of_kept`: the same of what is kept of the machine alone;
* `events_eq_of_simulation`: machines that stay alike answer alike;
* `Since`, `since_concat`: something happened, and since then only what leaves it in force.
-/

namespace VersionedStore.History

variable {S I E : Type}

/-- What happens along a list of inputs, oldest first. -/
def events (step : S → I → Option E × S) : S → List I → List E
  | _, [] => []
  | s, i :: is => (step s i).1.toList ++ events step (step s i).2 is

/-- The machine after a list of inputs. -/
def after (step : S → I → Option E × S) (s : S) (is : List I) : S :=
  is.foldl (fun s i => (step s i).2) s

/-- Every step of the given inputs keeps a property of what has happened and of the machine. -/
def Keeps (step : S → I → Option E × S) (is : List I) (P : List E → S → Prop) : Prop :=
  ∀ es s, ∀ i ∈ is, P es s → P (es ++ (step s i).1.toList) (step s i).2

variable {step : S → I → Option E × S} {is : List I} {P : List E → S → Prop}

theorem after_append (s : S) (is js : List I) :
    after step s (is ++ js) = after step (after step s is) js := List.foldl_append

theorem events_append (s : S) (is js : List I) :
    events step s (is ++ js) = events step s is ++ events step (after step s is) js := by
  induction is generalizing s with
  | nil => rfl
  | cons i is ih =>
    have := ih (step s i).2
    rw [List.cons_append, events, this, events, List.append_assoc]
    rfl

theorem Keeps.tail {i : I} (h : Keeps step (i :: is) P) : Keeps step is P :=
  fun es s j hj => h es s j (List.mem_cons_of_mem i hj)

theorem Keeps.after (h : Keeps step is P) {es : List E} {s : S} (hs : P es s) :
    P (es ++ events step s is) (after step s is) := by
  induction is generalizing es s with
  | nil => rwa [events, List.append_nil]
  | cons i is ih =>
    have hstep := h es s i (List.mem_cons_self ..) hs
    have hrest := ih h.tail hstep
    rw [List.append_assoc] at hrest
    exact hrest

/-- **Before every event** the property holds of the events up to there. -/
theorem Keeps.at_event (h : Keeps step is P) {es : List E} {s : S} (hs : P es s)
    {past future : List E} {e : E} (he : events step s is = past ++ e :: future) :
    ∃ s', ∃ i ∈ is, P (es ++ past) s' ∧ (step s' i).1 = some e := by
  induction is generalizing es s past with
  | nil => simp [events] at he
  | cons i is ih =>
    have hstep := h es s i (List.mem_cons_self ..) hs
    rw [events] at he
    rcases hi : (step s i).1 with _ | x
    · rw [hi] at he hstep
      rw [Option.toList_none, List.append_nil] at hstep
      obtain ⟨s', j, hj, hP⟩ := ih h.tail hstep he
      exact ⟨s', j, List.mem_cons_of_mem i hj, hP⟩
    rw [hi] at he hstep
    rcases past with _ | ⟨x', past⟩
    · obtain ⟨rfl, -⟩ := List.cons.inj he
      exact ⟨s, i, List.mem_cons_self .., by rwa [List.append_nil], hi⟩
    · obtain ⟨rfl, hrest⟩ := List.cons.inj he
      obtain ⟨s', j, hj, hP, hx⟩ := ih h.tail hstep hrest
      rw [Option.toList_some, List.append_assoc] at hP
      exact ⟨s', j, List.mem_cons_of_mem i hj, hP, hx⟩

/-! ### Properties of the machine alone -/

section Machine

variable {Q : S → Prop}

theorem after_of_kept (h : ∀ s, ∀ i ∈ is, Q s → Q (step s i).2) {s : S} (hs : Q s) :
    Q (after step s is) := by
  induction is generalizing s with
  | nil => exact hs
  | cons i is ih =>
    exact ih (fun s j hj => h s j (List.mem_cons_of_mem i hj)) (h s i (List.mem_cons_self ..) hs)

theorem before_of_kept (h : ∀ s, ∀ i ∈ is, Q s → Q (step s i).2) {s : S} (hs : Q s) {e : E}
    (he : e ∈ events step s is) : ∃ s', ∃ i ∈ is, Q s' ∧ (step s' i).1 = some e := by
  induction is generalizing s with
  | nil => cases he
  | cons i is ih =>
    rw [events] at he
    rcases List.mem_append.mp he with he | he
    · exact ⟨s, i, List.mem_cons_self .., hs, Option.mem_toList.mp he⟩
    · obtain ⟨s', j, hj, hrest⟩ := ih (fun s j hj => h s j (List.mem_cons_of_mem i hj))
        (h s i (List.mem_cons_self ..) hs) he
      exact ⟨s', j, List.mem_cons_of_mem i hj, hrest⟩

end Machine

/-! ### Two machines -/

/-- **Simulation:** two machines that are alike, and stay so in every step with the same event, have
the same events.  What a step needs for that may be asked of the second machine along its own
way. -/
theorem events_eq_of_simulation {T : Type} {step' : T → I → Option E × T} {Alike : S → T → Prop}
    {Fit : T → I → Prop}
    (h : ∀ s s' i, Alike s s' → Fit s' i →
      (step s i).1 = (step' s' i).1 ∧ Alike (step s i).2 (step' s' i).2)
    {s : S} {s' : T} (hs : Alike s s')
    (hfit : ∀ past i future, is = past ++ i :: future → Fit (after step' s' past) i) :
    events step s is = events step' s' is := by
  induction is generalizing s s' with
  | nil => rfl
  | cons i is ih =>
    obtain ⟨hevent, hrest⟩ := h s s' i hs (hfit [] i is rfl)
    rw [events, events, hevent, ih hrest fun past j future his => hfit (i :: past) j future (by
      rw [his, List.cons_append])]

/-! ### The last time -/

section Last

variable {A B : E → Prop} {es : List E} {e : E}

/-- **Something happened, and since then only what leaves it in force.** -/
def Since (A B : E → Prop) (es : List E) : Prop :=
  ∃ past e later, es = past ++ e :: later ∧ A e ∧ ∀ l ∈ later, B l

theorem not_since_nil : ¬ Since A B [] := by
  rintro ⟨past, e, later, h, -⟩
  simp at h

theorem since_concat : Since A B (es ++ [e]) ↔ A e ∨ Since A B es ∧ B e := by
  constructor
  · rintro ⟨past, f, later, h, hf, hlater⟩
    rcases List.eq_nil_or_concat' later with rfl | ⟨later, l, rfl⟩
    · obtain ⟨-, hlast⟩ := List.append_inj' h rfl
      obtain rfl := List.singleton_inj.mp hlast
      exact .inl hf
    · rw [← List.cons_append, ← List.append_assoc] at h
      obtain ⟨hpast, hlast⟩ := List.append_inj' h rfl
      obtain rfl := List.singleton_inj.mp hlast
      refine .inr ⟨⟨past, f, later, hpast, hf, fun l hl => ?_⟩, hlater e (by simp)⟩
      exact hlater l (List.mem_append_left _ hl)
  · rintro (he | ⟨⟨past, f, later, rfl, hf, hlater⟩, he⟩)
    · exact ⟨es, e, [], rfl, he, by simp⟩
    · refine ⟨past, f, later ++ [e], by simp, hf, fun l hl => ?_⟩
      rcases List.mem_append.mp hl with hl | hl
      · exact hlater l hl
      · rwa [List.mem_singleton.mp hl]

end Last

end VersionedStore.History
