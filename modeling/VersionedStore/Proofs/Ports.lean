import Mathlib.Tactic.Common
import VersionedStore.Gateway

/-!
# Ports that are watched

A storage and markers that share nothing, ports that keep a record of all calls, and markers that do
not forget.

* `Ports.beside`: a storage and markers, each with a world of its own;
* `Ports.recorded`: ports that answer as before and put every call on record, oldest first;
* `Markers.Durable`: every setting succeeds and is kept, readings may fail;
* `Markers.Faithful`: moreover no reading fails;
* `Markers.Steady`: readings and settings may fail, and a setting may be lost.
-/

namespace VersionedStore

variable {σ ρ α : Type}

inductive Call
  | probe (available : Bool)
  | read (keys : Option (List String)) (answer : Except StoreError Object)
  | write (entries : Object) (answer : Except StoreError Unit)
  | readMarker (key : String) (answer : Except StoreError (Option String))
  | writeMarker (key value : String) (answer : Except StoreError Unit)

/-- An operation that puts its call on record. -/
def Call.record (call : α → Call) (f : σ → α × σ) (w : List Call × σ) : α × (List Call × σ) :=
  ((f w.2).1, (w.1 ++ [call (f w.2).1], (f w.2).2))

/-- A storage with a record of all calls, oldest first. -/
def Storage.recorded (storage : Storage σ) : Storage (List Call × σ) where
  isAvailable := Call.record .probe storage.isAvailable
  get keys := Call.record (.read keys) (storage.get keys)
  set entries := Call.record (.write entries) (storage.set entries)

/-- Markers with a record of all calls, oldest first. -/
def Markers.recorded (markers : Markers σ) : Markers (List Call × σ) where
  get key := Call.record (.readMarker key) (markers.get key)
  set key value := Call.record (.writeMarker key value) (markers.set key value)

namespace Ports

/-- A storage and markers that share nothing. -/
def beside (storage : Storage σ) (markers : Markers ρ) : Ports (σ × ρ) where
  storage := storage.inside .fst
  markers := markers.inside .snd

/-- Ports with one record of the calls of both. -/
def recorded (io : Ports σ) : Ports (List Call × σ) := ⟨io.storage.recorded, io.markers.recorded⟩

/-! ### Calls of ports that share nothing -/

section Beside

variable {storage : Storage σ} {markers : Markers ρ} {w w' : σ × ρ}

theorem get_beside {keys : Option (List String)} {r : Except StoreError Object}
    (h : (beside storage markers).storage.get keys w = (r, w')) :
    storage.get keys w.1 = (r, w'.1) ∧ w'.2 = w.2 := by
  cases h
  exact ⟨rfl, rfl⟩

theorem set_beside {entries : Object} {r : Except StoreError Unit}
    (h : (beside storage markers).storage.set entries w = (r, w')) :
    storage.set entries w.1 = (r, w'.1) ∧ w'.2 = w.2 := by
  cases h
  exact ⟨rfl, rfl⟩

theorem getMarker_beside {key : String} {r : Except StoreError (Option String)}
    (h : (beside storage markers).markers.get key w = (r, w')) :
    markers.get key w.2 = (r, w'.2) ∧ w'.1 = w.1 := by
  cases h
  exact ⟨rfl, rfl⟩

theorem setMarker_beside {key value : String} {r : Except StoreError Unit}
    (h : (beside storage markers).markers.set key value w = (r, w')) :
    markers.set key value w.2 = (r, w'.2) ∧ w'.1 = w.1 := by
  cases h
  exact ⟨rfl, rfl⟩

end Beside

end Ports

/-! ### Calls on record -/

section Recorded

variable {w w' : List Call × σ}

theorem Storage.get_recorded {storage : Storage σ} {keys : Option (List String)}
    {r : Except StoreError Object} (h : storage.recorded.get keys w = (r, w')) :
    storage.get keys w.2 = (r, w'.2) ∧ w'.1 = w.1 ++ [.read keys r] := by
  cases h
  exact ⟨rfl, rfl⟩

theorem Storage.set_recorded {storage : Storage σ} {entries : Object} {r : Except StoreError Unit}
    (h : storage.recorded.set entries w = (r, w')) :
    storage.set entries w.2 = (r, w'.2) ∧ w'.1 = w.1 ++ [.write entries r] := by
  cases h
  exact ⟨rfl, rfl⟩

theorem Markers.get_recorded {markers : Markers σ} {key : String}
    {r : Except StoreError (Option String)} (h : markers.recorded.get key w = (r, w')) :
    markers.get key w.2 = (r, w'.2) ∧ w'.1 = w.1 ++ [.readMarker key r] := by
  cases h
  exact ⟨rfl, rfl⟩

end Recorded

/-! ### Marking the existence -/

namespace Markers

/-- The world after it was recorded when a state was first seen. -/
def markExistence (markers : Markers ρ) (key : String) (now : Nat) (w : ρ) : ρ :=
  match markers.get key w with
  | (.ok (some _), w) => w
  | (_, w) => (markers.set key (Nat.repr now) w).2

theorem markExistence_beside (storage : Storage σ) (markers : Markers ρ) (key : String) (now : Nat)
    (w : σ × ρ) : (Ports.beside storage markers).markers.markExistence key now w =
      (w.1, markers.markExistence key now w.2) := by
  unfold markExistence Ports.beside inside
  simp only [Part.lift_snd]
  rcases markers.get key w.2 with ⟨_ | _ | _, w'⟩ <;> rfl

/-! ### Markers that do not forget -/

/-- **Durable markers.**  `view` tells what they hold.  A reading may fail, but it never answers
something else; every setting succeeds, and nothing else changes what is held. -/
structure Durable (markers : Markers ρ) (view : ρ → String → Option String) : Prop where
  of_get : ∀ {key w value}, (markers.get key w).1 = .ok value → value = view w key
  view_get : ∀ key w, view (markers.get key w).2 = view w
  set_ok : ∀ key value w, (markers.set key value w).1 = .ok ()
  view_set : ∀ key value w l,
    view (markers.set key value w).2 l = if l = key then some value else view w l

/-- **Faithful markers:** durable ones that can always be read. -/
structure Faithful (markers : Markers ρ) (view : ρ → String → Option String) : Prop extends
    Durable markers view where
  get_ok : ∀ key w, (markers.get key w).1 = .ok (view w key)

theorem faithful_memory : Faithful memory Table.get? where
  of_get h := (Except.ok.inj h).symm
  view_get _ _ := rfl
  set_ok _ _ _ := rfl
  view_set key value w l := Table.get?_put w key l value
  get_ok _ _ := rfl

section Durable

variable {markers : Markers ρ} {view : ρ → String → Option String}

theorem Durable.markExistence_cases (h : markers.Durable view) (key : String) (now : Nat) (w : ρ) :
    (view w key ≠ none ∧ view (markers.markExistence key now w) = view w) ∨
      ∀ l, view (markers.markExistence key now w) l =
        if l = key then some (Nat.repr now) else view w l := by
  have hget := h.view_get key w
  unfold markExistence
  rcases hm : markers.get key w with ⟨_ | _ | seen, w'⟩ <;> rw [hm] at hget
  · refine Or.inr fun l => ?_
    rw [← hget]
    exact h.view_set key _ w' l
  · refine Or.inr fun l => ?_
    rw [← hget]
    exact h.view_set key _ w' l
  · have hseen : some seen = view w key := h.of_get (by rw [hm])
    refine Or.inl ⟨?_, hget⟩
    rw [← hseen]
    exact Option.some_ne_none seen

theorem Durable.markExistence_present (h : markers.Durable view) (key : String) (now : Nat)
    (w : ρ) : view (markers.markExistence key now w) key ≠ none := by
  rcases h.markExistence_cases key now w with ⟨hk, hw⟩ | hw
  · rwa [hw]
  · rw [hw, if_pos rfl]
    exact Option.some_ne_none _

theorem Durable.present_markExistence (h : markers.Durable view) {key l : String} {now : Nat}
    {w : ρ} (hl : view w l ≠ none) : view (markers.markExistence key now w) l ≠ none := by
  rcases h.markExistence_cases key now w with ⟨-, hw⟩ | hw
  · rwa [hw]
  · rw [hw]
    split
    · exact Option.some_ne_none _
    · exact hl

theorem Durable.view_markExistence (h : markers.Durable view) {key l : String} (hl : l ≠ key)
    (now : Nat) (w : ρ) : view (markers.markExistence key now w) l = view w l := by
  rcases h.markExistence_cases key now w with ⟨-, hw⟩ | hw
  · rw [hw]
  · rw [hw, if_neg hl]

theorem Durable.set_present (h : markers.Durable view) (key value : String) {l : String} {w : ρ}
    (hl : view w l ≠ none) : view (markers.set key value w).2 l ≠ none := by
  rw [h.view_set]
  split
  · exact Option.some_ne_none _
  · exact hl

end Durable

end Markers

/-- The part of a script that prepares errors for readings only. -/
def Script.readings : Part (List StoreError × ρ) (Script × ρ) :=
  ⟨fun w => ({ reads := w.1 }, w.2), fun _ s => (s.1.reads, s.2)⟩

namespace Markers

theorem Durable.scripted {markers : Markers ρ} {view : ρ → String → Option String}
    (h : markers.Durable view) :
    ((Markers.scripted markers).inside Script.readings).Durable fun w => view w.2 where
  of_get {key w value} hr := by
    obtain ⟨_ | ⟨e, es⟩, t⟩ := w
    · exact h.of_get hr
    · cases hr
  view_get key w := by
    obtain ⟨_ | ⟨e, es⟩, t⟩ := w
    · exact h.view_get key t
    · rfl
  set_ok key value w := h.set_ok key value w.2
  view_set key value w l := h.view_set key value w.2 l

/-! ### Markers that may fail -/

/-- **Steady markers.**  `view` tells what they hold.  Every call may fail.  A reading never answers
something else and changes nothing; a setting is kept or lost, whatever it answers. -/
structure Steady (markers : Markers ρ) (view : ρ → String → Option String) : Prop where
  of_get : ∀ {key w value}, (markers.get key w).1 = .ok value → value = view w key
  view_get : ∀ key w, view (markers.get key w).2 = view w
  view_set : ∀ key value w, view (markers.set key value w).2 = view w ∨
    ∀ l, view (markers.set key value w).2 l = if l = key then some value else view w l

section Steady

variable {markers : Markers ρ} {view : ρ → String → Option String}

theorem Durable.steady (h : markers.Durable view) : markers.Steady view where
  of_get := h.of_get
  view_get := h.view_get
  view_set key value w := .inr (h.view_set key value w)

theorem Steady.scripted (h : markers.Steady view) :
    (Markers.scripted markers).Steady fun w => view w.2 where
  of_get {key w value} hr := by
    obtain ⟨⟨_ | ⟨e, es⟩, writes⟩, t⟩ := w
    · exact h.of_get hr
    · cases hr
  view_get key w := by
    obtain ⟨⟨_ | ⟨e, es⟩, writes⟩, t⟩ := w
    · exact h.view_get key t
    · rfl
  view_set key value w := by
    obtain ⟨⟨reads, _ | ⟨e, es⟩⟩, t⟩ := w
    · exact h.view_set key value t
    · exact .inl rfl

theorem Steady.view_set_of_ne (h : markers.Steady view) {key l : String} (hl : l ≠ key)
    (value : String) (w : ρ) : view (markers.set key value w).2 l = view w l := by
  rcases h.view_set key value w with hset | hset
  · rw [hset]
  · rw [hset, if_neg hl]

theorem Steady.markExistence_cases (h : markers.Steady view) (key l : String) (now : Nat) (w : ρ) :
    view (markers.markExistence key now w) l = view w l ∨
      l = key ∧ view (markers.markExistence key now w) l = some (Nat.repr now) ∧
        (view w key = none ∨ ∃ e, (markers.get key w).1 = .error e) := by
  have hget := h.view_get key w
  have hset {w'} (hw : view w' = view w) :
      view (markers.set key (Nat.repr now) w').2 l = view w l ∨
        l = key ∧ view (markers.set key (Nat.repr now) w').2 l = some (Nat.repr now) := by
    rcases h.view_set key (Nat.repr now) w' with hlost | hkept
    · exact .inl (by rw [hlost, hw])
    by_cases hl : l = key
    · exact .inr ⟨hl, by rw [hkept, if_pos hl]⟩
    · exact .inl (by rw [hkept, if_neg hl, hw])
  unfold markExistence
  rcases hm : markers.get key w with ⟨e | _ | seen, w'⟩ <;> rw [hm] at hget
  · exact (hset hget).imp_right fun ⟨hl, hv⟩ => ⟨hl, hv, .inr ⟨e, rfl⟩⟩
  · have habsent : none = view w key := h.of_get (by rw [hm])
    exact (hset hget).imp_right fun ⟨hl, hv⟩ => ⟨hl, hv, .inl habsent.symm⟩
  · exact .inl (congrFun hget l)

end Steady

end Markers

end VersionedStore
