import VersionedStore.Migration.FirstVisit
import VersionedStore.Proofs.Json.Paths

/-!
# What the first-visit mark does to a state

The mark is put on a copy of the subjects, permission by permission, and the copy is put back two
levels further up, unless a subject or a permission is not of the expected shape.  All of this is
one change along a pattern: every subject, every permission.

* `Markable`: all subjects are of the expected shape, and there is one;
* `mark_of_markable`, `mark_of_not_markable`: the subjects decide, wherever among them the bad one
  stands;
* `Marked`: what the marked state is, path by path; `mark_marked`: marking it once more changes
  nothing;
* `mark_is_exact`: the migration on every state.
-/

namespace VersionedStore.FirstVisit

open Json

variable {f : Value → Value} {f? : Value → Option Value} {n : Nat} {ms ms' : Object} {v w : Value}
  {state controller subjects data : Object}

/-! ### Mapping the values of an object -/

theorem mapValues?_cons (f : Value → Option Value) (e : String × Value) (ms : Object) :
    mapValues? f (e :: ms) = (f e.2).bind fun w => (mapValues? f ms).map ((e.1, w) :: ·) := by
  obtain ⟨k, v⟩ := e
  have hcons : mapValues? f ((k, v) :: ms) =
      ((f v).map (k, ·)).bind fun x => (mapValues? f ms).bind fun xs => some (x :: xs) :=
        List.mapM_cons
  rw [hcons, Option.bind_map]
  refine congrArg (f v).bind (funext fun w => ?_)
  exact Option.map_eq_bind.symm

theorem mapValues?_of_forall (h : ∀ e ∈ ms, f? e.2 = some (f e.2)) :
    mapValues? f? ms = some (Table.mapValues (fun _ => f) ms) := by
  induction ms with
  | nil => rfl
  | cons e ms ih =>
    obtain ⟨he, hms⟩ := List.forall_mem_cons.mp h
    rw [mapValues?_cons, he, ih hms]
    rfl

theorem forall_of_mapValues? (h : mapValues? f? ms = some ms') :
    ∀ e ∈ ms, ∃ w, f? e.2 = some w := by
  induction ms generalizing ms' with
  | nil => simp
  | cons e ms ih =>
    rw [mapValues?_cons] at h
    obtain ⟨w, he, hrest⟩ := Option.bind_eq_some_iff.mp h
    obtain ⟨rest, hms, -⟩ := Option.map_eq_some_iff.mp hrest
    exact List.forall_mem_cons.mpr ⟨⟨w, he⟩, ih hms⟩

/-! ### Permissions and subjects -/

/-- A permission with the mark; nothing else is marked. -/
def withMark : Value → Value
  | .object ms => .object (Table.put ms markKey (.bool false))
  | v => v

theorem withMark_withMark (v : Value) : withMark (withMark v) = withMark v := by
  cases v with
  | object ms => exact congrArg Value.object (Table.put_put ms markKey _ _)
  | _ => rfl

theorem fits_withMark (h : Fits n v) : Fits n (withMark v) := by
  cases v with
  | object ms =>
    obtain ⟨m, rfl, hm⟩ := fits_object_iff.mp h
    exact fits_object_iff.mpr ⟨m, rfl, hm.put markKey (fits_scalar rfl m)⟩
  | _ => exact h

def IsPermission (v : Value) : Prop := ∃ ms, v = .object ms

/-- A value that is a subject: an object with permissions. -/
def IsSubject (v : Value) : Prop :=
  ∃ ms ps : Object, v = .object ms ∧ ms.get? permissionsKey = some (.object ps) ∧
    ∀ e ∈ ps, IsPermission e.2

/-- The subjects can be marked: there are some, and all of them are subjects. -/
structure Markable (subjects : Object) : Prop where
  nonempty : subjects ≠ []
  all : ∀ e ∈ subjects, IsSubject e.2

theorem markPermission?_eq_some_iff :
    markPermission? v = some w ↔ IsPermission v ∧ withMark v = w := by
  cases v with
  | object ms => simp [markPermission?, IsPermission, withMark]
  | _ => simp [markPermission?, IsPermission]

/-- The permissions of a subject, which are marked. -/
def subjectSteps : List (Option String) := [some permissionsKey, none]

theorem markSubject?_of_isSubject (ordered : v.Ordered) (h : IsSubject v) :
    markSubject? v = some (v.edit withMark subjectSteps) := by
  obtain ⟨ms, ps, rfl, hget, hall⟩ := h
  have hps : mapValues? markPermission? ps = some (Table.mapValues (fun _ => withMark) ps) :=
    mapValues?_of_forall fun e he => markPermission?_eq_some_iff.mpr ⟨hall e he, rfl⟩
  have hmarked : Value.object (Table.mapValues (fun _ => withMark) ps) =
      (Value.object ps).edit withMark [none] := (Value.edit_every withMark [] (.object ps)).symm
  simp only [markSubject?, hget, hps, Option.map_some]
  rw [hmarked]
  exact congrArg some (Value.object_put_edit (ordered _ (.refl _)) hget withMark [none])

theorem isSubject_of_markSubject? (h : markSubject? v = some w) : IsSubject v := by
  cases v with
  | object ms =>
    simp only [markSubject?] at h
    split at h
    · rename_i ps hget
      obtain ⟨ps', hps, -⟩ := Option.map_eq_some_iff.mp h
      refine ⟨ms, ps, rfl, hget, fun e he => ?_⟩
      obtain ⟨w', hw⟩ := forall_of_mapValues? hps e he
      exact (markPermission?_eq_some_iff.mp hw).1
    · cases h
  | _ => cases h

theorem IsSubject.edit (h : IsSubject v) : IsSubject (v.edit withMark subjectSteps) := by
  obtain ⟨ms, ps, rfl, hget, hall⟩ := h
  refine ⟨_, Table.mapValues (fun _ => withMark) ps, rfl, ?_, fun e he => ?_⟩
  · have hmember : (Value.object ms).member? permissionsKey = some (.object ps) := hget
    refine (Value.member?_edit (Value.takes_some _) withMark [none] (.object ms)).trans ?_
    rw [hmember]
    exact congrArg some (Value.edit_every withMark [] (.object ps))
  · obtain ⟨x, hx, rfl⟩ := List.mem_map.mp he
    obtain ⟨members, hmembers⟩ := hall x hx
    exact ⟨Table.put members markKey (.bool false), congrArg withMark hmembers⟩

theorem Markable.edit (h : Markable subjects) :
    Markable (Table.mapValues (fun _ => Value.edit withMark subjectSteps) subjects) := by
  refine ⟨fun hnil => h.nonempty (List.map_eq_nil_iff.mp hnil), fun e he => ?_⟩
  obtain ⟨x, hx, rfl⟩ := List.mem_map.mp he
  exact (h.all x hx).edit

/-! ### States -/

/-- Where the permissions of a state are: every permission of every subject. -/
def permissionSteps : List (Option String) :=
  some controllerKey :: some subjectsKey :: none :: subjectSteps

/-- The path to a permission of a subject. -/
def permissionPath (subject permission : String) : List String :=
  [controllerKey, subjectsKey, subject, permissionsKey, permission]

theorem hits_permissionPath (subject permission : String) :
    Value.Hits permissionSteps (permissionPath subject permission) :=
  .cons rfl (.cons rfl (.cons rfl (.cons rfl (.cons rfl .nil))))

theorem exists_permissionPath {hit : List String} (h : Value.Hits permissionSteps hit) :
    ∃ subject permission, hit = permissionPath subject permission := by
  obtain _ | ⟨hcontroller, _ | ⟨hsubjects, _ | ⟨-, _ | ⟨hpermissions, _ | ⟨-, _ | _⟩⟩⟩⟩⟩ := h
  obtain rfl : controllerKey = _ := hcontroller
  obtain rfl : subjectsKey = _ := hsubjects
  obtain rfl : permissionsKey = _ := hpermissions
  exact ⟨_, _, rfl⟩

/-- **Subjects that cannot be marked** leave the state as it is. -/
theorem mark_of_not_markable (hcontroller : state.get? controllerKey = some (.object controller))
    (hsubjects : controller.get? subjectsKey = some (.object subjects)) (h : ¬ Markable subjects) :
    mark state = .unchanged := by
  simp only [mark, hcontroller, hsubjects]
  split
  · rfl
  rename_i hne
  cases hmarked : mapValues? markSubject? subjects with
  | none => rfl
  | some marked =>
    refine absurd ⟨fun hnil => hne (hnil ▸ rfl), fun e he => ?_⟩ h
    obtain ⟨w, hw⟩ := forall_of_mapValues? hmarked e he
    exact isSubject_of_markSubject? hw

/-- **Subjects that can be marked** are marked: the state is changed along the pattern. -/
theorem mark_of_markable (ordered : (Value.object state).Ordered)
    (hcontroller : state.get? controllerKey = some (.object controller))
    (hsubjects : controller.get? subjectsKey = some (.object subjects)) (h : Markable subjects) :
    ∃ data, mark state = .migrated data ∧
      .object data = (Value.object state).edit withMark permissionSteps := by
  have hcordered : (Value.object controller).Ordered :=
    fun ms hin => ordered ms (.member (Table.mem_of_get? hcontroller) hin)
  have hsordered : (Value.object subjects).Ordered :=
    fun ms hin => hcordered ms (.member (Table.mem_of_get? hsubjects) hin)
  have hmarked : mapValues? markSubject? subjects =
      some (Table.mapValues (fun _ => Value.edit withMark subjectSteps) subjects) :=
    mapValues?_of_forall fun e he =>
      markSubject?_of_isSubject (fun ms hin => hsordered ms (.member he hin)) (h.all e he)
  have hedit : Value.object (Table.mapValues (fun _ => Value.edit withMark subjectSteps) subjects) =
      (Value.object subjects).edit withMark (none :: subjectSteps) :=
    (Value.edit_every withMark subjectSteps (.object subjects)).symm
  have hempty : ¬ subjects.isEmpty = true := fun hnil => h.nonempty (List.isEmpty_iff.mp hnil)
  simp only [mark, hcontroller, hsubjects, if_neg hempty, hmarked]
  refine ⟨_, rfl, ?_⟩
  rw [hedit, Value.object_put_edit (hcordered _ (.refl _)) hsubjects]
  exact Value.object_put_edit (ordered _ (.refl _)) hcontroller withMark _

theorem exists_markable (h : mark state = .migrated data) :
    ∃ controller subjects : Object, state.get? controllerKey = some (.object controller) ∧
      controller.get? subjectsKey = some (.object subjects) ∧ Markable subjects := by
  have hmark := h
  unfold mark at hmark
  split at hmark
  swap
  · cases hmark
  rename_i controller hcontroller
  split at hmark
  swap
  · cases hmark
  rename_i subjects hsubjects
  refine ⟨controller, subjects, hcontroller, hsubjects, ?_⟩
  by_contra hnot
  cases h.symm.trans (mark_of_not_markable hcontroller hsubjects hnot)

theorem object_of_mark (ordered : (Value.object state).Ordered) (h : mark state = .migrated data) :
    .object data = (Value.object state).edit withMark permissionSteps := by
  obtain ⟨controller, subjects, hcontroller, hsubjects, hmarkable⟩ := exists_markable h
  obtain ⟨data', hdata, hedit⟩ := mark_of_markable ordered hcontroller hsubjects hmarkable
  obtain rfl := Verdict.migrated.inj (h.symm.trans hdata)
  exact hedit

theorem fits_mark (h : mark state = .migrated data) (hs : Fits n (.object state)) :
    Fits n (.object data) := by
  rw [object_of_mark hs.ordered h]
  exact hs.edit fits_withMark permissionSteps

theorem fits_attempt {e : Envelope} (h : migration.attempt e = .ok data)
    (hs : Fits n (.object e.data)) : Fits n (.object data) := by
  have hmark : (mark e.data).outcome e.data = .ok data := h
  rcases hv : mark e.data with d | _ | _ | _ | _ <;> rw [hv] at hmark
  · obtain rfl := Except.ok.inj hmark
    exact fits_mark hv hs
  · obtain rfl := Except.ok.inj hmark
    exact hs
  all_goals cases hmark

/-- **A state and what it is marked to:** every permission has the mark, no key comes or goes on the
way to the permissions, and everything else is what it was. -/
structure Marked (state data : Object) : Prop where
  ordered : (Value.object data).Ordered
  eq_edit : .object data = (Value.object state).edit withMark permissionSteps
  permission (subject permission : String) :
    (Value.object data).get? (permissionPath subject permission) =
      ((Value.object state).get? (permissionPath subject permission)).map withMark
  keys {subject permission : String} {path : List String}
    (hpath : path <+: permissionPath subject permission)
      (hne : path ≠ permissionPath subject permission) :
    ((Value.object data).get? path).bind Value.keys? =
      ((Value.object state).get? path).bind Value.keys?
  elsewhere {path : List String}
    (h : ∀ subject permission, ¬ path <+: permissionPath subject permission ∧
      ¬ permissionPath subject permission <+: path) :
    (Value.object data).get? path = (Value.object state).get? path

theorem marked_of_mark (ordered : (Value.object state).Ordered) (h : mark state = .migrated data) :
    Marked state data := by
  have hedit := object_of_mark ordered h
  refine ⟨(fits_mark h ⟨ordered, Nat.le_refl _⟩).ordered, hedit, fun subject permission => ?_,
    fun hpath hne => ?_, fun hapart => ?_⟩
  · rw [hedit]
    exact Value.get?_edit_of_hits (hits_permissionPath subject permission) _
  · rw [hedit]
    exact Value.keys?_edit (hits_permissionPath _ _) hpath hne _
  · rw [hedit]
    refine Value.get?_edit_of_apart (fun hit hhit => ?_) _
    obtain ⟨subject, permission, rfl⟩ := exists_permissionPath hhit
    exact hapart subject permission

/-- **What was marked** can be marked again, and that changes nothing. -/
theorem mark_marked (ordered : (Value.object state).Ordered) (h : mark state = .migrated data) :
    mark data = .migrated data := by
  obtain ⟨controller, subjects, hcontroller, hsubjects, hmarkable⟩ := exists_markable h
  have hedit := object_of_mark ordered h
  -- the controller and the subjects are where they were, changed along the rest of the pattern
  obtain ⟨controller', hobject⟩ : ∃ controller', .object controller' =
      (Value.object controller).edit withMark (some subjectsKey :: none :: subjectSteps) := ⟨_, rfl⟩
  have hcontroller' : (Value.object data).member? controllerKey = some (.object controller') := by
    rw [hedit, permissionSteps, Value.member?_edit (Value.takes_some _), hobject]
    exact congrArg (Option.map _) hcontroller
  have hsubjects' : (Value.object controller').member? subjectsKey =
      some ((Value.object subjects).edit withMark (none :: subjectSteps)) := by
    rw [hobject, Value.member?_edit (Value.takes_some _)]
    exact congrArg (Option.map _) hsubjects
  rw [Value.edit_every] at hsubjects'
  obtain ⟨again, hagain, hsame⟩ := mark_of_markable (marked_of_mark ordered h).ordered hcontroller'
    hsubjects' hmarkable.edit
  rw [hedit, Value.edit_edit withMark_withMark, ← hedit] at hsame
  rw [hagain, Value.object.inj hsame]

/-- **The migration on every state.**  A state has its objects in order, as any map has.  It is
malformed, and the kind of what stands there is named, where there is no controller or the
controller has no subjects. Otherwise the state is marked iff there are subjects and all of them are
of the expected shape, wherever they stand, and it is left alone if not.  Marking is marking of the
permissions and nothing else, and a state that was marked is marked to itself. -/
theorem mark_is_exact (state : Object) (ordered : (Value.object state).Ordered) :
    ((∀ controller : Object, state.get? controllerKey ≠ some (.object controller)) →
        mark state = .malformed
          ("typeof state.PermissionController is " ++ Value.typeName (state.get? controllerKey))) ∧
      ∀ controller : Object, state.get? controllerKey = some (.object controller) →
        ((∀ subjects : Object, controller.get? subjectsKey ≠ some (.object subjects)) →
            mark state = .malformed
              ("typeof PermissionController.subjects is " ++
                Value.typeName (controller.get? subjectsKey))) ∧
          ∀ subjects : Object, controller.get? subjectsKey = some (.object subjects) →
            (Markable subjects → ∃ data, mark state = .migrated data ∧ Marked state data ∧
              mark data = .migrated data) ∧
            (¬ Markable subjects → mark state = .unchanged) := by
  refine ⟨fun hnone => ?_, fun controller hcontroller => ⟨fun hnone => ?_, fun subjects hsubjects =>
    ⟨fun hmarkable => ?_, mark_of_not_markable hcontroller hsubjects⟩⟩⟩
  · unfold mark
    split
    · rename_i controller hcontroller
      exact absurd hcontroller (hnone controller)
    · rfl
  · unfold mark
    rw [hcontroller]
    dsimp only
    split
    · rename_i subjects hsubjects
      exact absurd hsubjects (hnone subjects)
    · rfl
  · obtain ⟨data, hdata, -⟩ := mark_of_markable ordered hcontroller hsubjects hmarkable
    exact ⟨data, hdata, marked_of_mark ordered hdata, mark_marked ordered hdata⟩

def oneSubject : Value :=
  .object [(permissionsKey, .object [("eth_accounts", .object [("id", .null)])])]

/-- A state with that subject, and what else stands among the subjects. -/
def withSubjects (others : Object) : Object :=
  [(controllerKey, .object [(subjectsKey, .object (("a.example", oneSubject) :: others))])]

/-- A permission is marked, unless a subject further on is no subject. -/
theorem mark_is_exact_withSubjects :
    (∃ data, mark (withSubjects []) = .migrated data ∧ mark data = .migrated data ∧
      (Value.object data).get? (permissionPath "a.example" "eth_accounts") =
        some (.object [("id", .null), ("isFirstVisit", .bool false)])) ∧
      mark (withSubjects [("b.example", .null)]) = .unchanged := by
  have hnull : Value.null.Ordered := Value.ordered_of_depth_eq_zero rfl
  have hsubject : oneSubject.Ordered :=
    Value.ordered_singleton (Value.ordered_singleton (Value.ordered_singleton hnull))
  have hordered : (Value.object (withSubjects [])).Ordered :=
    Value.ordered_singleton (Value.ordered_singleton (Value.ordered_singleton hsubject))
  have hordered' : (Value.object (withSubjects [("b.example", .null)])).Ordered := by
    refine Value.ordered_singleton (Value.ordered_singleton (Value.ordered_object ?_ ?_))
    · exact List.pairwise_pair.mpr (by decide)
    · exact List.forall_mem_cons.mpr ⟨hsubject, List.forall_mem_singleton.mpr hnull⟩
  have hmarkable : Markable [("a.example", oneSubject)] :=
    ⟨List.cons_ne_nil _ _, List.forall_mem_singleton.mpr
      ⟨_, _, rfl, rfl, List.forall_mem_singleton.mpr ⟨_, rfl⟩⟩⟩
  have hspoilt : ¬ Markable [("a.example", oneSubject), ("b.example", .null)] := by
    intro h
    obtain ⟨_, _, hobject, -⟩ := h.all ("b.example", .null) (by simp)
    cases hobject
  obtain ⟨data, hdata, hmarked, hagain⟩ :=
    (((mark_is_exact (withSubjects []) hordered).2 _ rfl).2 _ rfl).1 hmarkable
  refine ⟨⟨data, hdata, hagain, ?_⟩,
    (((mark_is_exact (withSubjects [("b.example", .null)]) hordered').2 _ rfl).2 _ rfl).2 hspoilt⟩
  rw [hmarked.permission]
  rfl

end VersionedStore.FirstVisit
