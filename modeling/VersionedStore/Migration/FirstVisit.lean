import VersionedStore.Migration.Chain

/-!
# The first-visit mark

The migration to version 113: every permission of every subject gets the member `isFirstVisit` with
the value false.  If anything among the subjects is not of the expected shape, nothing is changed at
all.
-/

namespace VersionedStore.FirstVisit

def version : Version := 113

def controllerKey : String := "PermissionController"

def subjectsKey : String := "subjects"

def permissionsKey : String := "permissions"

def markKey : String := "isFirstVisit"

/-- Maps the values of an object; one that has no image spoils the whole. -/
def mapValues? (f : Value → Option Value) (ms : Object) : Option Object :=
  ms.mapM fun (k, v) => (f v).map (k, ·)

def markPermission? : Value → Option Value
  | .object ms => some (.object (Table.put ms markKey (.bool false)))
  | _ => none

def markSubject? : Value → Option Value
  | .object ms =>
    match Table.get? ms permissionsKey with
    | some (.object ps) =>
      (mapValues? markPermission? ps).map fun ps' =>
        .object (Table.put ms permissionsKey (.object ps'))
    | _ => none
  | _ => none

/-- Marks every permission in a state. -/
def mark (state : Object) : Verdict :=
  match state.get? controllerKey with
  | some (.object controller) =>
    match Table.get? controller subjectsKey with
    | some (.object subjects) =>
      if subjects.isEmpty then .unchanged
      else
        match mapValues? markSubject? subjects with
        | none => .unchanged
        | some marked =>
          .migrated
            (state.put controllerKey (.object (Table.put controller subjectsKey (.object marked))))
    | other =>
      .malformed ("typeof PermissionController.subjects is " ++ Value.typeName other)
  | other => .malformed ("typeof state.PermissionController is " ++ Value.typeName other)

def migration : Migration :=
  ⟨version, "add isFirstVisit=false to every subject permission", fun e => mark e.data⟩

end VersionedStore.FirstVisit

namespace VersionedStore.Chain

def shipped : Chain := ⟨[FirstVisit.migration], List.pairwise_singleton _ _⟩

end VersionedStore.Chain
