import VersionedStore.Binary64
import VersionedStore.Table

/-!
# JSON values

Values, the objects among them, and what kind of value each is.  An integer that fits a signed or an
unsigned 64-bit word is kept exactly; every other number is of double precision.  Equality of values
is decidable (`Value.decEq`), and a double is told from the integer of the same size.
-/

namespace VersionedStore

/-- The integers that are kept exactly: those of an unsigned or a signed 64-bit word. -/
def FitsWord (n : Int) : Prop := -0x8000000000000000 ≤ n ∧ n ≤ 0xffffffffffffffff

instance (n : Int) : Decidable (FitsWord n) := inferInstanceAs (Decidable (_ ∧ _))

/-- A number of a document. -/
inductive Number
  | integer (n : Int) (fits : FitsWord n)
  | double (x : Binary64)
  deriving DecidableEq

/-- A JSON value.  An object holds its members in ascending order of the keys. -/
inductive Value
  | null
  | bool (b : Bool)
  | number (n : Number)
  | string (s : String)
  | array (items : List Value)
  | object (members : List (String × Value))
  deriving Inhabited

/-- The members of an object. -/
abbrev Object := Table String Value

namespace Value

/-- The name of the kind of a value; a value that is not there is undefined. -/
def typeName : Option Value → String
  | none => "undefined"
  | some null => "null"
  | some (bool _) => "boolean"
  | some (number _) => "number"
  | some (string _) => "string"
  | some (array _) => "array"
  | some (object _) => "object"

def object? : Value → Option Object
  | object ms => some ms
  | _ => none

def ofInt (n : Int) (h : FitsWord n := by decide) : Value := number (.integer n h)

def ofVersion (v : UInt32) : Value :=
  number (.integer v.toNat (by have := v.toNat_lt; unfold FitsWord; omega))

/-! ### Equality -/

mutual

/-- Equality of values is decided on their structure. -/
def decEq : (a b : Value) → Decidable (a = b)
  | null, null => .isTrue rfl
  | bool a, bool b =>
    if h : a = b then .isTrue (h ▸ rfl) else .isFalse fun e => h (by injection e)
  | number a, number b =>
    if h : a = b then .isTrue (h ▸ rfl) else .isFalse fun e => h (by injection e)
  | string a, string b =>
    if h : a = b then .isTrue (h ▸ rfl) else .isFalse fun e => h (by injection e)
  | array a, array b =>
    match decEqItems a b with
    | .isTrue h => .isTrue (h ▸ rfl)
    | .isFalse h => .isFalse fun e => h (by injection e)
  | object a, object b =>
    match decEqMembers a b with
    | .isTrue h => .isTrue (h ▸ rfl)
    | .isFalse h => .isFalse fun e => h (by injection e)
  | null, bool _ | null, number _ | null, string _ | null, array _ | null, object _
  | bool _, null | bool _, number _ | bool _, string _ | bool _, array _ | bool _, object _
  | number _, null | number _, bool _ | number _, string _ | number _, array _
  | number _, object _
  | string _, null | string _, bool _ | string _, number _ | string _, array _
  | string _, object _
  | array _, null | array _, bool _ | array _, number _ | array _, string _ | array _, object _
  | object _, null | object _, bool _ | object _, number _ | object _, string _
  | object _, array _ => .isFalse nofun

def decEqItems : (a b : List Value) → Decidable (a = b)
  | [], [] => .isTrue rfl
  | [], _ :: _ | _ :: _, [] => .isFalse nofun
  | a :: as, b :: bs =>
    match decEq a b, decEqItems as bs with
    | .isTrue h, .isTrue h' => .isTrue (h ▸ h' ▸ rfl)
    | .isFalse h, _ => .isFalse fun e => h (by injection e)
    | _, .isFalse h => .isFalse fun e => h (by injection e)

def decEqMembers : (a b : List (String × Value)) → Decidable (a = b)
  | [], [] => .isTrue rfl
  | [], _ :: _ | _ :: _, [] => .isFalse nofun
  | (k, a) :: as, (l, b) :: bs =>
    if hk : k = l then
      match decEq a b, decEqMembers as bs with
      | .isTrue h, .isTrue h' => .isTrue (hk ▸ h ▸ h' ▸ rfl)
      | .isFalse h, _ => .isFalse fun e => h (by injection e with e _; injection e)
      | _, .isFalse h => .isFalse fun e => h (by injection e)
    else .isFalse fun e => hk (by injection e with e _; injection e)

end

instance : DecidableEq Value := decEq

/-! ### Nesting -/

mutual

/-- How many brackets are open at the deepest place of a value's text. -/
def depth : Value → Nat
  | array items => depthItems items + 1
  | object members => depthMembers members + 1
  | _ => 0

def depthItems : List Value → Nat
  | [] => 0
  | v :: vs => max v.depth (depthItems vs)

def depthMembers : List (String × Value) → Nat
  | [] => 0
  | (_, v) :: vs => max v.depth (depthMembers vs)

end

end Value

end VersionedStore
