import VersionedStore.Binary64

/-!
# The shortest decimal

The text of a number has the fewest digits that read back as the number; among those it is the
nearest one.  A grid `10 ^ p` is tried at the two points next to the value, from the coarsest grid
downwards, and the first grid with a point that reads back gives the digits.

All comparisons are between natural numbers: values, the half-way points to the neighbours and the
grid points are taken in multiples of `2 ^ -1075 * 10 ^ -340`.
-/

namespace VersionedStore.Binary64

/-- A power of ten that makes a whole number of every grid that is tried. -/
def gridBase : Nat := 340

/-- Twice the value of a magnitude. -/
def scaledValue (m : Nat) : Nat := 2 * units m * Nat.pow 10 gridBase

/-- The distance of the points of the grid `10 ^ (p - gridBase)`. -/
def gridStep (p : Nat) : Nat := Nat.pow 10 p <<< 1075

/-- Whether a point is nearer to the value of `m` than to that of any other magnitude.  A half-way
point reads back as its even neighbour. -/
def readsBack (m x : Nat) : Bool :=
  let low := (units (m - 1) + units m) * Nat.pow 10 gridBase
  let high := (units m + units (m + 1)) * Nat.pow 10 gridBase
  if m % 2 = 0 then low ≤ x && x ≤ high else low < x && x < high

/-- The nearest of the two grid points next to the value of `m` that read back. -/
def onGrid? (m p : Nat) : Option Nat :=
  let step := gridStep p
  let c := scaledValue m / step
  match readsBack m (c * step), readsBack m ((c + 1) * step) with
  | true, true => some (roundDiv (scaledValue m) step)
  | true, false => some c
  | false, true => some (c + 1)
  | false, false => none

/-- The grid on which the value of `m` has one digit. -/
def leadingGrid (m : Nat) : Nat :=
  (Nat.toDigits 10 ((units m * Nat.pow 10 gridBase) >>> 1074)).length - 1

/-- The digits and the grid of the shortest decimal; seventeen digits always read back. -/
def shortest (m : Nat) : Nat × Nat :=
  let top := leadingGrid m
  ((List.range 17).findSome? fun n => (onGrid? m (top - n)).map (·, top - n)).getD
    (roundDiv (scaledValue m) (gridStep (top - 16)), top - 16)

/-- A decimal in scientific form: its digits without closing zeros, the first one standing before
the point, and the power of ten. -/
def scientific (m : Nat) : List Char × Int :=
  let (digits, p) := shortest m
  let ds := Nat.toDigits 10 digits
  ((ds.reverse.dropWhile (· = '0')).reverse, (p : Int) - gridBase + ds.length - 1)

/-- Powers of ten that are written by the place of the point. -/
def isPositional (e : Int) : Bool := -5 ≤ e && e ≤ 15

/-- Digits with the point put in its place; there is always a digit after it. -/
def positional (ds : List Char) (e : Int) : List Char :=
  if e < 0 then ['0', '.'] ++ List.replicate ((-e).toNat - 1) '0' ++ ds
  else
    let whole := e.toNat + 1
    if ds.length ≤ whole then ds ++ List.replicate (whole - ds.length) '0' ++ ['.', '0']
    else ds.take whole ++ '.' :: ds.drop whole

/-- Digits with the point after the first and the power of ten written out, sign included. -/
def withExponent (ds : List Char) (e : Int) : List Char :=
  let mantissa := match ds with
    | d :: r :: rs => d :: '.' :: r :: rs
    | _ => ds
  mantissa ++ 'e' :: (if e < 0 then '-' else '+') :: Nat.toDigits 10 e.natAbs

def text (x : Binary64) : List Char :=
  let digits :=
    if x.magnitude = 0 then ['0', '.', '0']
    else
      let (ds, e) := scientific x.magnitude
      if isPositional e then positional ds e else withExponent ds e
  if x.negative then '-' :: digits else digits

end VersionedStore.Binary64
