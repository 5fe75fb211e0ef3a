/-!
# Double precision

The finite numbers of the 64-bit binary format, with exact arithmetic on natural numbers in place of
floating point operations.  A number is a sign and a magnitude, and the magnitudes count the
non-negative numbers upwards from zero: the number that follows magnitude `m` has magnitude `m + 1`.

* `units`: the value of a magnitude, in multiples of the least positive number;
* `nearest`: the magnitude nearest to a quotient, a half going to the even one;
* `mul`, `div`: products and quotients of magnitudes, rounded;
* `ofParts?`: the number that is read for the digits and the exponent of a decimal, if it is not
  too large.
-/

namespace VersionedStore

/-- A finite number of the 64-bit binary format, the two zeros told apart.  The magnitude is the
word of its bits without the sign; the first one past the finite numbers stands for infinity. -/
structure Binary64 where
  negative : Bool
  magnitude : Nat
  magnitude_lt : magnitude < 0x7ff0000000000000
  deriving DecidableEq, Repr

namespace Binary64

def zero (negative : Bool) : Binary64 := ⟨negative, 0, by decide⟩

/-- How many magnitudes share an exponent: as many as there are words of 52 bits. -/
def binade : Nat := 0x10000000000000

/-- The value of a magnitude in multiples of `2 ^ -1074`. -/
def units (m : Nat) : Nat :=
  if m < binade then m else (m % binade + binade) <<< (m / binade - 1)

/-- The whole number nearest to a quotient; of two that are equally near, the even one. -/
def roundDiv (n d : Nat) : Nat :=
  if 2 * (n % d) < d ∨ (2 * (n % d) = d ∧ n / d % 2 = 0) then n / d else n / d + 1

/-- The magnitude whose value is nearest to a quotient. -/
def nearest (n d : Nat) : Nat :=
  let scaled := n <<< 1074
  let shift := Nat.log2 (scaled / d) - 52
  shift * binade + roundDiv scaled (d <<< shift)

/-- The magnitude of a product. -/
def mul (a b : Nat) : Nat := nearest (units a * units b) (1 <<< 2148)

/-- The magnitude of a quotient. -/
def div (a b : Nat) : Nat := nearest (units a) (units b)

/-- The magnitude of a power of ten.  Those up to `10 ^ 308` are finite. -/
def tenPow (n : Nat) : Nat := nearest (Nat.pow 10 n) 1

/-- Divides by a power of ten, past the greatest one by that one again and again. -/
def divTenPow (m n : Nat) : Nat :=
  if n ≤ 308 then div m (tenPow n)
  else if m = 0 then 0
  else divTenPow (div m (tenPow 308)) (n - 308)
termination_by n

/-- The magnitude that is read for `digits * 10 ^ exponent`, or none if it is too large.  The digits
are rounded first, and their product or quotient with a power of ten is rounded once more, so that
what is read need not be the number nearest to the decimal. -/
def readParts? (digits : Nat) (exponent : Int) : Option Nat :=
  let m := nearest digits 1
  if exponent < 0 then some (divTenPow m exponent.natAbs)
  else if exponent ≤ 308 then some (mul m (tenPow exponent.natAbs))
  else if m = 0 then some 0
  else none

/-- The number that is read for `digits * 10 ^ exponent`, or none if it is too large. -/
def ofParts? (negative : Bool) (digits : Nat) (exponent : Int) : Option Binary64 :=
  (readParts? digits exponent).bind fun m =>
    if h : m < 0x7ff0000000000000 then some ⟨negative, m, h⟩ else none

/-! ### Rounding -/

theorem roundDiv_le (n d : Nat) : roundDiv n d ≤ n / d + 1 := by
  unfold roundDiv; split <;> omega

theorem le_roundDiv (n d : Nat) : n / d ≤ roundDiv n d := by
  unfold roundDiv; split <;> omega

theorem roundDiv_near {d : Nat} (hd : 0 < d) (n : Nat) :
    2 * (roundDiv n d * d) ≤ 2 * n + d ∧ 2 * n ≤ 2 * (roundDiv n d * d) + d := by
  have h := Nat.div_add_mod n d
  have hr := Nat.mod_lt n hd
  rw [Nat.mul_comm] at h
  unfold roundDiv
  split
  · constructor <;> omega
  · rw [Nat.add_mul]; constructor <;> omega

example : (ofParts? false 15 (-1)).map (·.magnitude) = some 0x3ff8000000000000 := by decide +kernel
example : ofParts? true 0 0 = some (zero true) := by decide +kernel
example : ofParts? false 1 309 = none := by decide +kernel

end Binary64

end VersionedStore
