/-!
# Double precision numbers, exactly

Every finite double is a whole number of units, where a unit is the least
positive double, two to the power -1074.  Rounding, remainders and printing are
done on that whole number, so no step of them loses anything.
-/

namespace StepGraph

namespace Double

inductive View where
  | nan
  | infinite (negative : Bool)
  | finite (negative : Bool) (units : Nat)
  deriving DecidableEq

def unitsPerOne : Nat := Nat.pow 2 1074

def view (x : Float) : View :=
  let bits := x.toBits.toNat
  let negative := bits / Nat.pow 2 63 = 1
  let exponent := bits / Nat.pow 2 52 % 2048
  let fraction := bits % Nat.pow 2 52
  if exponent = 2047 then
    if fraction = 0 then .infinite negative else .nan
  else if exponent = 0 then .finite negative fraction
  else .finite negative ((Nat.pow 2 52 + fraction) * Nat.pow 2 (exponent - 1))

/-- A quotient rounded to the nearest whole number, a half to the even one. -/
def roundQuotient (num den : Nat) : Nat :=
  let quotient := num / den
  let rest := num % den
  if den < 2 * rest || (2 * rest = den && quotient % 2 = 1) then quotient + 1 else quotient

def infiniteBits : Nat := 2047 * Nat.pow 2 52

/-- The bits of the positive double nearest to a quotient of units, a half to the even neighbour.
A result of at least `infiniteBits` lies beyond the greatest double. -/
def nearestBits (num den : Nat) : Nat :=
  let shift := (num / den).log2 - 52
  shift * Nat.pow 2 52 + roundQuotient num (den * Nat.pow 2 shift)

def ofBits (negative : Bool) (bits : Nat) : Float :=
  Float.ofBits (UInt64.ofNat (if negative then Nat.pow 2 63 + bits else bits))

def ofInt (n : Int64) : Float :=
  ofBits (n.toInt < 0) (nearestBits (n.toInt.natAbs * unitsPerOne) 1)

def infinity (negative : Bool) : Float := ofBits negative infiniteBits

def nan : Float := Float.ofBits 0x7FF8000000000001

/-- The double of a quotient of units, unless the quotient lies beyond the greatest double. -/
def ofQuotient? (negative : Bool) (num den : Nat) : Option Float :=
  if nearestBits num den < infiniteBits then some (ofBits negative (nearestBits num den)) else none

/-- The remainder of the division that rounds toward zero; it has the sign of the dividend. -/
def remainder (x y : Float) : Float :=
  match view x, view y with
  | .finite negative units, .finite _ divisor =>
    if divisor = 0 then nan else ofBits negative (nearestBits (units % divisor) 1)
  | .finite _ _, .infinite _ => x
  | _, _ => nan

end Double

end StepGraph
