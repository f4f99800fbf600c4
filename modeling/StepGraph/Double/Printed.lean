import StepGraph.Double
import StepGraph.Text

/-!
# Doubles in print

Two forms: a fixed number of decimal places, and a fixed number of significant
digits without trailing zeros.  Both round the exact value, a half to the even
neighbour.
-/

namespace StepGraph

namespace Double

def signText (negative : Bool) : Text := if negative then utf8 "-" else []

/-- The printed form of a double whose finite absolute values are printed by `finite`. -/
def printWith (finite : Nat → Text) (x : Float) : Text :=
  match view x with
  | .nan => utf8 "NaN"
  | .infinite negative => if negative then utf8 "-Inf" else utf8 "+Inf"
  | .finite negative units => signText negative ++ finite units

def padLeft (width : Nat) (digits : Text) : Text :=
  List.replicate (width - digits.length) 48 ++ digits

def fixedUnits (places units : Nat) : Text :=
  let scaled := roundQuotient (units * Nat.pow 10 places) unitsPerOne
  Text.ofNat (scaled / Nat.pow 10 places) ++ utf8 "." ++
    padLeft places (Text.ofNat (scaled % Nat.pow 10 places))

def fixed (places : Nat) (x : Float) : Text := printWith (fixedUnits places) x

/-- The least shift, at most `fuel`, by which a number of units below one must be multiplied by
ten to reach one. -/
def leadingZeros (units : Nat) : (fuel : Nat) → Nat
  | 0 => 0
  | fuel + 1 => if unitsPerOne ≤ units then 0 else leadingZeros (units * 10) fuel + 1

/-- The power of ten of the first digit of a positive number of units. -/
def decimalExponent (units : Nat) : Int :=
  if unitsPerOne ≤ units then (Text.ofNat (units / unitsPerOne)).length - 1
  else -(leadingZeros units 400 : Int)

/-- A positive number of units rounded to `count` significant digits: the digits as one number,
and the power of ten of the first of them. -/
def significant (count units : Nat) : Nat × Int :=
  let exponent := decimalExponent units
  let shift : Int := count - 1 - exponent
  let digits :=
    if 0 ≤ shift then roundQuotient (units * Nat.pow 10 shift.toNat) unitsPerOne
    else roundQuotient units (unitsPerOne * Nat.pow 10 (-shift).toNat)
  if digits < Nat.pow 10 count then (digits, exponent) else (digits / 10, exponent + 1)

def dropTrailingZeros (digits : Text) : Text :=
  (digits.reverse.dropWhile (· == 48)).reverse

def fractionText (digits : Text) : Text := if digits.isEmpty then [] else utf8 "." ++ digits

/-- Digits with the power of ten of the first one written out. -/
def scientific (digits : Text) (exponent : Int) : Text :=
  digits.take 1 ++ fractionText (digits.drop 1) ++ utf8 (if exponent < 0 then "e-" else "e+")
    ++ padLeft 2 (Text.ofNat exponent.natAbs)

def positional (digits : Text) (exponent : Int) : Text :=
  if exponent < 0 then
    utf8 "0." ++ List.replicate ((-exponent).toNat - 1) 48 ++ digits
  else
    let whole := exponent.toNat + 1
    digits.take whole ++ List.replicate (whole - digits.length) 48 ++
      fractionText (digits.drop whole)

/-- A number of units in at most `count` significant digits; the power of ten is written out below
-4 and from `count` on. -/
def generalUnits (count units : Nat) : Text :=
  if units = 0 then utf8 "0"
  else
    match significant count units with
    | (number, exponent) =>
      let digits := dropTrailingZeros (Text.ofNat number)
      if exponent < -4 || (count : Int) ≤ exponent then scientific digits exponent
      else positional digits exponent

def general (count : Nat) (x : Float) : Text := printWith (generalUnits count) x

end Double

end StepGraph
