import StepGraph.Double.Literal

/-!
# Integers with a marked base

The base of a number is marked at its front: `0x`, `0o` and `0b`, or `0` alone
for octal.  Underscores may separate digits.
-/

namespace StepGraph

namespace Integer

def splitBase : Text → Nat × Text
  | 48 :: mark :: digit :: rest =>
    if Text.lowerByte mark = 120 then (16, digit :: rest)
    else if Text.lowerByte mark = 111 then (8, digit :: rest)
    else if Text.lowerByte mark = 98 then (2, digit :: rest)
    else (8, mark :: digit :: rest)
  | 48 :: rest => (8, rest)
  | digits => (10, digits)

inductive MarkedFault where
  | malformed
  | outOfRange
  deriving DecidableEq

/-- The value of digits with underscores among them, after those of `value`.  A value that
sixty-four bits cannot hold is found before a wrong digit behind it. -/
def digitsFrom (base value : Nat) : Text → Except MarkedFault Nat
  | [] => .ok value
  | b :: rest =>
    if b = 95 then digitsFrom base value rest
    else match Text.hexValue? b with
      | none => .error .malformed
      | some digit =>
        if base ≤ digit then .error .malformed
        else if Nat.pow 2 64 ≤ value * base + digit then .error .outOfRange
        else digitsFrom base (value * base + digit) rest

/-- A number that sixty-four bits hold, without a sign. -/
def readUnsigned (t : Text) : Except MarkedFault Nat :=
  if t.isEmpty then .error .malformed
  else
    match digitsFrom (splitBase t).1 0 (splitBase t).2 with
    | .error fault => .error fault
    | .ok value =>
      if t.contains 95 && !Double.underscoresSeparate t then .error .malformed else .ok value

/-- A number of the range, with an optional sign. -/
def readMarked (t : Text) : Except MarkedFault Int :=
  match splitSign t with
  | (negative, digits) =>
    match readUnsigned digits with
    | .error fault => .error fault
    | .ok value =>
      let signed : Int := if negative then -value else value
      if inRange signed then .ok signed else .error .outOfRange

end Integer

end StepGraph
