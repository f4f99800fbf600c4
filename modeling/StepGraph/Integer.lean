import StepGraph.Text

/-!
# Sixty-four bit integers in text

A literal is an optional sign and decimal digits whose value fits.  A prefix is
read from the front of any text and saturates at the ends of the range.
-/

namespace StepGraph

namespace Integer

def least : Int := -9223372036854775808

def greatest : Int := 9223372036854775807

def inRange (n : Int) : Bool := least ≤ n && n ≤ greatest

def clamp (n : Int) : Int := max least (min n greatest)

/-- An optional sign, as a statement that the number is negative, and the rest. -/
def splitSign : Text → Bool × Text
  | [] => (false, [])
  | b :: rest =>
    if b = 43 then (false, rest)
    else if b = 45 then (true, rest)
    else (false, b :: rest)

def leadingSign : Text → Text
  | [] => []
  | b :: _ => if b = 43 || b = 45 then [b] else []

def signedValue (negative : Bool) (digits : Text) : Int :=
  if negative then -(Text.digitsValue digits : Int) else Text.digitsValue digits

/-- The number a literal stands for: an optional sign and at least one digit, nothing else. -/
def ofLiteral? (t : Text) : Option Int :=
  match splitSign t with
  | (negative, digits) =>
    if !digits.isEmpty && digits.all Text.isDigit && inRange (signedValue negative digits) then
      some (signedValue negative digits)
    else none

/-- Space, tab, line feed, vertical tab, form feed and carriage return. -/
def isSpace (b : UInt8) : Bool := b == 32 || (9 ≤ b && b ≤ 13)

/-- The longest sign and digits after leading white space, clamped to the range; zero when there
is no digit. -/
def ofPrefix (t : Text) : Int :=
  match splitSign (t.dropWhile isSpace) with
  | (negative, rest) => clamp (signedValue negative (rest.takeWhile Text.isDigit))

/-- Repeated squaring in wrapping arithmetic: a result so far, times a power. -/
def timesPower (result base : Int64) (exponent : Nat) : Int64 :=
  if exponent = 0 then result
  else
    timesPower (if exponent % 2 = 1 then result * base else result) (base * base) (exponent / 2)
termination_by exponent
decreasing_by omega

def power (base : Int64) (exponent : Nat) : Int64 := timesPower 1 base exponent

end Integer

end StepGraph
