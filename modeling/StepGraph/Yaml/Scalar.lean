import StepGraph.Integer.Marked
import StepGraph.Timestamp

/-!
# What a plain scalar means

A scalar without quotes may be null, a truth value, a number or a point in
time; otherwise it is the text itself.  Underscores in numbers are passed over.
-/

namespace StepGraph

namespace Yaml

inductive Scalar where
  | null
  | bool
  | int (n : Int)
  | float (x : Float)
  | timestamp
  | text

namespace Scalar

def nullWords : List Text := ["", "~", "null", "Null", "NULL"].map utf8

def boolWords : List Text := ["true", "True", "TRUE", "false", "False", "FALSE"].map utf8

def nanWords : List Text := [".nan", ".NaN", ".NAN"].map utf8

def infinityWords : List Text := [".inf", ".Inf", ".INF"].map utf8

def digitsIn? (base : Nat) (digits : Text) : Option Nat :=
  digits.foldlM (fun value digit => do
    let d ← Text.hexValue? digit
    if d < base then some (value * base + d) else none) 0

def natural? (t : Text) : Option Nat :=
  if t.isEmpty then none else digitsIn? (Integer.splitBase t).1 (Integer.splitBase t).2

def signed? (read : Text → Option Nat) (t : Text) : Option Int :=
  match Integer.splitSign t with
  | (negative, digits) => do
    let n ← read digits
    let value : Int := if negative then -n else n
    if Integer.inRange value then some value else none

def unsigned? (t : Text) : Option Int := do
  let n ← natural? t
  if n < Nat.pow 2 64 then some n else none

def digits? (base : Nat) (t : Text) : Option Nat :=
  if t.isEmpty then none else digitsIn? base t

/-- A number whose sign stands after the mark of its base. -/
def markedFirst? : Text → Option Int
  | 48 :: 98 :: rest => signed? (digits? 2) rest
  | 48 :: 111 :: rest => signed? (digits? 8) rest
  | _ => none

def int? (t : Text) : Option Int := signed? natural? t <|> unsigned? t

/-- What follows the digits at the front of a text, when there is one. -/
def afterDigits? : Text → Option Text
  | [] => none
  | b :: rest => if Text.isDigit b then some (rest.dropWhile Text.isDigit) else none

/-- Whether a text is nothing or an exponent of ten. -/
def isExponent : Text → Bool
  | [] => true
  | e :: rest => Text.lowerByte e == 101 && afterDigits? (Integer.splitSign rest).2 == some []

def isDecimal (t : Text) : Bool :=
  match (Integer.splitSign t).2 with
  | 46 :: rest => match afterDigits? rest with
    | some rest => isExponent rest
    | none => false
  | rest => match afterDigits? rest with
    | some (46 :: rest) => isExponent (rest.dropWhile Text.isDigit)
    | some rest => isExponent rest
    | none => false

def float? (t : Text) : Option Float := if isDecimal t then Double.ofLiteral? t else none

/-- The meaning of a text that starts with a digit or a sign and is no point in time. -/
def ofNumber (t : Text) : Scalar :=
  match int? t, float? t, markedFirst? t with
  | some n, _, _ => .int n
  | none, some x, _ => .float x
  | none, none, some n => .int n
  | none, none, none => .text

/-- The meaning of a text without quotes. -/
def ofPlain (t : Text) : Scalar :=
  if nullWords.contains t then .null
  else if boolWords.contains t then .bool
  else if nanWords.contains t then .float Double.nan
  else match Integer.splitSign t with
    | (negative, rest) =>
      if infinityWords.contains rest then .float (Double.infinity negative)
      else match t with
        | [] => .null
        | first :: _ =>
          if first = 46 then
            match Double.ofLiteral? t with
            | some x => .float x
            | none => .text
          else if Text.isDigit first || first = 43 || first = 45 then
            if isTimestamp t then .timestamp else ofNumber (t.filter (· != 95))
          else .text

/-- The double with its fraction dropped; beyond the range the least number stands for it, and
numbers above the range are none. -/
def truncated? (x : Float) : Option Int :=
  match Double.view x with
  | .nan => none
  | .infinite negative => if negative then some Integer.least else none
  | .finite negative units =>
    let whole : Int := (units / Double.unitsPerOne : Nat)
    let value := if negative then -whole else whole
    if value ≤ -Integer.least then
      some (if Integer.inRange value then value else Integer.least)
    else none

def nearest (n : Int) : Float :=
  Double.ofBits (n < 0) (Double.nearestBits (n.natAbs * Double.unitsPerOne) 1)

end Scalar

end Yaml

end StepGraph
