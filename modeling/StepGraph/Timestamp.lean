import StepGraph.Text

/-!
# Points in time

A date is a year of four digits, a month and a day.  A time of day may follow:
after the letter T, with a zone, or after spaces, without one.
-/

namespace StepGraph

namespace Timestamp

def shortNumber? : Text → Option (Nat × Text)
  | a :: b :: rest =>
    if Text.isDigit a then
      if Text.isDigit b then some (Text.digitsValue [a, b], rest)
      else some (Text.digitValue a, b :: rest)
    else none
  | [a] => if Text.isDigit a then some (Text.digitValue a, []) else none
  | [] => none

/-- What follows a byte that must come first. -/
def after? (b : UInt8) : Text → Option Text
  | [] => none
  | c :: rest => if c = b then some rest else none

def isLeap (year : Nat) : Bool := year % 4 == 0 && (year % 100 != 0 || year % 400 == 0)

def daysIn (year month : Nat) : Nat :=
  if month = 2 then if isLeap year then 29 else 28
  else if month = 4 || month = 6 || month = 9 || month = 11 then 30
  else 31

def afterDate? (t : Text) : Option Text := do
  let year := t.takeWhile Text.isDigit
  if year.length != 4 then none
  else
    let (month, t) ← shortNumber? (← after? 45 (t.drop 4))
    let (day, t) ← shortNumber? (← after? 45 t)
    if 1 ≤ month && month ≤ 12 && 1 ≤ day && day ≤ daysIn (Text.digitsValue year) month then some t
    else none

/-- A text without a leading fraction of a second: a point or comma, and digits. -/
def dropFraction : Text → Text
  | mark :: digit :: rest =>
    if (mark = 46 || mark = 44) && Text.isDigit digit then rest.dropWhile Text.isDigit
    else mark :: digit :: rest
  | t => t

def afterClock? (t : Text) : Option Text := do
  let (hour, t) ← shortNumber? t
  let (minute, t) ← shortNumber? (← after? 58 t)
  let (second, t) ← shortNumber? (← after? 58 t)
  if hour < 24 && minute < 60 && second < 60 then some (dropFraction t) else none

/-- Whether a text is a zone: the letter Z, or a sign, hours and minutes. -/
def isZone : Text → Bool
  | [90] => true
  | [sign, h, h', 58, m, m'] =>
    (sign == 43 || sign == 45) && [h, h', m, m'].all Text.isDigit
      && Text.digitsValue [h, h'] ≤ 24 && Text.digitsValue [m, m'] ≤ 60
  | _ => false

end Timestamp

/-- Whether a text is a date, with or without a time of day. -/
def isTimestamp (t : Text) : Bool :=
  match Timestamp.afterDate? t with
  | none => false
  | some [] => true
  | some (mark :: rest) =>
    if mark = 84 || mark = 116 then
      match Timestamp.afterClock? rest with
      | some zone => Timestamp.isZone zone
      | none => false
    else if mark = 32 then Timestamp.afterClock? (rest.dropWhile (· == 32)) == some []
    else false

end StepGraph
