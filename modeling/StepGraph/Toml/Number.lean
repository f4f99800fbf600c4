import StepGraph.Double.Literal
import StepGraph.Text.CharCode
import StepGraph.Timestamp
import StepGraph.Toml

/-!
# Numbers and points in time

What starts like a number is a whole number, a real number or a point in time,
by the characters that follow its first digits.
-/

namespace StepGraph

namespace Toml

/-- Whether every underscore follows a digit, and a digit ends the number. -/
def underscoresFit (digits : List Char) : Bool := go false digits
where
  go (afterDigit : Bool) : List Char → Bool
    | [] => afterDigit
    | c :: rest => (c != '_' || afterDigit) && go (CharCode.isHexDigit c) rest

/-- Whether a number of several digits starts with a zero, a mark of its base aside. -/
def hasLeadingZero : List Char → Bool
  | '0' :: mark :: _ => !(mark == 'b' || mark == 'o' || mark == 'x')
  | '-' :: '0' :: _ :: _ => true
  | '+' :: '0' :: _ :: _ => true
  | _ => false

def digitsValue (base : Nat) (digits : List Char) : Nat :=
  (digits.filterMap CharCode.hexValue?).foldl (fun n d => n * base + d) 0

def integer? (token : List Char) : Option Term :=
  if !underscoresFit token || hasLeadingZero token then none
  else
    let value : Int := match token with
      | '0' :: 'x' :: digits => digitsValue 16 digits
      | '0' :: 'o' :: digits => digitsValue 8 digits
      | '0' :: 'b' :: digits => digitsValue 2 digits
      | '-' :: digits => -digitsValue 10 digits
      | '+' :: digits => digitsValue 10 digits
      | digits => digitsValue 10 digits
    if Integer.inRange value then some (.integer value) else none

/-- The parts of a real number between points and exponent marks, without empty ones. -/
def floatParts (token : List Char) : List (List Char) :=
  (token.splitBy fun c d => isMark c == isMark d).filter fun part => !part.any isMark
where
  isMark (c : Char) : Bool := c == '.' || c == 'e' || c == 'E'

def pointsFit : List Char → Bool
  | [] => true
  | c :: rest => (c != '.' || rest.head?.any Char.isDigit) && pointsFit rest

def float? (token : List Char) : Option Term :=
  let parts := floatParts token
  if !parts.all underscoresFit || parts.head?.any hasLeadingZero || !pointsFit token then none
  else
    let digits : Text := (token.filter (· != '_')).map fun c => c.toNat.toUInt8
    (Double.ofLiteral? digits).map fun _ => .float

/-! ## Points in time -/

def twoDigits? (limit : Nat) : Text → Option Text
  | a :: b :: rest =>
    if Text.isDigit a && Text.isDigit b && Text.digitsValue [a, b] < limit then some rest else none
  | _ => none

def afterClock? (t : Text) : Option Text := do
  let t ← twoDigits? 24 t
  let t ← twoDigits? 60 (← Timestamp.after? 58 t)
  match t with
  | 58 :: rest => return Timestamp.dropFraction (← twoDigits? 60 rest)
  | t => return t

def afterDate? (t : Text) : Option Text :=
  match Timestamp.afterDate? t with
  | some rest => if rest.length + 10 = t.length then some rest else none
  | none => none

/-- Whether a text is a date, a time of day, or both with or without a zone.  The letter T between
them may be a space, and letters may be small. -/
def isMoment (token : Text) : Bool :=
  let t := token.map fun b => if b = 122 then 90 else if b = 116 || b = 32 then 84 else b
  match afterDate? t with
  | some [] => true
  | some (84 :: rest) => match afterClock? rest with
    | some zone => zone.isEmpty || Timestamp.isZone zone
    | none => false
  | some _ => false
  | none => afterClock? t == some []

def moment? (token : List Char) : Option Term :=
  let trimmed := (token.reverse.dropWhile (· == ' ')).reverse
  if isMoment (trimmed.map fun c => c.toNat.toUInt8) then some .moment else none

/-! ## From the characters of a file -/

def isMomentChar (c : Char) : Bool :=
  c.isDigit || ['-', ':', 'T', 't', ' ', '.', 'Z', 'z', '+'].contains c

def isFloatChar (c : Char) : Bool := c.isDigit || ['_', '.', '-', '+', 'e', 'E'].contains c

def finish (read? : List Char → Option Term) (belongs : Char → Bool) (before cs : List Char) :
    Option (Term × List Char) := do
  return (← read? (before ++ cs.takeWhile belongs), cs.dropWhile belongs)

/-- A decimal number after a sign, or without one when `mayBeMoment`. -/
def decimal? (mayBeMoment : Bool) (sign cs : List Char) : Option (Term × List Char) :=
  let digits := sign ++ cs.takeWhile Char.isDigit
  match cs.dropWhile Char.isDigit with
  | c :: rest =>
    if mayBeMoment && (c = '-' || c = ':') then finish moment? isMomentChar digits (c :: rest)
    else if c = '_' then
      let more := (c :: rest).takeWhile fun c => c.isDigit || c == '_'
      let rest := (c :: rest).dropWhile fun c => c.isDigit || c == '_'
      if rest.head?.any fun c => c == '.' || c == 'e' || c == 'E' then
        finish float? isFloatChar (digits ++ more) rest
      else finish integer? (fun _ => false) (digits ++ more) rest
    else if c = '.' || c = 'e' || c = 'E' then finish float? isFloatChar digits (c :: rest)
    else finish integer? (fun _ => false) digits (c :: rest)
  | [] => finish integer? (fun _ => false) digits []

/-- A number in another base, after its mark; a digit must follow the mark. -/
def based? (mark : Char) (isDigit : Char → Bool) (cs : List Char) : Option (Term × List Char) :=
  if cs.head?.any isDigit then finish integer? (fun c => isDigit c || c == '_') ['0', mark] cs
  else none

/-- A number or point in time at the front of characters. -/
def number? : List Char → Option (Term × List Char)
  | '0' :: 'x' :: cs => based? 'x' CharCode.isHexDigit cs
  | '0' :: 'o' :: cs => based? 'o' (fun c => '0' ≤ c && c ≤ '7') cs
  | '0' :: 'b' :: cs => based? 'b' (fun c => c == '0' || c == '1') cs
  | c :: cs =>
    if c = '+' || c = '-' then
      match cs with
      | 'i' :: 'n' :: 'f' :: rest => some (.float, rest)
      | 'n' :: 'a' :: 'n' :: rest => some (.float, rest)
      | '0' :: mark :: rest =>
        if mark = 'x' || mark = 'o' || mark = 'b' then none
        else decimal? false [c] ('0' :: mark :: rest)
      | d :: rest => if d.isDigit then decimal? false [c] (d :: rest) else none
      | [] => none
    else if c.isDigit then decimal? true [] (c :: cs)
    else none
  | [] => none

end Toml

end StepGraph
