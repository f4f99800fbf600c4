import StepGraph.Double
import StepGraph.Integer

/-!
# Doubles in text

A real literal is a decimal number with an optional exponent of ten, a
hexadecimal number with an exponent of two, or a word for infinity or for no
number.  Underscores may separate digits.  A prefix is read from the front of
any text.
-/

namespace StepGraph

namespace Double

inductive Reading where
  | value (x : Float)
  | tooLarge (negative : Bool)
  | malformed

namespace Reading

/-- The number, where one that is too large counts as infinite and no number as zero. -/
def toFloat : Reading → Float
  | value x => x
  | tooLarge negative => infinity negative
  | malformed => 0

end Reading

inductive Seen where
  | start
  | digit
  | underscore
  | other
  deriving DecidableEq

def underscoresFrom (isDigit : UInt8 → Bool) : Seen → Text → Bool
  | seen, [] => seen != .underscore
  | seen, b :: rest =>
    if isDigit b then underscoresFrom isDigit .digit rest
    else if b = 95 then seen == .digit && underscoresFrom isDigit .underscore rest
    else seen != .underscore && underscoresFrom isDigit .other rest

def isHexDigit (b : UInt8) : Bool := (Text.hexValue? b).isSome

/-- Whether underscores stand only between digits; a base prefix counts as a digit. -/
def underscoresSeparate (t : Text) : Bool :=
  match (Integer.splitSign t).2 with
  | 48 :: mark :: rest =>
    if Text.lowerByte mark = 120 then underscoresFrom isHexDigit .digit rest
    else if Text.lowerByte mark = 98 || Text.lowerByte mark = 111 then
      underscoresFrom Text.isDigit .digit rest
    else underscoresFrom Text.isDigit .start (48 :: mark :: rest)
  | rest => underscoresFrom Text.isDigit .start rest

/-- Digits with an optional point among them: the digits, how many follow the point, and the
rest. -/
def splitMantissa (isDigit : UInt8 → Bool) (t : Text) : Text × Nat × Text :=
  let whole := t.takeWhile isDigit
  match t.dropWhile isDigit with
  | 46 :: rest =>
    (whole ++ rest.takeWhile isDigit, (rest.takeWhile isDigit).length, rest.dropWhile isDigit)
  | rest => (whole, 0, rest)

/-- The size of an exponent; digits past the fifth change nothing. -/
def exponentValue (digits : Text) : Nat :=
  digits.foldl (fun value digit =>
    if value < 10000 then 10 * value + Text.digitValue digit else value) 0

/-- A sign and at least one digit, up to the end of the text. -/
def exponent? (t : Text) : Option Int :=
  match Integer.splitSign t with
  | (negative, digits) =>
    if !digits.isEmpty && digits.all Text.isDigit then
      some (if negative then -(exponentValue digits : Int) else exponentValue digits)
    else none

/-- The number `mantissa * base ^ exponent`. -/
def scaled (negative : Bool) (mantissa base : Nat) (exponent : Int) : Reading :=
  let result :=
    if 0 ≤ exponent then
      ofQuotient? negative (mantissa * unitsPerOne * Nat.pow base exponent.toNat) 1
    else ofQuotient? negative (mantissa * unitsPerOne) (Nat.pow base (-exponent).toNat)
  match result with
  | some x => .value x
  | none => .tooLarge negative

def readDecimal (negative : Bool) (t : Text) : Reading :=
  match splitMantissa Text.isDigit t with
  | (digits, places, rest) =>
    if digits.isEmpty then .malformed
    else
      match rest with
      | [] => scaled negative (Text.digitsValue digits) 10 (-places)
      | mark :: rest =>
        if Text.lowerByte mark = 101 then
          match exponent? rest with
          | some exponent => scaled negative (Text.digitsValue digits) 10 (exponent - places)
          | none => .malformed
        else .malformed

def hexDigitsValue (digits : Text) : Nat :=
  digits.foldl (fun value digit => 16 * value + (Text.hexValue? digit).getD 0) 0

def readHex (negative : Bool) (t : Text) : Reading :=
  match splitMantissa isHexDigit t with
  | (digits, places, rest) =>
    if digits.isEmpty then .malformed
    else
      match rest with
      | mark :: rest =>
        if Text.lowerByte mark = 112 then
          match exponent? rest with
          | some exponent => scaled negative (hexDigitsValue digits) 2 (exponent - 4 * places)
          | none => .malformed
        else .malformed
      | [] => .malformed

def readNumber (negative : Bool) : Text → Reading
  | 48 :: mark :: rest =>
    if Text.lowerByte mark = 120 then readHex negative rest
    else readDecimal negative (48 :: mark :: rest)
  | t => readDecimal negative t

def read (t : Text) : Reading :=
  match Integer.splitSign t with
  | (negative, rest) =>
    if rest.lower = utf8 "inf" || rest.lower = utf8 "infinity" then .value (infinity negative)
    else if t.lower = utf8 "nan" then .value nan
    else if underscoresSeparate t then readNumber negative (rest.filter (· != 95))
    else .malformed

/-- The number of a literal; one that is too large is refused. -/
def ofLiteral? (t : Text) : Option Float :=
  match read t with
  | .value x => some x
  | _ => none

/-- The words that may stand for a number, the longer of two first. -/
def words : List Text := [utf8 "infinity", utf8 "inf", utf8 "nan"]

/-- The letters of a text in small form.  Besides the ASCII capitals, the capital dotted I, which
takes two bytes, has a small form of one byte. -/
def smallLetters : Text → Text
  | [] => []
  | 0xC4 :: 0xB0 :: rest => 105 :: smallLetters rest
  | b :: rest => Text.lowerByte b :: smallLetters rest

def startsWithWord (t word : Text) : Bool := word.isPrefixOf (smallLetters t)

def fractionPrefix : Text → Text
  | 46 :: rest => 46 :: rest.takeWhile Text.isDigit
  | _ => []

def exponentPrefix : Text → Text
  | [] => []
  | mark :: rest =>
    let digits := (Integer.splitSign rest).2.takeWhile Text.isDigit
    if Text.lowerByte mark = 101 && !digits.isEmpty then
      mark :: (Integer.leadingSign rest ++ digits)
    else []

def mantissaPrefix (t : Text) : Text :=
  t.takeWhile Text.isDigit ++ fractionPrefix (t.dropWhile Text.isDigit)

/-- The longest decimal number at the front of a text without a sign, empty when there is none. -/
def decimalPrefix (t : Text) : Text :=
  if (mantissaPrefix t).any Text.isDigit then
    mantissaPrefix t ++ exponentPrefix (t.drop (mantissaPrefix t).length)
  else []

/-- The part of a text without a sign that is read as a real number: as many bytes as a word has
whose letters stand in front, or the longest decimal number; `none` when there is no number. -/
def magnitudePrefix? (t : Text) : Option Text :=
  match words.find? (startsWithWord t) with
  | some word => some (t.take word.length)
  | none => if (decimalPrefix t).isEmpty then none else some (decimalPrefix t)

/-- The part of a text that is read as a real number, with its sign, after white space. -/
def numericPrefix? (t : Text) : Option Text :=
  let t := t.dropWhile Integer.isSpace
  (magnitudePrefix? (Integer.splitSign t).2).map (Integer.leadingSign t ++ ·)

/-- The real number at the front of a text, zero when there is none. -/
def ofPrefix (t : Text) : Float :=
  match numericPrefix? t with
  | some number => (read number).toFloat
  | none => 0

end Double

end StepGraph
