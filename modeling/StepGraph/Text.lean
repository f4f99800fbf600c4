/-!
# Texts

A text is a sequence of bytes.  Names, string values and everything that is
printed are texts; most are UTF-8, but nothing here requires it.
-/

namespace StepGraph

abbrev Text := List UInt8

def utf8 (s : String) : Text := s.toUTF8.data.toList

namespace Text

def newline : UInt8 := 10

def isDigit (b : UInt8) : Bool := 48 ≤ b && b ≤ 57

def digitValue (b : UInt8) : Nat := b.toNat - 48

def lowerByte (b : UInt8) : UInt8 := if 65 ≤ b && b ≤ 90 then b + 32 else b

def lower (t : Text) : Text := t.map lowerByte

/-- Equality of texts up to the case of ASCII letters. -/
def sameLetters (s t : Text) : Bool := s.lower == t.lower

def ofNat (n : Nat) : Text := (Nat.toDigits 10 n).map fun c => c.toNat.toUInt8

/-- A whole number in decimal, with a sign only when it is negative. -/
def ofInt : Int → Text
  | .ofNat n => ofNat n
  | .negSucc n => 45 :: ofNat (n + 1)

def digitsValue (digits : Text) : Nat :=
  digits.foldl (fun value digit => 10 * value + digitValue digit) 0

/-- Carriage returns and line feeds are removed from the end. -/
def trimLineEnd (t : Text) : Text :=
  (t.reverse.dropWhile fun b => b == 10 || b == 13).reverse

/-- The text up to and including its first line feed, and the rest; the whole text when it
has none. -/
def takeLine : Text → Text × Text
  | [] => ([], [])
  | b :: rest =>
    if b = newline then ([b], rest)
    else match takeLine rest with
      | (line, rest) => (b :: line, rest)

def join (separator : Text) : List Text → Text
  | [] => []
  | [t] => t
  | t :: u :: rest => t ++ separator ++ join separator (u :: rest)

/-- Bytewise dictionary order; a proper initial part comes first. -/
def compare : Text → Text → Ordering
  | [], [] => .eq
  | [], _ :: _ => .lt
  | _ :: _, [] => .gt
  | a :: s, b :: t => if a < b then .lt else if b < a then .gt else compare s t

def hexValue? (b : UInt8) : Option Nat :=
  if isDigit b then some (b.toNat - 48)
  else if 97 ≤ b && b ≤ 102 then some (b.toNat - 87)
  else if 65 ≤ b && b ≤ 70 then some (b.toNat - 55)
  else none

def hexDigit (n : Nat) : UInt8 := if n < 10 then (48 + n).toUInt8 else (87 + n).toUInt8

def hexDigits : (width : Nat) → Nat → Text
  | 0, _ => []
  | width + 1, n => hexDigits width (n / 16) ++ [hexDigit (n % 16)]

end Text

end StepGraph
