import StepGraph.Text

/-!
# Bytes as letters in base sixty-four

Three bytes are four letters.  A last group of one or two bytes is filled up
with equals signs.  Line ends between letters are passed over on reading.
-/

namespace StepGraph

namespace Text

def base64Letter (n : Nat) : UInt8 :=
  if n < 26 then (65 + n).toUInt8
  else if n < 52 then (71 + n).toUInt8
  else if n < 62 then (n - 4).toUInt8
  else if n = 62 then 43
  else 47

def base64Value? (b : UInt8) : Option Nat :=
  if 65 ≤ b && b ≤ 90 then some (b.toNat - 65)
  else if 97 ≤ b && b ≤ 122 then some (b.toNat - 71)
  else if isDigit b then some (b.toNat + 4)
  else if b = 43 then some 62
  else if b = 47 then some 63
  else none

/-- The four letters of a number below two to the power twenty-four. -/
def base64Group (n : Nat) : Text :=
  [n / 262144, n / 4096 % 64, n / 64 % 64, n % 64].map base64Letter

def toBase64 : Text → Text
  | [] => []
  | [a] => (base64Group (a.toNat * 65536)).take 2 ++ [61, 61]
  | [a, b] => (base64Group (a.toNat * 65536 + b.toNat * 256)).take 3 ++ [61]
  | a :: b :: c :: rest => base64Group (a.toNat * 65536 + b.toNat * 256 + c.toNat) ++ toBase64 rest

def base64Number? (a b c d : UInt8) : Option Nat := do
  return (← base64Value? a) * 262144 + (← base64Value? b) * 4096 + (← base64Value? c) * 64
    + (← base64Value? d)

def threeBytes (n : Nat) : Text := [(n / 65536).toUInt8, (n / 256 % 256).toUInt8, (n % 256).toUInt8]

/-- The bytes of letters without line ends. -/
def ofBase64Letters? : Text → Option Text
  | [] => some []
  | [a, b, 61, 61] => (base64Number? a b 65 65).map fun n => (threeBytes n).take 1
  | [a, b, c, 61] => (base64Number? a b c 65).map fun n => (threeBytes n).take 2
  | a :: b :: c :: d :: rest => do
    let n ← base64Number? a b c d
    return threeBytes n ++ (← ofBase64Letters? rest)
  | _ => none

def ofBase64? (t : Text) : Option Text := ofBase64Letters? (t.filter fun b => b != 10 && b != 13)

end Text

end StepGraph
