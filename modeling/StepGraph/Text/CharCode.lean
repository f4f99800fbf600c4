/-!
# Characters by their numbers

Escapes write a character by the hexadecimal digits of its number.
-/

namespace StepGraph

namespace CharCode

def hexValue? (c : Char) : Option Nat :=
  if c.isDigit then some (c.toNat - 48)
  else if 'a' ≤ c && c ≤ 'f' then some (c.toNat - 87)
  else if 'A' ≤ c && c ≤ 'F' then some (c.toNat - 55)
  else none

def isHexDigit (c : Char) : Bool := (hexValue? c).isSome

def read? (count : Nat) (cs : List Char) : Option Char := do
  let digits ← (cs.take count).mapM hexValue?
  let code := digits.foldl (fun n d => n * 16 + d) 0
  if digits.length = count && code ≤ 0x10FFFF && !(0xD800 ≤ code && code ≤ 0xDFFF) then
    some (Char.ofNat code)
  else none

/-- The letters of escapes with digits, and how many digits follow them. -/
def lengths : List (Char × Nat) := [('x', 2), ('u', 4), ('U', 8)]

/-- The character of an escape after its backslash, given the characters that single letters stand
for, and how long the escape is. -/
def escape? (letters : List (Char × Char)) : List Char → Option (Char × Nat)
  | [] => none
  | e :: rest =>
    match letters.lookup e, lengths.lookup e with
    | some c, _ => some (c, 1)
    | none, some count => (read? count rest).map fun c => (c, 1 + count)
    | none, none => none

end CharCode

end StepGraph
