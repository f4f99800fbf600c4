import StepGraph.Text

/-!
# Concise binary items

Data items of the concise binary object representation: numbers, strings,
arrays, maps, tagged items and simple values, and the shortest definite form of
each in bytes.
-/

namespace StepGraph

namespace Cbor

inductive Item where
  | unsigned (n : Nat)
  /-- The number `-1 - n`. -/
  | negative (n : Nat)
  | bytes (content : Text)
  /-- A text string, in the pieces in which it was written. -/
  | text (pieces : List Text)
  | array (items : List Item)
  | map (pairs : List (Item × Item))
  | tag (number : Nat) (content : Item)
  | simple (n : Nat)
  | float (width bits : Nat)

namespace Item

def null : Item := .simple 22

def ofText (t : Text) : Item := .text [t]

def ofInt : Int → Item
  | .ofNat n => .unsigned n
  | .negSucc n => .negative n

end Item

/-- The last `width` bytes of a number, most significant first. -/
def bigEndian : (width : Nat) → Nat → Text
  | 0, _ => []
  | width + 1, n => bigEndian width (n / 256) ++ [(n % 256).toUInt8]

/-- The first byte of an item: its type in three bits and five bits more. -/
def initialByte (type info : Nat) : UInt8 := (type * 32 + info).toUInt8

/-- The type of an item with its argument, in the fewest bytes. -/
def head (type argument : Nat) : Text :=
  if argument < 24 then [initialByte type argument]
  else if argument < 256 then initialByte type 24 :: bigEndian 1 argument
  else if argument < 65536 then initialByte type 25 :: bigEndian 2 argument
  else if argument < 4294967296 then initialByte type 26 :: bigEndian 4 argument
  else initialByte type 27 :: bigEndian 8 argument

mutual

def encode : Item → Text
  | .unsigned n => head 0 n
  | .negative n => head 1 n
  | .bytes content => head 2 content.length ++ content
  | .text pieces => head 3 pieces.flatten.length ++ pieces.flatten
  | .array items => head 4 items.length ++ encodeItems items
  | .map pairs => head 5 pairs.length ++ encodePairs pairs
  | .tag number content => head 6 number ++ encode content
  | .simple n => head 7 n
  | .float width bits => initialByte 7 (24 + Nat.log2 width) :: bigEndian width bits

def encodeItems : List Item → Text
  | [] => []
  | item :: rest => encode item ++ encodeItems rest

def encodePairs : List (Item × Item) → Text
  | [] => []
  | (key, value) :: rest => encode key ++ encode value ++ encodePairs rest

end

end Cbor

end StepGraph
