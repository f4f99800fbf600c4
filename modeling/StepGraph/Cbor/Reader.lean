import StepGraph.Cbor

/-!
# Reading items

An item is read from the front of a text.  All forms of lengths are accepted;
arrays and maps may nest thirty-two deep and hold 131072 members.
-/

namespace StepGraph

namespace Cbor

def maxDepth : Nat := 32

def maxMembers : Nat := 131072

structure Head where
  type : Nat
  info : Nat
  argument : Nat
  deriving DecidableEq

namespace Head

/-- An item or a string of unstated length. -/
def isIndefinite (h : Head) : Bool := h.info == 31

end Head

def readBigEndian? (width : Nat) (t : Text) : Option (Nat × Text) :=
  if t.length < width then none
  else some ((t.take width).foldl (fun n b => 256 * n + b.toNat) 0, t.drop width)

def argumentWidth? (info : Nat) : Option Nat :=
  match info with
  | 24 => some 1
  | 25 => some 2
  | 26 => some 4
  | 27 => some 8
  | _ => none

def readHead? : Text → Option (Head × Text)
  | [] => none
  | first :: rest =>
    let type := first.toNat / 32
    let info := first.toNat % 32
    if info < 24 then some ({ type, info, argument := info }, rest)
    else if info = 31 then
      if 2 ≤ type && type ≤ 5 then some ({ type, info, argument := 0 }, rest) else none
    else
      match argumentWidth? info with
      | none => none
      | some width =>
        match readBigEndian? width rest with
        | none => none
        | some (argument, rest) =>
          if type = 7 && info = 24 && argument < 32 then none
          else some ({ type, info, argument }, rest)

def readContent? (length : Nat) (t : Text) : Option (Text × Text) :=
  if t.length < length then none else some (t.take length, t.drop length)

/-- The pieces of a string of unstated length, each a string of the same type. -/
def readPieces? (type : Nat) : (fuel : Nat) → Text → Option (List Text × Text)
  | 0, _ => none
  | fuel + 1, t =>
    match t with
    | 0xFF :: rest => some ([], rest)
    | _ => do
      let (head, rest) ← readHead? t
      if head.type != type || head.isIndefinite then none
      else
        let (piece, rest) ← readContent? head.argument rest
        let (pieces, rest) ← readPieces? type fuel rest
        return (piece :: pieces, rest)

def readString? (head : Head) (t : Text) : Option (List Text × Text) :=
  if head.isIndefinite then readPieces? head.type (t.length + 1) t
  else (readContent? head.argument t).map fun (content, rest) => ([content], rest)

def pairUp : List Item → Option (List (Item × Item))
  | [] => some []
  | [_] => none
  | key :: value :: rest => (pairUp rest).map ((key, value) :: ·)

def simpleOrFloat (head : Head) : Item :=
  match head.info with
  | 25 => .float 2 head.argument
  | 26 => .float 4 head.argument
  | 27 => .float 8 head.argument
  | _ => .simple head.argument

def startsWithTag : Text → Bool
  | first :: _ => first.toNat / 32 == 6
  | [] => false

mutual

/-- An item inside `depth` arrays and maps; a tag around a tag counts as one more. -/
def readItem? : (fuel depth : Nat) → Text → Option (Item × Text)
  | 0, _, _ => none
  | fuel + 1, depth, t => do
    let (head, rest) ← readHead? t
    match head.type with
    | 0 => return (.unsigned head.argument, rest)
    | 1 => return (.negative head.argument, rest)
    | 2 =>
      let (pieces, rest) ← readString? head rest
      return (.bytes pieces.flatten, rest)
    | 3 =>
      let (pieces, rest) ← readString? head rest
      return (.text pieces, rest)
    | 4 =>
      let (items, rest) ← readMembers? fuel (depth + 1) head head.argument rest
      return (.array items, rest)
    | 5 =>
      let (items, rest) ← readMembers? fuel (depth + 1) head (2 * head.argument) rest
      let pairs ← pairUp items
      return (.map pairs, rest)
    | 6 =>
      let inner := if startsWithTag rest then depth + 1 else depth
      if maxDepth < inner then none
      else
        let (content, rest) ← readItem? fuel inner rest
        return (.tag head.argument content, rest)
    | _ => return (simpleOrFloat head, rest)

def readMembers? : (fuel depth : Nat) → Head → (count : Nat) → Text → Option (List Item × Text)
  | 0, _, _, _, _ => none
  | fuel + 1, depth, head, count, t =>
    if maxDepth < depth || maxMembers < head.argument then none
    else if head.isIndefinite then do
      let (items, rest) ← readUntilBreak? fuel depth t
      let limit := if head.type = 5 then 2 * maxMembers + 1 else maxMembers
      if limit < items.length then none else return (items, rest)
    else readItems? fuel depth count t

def readItems? : (fuel depth count : Nat) → Text → Option (List Item × Text)
  | 0, _, _, _ => none
  | _ + 1, _, 0, t => some ([], t)
  | fuel + 1, depth, count + 1, t => do
    let (item, rest) ← readItem? fuel depth t
    let (items, rest) ← readItems? fuel depth count rest
    return (item :: items, rest)

def readUntilBreak? : (fuel depth : Nat) → Text → Option (List Item × Text)
  | 0, _, _ => none
  | fuel + 1, depth, t =>
    match t with
    | 0xFF :: rest => some ([], rest)
    | _ => do
      let (item, rest) ← readItem? fuel depth t
      let (items, rest) ← readUntilBreak? fuel depth rest
      return (item :: items, rest)

end

def decode? (t : Text) : Option Item :=
  match readItem? (3 * t.length + 3) 0 t with
  | some (item, []) => some item
  | _ => none

end Cbor

end StepGraph
