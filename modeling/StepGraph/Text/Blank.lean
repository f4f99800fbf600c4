import StepGraph.Text.Utf8

/-!
# Blank characters and fields

The fields of a text are its maximal runs of characters that are not blank.
-/

namespace StepGraph

namespace Text

/-- The white space of all scripts. -/
def isBlankChar (c : Char) : Bool :=
  let n := c.toNat
  (9 ≤ n && n ≤ 13) || n == 0x20 || n == 0x85 || n == 0xA0 || n == 0x1680
    || (0x2000 ≤ n && n ≤ 0x200A) || n == 0x2028 || n == 0x2029 || n == 0x202F
    || n == 0x205F || n == 0x3000

namespace Piece

def isBlank : Piece → Bool
  | .char c => isBlankChar c
  | .stray _ => false

def bytes : Piece → Text
  | .char c => String.utf8EncodeChar c
  | .stray b => [b]

end Piece

/-- The fields of a sequence of pieces, where `field` holds what the current field has so far. -/
def fieldsFrom (field : Text) : List Piece → List Text
  | [] => if field.isEmpty then [] else [field]
  | piece :: rest =>
    if piece.isBlank then
      if field.isEmpty then fieldsFrom [] rest else field :: fieldsFrom [] rest
    else fieldsFrom (field ++ piece.bytes) rest

/-- The maximal runs of characters that are not blank. -/
def fields (t : Text) : List Text := fieldsFrom [] t.pieces

def isBlank (t : Text) : Bool := t.pieces.all Piece.isBlank

end Text

end StepGraph
