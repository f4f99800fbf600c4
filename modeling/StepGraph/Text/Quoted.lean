import StepGraph.Text.Utf8
import StepGraph.Text.Printable

/-!
# Quoted texts

A text between double quotes on one printable line: printable characters stand
for themselves, the usual control characters have a letter, all others are
written by number, and a stray byte by its value.
-/

namespace StepGraph

namespace Text

/-- The letter that names a control character, a quote or a backslash after a backslash. -/
def escapeLetter? (c : Char) : Option UInt8 :=
  match c.toNat with
  | 7 => some 97
  | 8 => some 98
  | 9 => some 116
  | 10 => some 110
  | 11 => some 118
  | 12 => some 102
  | 13 => some 114
  | 34 => some 34
  | 92 => some 92
  | _ => none

def quoteChar (c : Char) : Text :=
  match escapeLetter? c with
  | some letter => [92, letter]
  | none =>
    if isPrintable c then String.utf8EncodeChar c
    else if c.toNat < 0x80 then utf8 "\\x" ++ hexDigits 2 c.toNat
    else if c.toNat < 0x10000 then utf8 "\\u" ++ hexDigits 4 c.toNat
    else utf8 "\\U" ++ hexDigits 8 c.toNat

def quotePiece : Piece → Text
  | .char c => quoteChar c
  | .stray b => utf8 "\\x" ++ hexDigits 2 b.toNat

/-- The text between double quotes, with escapes. -/
def quote (t : Text) : Text := [34] ++ t.pieces.flatMap quotePiece ++ [34]

end Text

end StepGraph
