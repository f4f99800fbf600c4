import StepGraph.Text.Utf8
import StepGraph.Toml

/-!
# Keys in messages

A name of letters, digits, underscores and hyphens is written as it is, any
other in quotes with escapes.
-/

namespace StepGraph

namespace Toml

def isBareByte (b : UInt8) : Bool :=
  Text.isDigit b || (97 ≤ Text.lowerByte b && Text.lowerByte b ≤ 122) || b == 95 || b == 45

/-- A byte inside quotes. -/
def quotedByte (b : UInt8) : Text :=
  if b = 34 || b = 92 then [92, b]
  else if b = 8 then utf8 "\\b"
  else if b = 9 then utf8 "\\t"
  else if b = 10 then utf8 "\\n"
  else if b = 12 then utf8 "\\f"
  else if b = 13 then utf8 "\\r"
  else if b < 32 || b = 127 then utf8 "\\u" ++ Text.hexDigits 4 b.toNat
  else [b]

def nameText (name : Text) : Text :=
  if !name.isEmpty && name.all isBareByte then name else [34] ++ name.flatMap quotedByte ++ [34]

def keyText (key : Key) : Text := Text.join [46] (key.map nameText)

/-- A name with the case of its letters removed.  The long s and the Kelvin sign count as the
letters they look like. -/
def folded (name : Text) : Text :=
  (name.chars?.getD []).flatMap fun c =>
    if c = '\u017f' then [115] else if c = '\u212a' then [107] else (Text.ofChars [c]).lower

end Toml

end StepGraph
