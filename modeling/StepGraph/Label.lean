import StepGraph.Text

/-!
# Names of numbered things

Kinds, operators and states have small numbers.  A number without a name is
shown with the label of its family.
-/

namespace StepGraph

namespace Label

/-- A number in the brackets of its family, such as `Kind(7)`. -/
def numbered (family : String) (code : Int) : Text :=
  utf8 family ++ utf8 "(" ++ Text.ofInt code ++ utf8 ")"

def ofCode (family : String) (names : List Text) (code : Int) : Text :=
  if 0 ≤ code then (names[code.toNat]?).getD (numbered family code) else numbered family code

end Label

end StepGraph
