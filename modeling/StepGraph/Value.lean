import StepGraph.Double.Printed
import StepGraph.Label
import StepGraph.Text.Quoted

/-!
# Values

The values variables hold: nothing, integers, reals, strings, addresses of
memory cells and truth values, with the three ways to show them.
-/

namespace StepGraph

inductive Kind where
  | none
  | int
  | real
  | str
  | ptr
  | bool
  deriving DecidableEq

namespace Kind

def all : List Kind := [.none, .int, .real, .str, .ptr, .bool]

def name : Kind → Text
  | .none => utf8 "none"
  | .int => utf8 "int"
  | .real => utf8 "real"
  | .str => utf8 "str"
  | .ptr => utf8 "ptr"
  | .bool => utf8 "bool"

def nameOfCode (code : Int) : Text := Label.ofCode "Kind" (all.map name) code

end Kind

inductive Value where
  | none
  | int (n : Int64)
  | real (x : Float)
  | str (s : Text)
  | ptr (address : Int64)
  | bool (b : Bool)
  deriving DecidableEq

namespace Value

instance : Inhabited Value := ⟨.none⟩

def kind : Value → Kind
  | .none => .none
  | .int _ => .int
  | .real _ => .real
  | .str _ => .str
  | .ptr _ => .ptr
  | .bool _ => .bool

/-- The word a value holds: its number, its address, or one for true; zero for the others. -/
def word : Value → Int64
  | .int n => n
  | .ptr address => address
  | .bool true => 1
  | _ => 0

def realPart : Value → Float
  | .real x => x
  | _ => 0

def strPart : Value → Text
  | .str s => s
  | _ => []

/-- What `print` writes: reals with six decimal places, strings as they are. -/
def display : Value → Text
  | .none => utf8 "None"
  | .int n => Text.ofInt n.toInt
  | .real x => Double.fixed 6 x
  | .str s => s
  | .ptr address => Text.ofInt address.toInt
  | .bool b => utf8 (if b then "True" else "False")

/-- What the debugger shows: reals with six significant digits, truth values as numbers. -/
def inspect : Value → Text
  | .none => utf8 "None"
  | .int n => Text.ofInt n.toInt
  | .real x => Double.general 6 x
  | .str s => s
  | .ptr address => Text.ofInt address.toInt
  | .bool b => utf8 (if b then "1" else "0")

/-- A value with its kind; strings are quoted instead. -/
def describe : Value → Text
  | .str s => s.quote
  | v => v.kind.name ++ utf8 "(" ++ v.display ++ utf8 ")"

end Value

end StepGraph
