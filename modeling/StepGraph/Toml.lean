import StepGraph.Text

/-!
# Settings as written

A settings file is a sequence of lines.  A line opens a table, opens a further
table of a list, or gives a value to a key.  Keys are sequences of names.
-/

namespace StepGraph

namespace Toml

abbrev Key := List Text

/-- A value as written. -/
inductive Term where
  | string (t : Text)
  | integer (n : Int)
  | float
  | boolean (b : Bool)
  | moment
  | array (items : List Term)
  | inline (pairs : List (Key × Term))

inductive Line where
  | table (key : Key)
  | listTable (key : Key)
  | pair (key : Key) (value : Term)

/-- A value after all lines have been taken together. -/
inductive Value where
  | string (t : Text)
  | integer (n : Int)
  | float
  | boolean (b : Bool)
  | moment
  | array (items : List Value)
  | table (fields : List (Text × Value))
  /-- Tables that were opened one after the other, the latest first. -/
  | tables (latestFirst : List (List (Text × Value)))

abbrev Table := List (Text × Value)

end Toml

end StepGraph
