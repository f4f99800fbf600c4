import StepGraph.Label

/-!
# Terms and expressions

An element is a literal or the name of a variable.  An expression is one
element, or two with an operator between them.  Elements and operators are also
known by number; numbers without a meaning are kept, so that using one can be
reported.
-/

namespace StepGraph

inductive ElementKind where
  | identifier
  | intLiteral
  | realLiteral
  | strLiteral
  | trueLiteral
  | falseLiteral
  | noneLiteral
  | unknown (code : Int)
  deriving DecidableEq

namespace ElementKind

/-- The kinds that have a meaning, by number. -/
def known : List ElementKind :=
  [.identifier, .intLiteral, .realLiteral, .strLiteral, .trueLiteral, .falseLiteral, .noneLiteral]

def name : ElementKind → Text
  | .identifier => utf8 "identifier"
  | .intLiteral => utf8 "int"
  | .realLiteral => utf8 "real"
  | .strLiteral => utf8 "str"
  | .trueLiteral => utf8 "True"
  | .falseLiteral => utf8 "False"
  | .noneLiteral => utf8 "None"
  | .unknown code => Label.numbered "ElementKind" code

def ofCode (code : Int) : ElementKind :=
  if 0 ≤ code then (known[code.toNat]?).getD (.unknown code) else .unknown code

def code : ElementKind → Int
  | .identifier => 0
  | .intLiteral => 1
  | .realLiteral => 2
  | .strLiteral => 3
  | .trueLiteral => 4
  | .falseLiteral => 5
  | .noneLiteral => 6
  | .unknown code => code

def ofName? (name : Text) : Option ElementKind := known.find? (·.name == name)

end ElementKind

/-- A term: `text` is the literal as written, or the name of the variable. -/
structure Element where
  kind : ElementKind
  text : Text
  deriving DecidableEq

inductive Arithmetic where
  | add
  | sub
  | mul
  | div
  | mod
  | pow
  deriving DecidableEq

inductive Comparison where
  | eq
  | ne
  | lt
  | le
  | gt
  | ge
  deriving DecidableEq

namespace Comparison

/-- Whether a comparison holds of two things in a given order. -/
def holds : Comparison → Ordering → Bool
  | .eq, order => order == .eq
  | .ne, order => order != .eq
  | .lt, order => order == .lt
  | .le, order => order != .gt
  | .gt, order => order == .gt
  | .ge, order => order != .lt

end Comparison

inductive Operator where
  | arithmetic (op : Arithmetic)
  | comparison (op : Comparison)
  | unknown (code : Int)
  deriving DecidableEq

namespace Operator

def known : List Operator :=
  [.arithmetic .add, .arithmetic .sub, .arithmetic .mul, .arithmetic .div, .arithmetic .mod,
    .arithmetic .pow, .comparison .eq, .comparison .ne, .comparison .lt, .comparison .le,
    .comparison .gt, .comparison .ge]

def symbol : Operator → Text
  | .arithmetic .add => utf8 "+"
  | .arithmetic .sub => utf8 "-"
  | .arithmetic .mul => utf8 "*"
  | .arithmetic .div => utf8 "/"
  | .arithmetic .mod => utf8 "%"
  | .arithmetic .pow => utf8 "**"
  | .comparison .eq => utf8 "=="
  | .comparison .ne => utf8 "!="
  | .comparison .lt => utf8 "<"
  | .comparison .le => utf8 "<="
  | .comparison .gt => utf8 ">"
  | .comparison .ge => utf8 ">="
  | .unknown code => Label.numbered "Operator" code

def isComparison : Operator → Bool
  | .comparison _ => true
  | _ => false

/-- The operator with a number; zero is no operator. -/
def ofCode (code : Int) : Option Operator :=
  if code = 0 then none
  else if 0 < code then some ((known[code.toNat - 1]?).getD (.unknown code))
  else some (.unknown code)

def code : Option Operator → Int
  | none => 0
  | some (.unknown code) => code
  | some op => known.idxOf op + 1

/-- The operator with a symbol; the empty symbol is no operator. -/
def ofSymbol? (symbol : Text) : Option (Option Operator) :=
  if symbol.isEmpty then some none
  else (known.find? (·.symbol == symbol)).map some

end Operator

/-- One element, or two with an operator between them. -/
structure Expr where
  lhs : Element
  operation : Option (Operator × Element)
  deriving DecidableEq

end StepGraph
