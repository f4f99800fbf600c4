import StepGraph.Draft
import StepGraph.Yaml.Style

/-!
# Drafts in readable form

Every field has a line of its own, in a fixed order, and empty fields are left
out.  A nested structure starts at the next multiple of four columns, a
structure in a list two columns after its dash.
-/

namespace StepGraph

namespace Yaml

/-- The next multiple of the step after a column. -/
def deeper (column : Nat) : Nat := step * ((column + step) / step)

def indented (column : Nat) (t : Text) : Text := List.replicate column 32 ++ t

def textField (column : Nat) (name : String) (value : Text) : Text :=
  indented column (utf8 name ++ utf8 ": " ++ scalarText (deeper column) value)

def optionalText (column : Nat) (name : String) (value : Text) : Text :=
  if value.isEmpty then [] else textField column name value

def nestedField {α : Type} (column : Nat) (name : String) (write : Nat → α → Text) :
    Option α → Text
  | some value => indented column (utf8 name ++ utf8 ":\n") ++ write (deeper column) value
  | none => []

def elementText (column : Nat) (e : ElementDraft) : Text :=
  textField column "kind" e.kind ++ optionalText column "value" e.value

def exprText (column : Nat) (e : ExprDraft) : Text :=
  nestedField column "lhs" elementText (some e.lhs) ++ optionalText column "op" e.op
    ++ nestedField column "rhs" elementText e.rhs

mutual

def statementText (column : Nat) : StatementDraft → Text
  | { line, kind, target, function, argument, expr, body } =>
    indented column (utf8 "- line: " ++ Text.ofInt line ++ [10])
      ++ textField (column + 2) "kind" kind
      ++ optionalText (column + 2) "target" target
      ++ optionalText (column + 2) "func" function
      ++ nestedField (column + 2) "arg" elementText argument
      ++ nestedField (column + 2) "expr" exprText expr
      ++ bodyText (column + 2) body

def bodyText (column : Nat) : List StatementDraft → Text
  | [] => []
  | s :: rest =>
    indented column (utf8 "body:\n") ++ statementText (deeper column) s
      ++ statementsText (deeper column) rest

def statementsText (column : Nat) : List StatementDraft → Text
  | [] => []
  | s :: rest => statementText column s ++ statementsText column rest

end

/-- A draft as readable text. -/
def write (d : Draft) : Text :=
  match d.toList with
  | [] => utf8 "statements: []\n"
  | statements => utf8 "statements:\n" ++ statementsText step statements

end Yaml

end StepGraph
