import StepGraph.Label

/-!
# What can go wrong

An execution error is the fault of the program that runs and belongs to one of
its lines.  A defect is the fault of whoever made the graph or the call; the
graphs built from checked programs have none.
-/

namespace StepGraph

inductive ErrorKind where
  | semantic
  | runtime
  deriving DecidableEq

namespace ErrorKind

def name : ErrorKind → Text
  | .semantic => utf8 "SEMANTIC ERROR"
  | .runtime => utf8 "RUNTIME ERROR"

def nameOfCode (code : Int) : Text :=
  Label.ofCode "ErrorKind" ([ErrorKind.semantic, ErrorKind.runtime].map name) code

end ErrorKind

inductive Cause where
  | undefinedName (name : Text)
  | invalidInt (literal : Text)
  | invalidReal (literal : Text)
  | invalidOperands
  | divisionByZero
  | negativeExponent
  | unknownFunction (name : Text)
  | promptNotString
  | endOfInput
  | inputFailed (reason : Text)
  | notVariable (function : Text)
  | notString (function : Text)
  | notNumber (function : Text)
  | conditionNotBool
  deriving DecidableEq

namespace Cause

def kind : Cause → ErrorKind
  | .divisionByZero | .negativeExponent | .endOfInput | .inputFailed _ => .runtime
  | _ => .semantic

def message : Cause → Text
  | .undefinedName name => utf8 "name '" ++ name ++ utf8 "' is not defined"
  | .invalidInt literal => utf8 "invalid int literal '" ++ literal ++ utf8 "'"
  | .invalidReal literal => utf8 "invalid real literal '" ++ literal ++ utf8 "'"
  | .invalidOperands => utf8 "invalid operand types"
  | .divisionByZero => utf8 "division by zero"
  | .negativeExponent => utf8 "negative exponent in integer power"
  | .unknownFunction name => utf8 "unknown function '" ++ name ++ utf8 "'"
  | .promptNotString => utf8 "input() prompt must be a string"
  | .endOfInput => utf8 "EOF when reading a line"
  | .inputFailed reason => utf8 "input(): " ++ reason
  | .notVariable function => function ++ utf8 "() argument must be a string variable"
  | .notString function => function ++ utf8 "() argument must be a string"
  | .notNumber function => utf8 "invalid string for " ++ function ++ utf8 "()"
  | .conditionNotBool => utf8 "while condition must be a boolean"

end Cause

/-- A failed statement: its line and the cause. -/
structure ExecutionError where
  line : Int
  cause : Cause
  deriving DecidableEq

namespace ExecutionError

def kind (e : ExecutionError) : ErrorKind := e.cause.kind

def message (e : ExecutionError) : Text :=
  utf8 "**" ++ e.kind.name ++ utf8 ": " ++ e.cause.message ++ utf8 " (line " ++ Text.ofInt e.line
    ++ utf8 ")"

end ExecutionError

/-- A call or a graph that makes no sense. -/
inductive Defect where
  | missingStatement
  | invalidNode (id : Int)
  | bodyOfStep (line : Int)
  | unexpectedElement (name : Text)
  | unexpectedOperator (name : Text)
  | missingOperator
  deriving DecidableEq

namespace Defect

def message : Defect → Text
  | .missingStatement => utf8 "program: Add with nil statement"
  | .invalidNode id => utf8 "program: invalid node id " ++ Text.ofInt id
  | .bodyOfStep line => utf8 "program: body branch on non-loop node at line " ++ Text.ofInt line
  | .unexpectedElement name => utf8 "vm: unexpected element kind " ++ name
  | .unexpectedOperator name => utf8 "vm: unexpected operator " ++ name
  | .missingOperator => utf8 "vm: EvalBinary without operator"

end Defect

inductive Fault where
  | error (e : ExecutionError)
  | defect (d : Defect)
  deriving DecidableEq

end StepGraph
