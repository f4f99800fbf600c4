import StepGraph.Double.Literal
import StepGraph.Expr
import StepGraph.Fault
import StepGraph.Memory

/-!
# Evaluation

Elements are looked up or read as literals.  Integers wrap at sixty-four bits
and divide toward zero; an integer next to a real becomes a real; strings are
joined and compared.  Every other pair of kinds is refused.
-/

namespace StepGraph

def failAt {α : Type} (line : Int) (cause : Cause) : Except Fault α :=
  .error (.error { line, cause })

namespace Element

def eval (e : Element) (memory : Memory) (line : Int) : Except Fault Value :=
  match e.kind with
  | .identifier =>
    match memory.read? e.text with
    | some value => .ok value
    | none => failAt line (.undefinedName e.text)
  | .intLiteral =>
    match Integer.ofLiteral? e.text with
    | some n => .ok (.int (Int64.ofInt n))
    | none => failAt line (.invalidInt e.text)
  | .realLiteral =>
    match Double.ofLiteral? e.text with
    | some x => .ok (.real x)
    | none => failAt line (.invalidReal e.text)
  | .strLiteral => .ok (.str e.text)
  | .trueLiteral => .ok (.bool true)
  | .falseLiteral => .ok (.bool false)
  | .noneLiteral => .ok .none
  | .unknown code => .error (.defect (.unexpectedElement (ElementKind.unknown code).name))

end Element

namespace Arithmetic

def onInts (op : Arithmetic) (a b : Int64) (line : Int) : Except Fault Value :=
  match op with
  | .add => .ok (.int (a + b))
  | .sub => .ok (.int (a - b))
  | .mul => .ok (.int (a * b))
  | .div => if b = 0 then failAt line .divisionByZero else .ok (.int (a / b))
  | .mod => if b = 0 then failAt line .divisionByZero else .ok (.int (a % b))
  | .pow =>
    if b < 0 then failAt line .negativeExponent
    else .ok (.int (Integer.power a b.toInt.toNat))

def onReals (op : Arithmetic) (a b : Float) (line : Int) : Except Fault Value :=
  match op with
  | .add => .ok (.real (a + b))
  | .sub => .ok (.real (a - b))
  | .mul => .ok (.real (a * b))
  | .div => if b == 0 then failAt line .divisionByZero else .ok (.real (a / b))
  | .mod => if b == 0 then failAt line .divisionByZero else .ok (.real (Double.remainder a b))
  | .pow => .ok (.real (a.pow b))

end Arithmetic

namespace Comparison

def orderInts (a b : Int64) : Ordering := if a < b then .lt else if b < a then .gt else .eq

/-- Comparison of reals; all but `ne` are false when one of them is no number. -/
def onReals (op : Comparison) (a b : Float) : Bool :=
  match op with
  | .eq => a == b
  | .ne => a != b
  | .lt => a < b
  | .le => a ≤ b
  | .gt => b < a
  | .ge => b ≤ a

end Comparison

namespace Operator

def onInts (op : Operator) (a b : Int64) (line : Int) : Except Fault Value :=
  match op with
  | .arithmetic op => op.onInts a b line
  | .comparison op => .ok (.bool (op.holds (Comparison.orderInts a b)))
  | .unknown code => .error (.defect (.unexpectedOperator (Operator.unknown code).symbol))

def onReals (op : Operator) (a b : Float) (line : Int) : Except Fault Value :=
  match op with
  | .arithmetic op => op.onReals a b line
  | .comparison op => .ok (.bool (op.onReals a b))
  | .unknown code => .error (.defect (.unexpectedOperator (Operator.unknown code).symbol))

def onStrings (op : Operator) (a b : Text) (line : Int) : Except Fault Value :=
  match op with
  | .arithmetic .add => .ok (.str (a ++ b))
  | .comparison op => .ok (.bool (op.holds (a.compare b)))
  | _ => failAt line .invalidOperands

def apply (op : Operator) (lhs rhs : Value) (line : Int) : Except Fault Value :=
  match lhs, rhs with
  | .int a, .int b => op.onInts a b line
  | .real a, .real b => op.onReals a b line
  | .int a, .real b => op.onReals (Double.ofInt a) b line
  | .real a, .int b => op.onReals a (Double.ofInt b) line
  | .str a, .str b => op.onStrings a b line
  | _, _ => failAt line .invalidOperands

/-- An operator that may be missing, applied to two values; a missing one is a defect. -/
def applyOptional (op : Option Operator) (lhs rhs : Value) (line : Int) : Except Fault Value :=
  match op with
  | some op => op.apply lhs rhs line
  | none => .error (.defect .missingOperator)

end Operator

namespace Expr

/-- The left element first, then the right one, then the operator. -/
def eval (e : Expr) (memory : Memory) (line : Int) : Except Fault Value :=
  match e.lhs.eval memory line with
  | .error fault => .error fault
  | .ok lhs =>
    match e.operation with
    | none => .ok lhs
    | some (op, right) =>
      match right.eval memory line with
      | .error fault => .error fault
      | .ok rhs => op.apply lhs rhs line

end Expr

end StepGraph
