import StepGraph.Double.Literal
import StepGraph.Draft
import StepGraph.Graph.Validity
import StepGraph.Text.Quoted

/-!
# Building graphs

The statements of a draft are checked and added to a graph in the order in which
they are written, at first without links.  Once all statements of a list have
their nodes, each of them is linked to the next one and the last one to where the
list goes on; a loop gets its body when the statements inside it are linked.
-/

namespace StepGraph

inductive StatementFault where
  | assignmentWithoutTarget
  | functionAndExpression
  | functionWithoutArgument (function : Text)
  | assignmentWithoutSource
  | callWithoutFunction
  | loopWithoutCondition
  | loopWithoutBody
  | unknownStatement (kind : Text)
  | unknownOperator (symbol : Text)
  | operandWithoutOperator
  | operatorWithoutOperand (op : Operator)
  | unknownElement (kind : Text)
  | emptyIdentifier
  | invalidInt (literal : Text)
  | invalidReal (literal : Text)
  deriving DecidableEq

namespace StatementFault

def message : StatementFault → Text
  | .assignmentWithoutTarget => utf8 "assignment without target"
  | .functionAndExpression => utf8 "assignment has both a function call and an expression"
  | .functionWithoutArgument function => function ++ utf8 "() requires an argument"
  | .assignmentWithoutSource => utf8 "assignment without right-hand side"
  | .callWithoutFunction => utf8 "call without function name"
  | .loopWithoutCondition => utf8 "while loop without condition"
  | .loopWithoutBody => utf8 "while loop without body"
  | .unknownStatement kind => utf8 "unknown statement kind " ++ kind.quote
  | .unknownOperator symbol => utf8 "unknown operator " ++ symbol.quote
  | .operandWithoutOperator => utf8 "right operand without operator"
  | .operatorWithoutOperand op => utf8 "operator " ++ op.symbol ++ utf8 " without right operand"
  | .unknownElement kind => utf8 "unknown element kind " ++ kind.quote
  | .emptyIdentifier => utf8 "empty identifier"
  | .invalidInt literal => utf8 "invalid int literal " ++ literal.quote
  | .invalidReal literal => utf8 "invalid real literal " ++ literal.quote

end StatementFault

inductive BuildError where
  | missingLine (kind : Text)
  | statement (line : Int) (fault : StatementFault)
  | graph (violation : Violation)
  | defect (reason : Defect)
  deriving DecidableEq

namespace BuildError

def message : BuildError → Text
  | .missingLine kind => utf8 "statement " ++ kind.quote ++ utf8 ": missing line number"
  | .statement line fault => utf8 "line " ++ Text.ofInt line ++ utf8 ": " ++ fault.message
  | .graph violation => violation.message
  | .defect reason => reason.message

end BuildError

namespace ElementDraft

/-- Whether the text of an element suits its kind. -/
def textFault? (kind : ElementKind) (text : Text) : Option StatementFault :=
  match kind with
  | .identifier => if text.isEmpty then some .emptyIdentifier else none
  | .intLiteral => if (Integer.ofLiteral? text).isSome then none else some (.invalidInt text)
  | .realLiteral => if (Double.ofLiteral? text).isSome then none else some (.invalidReal text)
  | _ => none

def check (e : ElementDraft) : Except StatementFault Element :=
  match ElementKind.ofName? e.kind with
  | none => .error (.unknownElement e.kind)
  | some kind =>
    match textFault? kind e.value with
    | some fault => .error fault
    | none => .ok { kind, text := e.value }

end ElementDraft

namespace ExprDraft

/-- The left element, the operator, then the right element. -/
def check (e : ExprDraft) : Except StatementFault Expr := do
  let lhs ← e.lhs.check
  match Operator.ofSymbol? e.op, e.rhs with
  | none, _ => throw (.unknownOperator e.op)
  | some none, none => return { lhs, operation := none }
  | some none, some _ => throw .operandWithoutOperator
  | some (some op), none => throw (.operatorWithoutOperand op)
  | some (some op), some rhs => return { lhs, operation := some (op, ← rhs.check) }

end ExprDraft

inductive StatementKind where
  | assign
  | call
  | pass
  | loop
  deriving DecidableEq

namespace StatementKind

def known : List StatementKind := [.assign, .call, .pass, .loop]

def name : StatementKind → Text
  | .assign => utf8 "assign"
  | .call => utf8 "call"
  | .pass => utf8 "pass"
  | .loop => utf8 "while"

def ofName? (name : Text) : Option StatementKind := known.find? (·.name == name)

end StatementKind

/-- A checked statement without its place in a graph. -/
inductive CheckedStatement where
  | step (action : Action)
  | loop (condition : Expr)
  deriving DecidableEq

namespace StatementDraft

/-- The right side of an assignment: a call or an expression, not both. -/
def checkSource (s : StatementDraft) : Except StatementFault Source :=
  if s.function.isEmpty then
    match s.expr with
    | some expr => return .expr (← expr.check)
    | none => throw .assignmentWithoutSource
  else
    match s.expr, s.argument with
    | some _, _ => throw .functionAndExpression
    | none, none => throw (.functionWithoutArgument s.function)
    | none, some argument => return .call s.function (← argument.check)

def checkAssign (s : StatementDraft) : Except StatementFault CheckedStatement :=
  if s.target.isEmpty then throw .assignmentWithoutTarget
  else return .step (.assign s.target (← s.checkSource))

def checkCall (s : StatementDraft) : Except StatementFault CheckedStatement :=
  if s.function.isEmpty then throw .callWithoutFunction
  else
    match s.argument with
    | none => return .step (.call s.function none)
    | some argument => return .step (.call s.function (some (← argument.check)))

def checkLoop (s : StatementDraft) : Except StatementFault CheckedStatement :=
  match s.expr with
  | none => throw .loopWithoutCondition
  | some condition =>
    if s.body.isEmpty then throw .loopWithoutBody else return .loop (← condition.check)

/-- A statement on its own; the statements of a body are not looked at. -/
def check (s : StatementDraft) : Except BuildError CheckedStatement :=
  if s.line ≤ 0 then .error (.missingLine s.kind)
  else
    let checked :=
      match StatementKind.ofName? s.kind with
      | some .assign => s.checkAssign
      | some .call => s.checkCall
      | some .pass => .ok (.step .pass)
      | some .loop => s.checkLoop
      | none => .error (.unknownStatement s.kind)
    checked.mapError (.statement s.line)

end StatementDraft

namespace Graph

def setNext (g : Graph) (id : NodeId) (next : Link) : Except Defect Graph := do
  let links ← g.links id
  g.setLinks id { links with next }

def setBody (g : Graph) (id : NodeId) (body : Link) : Except Defect Graph := do
  let links ← g.links id
  g.setLinks id { links with body }

/-- Each node of a row is linked to the next one, and the last one to the tail. -/
def linkRow (g : Graph) (tail : Link) : List NodeId → Except Defect Graph
  | [] => .ok g
  | id :: rest => do
    let g ← g.setNext id (rest.head?.or tail)
    g.linkRow tail rest

/-- The nodes of a block are linked.  The block starts at the first one, or at the tail if there
are none. -/
def closeBlock (g : Graph) (tail : Link) (ids : List NodeId) : Except Defect (Link × Graph) :=
  (g.linkRow tail ids).map fun g => (ids.head?.or tail, g)

def validated (g : Graph) : Except BuildError Graph :=
  match g.violation? with
  | some violation => .error (.graph violation)
  | none => .ok g

end Graph

namespace StatementDraft

mutual

/-- A statement is added to a graph, and for a loop the statements of its body. -/
def addTo (g : Graph) : StatementDraft → Except BuildError (NodeId × Graph)
  | { line, kind, target, function, argument, expr, body } => do
    match ← check { line, kind, target, function, argument, expr, body } with
    | .step action => (g.add (some (.step line action none))).mapError .defect
    | .loop condition =>
      let (id, g) ← (g.add (some (.loop line condition none none))).mapError .defect
      let (ids, g) ← addAllTo g body
      let (first, g) ← (g.closeBlock (some id) ids).mapError .defect
      let g ← (g.setBody id first).mapError .defect
      return (id, g)

/-- The statements of a list are added to a graph, not yet linked to each other. -/
def addAllTo (g : Graph) : List StatementDraft → Except BuildError (List NodeId × Graph)
  | [] => return ([], g)
  | s :: rest => do
    let (id, g) ← addTo g s
    let (ids, g) ← addAllTo g rest
    return (id :: ids, g)

end

end StatementDraft

namespace Draft

/-- The graph of a draft, or its first fault. -/
def build (d : Draft) : Except BuildError Graph := do
  let (ids, g) ← StatementDraft.addAllTo .empty d.toList
  let (entry, g) ← (g.closeBlock none ids).mapError .defect
  Graph.validated { g with entry }

end Draft

end StepGraph
