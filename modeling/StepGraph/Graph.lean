import StepGraph.Expr
import StepGraph.Fault

/-!
# Statement graphs

A graph is a row of nodes that link to each other by position.  A step does one
thing and has one successor; a loop has a condition and two, its body and what
comes after it.  Cutting a node off takes its links away and hands them back, so
that joining it again restores the graph.
-/

namespace StepGraph

inductive Source where
  | expr (e : Expr)
  | call (function : Text) (argument : Element)
  deriving DecidableEq

inductive Action where
  | assign (target : Text) (source : Source)
  | call (function : Text) (argument : Option Element)
  | pass
  deriving DecidableEq

/-- The position of a node; a number outside the graph belongs to none. -/
abbrev NodeId := Int

abbrev Link := Option NodeId

/-- Which of its links a node follows. -/
inductive Branch where
  | next
  | body
  deriving DecidableEq

namespace Branch

def name : Branch → Text
  | .next => utf8 "next"
  | .body => utf8 "body"

def nameOfCode (code : Int) : Text :=
  Label.ofCode "Branch" ([Branch.next, Branch.body].map name) code

/-- The branch with a number; every number but one stands for the plain successor. -/
def ofCode (code : Int) : Branch := if code = 1 then .body else .next

end Branch

structure Links where
  next : Link
  body : Link
  deriving DecidableEq

namespace Links

def none : Links := { next := .none, body := .none }

def isAbsent (l : Links) : Bool := l.next.isNone && l.body.isNone

end Links

inductive Node where
  | step (line : Int) (action : Action) (next : Link)
  | loop (line : Int) (condition : Expr) (body next : Link)
  deriving DecidableEq

namespace Node

def line : Node → Int
  | .step line _ _ => line
  | .loop line _ _ _ => line

def links : Node → Links
  | .step _ _ next => { next, body := .none }
  | .loop _ _ body next => { next, body }

/-- The node with other links; a step has no body. -/
def withLinks (l : Links) : Node → Node
  | .step line action _ => .step line action l.next
  | .loop line condition _ _ => .loop line condition l.body l.next

@[simp]
theorem withLinks_links (node : Node) : node.withLinks node.links = node := by
  cases node <;> rfl

@[simp]
theorem withLinks_withLinks (node : Node) (first second : Links) :
    (node.withLinks first).withLinks second = node.withLinks second := by
  cases node <;> rfl

@[simp]
theorem line_withLinks (node : Node) (l : Links) : (node.withLinks l).line = node.line := by
  cases node <;> rfl

end Node

structure Graph where
  nodes : Array Node
  entry : Link
  deriving DecidableEq

namespace Graph

def empty : Graph := { nodes := #[], entry := none }

def size (g : Graph) : Nat := g.nodes.size

def node? (g : Graph) (id : NodeId) : Option Node :=
  if 0 ≤ id then g.nodes[id.toNat]? else none

def isValid (g : Graph) (id : NodeId) : Bool := (g.node? id).isSome

def node (g : Graph) (id : NodeId) : Except Defect Node :=
  match g.node? id with
  | some node => .ok node
  | none => .error (.invalidNode id)

def add (g : Graph) (node : Option Node) : Except Defect (NodeId × Graph) :=
  match node with
  | some node => .ok (g.size, { g with nodes := g.nodes.push node })
  | none => .error .missingStatement

def line (g : Graph) (id : NodeId) : Except Defect Int := (g.node id).map Node.line

def links (g : Graph) (id : NodeId) : Except Defect Links := (g.node id).map Node.links

/-- The links of the node at a position are replaced; other positions change nothing. -/
def relink (g : Graph) (id : NodeId) (l : Links) : Graph :=
  if 0 ≤ id then { g with nodes := g.nodes.modify id.toNat (Node.withLinks l) } else g

def setLinks (g : Graph) (id : NodeId) (l : Links) : Except Defect Graph :=
  (g.node id).map fun _ => g.relink id l

/-- A node loses its links, which are handed back. -/
def sever (g : Graph) (id : NodeId) : Except Defect (Links × Graph) :=
  (g.node id).map fun node => (node.links, g.relink id .none)

def restore (g : Graph) (id : NodeId) (saved : Links) : Except Defect Graph := g.setLinks id saved

def follow (g : Graph) (id : NodeId) (branch : Branch) : Except Defect Link :=
  match g.node id with
  | .error defect => .error defect
  | .ok (.step line _ next) =>
    match branch with
    | .next => .ok next
    | .body => .error (.bodyOfStep line)
  | .ok (.loop _ _ body next) =>
    match branch with
    | .next => .ok next
    | .body => .ok body

end Graph

end StepGraph
