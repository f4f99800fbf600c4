import StepGraph.Graph

/-!
# Validity of graphs

A graph is valid when its entry and all links lead to nodes and every loop has
a body.  The first violation in the order of the nodes is reported.
-/

namespace StepGraph

inductive Violation where
  | entryOutOfRange (id : NodeId)
  | linkOutOfRange (line : Int) (id : NodeId)
  | loopWithoutBody (line : Int)
  deriving DecidableEq

namespace Violation

def message : Violation → Text
  | .entryOutOfRange id => utf8 "entry " ++ Text.ofInt id ++ utf8 " out of range"
  | .linkOutOfRange line id =>
    utf8 "line " ++ Text.ofInt line ++ utf8 ": link to " ++ Text.ofInt id ++ utf8 " out of range"
  | .loopWithoutBody line => utf8 "line " ++ Text.ofInt line ++ utf8 ": while loop without body"

end Violation

namespace Graph

/-- The position a link leads to, when no node is there. -/
def danglingTarget? (g : Graph) : Link → Option NodeId
  | some id => if g.isValid id then none else some id
  | none => none

/-- The first violation of one node: the successor, the body, and the lack of a body. -/
def nodeViolation? (g : Graph) (node : Node) : Option Violation :=
  match g.danglingTarget? node.links.next, g.danglingTarget? node.links.body with
  | some id, _ => some (.linkOutOfRange node.line id)
  | none, some id => some (.linkOutOfRange node.line id)
  | none, none =>
    match node with
    | .loop line _ none _ => some (.loopWithoutBody line)
    | _ => none

def violation? (g : Graph) : Option Violation :=
  match g.danglingTarget? g.entry with
  | some id => some (.entryOutOfRange id)
  | none => g.nodes.toList.findSome? g.nodeViolation?

end Graph

end StepGraph
