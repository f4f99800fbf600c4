import StepGraph.Proofs.Build.Nodes
import StepGraph.Proofs.Course

/-!
# The meaning of a built graph

A program is also a tree of statements, which is executed list by list: a loop
whose condition is true puts its whole body, and itself again, before what
follows it.  The graph built from a draft lays this tree out by links, and a run
of the graph executes the same statements with the same effects as the tree.
-/

namespace StepGraph

/-- A checked statement of a tree, with its place in the order in which statements are written. -/
inductive Statement where
  | step (position : Nat) (line : Int) (action : Action)
  | loop (position : Nat) (line : Int) (condition : Expr) (body : List Statement)

namespace Statement

def position : Statement → Nat
  | .step position _ _ => position
  | .loop position _ _ _ => position

def content : Statement → Int × CheckedStatement
  | .step _ line action => (line, .step action)
  | .loop _ line condition _ => (line, .loop condition)

/-- The statements of a list are executed in order.  A loop whose condition is true executes its
body and comes again; the first fault ends the run. -/
def course : Course Statement (List Statement) where
  next
    | [] => none
    | .step position line action :: rest =>
      some (.step position line action, fun m =>
        match m.act action line with
        | (m, .ok ()) => (m, .ok rest)
        | (m, .error fault) => (m, .error fault))
    | .loop position line condition body :: rest =>
      some (.loop position line condition body, fun m =>
        match condition.eval m.memory line with
        | .error fault => (m, .error fault)
        | .ok (.bool true) => (m, .ok (body ++ .loop position line condition body :: rest))
        | .ok (.bool false) => (m, .ok rest)
        | .ok _ => (m, failAt line .conditionNotBool))

end Statement

namespace StatementDraft

mutual

def statement (position : Nat) : StatementDraft → Except BuildError Statement
  | { line, kind, target, function, argument, expr, body } => do
    match ← check { line, kind, target, function, argument, expr, body } with
    | .step action => return .step position line action
    | .loop condition =>
      let inner ← statements (position + 1) body
      return .loop position line condition inner

def statements (position : Nat) : List StatementDraft → Except BuildError (List Statement)
  | [] => return []
  | s :: rest => do
    let first ← statement position s
    let others ← statements (position + nodeCount s) rest
    return first :: others

end

end StatementDraft

def Draft.program (d : Draft) : Except BuildError (List Statement) :=
  StatementDraft.statements 0 d.toList

/-! ## Layout by links -/

def Node.content : Node → Int × CheckedStatement
  | .step line action _ => (line, .step action)
  | .loop line condition _ _ => (line, .loop condition)

namespace Graph

def StandsFor (g : Graph) (s : Statement) (id : NodeId) : Prop :=
  id = s.position ∧ ∃ node, g.node? id = some node ∧ node.content = s.content

/-- The statements of a list stand in the graph from the entry on, each linked to the next, the
last one to the tail, and the last one of a body to its loop. -/
inductive Laid (g : Graph) : List Statement → (tail entry : Link) → Prop
  | nil (tail : Link) : Laid g [] tail tail
  | step {position : Nat} {line : Int} {action : Action} {rest : List Statement} {tail next : Link}
      (node : g.node? position = some (.step line action next)) (after : Laid g rest tail next) :
      Laid g (.step position line action :: rest) tail (some position)
  | loop {position : Nat} {line : Int} {condition : Expr} {body rest : List Statement}
      {tail first next : Link}
      (node : g.node? position = some (.loop line condition first next))
      (inner : Laid g body (some position) first) (after : Laid g rest tail next) :
      Laid g (.loop position line condition body :: rest) tail (some position)

theorem Laid.append {g : Graph} {front back : List Statement} {tail middle entry : Link}
    (laidFront : Laid g front middle entry) (laidBack : Laid g back tail middle) :
    Laid g (front ++ back) tail entry := by
  induction laidFront with
  | nil => exact laidBack
  | step node after ih => exact .step node (ih laidBack)
  | loop node inner after _ ih => exact .loop node inner (ih laidBack)

def Holds (g : Graph) (position : Nat) (nodes : List Node) : Prop :=
  ∀ i node, nodes[i]? = some node → g.node? (position + i : Nat) = some node

theorem Holds.head {g : Graph} {position : Nat} {node : Node} {nodes : List Node}
    (holds : g.Holds position (node :: nodes)) : g.node? position = some node :=
  holds 0 node rfl

theorem Holds.tail {g : Graph} {position : Nat} {node : Node} {nodes : List Node}
    (holds : g.Holds position (node :: nodes)) : g.Holds (position + 1) nodes := by
  intro i other found
  have shifted := holds (i + 1) other found
  rwa [← Nat.add_assoc, Nat.add_right_comm] at shifted

theorem Holds.left {g : Graph} {position : Nat} {front back : List Node}
    (holds : g.Holds position (front ++ back)) : g.Holds position front := by
  intro i node found
  have bound : i < front.length := (List.getElem?_eq_some_iff.mp found).1
  exact holds i node ((List.getElem?_append_left bound).trans found)

theorem Holds.right {g : Graph} {position : Nat} {front back : List Node}
    (holds : g.Holds position (front ++ back)) : g.Holds (position + front.length) back := by
  intro i node found
  have shifted := holds (front.length + i) node
    ((List.getElem?_append_right (Nat.le_add_right _ _)).trans (by simpa using found))
  rwa [← Nat.add_assoc] at shifted

end Graph

namespace StatementDraft

/-- A graph that holds the nodes of a list of statements lays their tree out. -/
theorem laid_of_blockNodes (position : Nat) (tail : Link) (drafts : List StatementDraft)
    {built : List Node} (succeeded : blockNodes position tail drafts = .ok built) :
    ∃ program, statements position drafts = .ok program ∧
      ∀ {g : Graph}, g.Holds position built →
        g.Laid program tail (if drafts.isEmpty then tail else some position) := by
  -- A single statement is laid out before whatever is laid out from its successor on.
  induction position, tail, drafts using blockNodes.induct
    (fun position next s => ∀ {built}, nodes position next s = .ok built →
      ∃ first, statement position s = .ok first ∧
        ∀ {g : Graph}, g.Holds position built → ∀ {rest tail}, g.Laid rest tail next →
          g.Laid (first :: rest) tail (some position)) generalizing built with
  | case1 position next line kind target function argument expr body ih =>
    rename_i built succeeded
    rcases nodes_cases succeeded with ⟨action, checked, rfl⟩ |
      ⟨condition, inner, checked, innerBuilt, rfl⟩
    · refine ⟨.step position line action, by rw [statement, checked]; rfl, ?_⟩
      intro g holds rest tail after
      exact .step holds.head after
    · obtain ⟨program, bodyStatements, laid⟩ := ih innerBuilt
      refine ⟨.loop position line condition program, ?_, ?_⟩
      · rw [statement, checked]
        simp only [bodyStatements]
        rfl
      · intro g holds rest tail after
        have laidBody := laid holds.tail
        rw [body_of_check checked] at laidBody
        exact .loop holds.head laidBody after
  | case2 position tail =>
    exact ⟨[], rfl, fun _ => .nil tail⟩
  | case3 position tail s rest ihFirst ihRest =>
    obtain ⟨firstNodes, otherNodes, firstBuilt, othersBuilt, rfl⟩ := blockNodes_cons_ok succeeded
    obtain ⟨first, firstStatement, laidFirst⟩ := ihFirst firstBuilt
    obtain ⟨others, otherStatements, laidOthers⟩ := ihRest othersBuilt
    refine ⟨first :: others, ?_, ?_⟩
    · rw [statements, firstStatement]
      simp only [otherStatements]
      rfl
    · intro g holds
      apply laidFirst holds.left
      have remaining := holds.right
      rw [length_of_nodes firstBuilt] at remaining
      exact laidOthers remaining

end StatementDraft

/-- The graph built from a draft lays out the tree of the draft. -/
theorem Draft.laid_of_build {d : Draft} {g : Graph} (built : d.build = .ok g) :
    ∃ program, d.program = .ok program ∧ g.Laid program none g.entry := by
  obtain ⟨nodes, nodesBuilt, rfl, -⟩ := build_ok built
  obtain ⟨program, statements, laid⟩ := StatementDraft.laid_of_blockNodes 0 none d.toList nodesBuilt
  refine ⟨program, statements, laid ?_⟩
  intro i node found
  simpa [Graph.node?] using found

/-! ## Runs of the tree and of the graph -/

namespace Graph

/-- Following the links from the entry of a tree is executing the tree. -/
theorem laid_simulation (g : Graph) :
    Course.Simulation Statement.course g.course (fun rest link => g.Laid rest none link)
      g.StandsFor where
  ends := by
    intro rest link laid ended
    cases laid with
    | nil => rfl
    | step => cases ended
    | loop => cases ended
  moves := by
    intro rest link event execute laid next
    cases laid with
    | nil => cases next
    | @step position line action rest _ after node laidAfter =>
      cases next
      refine ⟨_, _, rfl, ⟨rfl, _, node, rfl⟩, ?_⟩
      intro m
      simp only [execute_of_node? node, Machine.execute]
      rcases m.act action line with ⟨m', fault | _⟩
      · exact ⟨rfl, .failed fault⟩
      · exact ⟨rfl, .goesOn laidAfter⟩
    | @loop position line condition body rest _ first after node laidBody laidAfter =>
      cases next
      refine ⟨_, _, rfl, ⟨rfl, _, node, rfl⟩, ?_⟩
      intro m
      simp only [execute_of_node? node, Machine.execute]
      cases condition.eval m.memory line with
      | error fault => exact ⟨rfl, .failed fault⟩
      | ok value =>
        cases value with
        | bool truth =>
          cases truth with
          | true => exact ⟨rfl, .goesOn (laidBody.append (.loop node laidBody laidAfter))⟩
          | false => exact ⟨rfl, .goesOn laidAfter⟩
        | _ => exact ⟨rfl, .failed _⟩

end Graph

/-- A built graph means what its tree of statements means.  After every number of statements the
graph and the tree have executed the same ones, have left the same memory, output and input, and
have failed with the same fault, finished or not ended; so one run ends exactly when the other
does. -/
theorem build_preserves_meaning {d : Draft} {g : Graph} (built : d.build = .ok g) :
    ∃ program, d.program = .ok program ∧ ∀ m : Machine,
      (∀ n, List.Forall₂ g.StandsFor (Statement.course.after n program m).executed
          (g.course.after n g.entry m).executed ∧
        g.run n g.entry m =
          ((Statement.course.after n program m).machine,
            Statement.course.halt (Statement.course.after n program m))) ∧
      ((∃ n, (g.run n g.entry m).2 ≠ .outOfFuel) ↔
        ∃ n, Statement.course.halt (Statement.course.after n program m) ≠ .outOfFuel) := by
  obtain ⟨program, parsed, laid⟩ := d.laid_of_build built
  refine ⟨program, parsed, ?_⟩
  intro m
  have inStep n := g.laid_simulation.after_inStep laid m n
  have sameRun n : g.run n g.entry m =
      ((Statement.course.after n program m).machine,
        Statement.course.halt (Statement.course.after n program m)) := by
    rw [g.run_eq_after, (inStep n).machine, g.laid_simulation.halt_eq (inStep n)]
  refine ⟨fun n => ⟨(inStep n).executed, sameRun n⟩, ?_⟩
  simp only [sameRun]

/-- The tree of the countdown comes to its end and prints zero, as its graph does. -/
theorem countdown_tree_prints_zero :
    Draft.countdown.build = .ok .countdown ∧
      ∃ program, Draft.countdown.program = .ok program ∧
        (Statement.course.after 20 program .idle).machine.output = (utf8 "0\n").toArray ∧
        Statement.course.halt (Statement.course.after 20 program .idle) = .finished := by
  refine ⟨Draft.build_countdown, ?_⟩
  obtain ⟨program, parsed, sameMeaning⟩ := build_preserves_meaning Draft.build_countdown
  obtain ⟨-, sameRun⟩ := (sameMeaning .idle).1 20
  obtain ⟨sameMachine, sameHalt⟩ := Prod.mk.inj sameRun
  refine ⟨program, parsed, ?_, ?_⟩
  · refine (congrArg Machine.output sameMachine).symm.trans ?_
    decide +kernel
  · refine sameHalt.symm.trans ?_
    decide +kernel

end StepGraph
