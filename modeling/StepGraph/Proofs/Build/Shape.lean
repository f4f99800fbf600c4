import StepGraph.Proofs.Build.Acceptance
import StepGraph.Proofs.Graph.Reachability

/-!
# The shape of a built graph

The nodes of a built graph are the statements of the draft, in the order in
which they are visited.  Every node says what its statement says, and is linked
to the statement after it in the same list, to the loop around it, or to
nothing.  So every node can be reached, and links that never enter a body lead
to the end of the program.
-/

namespace StepGraph

/-! ## Nodes written as statements -/

def Element.written (e : Element) : ElementDraft := { kind := e.kind.name, value := e.text }

def Expr.written (e : Expr) : ExprDraft :=
  { lhs := e.lhs.written
    op := (e.operation.map fun operation => operation.1.symbol).getD []
    rhs := e.operation.map fun operation => operation.2.written }

def CheckedStatement.written (line : Int) : CheckedStatement → StatementDraft
  | .step (.assign target (.expr e)) =>
    { StatementDraft.empty with
      line, kind := StatementKind.assign.name, target, expr := some e.written }
  | .step (.assign target (.call function argument)) =>
    { StatementDraft.empty with
      line, kind := StatementKind.assign.name, target, function
      argument := some argument.written }
  | .step (.call function argument) =>
    { StatementDraft.empty with
      line, kind := StatementKind.call.name, function, argument := argument.map Element.written }
  | .step .pass => { StatementDraft.empty with line, kind := StatementKind.pass.name }
  | .loop condition =>
    { StatementDraft.empty with
      line, kind := StatementKind.loop.name, expr := some condition.written }

def Node.written (node : Node) : StatementDraft := node.content.2.written node.content.1

theorem ElementDraft.written_of_check {e : ElementDraft} {element : Element}
    (checked : e.check = .ok element) : element.written = e := by
  unfold check at checked
  split at checked
  · cases checked
  · rename_i kind named
    split at checked
    · cases checked
    · cases checked
      rw [Element.written, (ElementKind.ofName?_eq_some_iff.mp named).2]

theorem ExprDraft.written_of_check {e : ExprDraft} {expr : Expr} (checked : e.check = .ok expr) :
    expr.written = e := by
  obtain ⟨left, op, right⟩ := e
  obtain ⟨lhs, leftChecked, rest⟩ := exists_of_bind_ok checked
  have sameLeft := ElementDraft.written_of_check leftChecked
  split at rest
  · cases rest
  · rename_i symbol noOperand
    obtain rfl : op = [] := Operator.ofSymbol?_eq_some_none_iff.mp symbol
    cases rest
    cases noOperand
    rw [Expr.written, sameLeft]
    rfl
  · cases rest
  · cases rest
  · rename_i operator operand symbol present
    obtain ⟨rhs, rightChecked, same⟩ := exists_of_bind_ok rest
    cases same
    cases present
    simp only [Expr.written, sameLeft, Option.map_some, Option.getD_some,
      ElementDraft.written_of_check rightChecked,
      (Operator.ofSymbol?_eq_some_some_iff.mp symbol).2]

namespace StatementDraft

/-- A statement without its body and without the fields that it does not use. -/
def alone (s : StatementDraft) : StatementDraft := { s.trimmed with body := [] }

section Written

variable {s : StatementDraft} {statement : CheckedStatement}

theorem written_of_checkAssign (named : s.kind = StatementKind.assign.name)
    (checked : s.checkAssign = .ok statement) : statement.written s.line = s.alone := by
  obtain ⟨line, kind, target, function, argument, expr, body⟩ := s
  obtain ⟨source, sourceChecked, rfl⟩ := checkAssign_ok checked
  cases named
  unfold checkSource at sourceChecked
  split at sourceChecked
  · rename_i noFunction
    obtain rfl : function = [] := by simpa using noFunction
    split at sourceChecked
    · rename_i written present
      obtain ⟨e, exprChecked, same⟩ := exists_of_bind_ok sourceChecked
      cases same
      cases present
      rw [CheckedStatement.written, ExprDraft.written_of_check exprChecked, alone, trimmed]
      rfl
    · cases sourceChecked
  · rename_i named
    have filled : function ≠ [] := by simpa using named
    split at sourceChecked
    · cases sourceChecked
    · cases sourceChecked
    · rename_i written noExpr present
      obtain ⟨e, argumentChecked, same⟩ := exists_of_bind_ok sourceChecked
      cases same
      cases present
      cases noExpr
      rw [CheckedStatement.written, ElementDraft.written_of_check argumentChecked, alone, trimmed]
      simp only [if_neg filled]
      rfl

theorem written_of_checkCall (named : s.kind = StatementKind.call.name)
    (checked : s.checkCall = .ok statement) : statement.written s.line = s.alone := by
  obtain ⟨line, kind, target, function, argument, expr, body⟩ := s
  cases named
  unfold checkCall at checked
  split at checked
  · cases checked
  · split at checked
    · rename_i noArgument
      cases checked
      cases noArgument
      rw [alone, trimmed]
      rfl
    · rename_i written present
      obtain ⟨e, argumentChecked, same⟩ := exists_of_bind_ok checked
      cases same
      cases present
      rw [CheckedStatement.written, Option.map_some, ElementDraft.written_of_check argumentChecked,
        alone, trimmed]
      rfl

theorem written_of_checkLoop (named : s.kind = StatementKind.loop.name)
    (checked : s.checkLoop = .ok statement) : statement.written s.line = s.alone := by
  obtain ⟨line, kind, target, function, argument, expr, body⟩ := s
  cases named
  unfold checkLoop at checked
  split at checked
  · cases checked
  · rename_i written present
    split at checked
    · cases checked
    · obtain ⟨condition, conditionChecked, same⟩ := exists_of_bind_ok checked
      cases same
      cases present
      rw [CheckedStatement.written, ExprDraft.written_of_check conditionChecked, alone, trimmed]
      rfl

/-- What the check of a statement gives says all that the statement says on its own. -/
theorem written_of_check (checked : s.check = .ok statement) :
    statement.written s.line = s.alone := by
  obtain ⟨kind, found, passed⟩ := exists_kind_of_check checked
  have named := (StatementKind.ofName?_eq_some_iff.mp found).symm
  cases kind with
  | assign => exact written_of_checkAssign named passed
  | call => exact written_of_checkCall named passed
  | loop => exact written_of_checkLoop named passed
  | pass =>
    obtain ⟨line, kind, target, function, argument, expr, body⟩ := s
    cases named
    cases passed
    rw [alone, trimmed]
    rfl

end Written

theorem length_visitedAll (drafts : List StatementDraft) :
    (visitedAll drafts).length = nodeCounts drafts := by
  induction drafts using nodeCounts.induct (fun s => s.visited.length = nodeCount s) with
  | case1 line kind target function argument expr body isLoop ih =>
    rw [nodeCount_eq, if_pos isLoop, visited, if_pos ((isLoop_iff _).mp isLoop), List.length_cons,
      ih, Nat.add_comm]
  | case2 line kind target function argument expr body other =>
    rw [nodeCount_eq, if_neg other, visited, if_neg (mt (isLoop_iff _).mpr other)]
    rfl
  | case3 => rfl
  | case4 s rest ihFirst ihRest => rw [visitedAll, nodeCounts, List.length_append, ihFirst, ihRest]

theorem length_visited (s : StatementDraft) : s.visited.length = nodeCount s := by
  simpa [visitedAll, nodeCounts] using length_visitedAll [s]

theorem visited_eq (s : StatementDraft) :
    s.visited = s :: if s.kind = utf8 "while" then visitedAll s.body else [] := by
  obtain ⟨line, kind, target, function, argument, expr, body⟩ := s
  rw [visited]

end StatementDraft

/-! ## Places in the tree -/

namespace Draft

/-- Where a statement stands in the tree of a draft: how many statements are visited before it,
which ones follow it in its list, and the place of the loop whose body this list is.  The next
statement of a list comes after all that is visited inside the one before it, the first one of a
body comes right after its loop. -/
inductive Stands (d : Draft) : Nat → StatementDraft → List StatementDraft → Link → Prop
  | first {s : StatementDraft} {rest : List StatementDraft} (list : d.toList = s :: rest) :
      Stands d 0 s rest none
  | next {position : Nat} {s t : StatementDraft} {rest : List StatementDraft} {loop : Link}
      (stands : Stands d position s (t :: rest) loop) :
      Stands d (position + s.visited.length) t rest loop
  | inside {position : Nat} {s t : StatementDraft} {rest more : List StatementDraft} {loop : Link}
      (stands : Stands d position s rest loop) (isLoop : s.kind = utf8 "while")
      (list : s.body = t :: more) : Stands d (position + 1) t more (some position)

variable {d : Draft} {g : Graph} {position : Nat} {s : StatementDraft} {rest : List StatementDraft}
  {loop : Link}

theorem Stands.visited_split (stands : d.Stands position s rest loop) :
    ∃ before after, before.length = position ∧
      d.visited = before ++ (s.visited ++ StatementDraft.visitedAll rest) ++ after := by
  induction stands with
  | first list =>
    refine ⟨[], [], rfl, ?_⟩
    rw [Draft.visited, list, StatementDraft.visitedAll, List.nil_append, List.append_nil]
  | @next position s t rest loop _ ih =>
    obtain ⟨before, after, length, split⟩ := ih
    refine ⟨before ++ s.visited, after, by rw [List.length_append, length], ?_⟩
    rw [split, StatementDraft.visitedAll]
    simp only [List.append_assoc]
  | @inside position s t rest more loop _ isLoop list ih =>
    obtain ⟨before, after, length, split⟩ := ih
    refine ⟨before ++ [s], StatementDraft.visitedAll rest ++ after, by simp [length], ?_⟩
    rw [split, s.visited_eq, if_pos isLoop, list, StatementDraft.visitedAll]
    simp only [List.append_assoc, List.cons_append, List.nil_append]

theorem Stands.getElem?_visited (stands : d.Stands position s rest loop) :
    d.visited[position]? = some s := by
  obtain ⟨before, after, rfl, split⟩ := stands.visited_split
  rw [split, s.visited_eq, List.append_assoc, List.getElem?_append_right (Nat.le_refl _)]
  simp

/-- If the first statement of a list has a place, so has everything that is visited in the list. -/
theorem exists_stands_of_visitedAll (list : List StatementDraft) {base : Nat} {loop : Link}
    (first : ∀ t more, list = t :: more → d.Stands base t more loop) {i : Nat} {s : StatementDraft}
    (visited : (StatementDraft.visitedAll list)[i]? = some s) :
    ∃ rest around, d.Stands (base + i) s rest around := by
  induction list using StatementDraft.visitedAll.induct
    (fun t => ∀ {base rest loop i}, d.Stands base t rest loop → t.visited[i]? = some s →
      ∃ more around, d.Stands (base + i) s more around) generalizing base loop i with
  | case1 line kind target function argument expr body ih =>
    rename_i base rest loop i stands visited
    rw [StatementDraft.visited_eq] at visited
    cases i with
    | zero =>
      cases visited
      exact ⟨rest, loop, stands⟩
    | succ i =>
      split at visited
      · rename_i isLoop
        have inBody := ih (fun t more list => stands.inside isLoop list) visited
        rwa [Nat.add_assoc, Nat.add_comm 1 i] at inBody
      · cases visited
  | case2 => cases visited
  | case3 t rest ihFirst ihRest =>
    have stands := first t rest rfl
    rw [StatementDraft.visitedAll] at visited
    by_cases inFirst : i < t.visited.length
    · rw [List.getElem?_append_left inFirst] at visited
      exact ihFirst stands visited
    · have beyond := Nat.le_of_not_lt inFirst
      rw [List.getElem?_append_right beyond] at visited
      have inRest := ihRest (fun u more same => by subst same; exact stands.next) visited
      rwa [Nat.add_assoc, Nat.add_sub_cancel' beyond] at inRest

theorem exists_stands (visited : d.visited[position]? = some s) :
    ∃ rest loop, d.Stands position s rest loop := by
  simpa using exists_stands_of_visitedAll d.toList (fun t more list => .first list) visited

/-! ## Nodes at their places -/

/-- The nodes of a statement, and of those after it in its list, are laid out from its place on. -/
theorem Stands.laidOut {nodes : List Node} (stands : d.Stands position s rest loop)
    (built : StatementDraft.blockNodes 0 none d.toList = .ok nodes) (holds : g.Holds 0 nodes) :
    ∃ own others,
      StatementDraft.nodes position (StatementDraft.successor position s rest loop) s = .ok own ∧
      StatementDraft.blockNodes (position + s.visited.length) loop rest = .ok others ∧
      g.Holds position (own ++ others) := by
  induction stands with
  | first list =>
    rw [list] at built
    obtain ⟨own, others, ownBuilt, othersBuilt, rfl⟩ := StatementDraft.blockNodes_cons_ok built
    rw [← StatementDraft.length_visited] at othersBuilt
    exact ⟨own, others, ownBuilt, othersBuilt, holds⟩
  | @next position s t rest loop _ ih =>
    obtain ⟨own, others, ownBuilt, othersBuilt, here⟩ := ih
    obtain ⟨next, more, nextBuilt, moreBuilt, rfl⟩ := StatementDraft.blockNodes_cons_ok othersBuilt
    have further := here.right
    rw [StatementDraft.length_of_nodes ownBuilt, ← StatementDraft.length_visited] at further
    rw [← StatementDraft.length_visited] at moreBuilt
    exact ⟨next, more, nextBuilt, moreBuilt, further⟩
  | @inside position s t rest more loop _ isLoop list ih =>
    obtain ⟨own, others, ownBuilt, -, here⟩ := ih
    rcases StatementDraft.nodes_cases ownBuilt with ⟨action, checked, -⟩ |
      ⟨condition, inner, -, innerBuilt, rfl⟩
    · obtain ⟨condition, same⟩ :=
        (StatementDraft.isLoop_iff_of_check checked).mp ((StatementDraft.isLoop_iff s).mpr isLoop)
      cases same
    · rw [list] at innerBuilt
      obtain ⟨first, further, firstBuilt, furtherBuilt, rfl⟩ :=
        StatementDraft.blockNodes_cons_ok innerBuilt
      rw [← StatementDraft.length_visited] at furtherBuilt
      exact ⟨first, further, firstBuilt, furtherBuilt, here.left.tail⟩

/-- The node of a statement: what it says, where it goes on, and its body. -/
structure IsNodeOf (position : Nat) (s : StatementDraft) (rest : List StatementDraft) (loop : Link)
    (node : Node) : Prop where
  written : node.written = s.alone
  next : node.links.next =
    if rest.isEmpty then loop else some ((position + s.visited.length : Nat) : NodeId)
  body : node.links.body =
    if s.kind = utf8 "while" then some ((position + 1 : Nat) : NodeId) else none

theorem Stands.exists_node (stands : d.Stands position s rest loop) (built : d.build = .ok g) :
    ∃ node, g.node? position = some node ∧ IsNodeOf position s rest loop node := by
  obtain ⟨nodes, nodesBuilt, rfl, -⟩ := build_ok built
  generalize made : Graph.mk nodes.toArray (if d.toList.isEmpty then none else some 0) = g
  have all : g.Holds 0 nodes := by
    intro i node found
    simpa [← made, Graph.node?] using found
  obtain ⟨own, others, ownBuilt, -, holds⟩ := stands.laidOut nodesBuilt all
  have next : StatementDraft.successor position s rest loop =
      if rest.isEmpty then loop else some ((position + s.visited.length : Nat) : NodeId) := by
    rw [StatementDraft.successor, StatementDraft.length_visited]
  rcases StatementDraft.nodes_cases ownBuilt with ⟨action, checked, rfl⟩ |
    ⟨condition, inner, checked, -, rfl⟩
  · have noLoop := mt (StatementDraft.isLoop_iff_of_check checked).mp (by simp)
    rw [StatementDraft.isLoop_iff] at noLoop
    refine ⟨.step s.line action _, holds.head, ?_⟩
    exact ⟨StatementDraft.written_of_check checked, next, (if_neg noLoop).symm⟩
  · have isLoop := (StatementDraft.isLoop_iff_of_check checked).mpr ⟨condition, rfl⟩
    rw [StatementDraft.isLoop_iff] at isLoop
    refine ⟨.loop s.line condition _ _, holds.head, ?_⟩
    exact ⟨StatementDraft.written_of_check checked, next, (if_pos isLoop).symm⟩

/-- Every statement can be reached: the first one is the entry, the next one follows the one before
it, and a loop leads to its body. -/
theorem Stands.reaches (stands : d.Stands position s rest loop) (built : d.build = .ok g) :
    g.Reaches position := by
  induction stands with
  | first list =>
    obtain ⟨nodes, -, rfl, -⟩ := build_ok built
    exact .entry (by rw [list]; rfl)
  | next stands ih =>
    obtain ⟨node, found, isNode⟩ := stands.exists_node built
    exact ih.link .next found isNode.next
  | inside stands isLoop list ih =>
    obtain ⟨node, found, isNode⟩ := stands.exists_node built
    exact ih.link .body found (isNode.body.trans (if_pos isLoop))

end Draft

/-! ## Routes past the bodies -/

namespace Graph

/-- Going from node to node without entering a body comes to an end. -/
inductive Ends (g : Graph) : Link → Prop
  | here : Ends g none
  | after {id : NodeId} {node : Node} (found : g.node? id = some node)
      (further : Ends g node.links.next) : Ends g (some id)

/-- A route that comes back to where it started has entered a body. -/
theorem Ends.enters_body {g : Graph} {link : Link} (ends : g.Ends link) :
    ∀ {id : NodeId} {steps : List (NodeId × Branch)}, link = some id → g.Route id steps id →
      steps ≠ [] → ∃ loop, (loop, .body) ∈ steps := by
  induction ends with
  | here =>
    intro id steps same
    cases same
  | @after id node found further ih =>
    rintro _ steps ⟨rfl⟩ route moved
    cases route with
    | stay => exact absurd rfl moved
    | @follow _ target _ other branch steps otherFound leads onward =>
      rw [found] at otherFound
      cases otherFound
      cases branch with
      | body => exact ⟨id, List.mem_cons_self⟩
      | next =>
        -- The node after this one lies on the same round, which can be started there.
        have round : g.Route target (steps ++ [(id, .next)]) target :=
          onward.append (.follow found leads (.stay target))
        obtain ⟨loop, entered⟩ := ih leads round (by simp)
        rcases List.mem_append.mp entered with member | last
        · exact ⟨loop, List.mem_cons_of_mem _ member⟩
        · cases List.mem_singleton.mp last

theorem Route.isLoop_of_mem {g : Graph} {first last loop : NodeId}
    {steps : List (NodeId × Branch)} (route : g.Route first steps last)
    (entered : (loop, .body) ∈ steps) :
    ∃ line condition body next, g.node? loop = some (.loop line condition body next) := by
  induction route with
  | stay => cases entered
  | @follow id target last node branch steps found leads route ih =>
    rcases List.mem_cons.mp entered with same | later
    · cases same
      cases node with
      | step line action next => cases leads
      | loop line condition body next => exact ⟨line, condition, body, next, found⟩
    · exact ih later

end Graph

namespace Draft

variable {d : Draft} {g : Graph} {position : Nat} {s : StatementDraft} {rest : List StatementDraft}
  {loop : Link}

/-- From a statement the list is left at its end, towards the loop around it. -/
theorem Stands.ends_of_loop (built : d.build = .ok g) (stands : d.Stands position s rest loop)
    (outside : g.Ends loop) : g.Ends (some position) := by
  induction rest generalizing position s with
  | nil =>
    obtain ⟨node, found, isNode⟩ := stands.exists_node built
    refine .after found ?_
    rw [isNode.next]
    exact outside
  | cons t rest ih =>
    obtain ⟨node, found, isNode⟩ := stands.exists_node built
    refine .after found ?_
    rw [isNode.next]
    exact ih stands.next

/-- Past the bodies every statement leads to the end of the program. -/
theorem Stands.ends (built : d.build = .ok g) (stands : d.Stands position s rest loop) :
    g.Ends (some position) := by
  refine stands.ends_of_loop built ?_
  induction stands with
  | first list => exact .here
  | next _ ih => exact ih
  | inside stands isLoop list ih => exact stands.ends_of_loop built ih

theorem size_of_build (built : d.build = .ok g) : g.size = d.visited.length := by
  obtain ⟨nodes, nodesBuilt, rfl, -⟩ := build_ok built
  rw [visited, StatementDraft.length_visitedAll,
    ← StatementDraft.length_of_blockNodes 0 none d.toList nodesBuilt]
  rfl

theorem exists_stands_of_isValid (built : d.build = .ok g) {id : NodeId}
    (valid : g.isValid id = true) :
    ∃ position s rest loop, id = (position : Nat) ∧ d.Stands position s rest loop := by
  obtain ⟨node, found⟩ := Graph.isValid_iff.mp valid
  have inGraph := Graph.toNat_lt_of_node? found
  rw [size_of_build built] at inGraph
  obtain ⟨rest, loop, stands⟩ := exists_stands (List.getElem?_eq_getElem inGraph)
  exact ⟨id.toNat, _, rest, loop, (Graph.toNat_of_node? found).symm, stands⟩

end Draft

/-- A built graph has the shape of its tree of statements.  Its nodes are the statements in the
order in which they are visited, and each of them says what its statement says.  The entry is the
first one.  A node goes on to the next statement of its list, after the last one to the loop around
it, and at top level to nothing; a loop has its body right after itself.  So all nodes can be
reached, and whoever comes back to a node by links has entered the body of a loop on the way. -/
theorem built_graph_follows_tree {d : Draft} {g : Graph} (built : d.build = .ok g) :
    g.size = d.visited.length ∧
      g.entry = (if d.toList.isEmpty then none else some 0) ∧
      (∀ position s, d.visited[position]? = some s ↔ ∃ rest loop, d.Stands position s rest loop) ∧
      (∀ position s rest loop, d.Stands position s rest loop →
        ∃ node, g.node? position = some node ∧ Draft.IsNodeOf position s rest loop node) ∧
      (∀ id, g.isValid id = true → g.Reaches id) ∧
      ∀ id steps, g.Route id steps id → steps ≠ [] →
        ∃ loop line condition body next,
          (loop, .body) ∈ steps ∧ g.node? loop = some (.loop line condition body next) := by
  refine ⟨Draft.size_of_build built, ?_, ?_, ?_, ?_, ?_⟩
  · obtain ⟨nodes, -, rfl, -⟩ := Draft.build_ok built
    rfl
  · intro position s
    constructor
    · exact Draft.exists_stands
    · rintro ⟨rest, loop, stands⟩
      exact stands.getElem?_visited
  · intro position s rest loop stands
    exact stands.exists_node built
  · intro id valid
    obtain ⟨position, s, rest, loop, rfl, stands⟩ := Draft.exists_stands_of_isValid built valid
    exact stands.reaches built
  · intro id steps route moved
    have valid : g.isValid id = true := by
      cases route with
      | stay => exact absurd rfl moved
      | follow found => exact Graph.isValid_iff.mpr ⟨_, found⟩
    obtain ⟨position, s, rest, around, rfl, stands⟩ := Draft.exists_stands_of_isValid built valid
    obtain ⟨loop, entered⟩ := (stands.ends built).enters_body rfl route moved
    obtain ⟨line, condition, body, next, found⟩ := route.isLoop_of_mem entered
    exact ⟨loop, line, condition, body, next, entered, found⟩

/-- The last statement in the body of the outer loop of the countdown is a loop itself.  It goes
back to the outer loop, and the way round from there enters a body. -/
theorem countdown_follows_tree :
    Draft.countdown.build = .ok .countdown ∧
      (∃ s, Draft.countdown.visited[3]? = some s ∧ s.kind = utf8 "while" ∧
        ∃ rest loop, Draft.countdown.Stands 3 s rest loop ∧
          ∃ node, Graph.countdown.node? 3 = some node ∧ Draft.IsNodeOf 3 s rest loop node ∧
            node.links = { next := some 1, body := some 4 }) ∧
      Graph.countdown.Reaches 4 ∧
      Graph.countdown.Route 1 [(1, .body), (2, .next), (3, .next)] 1 ∧
      ∃ loop line condition body next, (loop, .body) ∈ [(1, Branch.body), (2, .next), (3, .next)] ∧
        Graph.countdown.node? loop = some (.loop line condition body next) := by
  have shape := built_graph_follows_tree Draft.build_countdown
  have route : Graph.countdown.Route 1 [(1, .body), (2, .next), (3, .next)] 1 :=
    .follow rfl rfl (.follow rfl rfl (.follow rfl rfl (.stay 1)))
  refine ⟨Draft.build_countdown, ?_, shape.2.2.2.2.1 4 rfl, route,
    shape.2.2.2.2.2 1 _ route (by simp)⟩
  obtain ⟨s, visited, isLoop⟩ :
      ∃ s, Draft.countdown.visited[3]? = some s ∧ s.kind = utf8 "while" := ⟨_, rfl, rfl⟩
  obtain ⟨rest, loop, stands⟩ := (shape.2.2.1 3 s).mp visited
  obtain ⟨node, found, isNode⟩ := shape.2.2.2.1 3 s rest loop stands
  refine ⟨s, visited, isLoop, rest, loop, stands, node, found, isNode, ?_⟩
  cases found
  rfl

end StepGraph
