import StepGraph.Proofs.Build.Nodes
import StepGraph.Proofs.Course
import StepGraph.Proofs.Machine.Footprint

/-!
# What a run depends on

A run sees the memory only through the variables that its graph reads.  On two
memories that agree on them it executes the same statements, fails in the same way
and stores the same values in the same order, however the memories are laid out.
So variables that no statement mentions do not matter and are left alone, and
neither does the capacity that a memory starts with.
-/

namespace StepGraph

/-- The statements executed without a fault; only the last one can have failed. -/
def Progress.completed {Event Rest : Type} (p : Progress Event Rest) : List Event :=
  match p.status with
  | .ok _ => p.executed
  | .error _ => p.executed.dropLast

namespace Graph

variable {g : Graph} {name : Text}

def Reads (g : Graph) (name : Text) : Prop := ∃ id node, g.node? id = some node ∧ name ∈ node.reads

def Assigns (g : Graph) (name : Text) : Prop :=
  ∃ id node, g.node? id = some node ∧ node.target? = some name

/-- The variables that the statements at certain positions assign. -/
def targets (g : Graph) (ids : List NodeId) : List Text :=
  ids.filterMap fun id => (g.node? id).bind Node.target?

theorem targets_append (g : Graph) (first second : List NodeId) :
    g.targets (first ++ second) = g.targets first ++ g.targets second :=
  List.filterMap_append

theorem assigns_of_mem_targets {ids : List NodeId} (member : name ∈ g.targets ids) :
    g.Assigns name := by
  obtain ⟨id, -, assigned⟩ := List.mem_filterMap.mp member
  obtain ⟨node, found, target⟩ := Option.bind_eq_some_iff.mp assigned
  exact ⟨id, node, found, target⟩

/-! ## One statement on two memories -/

/-- On two memories that agree on the variables read, a node does the same and stores the same:
under its target if it succeeds, nothing if it fails. -/
theorem execute_withMemory (id : NodeId) {m : Machine} {other : Memory}
    (agree : ∀ name, g.Reads name → other.read? name = m.memory.read? name) :
    ∃ stored : List Cell,
      (g.execute id m).1.memory = m.memory.writes stored ∧
      g.execute id (m.withMemory other) =
        ((g.execute id m).1.withMemory (other.writes stored), (g.execute id m).2) ∧
      (∀ outcome, (g.execute id m).2 = .ok outcome → stored.map (·.name) = g.targets [id]) ∧
      ∀ fault, (g.execute id m).2 = .error fault → stored = [] := by
  cases found : g.node? id with
  | none =>
    have missing (m : Machine) : g.execute id m = (m, .error (.defect (.invalidNode id))) := by
      simp only [execute, Graph.node, found]
    simp only [missing]
    exact ⟨[], rfl, rfl, by rintro _ ⟨⟩, fun _ _ => rfl⟩
  | some node =>
    simp only [execute_of_node? found]
    refine ⟨(m.stored? node).toList, m.memory_execute node, ?_, ?_, ?_⟩
    · exact m.execute_withMemory fun name member => agree name ⟨id, node, found, member⟩
    · intro outcome succeeded
      have named := Machine.name_of_stored? succeeded
      simp only [targets, List.filterMap_cons, found, Option.bind_some, ← named]
      cases m.stored? node <;> rfl
    · intro fault failed
      rw [Machine.stored?_of_error failed]
      rfl

/-! ## A run on two memories -/

/-- Two runs have come equally far and differ in their memories only: both have stored the same
values, in the order of the statements executed. -/
structure SideBySide (g : Graph) (first second : Memory) (stored : List Cell)
    (p q : Progress NodeId Link) : Prop where
  names : stored.map (·.name) = g.targets p.completed
  memory : p.machine.memory = first.writes stored
  same : q = { p with machine := p.machine.withMemory (second.writes stored) }

theorem SideBySide.advance {first second : Memory} {stored : List Cell}
    {p q : Progress NodeId Link}
    (agree : ∀ name, g.Reads name → second.read? name = first.read? name)
    (runs : g.SideBySide first second stored p q) :
    ∃ stored, g.SideBySide first second stored (g.course.advance p) (g.course.advance q) := by
  have status : q.status = p.status := by rw [runs.same]
  cases ended : p.status with
  | error fault =>
    rw [Course.advance_of_error ended, Course.advance_of_error (status.trans ended)]
    exact ⟨stored, runs⟩
  | ok link =>
    cases link with
    | none =>
      rw [Course.advance_of_end ended rfl, Course.advance_of_end (status.trans ended) rfl]
      exact ⟨stored, runs⟩
    | some id =>
      -- The writes so far were the same, so the memories agree as they did at the start.
      have stillAgree : ∀ name, g.Reads name →
          (second.writes stored).read? name = p.machine.memory.read? name := by
        intro name reads
        rw [runs.memory]
        exact Memory.read?_writes_congr (.inl (agree name reads))
      obtain ⟨more, memory, same, succeeded, failed⟩ := execute_withMemory id stillAgree
      have names : stored.map (·.name) = g.targets p.executed := by
        rw [runs.names, Progress.completed, ended]
      rw [Course.advance_of_next ended rfl, Course.advance_of_next (status.trans ended) rfl]
      refine ⟨stored ++ more, ?_, ?_, ?_⟩
      · cases result : (g.execute id p.machine).2 with
        | ok outcome =>
          simp only [Progress.completed, Except.map]
          rw [List.map_append, names, succeeded outcome result, targets_append]
        | error fault =>
          simp only [Progress.completed, Except.map, List.dropLast_concat]
          rw [failed fault result, List.append_nil, names]
      · rw [memory, runs.memory, Memory.writes_append]
      · rw [runs.same, Memory.writes_append]
        simp only [same]

theorem sideBySide_after {m : Machine} {other : Memory}
    (agree : ∀ name, g.Reads name → other.read? name = m.memory.read? name) (link : Link)
    (n : Nat) :
    ∃ stored, g.SideBySide m.memory other stored (g.course.after n link m)
      (g.course.after n link (m.withMemory other)) := by
  induction n with
  | zero => exact ⟨[], rfl, rfl, rfl⟩
  | succ n ih =>
    obtain ⟨stored, runs⟩ := ih
    rw [Course.after_succ, Course.after_succ]
    exact runs.advance agree

/-- On two memories that agree on the variables read, a run executes the same statements, ends in
the same way and stores the same values. -/
theorem run_withMemory {m : Machine} {other : Memory}
    (agree : ∀ name, g.Reads name → other.read? name = m.memory.read? name) (link : Link)
    (n : Nat) :
    ∃ stored : List Cell,
      stored.map (·.name) = g.targets (g.course.after n link m).completed ∧
      (g.run n link m).1.memory = m.memory.writes stored ∧
      (g.course.after n link (m.withMemory other)).executed =
        (g.course.after n link m).executed ∧
      g.run n link (m.withMemory other) =
        ((g.run n link m).1.withMemory (other.writes stored), (g.run n link m).2) := by
  obtain ⟨stored, runs⟩ := sideBySide_after agree link n
  refine ⟨stored, runs.names, ?_, ?_, ?_⟩
  · rw [run_eq_after]
    exact runs.memory
  · rw [runs.same]
  · rw [run_eq_after, run_eq_after, runs.same]
    rfl

end Graph

/-- Variables that a program does not mention do not matter and are not touched.  Two runs of a
graph, built or not, from the same place, with the same input and with memories that agree on every
variable the graph reads, execute the same statements, write the same and fail, finish or go on in
the same way after every number of steps; the memories still agree on these variables then, and on
all that have been assigned.  A variable that no statement assigns keeps its value and its address,
or stays absent. -/
theorem unmentioned_variables_do_not_matter (g : Graph) (link : Link) (m : Machine) :
    (∀ other : Memory, (∀ name, g.Reads name → other.read? name = m.memory.read? name) → ∀ n,
      (g.course.after n link (m.withMemory other)).executed =
        (g.course.after n link m).executed ∧
      (g.run n link (m.withMemory other)).2 = (g.run n link m).2 ∧
      (g.run n link (m.withMemory other)).1.output = (g.run n link m).1.output ∧
      (g.run n link (m.withMemory other)).1.input = (g.run n link m).1.input ∧
      ∀ name, g.Reads name ∨ name ∈ g.targets (g.course.after n link m).completed →
        (g.run n link (m.withMemory other)).1.memory.read? name =
          (g.run n link m).1.memory.read? name) ∧
    ∀ name, ¬ g.Assigns name → ∀ n,
      (g.run n link m).1.memory.address? name = m.memory.address? name ∧
      (g.run n link m).1.memory.read? name = m.memory.read? name := by
  refine ⟨?_, ?_⟩
  · intro other agree n
    obtain ⟨stored, names, memory, executed, same⟩ := Graph.run_withMemory agree link n
    rw [same]
    refine ⟨executed, rfl, rfl, rfl, ?_⟩
    intro name mentioned
    rw [memory]
    apply Memory.read?_writes_congr
    rw [names]
    exact mentioned.imp_left (agree name)
  · intro name unassigned n
    obtain ⟨stored, names, memory, -, -⟩ :=
      Graph.run_withMemory (g := g) (m := m) (fun _ _ => rfl) link n
    rw [memory]
    apply Memory.writes_of_not_mem
    rw [names]
    exact mt Graph.assigns_of_mem_targets unassigned

theorem Graph.reads_countdown {name : Text} (reads : Graph.countdown.Reads name) :
    name = utf8 "n" := by
  obtain ⟨id, node, found, member⟩ := reads
  have isNode := mem_of_node? found
  simp only [countdown, List.mem_cons, List.not_mem_nil, or_false] at isNode
  rcases isNode with rfl | rfl | rfl | rfl | rfl | rfl <;>
    simp [Node.reads, Action.reads, Source.reads, Expr.reads, Element.reads] at member <;>
    exact member

/-- A memory with room for one variable, which it holds. -/
def Memory.occupied : Memory := (Memory.withCapacity 1).write (utf8 "x") (.int 5)

/-- The countdown runs in the same way beside a variable that it does not mention, which has the
first address and all the room there is. -/
theorem countdown_leaves_others_alone :
    (∀ name, Graph.countdown.Reads name →
      Memory.occupied.read? name = Machine.idle.memory.read? name) ∧
    ¬ Graph.countdown.Assigns (utf8 "x") ∧
    let ended := Graph.countdown.run 20 (some 0) (Machine.idle.withMemory .occupied)
    ended.2 = .finished ∧ ended.1.output = (utf8 "0\n").toArray ∧
    ended.1.memory.read? (utf8 "n") = some (.int 0) ∧
    ended.1.memory.address? (utf8 "x") = some 0 ∧
    ended.1.memory.read? (utf8 "x") = some (.int 5) := by
  have agree : ∀ name, Graph.countdown.Reads name →
      Memory.occupied.read? name = Machine.idle.memory.read? name := by
    intro name reads
    rw [Graph.reads_countdown reads]
    decide +kernel
  have unassigned : ¬ Graph.countdown.Assigns (utf8 "x") := by
    rintro ⟨id, node, found, target⟩
    have isNode := Graph.mem_of_node? found
    simp only [Graph.countdown, List.mem_cons, List.not_mem_nil, or_false] at isNode
    rcases isNode with rfl | rfl | rfl | rfl | rfl | rfl <;> revert target <;> decide
  obtain ⟨-, halt, output, -, memory⟩ :=
    (unmentioned_variables_do_not_matter .countdown (some 0) .idle).1 .occupied agree 20
  obtain ⟨address, value⟩ :=
    (unmentioned_variables_do_not_matter .countdown (some 0) (Machine.idle.withMemory .occupied)).2
      (utf8 "x") unassigned 20
  refine ⟨agree, unassigned, ?_, ?_, ?_, ?_, ?_⟩
  · rw [halt]
    decide +kernel
  · rw [output]
    decide +kernel
  · rw [memory (utf8 "n") (.inl ⟨1, _, rfl, by decide⟩)]
    decide +kernel
  · rw [address]
    decide +kernel
  · rw [value]
    decide +kernel

/-- The dump of a memory tells the capacity in a line of its own, and the rest is the same for all
memories with the same cells. -/
theorem Memory.exists_dump (m : Memory) :
    ∃ contents : Text, ∀ other : Memory, other.cells = m.cells →
      other.dump =
        utf8 "**MEMORY PRINT**\nCapacity: " ++ Text.ofNat other.capacity ++ utf8 "\n" ++
          contents := by
  have split : utf8 "\nNum values: " = utf8 "\n" ++ utf8 "Num values: " := by decide +kernel
  apply Exists.intro
  intro other same
  unfold dump
  rw [← size_cells, same, split]
  simp only [List.append_assoc]
  rfl

/-- The initial capacity is only a tuning knob.  Two runs of a graph, built or not, with the same
input, on memories of any initial capacities that have had the same writes, execute the same
statements, write the same, fail, finish or go on in the same way and have the same cells in the
same order after every number of steps; their dumps differ in the line of the capacity only. -/
theorem capacity_does_not_matter (g : Graph) (link : Link) (input : LineSource)
    (initial : List Cell) (first second : Int) (n : Nat) :
    let start (request : Int) : Machine :=
      { memory := (Memory.withCapacity request).writes initial, input, output := #[] }
    (g.course.after n link (start second)).executed =
      (g.course.after n link (start first)).executed ∧
    (g.run n link (start second)).2 = (g.run n link (start first)).2 ∧
    (g.run n link (start second)).1.output = (g.run n link (start first)).1.output ∧
    (g.run n link (start second)).1.input = (g.run n link (start first)).1.input ∧
    (g.run n link (start second)).1.memory.cells = (g.run n link (start first)).1.memory.cells ∧
    ∃ contents : Text, ∀ request ∈ [first, second],
      (g.run n link (start request)).1.memory.dump =
        utf8 "**MEMORY PRINT**\nCapacity: " ++
          Text.ofNat (g.run n link (start request)).1.memory.capacity ++ utf8 "\n" ++ contents := by
  intro start
  have empty : (Memory.withCapacity second).cells = (Memory.withCapacity first).cells := by
    rw [Memory.cells_withCapacity, Memory.cells_withCapacity]
  have startCells : (start second).memory.cells = (start first).memory.cells :=
    Memory.cells_writes_congr empty initial
  obtain ⟨stored, -, memory, executed, same⟩ :=
    Graph.run_withMemory (g := g) (m := start first)
      (fun name _ => Memory.read?_congr startCells name) link n
  have restart : (start first).withMemory (start second).memory = start second := rfl
  rw [restart] at executed same
  have cells : (g.run n link (start second)).1.memory.cells =
      (g.run n link (start first)).1.memory.cells := by
    rw [same, memory]
    exact Memory.cells_writes_congr startCells stored
  refine ⟨executed, ?_, ?_, ?_, cells, ?_⟩
  · rw [same]
  · rw [same]
    rfl
  · rw [same]
    rfl
  · obtain ⟨contents, dumps⟩ := (g.run n link (start first)).1.memory.exists_dump
    refine ⟨contents, ?_⟩
    intro request member
    rcases List.mem_pair.mp member with rfl | rfl
    · exact dumps _ rfl
    · exact dumps _ cells

end StepGraph
