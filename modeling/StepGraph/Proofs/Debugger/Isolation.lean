import StepGraph.Proofs.Debugger.Soundness

/-!
# The graph under a debugger

A debugger borrows the links of its pending node and of no other.  While it has
them, they are the links that the node had when the program was loaded; once
execution has completed it has none.  One inversion lemma says what a visit does
under this invariant.
-/

namespace StepGraph

namespace Debugger

/-- The graph of the debugger is `g`, but for the links of the pending node while these are kept;
none are kept once execution has completed. -/
inductive Intact (g : Graph) (d : Debugger) : Prop
  | whole (graph : d.graph = g) (saved : d.saved = none)
  | severed {id : NodeId} {node : Node} (pending : d.current = some id)
      (found : g.node? id = some node) (graph : d.graph = g.relink id .none)
      (saved : d.saved = some node.links) (going : d.state ≠ .completed)

namespace Intact

variable {g : Graph} {d : Debugger}

/-- The invariant reads the graph, the pending node, the kept links and the state only. -/
theorem of_frame {other : Debugger} (intact : Intact g d) (graph : other.graph = d.graph)
    (current : other.current = d.current) (saved : other.saved = d.saved)
    (state : other.state = .completed → d.state = .completed) : Intact g other := by
  cases intact with
  | whole whole none => exact .whole (graph.trans whole) (saved.trans none)
  | severed pending found relinked kept going =>
    exact .severed (current.trans pending) found (graph.trans relinked) (saved.trans kept)
      fun completed => going (state completed)

theorem start (intact : Intact g d) : Intact g d.start := by
  apply intact.of_frame d.start_graph d.start_current d.start_saved
  unfold Debugger.start
  split
  · intro completed
    cases completed
  · exact fun completed => completed

theorem rejoin (intact : Intact g d) : d.rejoin = .ok { d with graph := g, saved := none } := by
  cases intact with
  | whole graph saved =>
    obtain ⟨_, _, _, _, _, _, current, _⟩ := d
    cases graph
    cases saved
    cases current <;> rfl
  | severed pending found graph saved going =>
    unfold Debugger.rejoin
    rw [pending, saved, graph]
    simp only [Graph.restore_of_node? (Graph.node?_relink_self found .none), Graph.relink_relink,
      Graph.relink_links found]

theorem node? (intact : Intact g d) {id : NodeId} {here : Node}
    (found : d.graph.node? id = some here) :
    ∃ node, g.node? id = some node ∧ here.line = node.line ∧
      ∀ m : Machine, m.effect here = m.effect node := by
  cases intact with
  | whole graph saved =>
    rw [graph] at found
    exact ⟨here, found, rfl, fun _ => rfl⟩
  | @severed pendingId node pending pendingFound graph saved going =>
    rw [graph] at found
    by_cases same : id = pendingId
    · subst same
      rw [Graph.node?_relink_self pendingFound] at found
      cases found
      exact ⟨node, pendingFound, node.line_withLinks _, fun m => m.effect_withLinks node _⟩
    · rw [Graph.node?_relink_of_ne same] at found
      exact ⟨here, found, rfl, fun _ => rfl⟩

theorem of_isolate {after : Debugger} (graph : d.graph = g) (saved : d.saved = none)
    (going : d.state ≠ .completed) (isolated : d.isolate = .ok after) :
    Intact g after ∧ ∃ graph saved, after = { d with graph, saved } := by
  rcases isolate_cases isolated with ⟨rfl, -⟩ | ⟨id, node, pending, -, found, rfl⟩
  · exact ⟨.whole graph saved, after.graph, after.saved, rfl⟩
  · refine ⟨?_, _, _, rfl⟩
    rw [graph] at found
    exact .severed pending found (congrArg (·.relink id .none) graph) rfl going

/-- Nothing but the links of the entry is borrowed by a debugger that has just been loaded. -/
theorem of_load {m : Machine} (loaded : Debugger.load g m = .ok d) :
    Intact g d ∧ d.machine = m ∧ d.state = .loaded ∧ d.current = g.entry := by
  unfold Debugger.load at loaded
  split at loaded
  · cases loaded
  · obtain ⟨intact, graph, saved, rfl⟩ := of_isolate rfl rfl (by simp) loaded
    exact ⟨intact, rfl, rfl, rfl⟩

theorem moveOn {after : Debugger} {id : NodeId} {node : Node} {m : Machine} {branch : Branch}
    (intact : Intact g d) (going : d.state ≠ .completed) (found : g.node? id = some node)
    (taken : (m.effect node).2 = .ok branch) (moved : d.moveOn id branch = .ok after) :
    Intact g after ∧
      ∃ graph saved, after = { d with graph, saved, current := node.links.along branch } := by
  unfold Debugger.moveOn at moved
  rw [intact.rejoin] at moved
  simp only [Graph.follow_of_effect found taken] at moved
  have stillGoing : ({ d with
      graph := g, saved := none, current := node.links.along branch } : Debugger).state ≠
        .completed := going
  obtain ⟨stays, graph, saved, frame⟩ := of_isolate rfl rfl stillGoing moved
  exact ⟨stays, graph, saved, frame⟩

end Intact

/-- What a visit of a node has done, with the nodes it has executed: a breakpoint stopped before the
node, the node failed, or the debugger has moved on to the next one. -/
inductive Visited (g : Graph) (d : Debugger) (id : NodeId) (node : Node) :
    List NodeId → Debugger → Option Stop → Prop
  | breakpoint : Visited g d id node [] { d with reported := true } (some (.breakpoint node.line))
  | halted {error : ExecutionError}
      (failed : (d.machine.effect node).2 = .error (.error error)) :
      Visited g d id node [id]
        { d with
          graph := g, machine := (d.machine.effect node).1, state := .completed, reported := false,
          saved := none }
        (some (.halted node.line error))
  | moved {branch : Branch} {after : Debugger} (graph : Graph) (saved : Option Links)
      (taken : (d.machine.effect node).2 = .ok branch) (intact : Intact g after)
      (frame : after =
        { d with
          graph, saved, machine := (d.machine.effect node).1, reported := false,
          current := node.links.along branch }) :
      Visited g d id node [id] after none

theorem Intact.visit_cases {g : Graph} {d after : Debugger} {id : NodeId} {stop : Option Stop}
    (intact : Intact g d) (going : d.state ≠ .completed)
    (visited : d.visit id = .ok (after, stop)) :
    ∃ node, g.node? id = some node ∧ Visited g d id node (d.visitLog id) after stop := by
  unfold visit at visited
  cases here : d.graph.node? id with
  | none =>
    unfold Graph.line Graph.node at visited
    rw [here] at visited
    cases visited
  | some severed =>
    obtain ⟨node, found, sameLine, sameEffect⟩ := intact.node? here
    refine ⟨node, found, ?_⟩
    simp only [Graph.line_of_node? here, Graph.execute_of_node? here] at visited
    unfold visitLog stopsBefore
    simp only [Graph.line_of_node? here]
    split at visited
    · rename_i stops
      cases visited
      rw [if_pos stops, sameLine]
      exact .breakpoint
    · rename_i passes
      rw [if_neg passes]
      have effect := d.machine.execute_eq_effect severed
      rw [sameEffect] at effect
      rw [effect] at visited
      have moving : Intact g { d with machine := (d.machine.effect node).1, reported := false } :=
        intact.of_frame rfl rfl rfl fun completed => completed
      cases result : (d.machine.effect node).2 with
      | error fault =>
        cases fault with
        | defect defect => simp only [result, Except.map] at visited; cases visited
        | error error =>
          simp only [result, Except.map, moving.rejoin] at visited
          cases visited
          rw [sameLine]
          exact .halted result
      | ok branch =>
        simp only [result, Except.map] at visited
        split at visited
        · cases visited
        · rename_i last moved
          cases visited
          obtain ⟨stays, graph, saved, frame⟩ := moving.moveOn going found result moved
          exact .moved graph saved result stays frame

end Debugger

end StepGraph
