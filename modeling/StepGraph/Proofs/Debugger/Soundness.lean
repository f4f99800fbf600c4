import StepGraph.Proofs.Debugger.Calls
import StepGraph.Proofs.Graph.Soundness

/-!
# Debuggers without defects

A debugger fits a set of positions when its graph does and the pending node and
the links it keeps stay within them.  Loading such a graph gives such a
debugger, every call on it comes out without a defect and leaves it fitting, and
the errors it reports are covered by the elements of the graph.
-/

namespace StepGraph

/-- The error of a stop, if it has one, satisfies `Q`. -/
def Stop.Satisfies (Q : Fault → Prop) : Stop → Prop
  | .halted _ error => Q (.error error)
  | _ => True

namespace Debugger

/-- The graph fits the positions of `base`, and the debugger keeps within them. -/
structure Fits (P : Element → Prop) (base : Graph) (d : Debugger) : Prop where
  graph : Graph.Fits P base d.graph
  current : base.InRange d.current
  saved : ∀ l, d.saved = some l → d.current ≠ none ∧ base.LinksInRange l

theorem isolate_cases {d after : Debugger} (isolated : d.isolate = .ok after) :
    (after = d ∧ (d.current = none ∨ d.saved ≠ none)) ∨
      ∃ id node, d.current = some id ∧ d.saved = none ∧ d.graph.node? id = some node ∧
        after = { d with graph := d.graph.relink id .none, saved := some node.links } := by
  unfold isolate at isolated
  split at isolated
  · rename_i id current saved
    cases found : d.graph.node? id with
    | none =>
      unfold Graph.sever Graph.node at isolated
      rw [found] at isolated
      cases isolated
    | some node =>
      rw [Graph.sever_of_node? found] at isolated
      cases isolated
      exact .inr ⟨id, node, current, saved, found, rfl⟩
  · rename_i other
    cases isolated
    refine .inl ⟨rfl, ?_⟩
    cases current : d.current with
    | none => exact .inl rfl
    | some id =>
      cases saved : d.saved with
      | none => exact absurd saved (other id current)
      | some l => exact .inr (by simp)

/-- Joining does nothing, or puts the links of the pending node back. -/
theorem rejoin_cases {d after : Debugger} (rejoined : d.rejoin = .ok after) :
    (after = d ∧ d.saved = none) ∨
      ∃ id l, d.current = some id ∧ d.saved = some l ∧
        after = { d with graph := d.graph.relink id l, saved := none } := by
  unfold rejoin at rejoined
  split at rejoined
  · rename_i saved
    cases rejoined
    exact .inl ⟨rfl, saved⟩
  · cases rejoined
  · rename_i l id saved current
    cases found : d.graph.node? id with
    | none =>
      unfold Graph.restore Graph.setLinks Graph.node at rejoined
      rw [found] at rejoined
      cases rejoined
    | some node =>
      rw [Graph.restore_of_node? found] at rejoined
      cases rejoined
      exact .inr ⟨id, l, current, saved, rfl⟩

theorem saved_of_rejoin {d after : Debugger} (rejoined : d.rejoin = .ok after) :
    after.saved = none := by
  rcases rejoin_cases rejoined with ⟨rfl, saved⟩ | ⟨id, l, -, -, rfl⟩
  · exact saved
  · rfl

theorem node?_of_rejoin {d after : Debugger} {id : NodeId} {node : Node}
    (rejoined : d.rejoin = .ok after) (found : d.graph.node? id = some node) :
    ∃ joined, after.graph.node? id = some joined ∧
      ∀ m : Machine, m.effect joined = m.effect node := by
  rcases rejoin_cases rejoined with ⟨rfl, -⟩ | ⟨current, l, -, -, rfl⟩
  · exact ⟨node, found, fun _ => rfl⟩
  · by_cases same : id = current
    · subst same
      exact ⟨node.withLinks l, Graph.node?_relink_self found l, fun m => m.effect_withLinks node l⟩
    · exact ⟨node, (Graph.node?_relink_of_ne same l).trans found, fun _ => rfl⟩

namespace Fits

variable {P : Element → Prop} {Q : Fault → Prop} {base : Graph} {d : Debugger}

theorem isolate (fits : d.Fits P base) : ∃ after, d.isolate = .ok after ∧ after.Fits P base := by
  unfold Debugger.isolate
  split
  · rename_i id current saved
    obtain ⟨node, found⟩ := fits.graph.exists_node? (fits.current id current)
    rw [Graph.sever_of_node? found]
    refine ⟨_, rfl, ?_⟩
    exact
      { graph := fits.graph.relink id base.linksInRange_none
        current := fits.current
        saved := by
          intro l kept
          cases kept
          exact ⟨current.symm ▸ nofun, fits.graph.links found⟩ }
  · exact ⟨d, rfl, fits⟩

theorem rejoin (fits : d.Fits P base) : ∃ after, d.rejoin = .ok after ∧ after.Fits P base := by
  unfold Debugger.rejoin
  split
  · exact ⟨d, rfl, fits⟩
  · rename_i l saved current
    exact absurd current (fits.saved l saved).1
  · rename_i l id saved current
    obtain ⟨node, found⟩ := fits.graph.exists_node? (fits.current id current)
    rw [Graph.restore_of_node? found]
    refine ⟨_, rfl, ?_⟩
    exact
      { graph := fits.graph.relink id (fits.saved l saved).2
        current := fits.current
        saved := fun _ kept => by cases kept }

theorem of_frame {other : Debugger} (fits : d.Fits P base) (graph : other.graph = d.graph)
    (current : other.current = d.current) (saved : other.saved = d.saved) :
    other.Fits P base where
  graph := graph ▸ fits.graph
  current := current ▸ fits.current
  saved := saved ▸ current ▸ fits.saved

theorem start (fits : d.Fits P base) : d.start.Fits P base :=
  fits.of_frame d.start_graph d.start_current d.start_saved

theorem complete (fits : d.Fits P base) : d.complete.Fits P base := fits.of_frame rfl rfl rfl

theorem changeBreakpoints (fits : d.Fits P base) {result : Except BreakpointError Debugger}
    (frame : ∀ changed, result = .ok changed → ∃ lines, changed = { d with breakpoints := lines }) :
    (d.change result).1.Fits P base := by
  cases result with
  | error error => exact fits
  | ok changed =>
    obtain ⟨lines, rfl⟩ := frame changed rfl
    exact fits.of_frame rfl rfl rfl

/-- The debugger moves on along the branch that a node has taken. -/
theorem moveOn (fits : d.Fits P base) {id : NodeId} {node : Node} {m : Machine} {branch : Branch}
    (found : d.graph.node? id = some node) (taken : (m.effect node).2 = .ok branch) :
    ∃ after, d.moveOn id branch = .ok after ∧ after.Fits P base := by
  obtain ⟨joined, rejoined, joinedFits⟩ := fits.rejoin
  obtain ⟨again, foundAgain, sameEffect⟩ := node?_of_rejoin rejoined found
  have takenAgain : (m.effect again).2 = .ok branch := by rw [sameEffect, taken]
  unfold Debugger.moveOn
  rw [rejoined]
  simp only [Graph.follow_of_effect foundAgain takenAgain]
  apply Fits.isolate
  exact
    { graph := joinedFits.graph
      current := (joinedFits.graph.links foundAgain).along branch
      saved := fun _ kept => nomatch (saved_of_rejoin rejoined).symm.trans kept }

section Covers

variable (covers : Covers P Q) (noDefect : ∀ defect, ¬ Q (.defect defect))
include covers noDefect

/-- A visit comes out without a defect, and the error it may report is covered. -/
theorem visit (fits : d.Fits P base) {id : NodeId} (valid : base.isValid id = true) :
    ∃ after stop, d.visit id = .ok (after, stop) ∧ after.Fits P base ∧
      ∀ reported, stop = some reported → reported.Satisfies Q := by
  obtain ⟨node, found⟩ := fits.graph.exists_node? valid
  unfold Debugger.visit
  rw [Graph.line_of_node? found]
  simp only [Graph.execute_of_node? found]
  split
  · refine ⟨_, _, rfl, fits.of_frame rfl rfl rfl, ?_⟩
    intro reported stop
    cases stop
    trivial
  · cases executed : d.machine.execute node with
    | mk m result =>
      have covered : ∀ fault, result = .error fault → Q fault := fun fault failed =>
        covers.execute (fits.graph.composed found) ((congrArg Prod.snd executed).trans failed)
      cases result with
      | error fault =>
        cases fault with
        | defect defect => exact absurd (covered _ rfl) (noDefect defect)
        | error error =>
          have halted : ({ d with machine := m, reported := false } : Debugger).Fits P base :=
            fits.of_frame rfl rfl rfl
          obtain ⟨after, rejoined, afterFits⟩ := halted.rejoin
          simp only [rejoined]
          refine ⟨_, _, rfl, afterFits.of_frame rfl rfl rfl, ?_⟩
          intro reported stop
          cases stop
          exact covered _ rfl
      | ok outcome =>
        have taken : (d.machine.effect node).2 = .ok outcome.branch := by
          simp only [Machine.effect, executed, Except.map]
        have moving : ({ d with machine := m, reported := false } : Debugger).Fits P base :=
          fits.of_frame rfl rfl rfl
        obtain ⟨after, moved, afterFits⟩ := moving.moveOn found taken
        simp only [moved]
        refine ⟨_, _, rfl, afterFits, ?_⟩
        intro reported stop
        cases stop

theorem step (fits : d.Fits P base) :
    ∃ after stop, d.step = .ok (after, stop) ∧ after.Fits P base ∧ stop.Satisfies Q := by
  unfold Debugger.step
  split
  · exact ⟨_, _, rfl, fits, trivial⟩
  · split
    · exact ⟨_, _, rfl, fits.start.complete, trivial⟩
    · rename_i id pending
      obtain ⟨after, stop, visited, afterFits, covered⟩ :=
        fits.start.visit covers noDefect (fits.start.current id pending)
      simp only [visited]
      cases stop with
      | some stop =>
        exact ⟨_, _, rfl, afterFits, covered stop rfl⟩
      | none =>
        cases current : after.current with
        | none =>
          simp only [current]
          exact ⟨_, _, rfl, afterFits.complete, trivial⟩
        | some next =>
          obtain ⟨node, found⟩ := afterFits.graph.exists_node? (afterFits.current next current)
          simp only [current, Graph.line_of_node? found]
          exact ⟨_, _, rfl, afterFits, trivial⟩

theorem advance (fits : d.Fits P base) (fuel : Nat) :
    ∃ result, d.advance fuel = .ok result ∧
      ∀ after stop, result = some (after, stop) → after.Fits P base ∧ stop.Satisfies Q := by
  induction fuel generalizing d with
  | zero => exact ⟨none, rfl, fun _ _ returned => by cases returned⟩
  | succ fuel ih =>
    unfold Debugger.advance
    split
    · refine ⟨_, rfl, ?_⟩
      intro after stop returned
      cases returned
      exact ⟨fits.complete, trivial⟩
    · rename_i id pending
      obtain ⟨after, stop, visited, afterFits, covered⟩ :=
        fits.visit covers noDefect (fits.current id pending)
      simp only [visited]
      cases stop with
      | none => exact ih afterFits
      | some stop =>
        refine ⟨_, rfl, ?_⟩
        intro last final returned
        cases returned
        exact ⟨afterFits, covered stop rfl⟩

theorem run (fits : d.Fits P base) (fuel : Nat) :
    ∃ result, d.run fuel = .ok result ∧
      ∀ after stop, result = some (after, stop) → after.Fits P base ∧ stop.Satisfies Q := by
  unfold Debugger.run
  split
  · refine ⟨_, rfl, ?_⟩
    intro after stop returned
    cases returned
    exact ⟨fits, trivial⟩
  · exact fits.start.advance covers noDefect fuel

/-- Every call comes out without a defect, leaves a fitting debugger, and reports covered errors
only. -/
theorem perform (fits : d.Fits P base) (call : Call) :
    ∃ result, d.perform call = .ok result ∧
      ∀ after reply, result = some (after, reply) →
        after.Fits P base ∧ ∀ stop, reply = .stopped stop → stop.Satisfies Q := by
  have quiet {after : Debugger} {reply : Reply} (afterFits : after.Fits P base)
      (noStop : ∀ stop, reply ≠ .stopped stop) :
      ∀ last answer, some (after, reply) = some (last, answer) →
        last.Fits P base ∧ ∀ stop, answer = .stopped stop → stop.Satisfies Q := by
    intro last answer returned
    cases returned
    exact ⟨afterFits, fun stop stopped => absurd stopped (noStop stop)⟩
  cases call with
  | step =>
    obtain ⟨after, stop, stepped, afterFits, covered⟩ := fits.step covers noDefect
    simp only [Debugger.perform, stepped, Except.map]
    refine ⟨_, rfl, ?_⟩
    intro last reply returned
    cases returned
    refine ⟨afterFits, ?_⟩
    intro other same
    cases same
    exact covered
  | run fuel =>
    obtain ⟨result, ran, covered⟩ := fits.run covers noDefect fuel
    simp only [Debugger.perform, ran, Except.map]
    refine ⟨_, rfl, ?_⟩
    intro last reply returned
    obtain ⟨⟨after, stop⟩, rfl, same⟩ := Option.map_eq_some_iff.mp returned
    cases same
    obtain ⟨afterFits, stopCovered⟩ := covered _ _ rfl
    refine ⟨afterFits, ?_⟩
    intro other same
    cases same
    exact stopCovered
  | setBreakpoint line =>
    refine ⟨_, rfl, quiet (fits.changeBreakpoints fun _ => setBreakpoint_frame) ?_⟩
    intro stop
    cases d.setBreakpoint line <;> simp
  | removeBreakpoint line =>
    refine ⟨_, rfl, quiet (fits.changeBreakpoints fun _ => removeBreakpoint_frame) ?_⟩
    intro stop
    cases d.removeBreakpoint line <;> simp
  | close =>
    obtain ⟨after, rejoined, afterFits⟩ := fits.rejoin
    simp only [Debugger.perform, close, rejoined, Except.map]
    exact ⟨_, rfl, quiet afterFits (by simp)⟩
  | clearBreakpoints => exact ⟨_, rfl, quiet (fits.of_frame rfl rfl rfl) (by simp)⟩
  | listBreakpoints | whereAmI | showState | valueOf name =>
    exact ⟨_, rfl, quiet fits (by simp)⟩

end Covers

theorem load {g : Graph} (fits : Graph.Fits P base g) (m : Machine) :
    ∃ d, Debugger.load g m = .ok d ∧ d.Fits P base := by
  obtain ⟨lines, found⟩ := fits.lines_ok
  unfold Debugger.load
  simp only [found]
  apply Fits.isolate
  exact { graph := fits, current := fits.entry, saved := fun _ kept => by cases kept }

end Fits

end Debugger

end StepGraph
