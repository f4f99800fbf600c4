import StepGraph.Proofs.Debugger.Calls
import StepGraph.Proofs.Debugger.Replay
import StepGraph.Proofs.Terminal.Lines

/-!
# Debugging at a terminal

A visit, a step or a run of the debugger does not depend on lines that come in
later.
-/

namespace StepGraph

namespace Debugger

variable {d : Debugger} {lines : List Text}

theorem supply_supply (expects : d.machine.input.Expects lines) (first second : Text) :
    (d.supply first).supply second = d.supply (first ++ second) := by
  simp only [supply, Machine.supply_supply expects]

/-- The result of a move with more lines to come. -/
def supplied {α : Type} (result : Except Defect (Debugger × α)) (text : Text) :
    Except Defect (Debugger × α) :=
  result.map fun ended => (ended.1.supply text, ended.2)

/-- The debugger after a move still has lines to come. -/
def Expects {α : Type} (result : Except Defect (Debugger × α)) (lines : List Text) : Prop :=
  ∀ d stop, result = .ok (d, stop) → d.machine.input.Expects lines

theorem expects_error {α : Type} (defect : Defect) (lines : List Text) :
    Expects (.error defect : Except Defect (Debugger × α)) lines := by
  intro d stop returned
  cases returned

theorem expects_ok {α : Type} {stop : α} (expects : d.machine.input.Expects lines) :
    Expects (.ok (d, stop)) lines := by
  intro d stop returned
  cases returned
  exact expects

section

variable {α : Type} {result there : Except Defect Debugger} {f : Debugger → Debugger × α}

/-- What is done after a statement leaves the lines to come alone. -/
theorem supplied_of_map {text : Text} (same : there = result.map (mapMachine (·.supply text)))
    (alone : ∀ d, f (d.supply text) = ((f d).1.supply text, (f d).2)) :
    there.map f = supplied (result.map f) text := by
  rw [same]
  cases result with
  | error defect => rfl
  | ok moved => exact congrArg Except.ok (alone moved)

theorem expects_of_map (expects : ∀ after, result = .ok after →
    (f after).1.machine.input.Expects lines) : Expects (result.map f) lines := by
  intro after stop returned
  obtain ⟨moved, moves, same⟩ := ok_of_map_ok returned
  have kept := expects moved moves
  rw [same] at kept
  exact kept

end

/-- Whether the links can be put back does not depend on what has been executed. -/
theorem rejoin_executed (d : Debugger) (machine : Machine) :
    ({ d with machine, reported := false } : Debugger).rejoin =
      d.rejoin.map fun joined => { joined with machine, reported := false } := by
  simp only [rejoin]
  split
  · rfl
  · rfl
  · cases d.graph.restore _ _ <;> rfl

section

variable {id : NodeId} {line : Int} (found : d.graph.line id = .ok line)
  (passes : (decide (line ∈ d.breakpoints) && !d.reported) = false)
include found passes

theorem visit_supply_of_execute
    (framed : d.graph.execute id (d.machine.supply lines.flatten) =
        ((d.graph.execute id d.machine).1.supply lines.flatten,
          (d.graph.execute id d.machine).2) ∧
      (d.graph.execute id d.machine).1.input.Expects lines) :
    (d.supply lines.flatten).visit id = supplied (d.visit id) lines.flatten ∧
      Expects (d.visit id) lines := by
  have foundThere : (d.supply lines.flatten).graph.line id = .ok line := found
  rcases executed : d.graph.execute id d.machine with ⟨m, fault | outcome⟩
  · rw [executed] at framed
    obtain ⟨executedThere, kept⟩ := framed
    cases fault with
    | defect defect =>
      rw [visit_of_defect found passes executed, visit_of_defect foundThere passes executedThere]
      exact ⟨rfl, expects_error defect lines⟩
    | error error =>
      rw [visit_of_error found passes executed, visit_of_error foundThere passes executedThere]
      have rejoins := rejoin_mapMachine { d with machine := m, reported := false }
        (·.supply lines.flatten)
      refine ⟨supplied_of_map rejoins fun _ => rfl, expects_of_map fun after rejoined => ?_⟩
      have same : after.complete.machine.input = m.input :=
        congrArg Channel.input (channel_of_rejoin rejoined)
      rw [same]
      exact kept
  · rw [executed] at framed
    obtain ⟨executedThere, kept⟩ := framed
    rw [visit_of_outcome found passes executed, visit_of_outcome foundThere passes executedThere]
    have moves := moveOn_mapMachine { d with machine := m, reported := false }
      (·.supply lines.flatten) id outcome.branch
    refine ⟨supplied_of_map moves fun _ => rfl, expects_of_map fun after moved => ?_⟩
    have same : after.machine.input = m.input := congrArg Channel.input (channel_of_moveOn moved)
    rw [same]
    exact kept

/-- A statement whose links cannot be put back leads nowhere, whatever it is given to read. -/
theorem visit_of_stuck {defect : Defect} (stuck : d.rejoin = .error defect)
    (sound : ∀ defect, (d.graph.execute id d.machine).2 ≠ .error (.defect defect)) :
    d.visit id = .error defect := by
  have stuckThere (machine : Machine) :
      ({ d with machine, reported := false } : Debugger).rejoin = .error defect := by
    rw [rejoin_executed, stuck]
    rfl
  rcases executed : d.graph.execute id d.machine with ⟨m, fault | outcome⟩
  · cases fault with
    | defect defect => exact absurd (congrArg Prod.snd executed) (sound defect)
    | error error =>
      rw [visit_of_error found passes executed, stuckThere]
      rfl
  · rw [visit_of_outcome found passes executed, moveOn, stuckThere]
    rfl

theorem visit_of_stuck_lacking (lacks : Machine.LacksLine (d.graph.execute id d.machine).2)
    {defect : Defect} (stuck : d.rejoin = .error defect) (text : Text) :
    d.visit id = .error defect ∧ (d.supply text).visit id = .error defect := by
  have sound : ∀ defect, (d.graph.execute id d.machine).2 ≠ .error (.defect defect) := by
    obtain ⟨place, lacks⟩ := lacks
    rw [lacks]
    rintro _ ⟨⟩
  have stuckThere := d.rejoin_mapMachine (·.supply text)
  rw [stuck] at stuckThere
  have foundThere : (d.supply text).graph.line id = .ok line := found
  exact ⟨visit_of_stuck found passes stuck sound, visit_of_stuck foundThere passes stuckThere
    (d.graph.execute_sound_of_lacksLine id lacks text)⟩

end

/-- A visit does not depend on lines that come in later. -/
theorem visit_supply (id : NodeId) (expects : d.machine.input.Expects lines)
    (served : (Attempt.visit id).wantsLine (d.visit id) = false ∨ d.machine.input.left ≠ [] ∨
      lines = []) :
    (d.supply lines.flatten).visit id = supplied (d.visit id) lines.flatten ∧
      Expects (d.visit id) lines := by
  cases found : d.graph.line id with
  | error defect =>
    have failed : d.visit id = .error defect := by rw [visit, found]
    have failedThere : (d.supply lines.flatten).visit id = .error defect := by
      rw [visit, show (d.supply lines.flatten).graph.line id = _ from found]
    rw [failed, failedThere]
    exact ⟨rfl, expects_error defect lines⟩
  | ok line =>
    have foundThere : (d.supply lines.flatten).graph.line id = .ok line := found
    cases passes : decide (line ∈ d.breakpoints) && !d.reported with
    | true =>
      rw [visit_of_stop found passes, visit_of_stop foundThere passes]
      exact ⟨rfl, expects_ok expects⟩
    | false =>
      by_cases lacks : Machine.LacksLine (d.graph.execute id d.machine).2
      · cases rejoins : d.rejoin with
        | error defect =>
          obtain ⟨here, there⟩ := visit_of_stuck_lacking found passes lacks rejoins lines.flatten
          rw [here, there]
          exact ⟨rfl, expects_error defect lines⟩
        | ok joined =>
          refine visit_supply_of_execute found passes (d.graph.execute_supply id expects (.inr ?_))
          refine served.resolve_left fun served => ?_
          obtain ⟨place, lacks⟩ := lacks
          rcases executed : d.graph.execute id d.machine with ⟨m, result⟩
          rw [executed] at lacks
          subst lacks
          rw [visit_of_error found passes executed, rejoin_executed, rejoins] at served
          cases served
      · exact visit_supply_of_execute found passes
          (d.graph.execute_supply id expects (.inl lacks))

theorem start_supply (d : Debugger) (text : Text) : (d.supply text).start = d.start.supply text :=
  d.start_mapMachine (·.supply text)

/-- What a step makes of the visit of the pending statement. -/
def stepped : Except Defect (Debugger × Option Stop) → Except Defect (Debugger × Stop)
  | .error defect => .error defect
  | .ok (d, some stop) => .ok (d, stop)
  | .ok (d, none) =>
    match d.current with
    | none => .ok (d.complete, .finished)
    | some id => (d.graph.line id).map fun line => (d, .stepped line)

theorem step_of_pending {id : NodeId} (running : d.state ≠ .completed)
    (pending : d.current = some id) : d.step = stepped (d.start.visit id) := by
  rw [step, if_neg running, start_current, pending]
  rfl

theorem step_at_end (running : d.state ≠ .completed) (ended : d.current = none) :
    d.step = .ok (d.start.complete, .finished) := by
  rw [step, if_neg running, start_current, ended]

section

variable (result : Except Defect (Debugger × Option Stop))

theorem stepped_supplied (text : Text) :
    stepped (supplied result text) = supplied (stepped result) text := by
  rcases result with defect | ⟨d, stop⟩
  · rfl
  cases stop with
  | some stop => rfl
  | none =>
    cases pending : d.current with
    | none =>
      have there : (d.supply text).current = none := pending
      simp only [supplied, Except.map, stepped, pending, there]
      rfl
    | some id =>
      have there : (d.supply text).current = some id := pending
      have graph : (d.supply text).graph = d.graph := rfl
      simp only [supplied, Except.map, stepped, pending, there, graph]
      cases d.graph.line id <;> rfl

theorem expects_stepped (expects : Expects result lines) : Expects (stepped result) lines := by
  rcases result with defect | ⟨d, stop⟩
  · exact expects_error defect lines
  have kept := expects d stop rfl
  cases stop with
  | some stop => exact expects_ok kept
  | none =>
    unfold stepped
    dsimp only
    split
    · exact expects_ok kept
    · cases d.graph.line _ with
      | error defect => exact expects_error defect lines
      | ok line => exact expects_ok kept

theorem wantsLine_stepped (id : NodeId) :
    Attempt.step.wantsLine (stepped result) = (Attempt.visit id).wantsLine result := by
  rcases result with defect | ⟨d, stop⟩
  · rfl
  cases stop with
  | some stop => rfl
  | none =>
    unfold stepped
    dsimp only
    split
    · rfl
    · cases d.graph.line _ <;> rfl

end

/-- A step does not depend on lines that come in later. -/
theorem step_supply (expects : d.machine.input.Expects lines)
    (served : Attempt.step.wantsLine d.step = false ∨ d.machine.input.left ≠ [] ∨ lines = []) :
    (d.supply lines.flatten).step = supplied d.step lines.flatten ∧ Expects d.step lines := by
  by_cases completed : d.state = .completed
  · have same : d.step = .ok (d, .alreadyCompleted) := if_pos completed
    have there : (d.supply lines.flatten).step = .ok (d.supply lines.flatten, .alreadyCompleted) :=
      if_pos completed
    rw [same, there]
    exact ⟨rfl, expects_ok expects⟩
  have running : (d.supply lines.flatten).state ≠ .completed := completed
  cases pending : d.current with
  | none =>
    rw [step_at_end completed pending, step_at_end running pending, start_supply]
    rw [← d.start_machine] at expects
    exact ⟨rfl, expects_ok expects⟩
  | some id =>
    rw [step_of_pending completed pending] at served ⊢
    rw [wantsLine_stepped _ id] at served
    rw [← d.start_machine] at expects served
    obtain ⟨visitThere, kept⟩ := visit_supply id expects served
    rw [step_of_pending running pending, start_supply, visitThere, stepped_supplied]
    exact ⟨rfl, expects_stepped _ kept⟩

end Debugger

namespace Attempt

theorem visit_follows (id : NodeId) :
    (visit id).Follows (fun d lines => d.machine.input.Expects lines)
      (fun d => d.machine.input.left ≠ []) Debugger.supplied Debugger.Expects where
  supply_supply ready := Debugger.supply_supply ready
  comesIn ready typed := ready.supply typed
  frame ready served := Debugger.visit_supply id ready served

theorem step_follows :
    step.Follows (fun d lines => d.machine.input.Expects lines)
      (fun d => d.machine.input.left ≠ []) Debugger.supplied Debugger.Expects where
  supply_supply ready := Debugger.supply_supply ready
  comesIn ready typed := ready.supply typed
  frame ready served := Debugger.step_supply ready served

end Attempt

namespace Debugger

/-- The result of a run with more lines to come. -/
def ranOut (result : Except Defect (Option (Debugger × Stop))) (text : Text) :
    Except Defect (Option (Debugger × Stop)) :=
  result.map fun ended => ended.map fun ended => (ended.1.supply text, ended.2)

/-- At a terminal statements are visited as on the text of the lines. -/
theorem advance_follows (fuel : Nat) {d : Debugger} {lines : List Text}
    (expects : d.machine.input.Expects lines) (typed : Typed lines) :
    ∃ result rest, (Terminal.typist.advance fuel d).run lines = pure (result, rest) ∧ Typed rest ∧
      (d.supply lines.flatten).advance fuel = ranOut result rest.flatten ∧
      ∀ after stop, result = .ok (some (after, stop)) → after.machine.input.Expects rest := by
  induction fuel generalizing d lines with
  | zero =>
    refine ⟨.ok none, lines, rfl, typed, rfl, ?_⟩
    rintro _ _ ⟨⟩
  | succ fuel ih =>
    cases pending : d.current with
    | none =>
      have there : (d.supply lines.flatten).current = none := pending
      simp only [Terminal.advance, advance, pending, there]
      refine ⟨.ok (some (d.complete, .finished)), lines, rfl, typed, rfl, ?_⟩
      rintro _ _ ⟨⟩
      exact expects
    | some id =>
      have there : (d.supply lines.flatten).current = some id := pending
      obtain ⟨visited, left, ran, typedLeft, same, kept⟩ :=
        (Attempt.visit_follows id).attempt expects typed
      have same : (d.supply lines.flatten).visit id = supplied visited left.flatten := same
      simp only [Terminal.advance, advance, pending, there, StateT.run_bind, ran, same]
      rcases visited with defect | ⟨moved, stop⟩
      · refine ⟨.error defect, left, rfl, typedLeft, rfl, ?_⟩
        rintro _ _ ⟨⟩
      have expectsMoved := kept moved stop rfl
      cases stop with
      | some stop =>
        refine ⟨.ok (some (moved, stop)), left, rfl, typedLeft, rfl, ?_⟩
        rintro _ _ ⟨⟩
        exact expectsMoved
      | none => exact ih expectsMoved typedLeft

end Debugger

end StepGraph
