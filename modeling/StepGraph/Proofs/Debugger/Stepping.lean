import StepGraph.Proofs.Debugger.Soundness

/-!
# Running is repeated stepping

A run visits one pending node after the other until something stops it, a step
visits one.  Steps repeated as long as they report a further pending node come
to the same stop as a run, and leave the same debugger behind: its graph,
machine, state, latch, pending node and kept links.
-/

namespace StepGraph

namespace Debugger

/-- Steps are repeated until one reports something else than the next pending node; with the number
of steps made, the debugger after them and the stop that the last one reports. -/
inductive StepsTo : Debugger → (calls : Nat) → Debugger → Stop → Prop
  | last {d after : Debugger} {stop : Stop} (stepped : d.step = .ok (after, stop))
      (final : ∀ line, stop ≠ .stepped line) : StepsTo d 1 after stop
  | again {d middle after : Debugger} {line : Int} {calls : Nat} {stop : Stop}
      (stepped : d.step = .ok (middle, .stepped line)) (steps : StepsTo middle calls after stop) :
      StepsTo d (calls + 1) after stop

variable {d middle after : Debugger} {id next : NodeId} {line : Int} {stop : Stop}

/-! ## The state under a visit -/

theorem state_of_isolate (isolated : d.isolate = .ok after) : after.state = d.state := by
  rcases isolate_cases isolated with ⟨rfl, -⟩ | ⟨id, node, -, -, -, rfl⟩ <;> rfl

theorem state_of_rejoin (rejoined : d.rejoin = .ok after) : after.state = d.state := by
  rcases rejoin_cases rejoined with ⟨rfl, -⟩ | ⟨id, l, -, -, rfl⟩ <;> rfl

theorem state_of_moveOn {branch : Branch} (moved : d.moveOn id branch = .ok after) :
    after.state = d.state := by
  unfold moveOn at moved
  split at moved
  · cases moved
  · rename_i joined rejoined
    split at moved
    · cases moved
    · have joinedState := state_of_rejoin rejoined
      have afterState := state_of_isolate moved
      exact afterState.trans joinedState

/-- Execution goes on in the same state after a visit without a stop, and a stop of a visit is not
that of a step. -/
theorem visit_ok {stopped : Option Stop} (visited : d.visit id = .ok (after, stopped)) :
    (stopped = none → after.state = d.state) ∧ ∀ line, stopped ≠ some (.stepped line) := by
  unfold visit at visited
  split at visited
  · cases visited
  · split at visited
    · cases visited
      simp
    · split at visited
      · cases visited
      · split at visited
        · cases visited
        · cases visited
          simp
      · split at visited
        · cases visited
        · rename_i moved
          cases visited
          have afterState := state_of_moveOn moved
          exact ⟨fun _ => afterState, by simp⟩

theorem exists_line_of_visit {result : Debugger × Option Stop}
    (visited : d.visit id = .ok result) : ∃ line, d.graph.line id = .ok line := by
  unfold visit at visited
  split at visited
  · cases visited
  · rename_i line found
    exact ⟨line, found⟩

/-! ## Steps of a running debugger -/

theorem start_of_running (running : d.state = .running) : d.start = d := by
  unfold start
  rw [if_neg (by simp [running])]

theorem start_running (going : d.state ≠ .completed) : d.start.state = .running := by
  unfold start
  cases state : d.state with
  | loaded => rw [if_pos rfl]
  | running => rw [if_neg (by simp), state]
  | completed => exact absurd state going

/-- The first move does not change what a step does. -/
theorem step_start (going : d.state ≠ .completed) : d.start.step = d.step := by
  unfold step
  rw [if_neg going, if_neg (start_going going), start_of_running (start_running going)]

section Running

variable (running : d.state = .running)
include running

/-- A running debugger at the end of the program finishes. -/
theorem step_of_end (ended : d.current = none) : d.step = .ok (d.complete, .finished) := by
  unfold step
  rw [if_neg (by simp [running]), start_of_running running]
  simp only [ended]

theorem step_of_stop (pending : d.current = some id)
    (visited : d.visit id = .ok (after, some stop)) : d.step = .ok (after, stop) := by
  unfold step
  rw [if_neg (by simp [running]), start_of_running running]
  simp only [pending, visited]

theorem step_of_last (pending : d.current = some id) (visited : d.visit id = .ok (after, none))
    (ended : after.current = none) : d.step = .ok (after.complete, .finished) := by
  unfold step
  rw [if_neg (by simp [running]), start_of_running running]
  simp only [pending, visited, ended]

theorem step_of_move (pending : d.current = some id) (visited : d.visit id = .ok (after, none))
    (further : after.current = some next) (found : after.graph.line next = .ok line) :
    d.step = .ok (after, .stepped line) := by
  unfold step
  rw [if_neg (by simp [running]), start_of_running running]
  simp only [pending, visited, further, found]
  rfl

theorem step_of_defect {defect : Defect} (pending : d.current = some id)
    (visited : d.visit id = .error defect) : d.step = .error defect := by
  unfold step
  rw [if_neg (by simp [running]), start_of_running running]
  simp only [pending, visited]

theorem step_of_missing {defect : Defect} (pending : d.current = some id)
    (visited : d.visit id = .ok (after, none)) (further : after.current = some next)
    (missing : after.graph.line next = .error defect) : d.step = .error defect := by
  unfold step
  rw [if_neg (by simp [running]), start_of_running running]
  simp only [pending, visited, further, missing]
  rfl

/-- A step that stops is where a run stops; after any other one the run goes on from there. -/
theorem advance_of_step (stepped : d.step = .ok (after, stop)) :
    (∀ line, stop ≠ .stepped line) ∧ (∀ fuel, d.advance (fuel + 2) = .ok (some (after, stop))) ∨
      (∃ line, stop = .stepped line) ∧ after.state = .running ∧
        ∀ fuel, d.advance (fuel + 1) = after.advance fuel := by
  cases pending : d.current with
  | none =>
    rw [step_of_end running pending] at stepped
    cases stepped
    exact .inl ⟨by simp, fun fuel => by simp only [advance, pending]⟩
  | some id =>
    cases visited : d.visit id with
    | error defect =>
      rw [step_of_defect running pending visited] at stepped
      cases stepped
    | ok result =>
      obtain ⟨middle, _ | early⟩ := result
      · cases further : middle.current with
        | none =>
          rw [step_of_last running pending visited further] at stepped
          cases stepped
          exact .inl ⟨by simp, fun fuel => by simp only [advance, pending, visited, further]⟩
        | some next =>
          cases found : middle.graph.line next with
          | error defect =>
            rw [step_of_missing running pending visited further found] at stepped
            cases stepped
          | ok line =>
            rw [step_of_move running pending visited further found] at stepped
            cases stepped
            have state := (visit_ok visited).1 rfl
            refine .inr ⟨⟨line, rfl⟩, state.trans running, ?_⟩
            intro fuel
            simp only [advance, pending, visited]
      · rw [step_of_stop running pending visited] at stepped
        cases stepped
        refine .inl ⟨fun line => ?_, fun fuel => by simp only [advance, pending, visited]⟩
        rintro rfl
        exact (visit_ok visited).2 line rfl

/-- A run that returns is made by steps. -/
theorem stepsTo_of_advance {fuel : Nat} (advanced : d.advance fuel = .ok (some (after, stop))) :
    ∃ calls, StepsTo d calls after stop := by
  induction fuel generalizing d with
  | zero => cases advanced
  | succ fuel ih =>
    unfold advance at advanced
    cases pending : d.current with
    | none =>
      simp only [pending] at advanced
      cases advanced
      exact ⟨1, .last (step_of_end running pending) (by simp)⟩
    | some id =>
      simp only [pending] at advanced
      cases visited : d.visit id with
      | error defect => simp only [visited] at advanced; cases advanced
      | ok result =>
        obtain ⟨middle, _ | early⟩ := result
        · simp only [visited] at advanced
          cases fuel with
          | zero => cases advanced
          | succ fuel =>
            cases further : middle.current with
            | none =>
              simp only [advance, further] at advanced
              cases advanced
              exact ⟨1, .last (step_of_last running pending visited further) (by simp)⟩
            | some next =>
              obtain ⟨line, found⟩ : ∃ line, middle.graph.line next = .ok line := by
                unfold advance at advanced
                simp only [further] at advanced
                cases visitedNext : middle.visit next with
                | error defect => simp only [visitedNext] at advanced; cases advanced
                | ok result => exact exists_line_of_visit visitedNext
              have state := (visit_ok visited).1 rfl
              obtain ⟨calls, steps⟩ := ih (state.trans running) advanced
              exact ⟨calls + 1,
                .again (step_of_move running pending visited further found) steps⟩
        · simp only [visited] at advanced
          cases advanced
          refine ⟨1, .last (step_of_stop running pending visited) ?_⟩
          rintro line rfl
          exact (visit_ok visited).2 line rfl

end Running

/-- Steps that end are made by a run. -/
theorem StepsTo.advance {calls : Nat} (steps : StepsTo d calls after stop)
    (running : d.state = .running) : d.advance (calls + 1) = .ok (some (after, stop)) := by
  induction steps with
  | last stepped final =>
    rcases advance_of_step running stepped with ⟨-, returned⟩ | ⟨⟨line, same⟩, -⟩
    · exact returned 0
    · exact absurd same (final line)
  | again stepped steps ih =>
    rcases advance_of_step running stepped with ⟨final, -⟩ | ⟨-, middleRunning, goesOn⟩
    · exact absurd rfl (final _)
    · rw [goesOn]
      exact ih middleRunning

theorem stepsTo_start_iff {calls : Nat} (going : d.state ≠ .completed) :
    StepsTo d.start calls after stop ↔ StepsTo d calls after stop := by
  constructor
  · intro steps
    cases steps with
    | last stepped final => exact .last ((step_start going).symm.trans stepped) final
    | again stepped steps => exact .again ((step_start going).symm.trans stepped) steps
  · intro steps
    cases steps with
    | last stepped final => exact .last ((step_start going).trans stepped) final
    | again stepped steps => exact .again ((step_start going).trans stepped) steps

theorem step_of_completed (completed : d.state = .completed) :
    d.step = .ok (d, .alreadyCompleted) := by
  unfold step
  rw [if_pos completed]

theorem stepsTo_of_completed {calls : Nat} (completed : d.state = .completed)
    (steps : StepsTo d calls after stop) : after = d ∧ stop = .alreadyCompleted := by
  cases steps with
  | last stepped final =>
    rw [step_of_completed completed] at stepped
    cases stepped
    exact ⟨rfl, rfl⟩
  | again stepped steps =>
    rw [step_of_completed completed] at stepped
    cases stepped

end Debugger

/-- Running is repeated stepping.  Whatever its program, machine, breakpoints, latch and state, a
debugger returns from a run with a stop exactly if steps, repeated until one reports something else
than the next pending node, come to an end with this stop; and the debugger is then the same in
every part. -/
theorem run_is_repeated_step (d after : Debugger) (stop : Stop) :
    (∃ fuel, d.run fuel = .ok (some (after, stop))) ↔ ∃ calls, d.StepsTo calls after stop := by
  by_cases completed : d.state = .completed
  · constructor
    · rintro ⟨fuel, ran⟩
      rw [Debugger.run, if_pos completed] at ran
      cases ran
      exact ⟨1, .last (Debugger.step_of_completed completed) (by simp)⟩
    · rintro ⟨calls, steps⟩
      obtain ⟨rfl, rfl⟩ := Debugger.stepsTo_of_completed completed steps
      refine ⟨0, ?_⟩
      rw [Debugger.run, if_pos completed]
  · have running := Debugger.start_running completed
    constructor
    · rintro ⟨fuel, ran⟩
      rw [Debugger.run, if_neg completed] at ran
      obtain ⟨calls, steps⟩ := Debugger.stepsTo_of_advance running ran
      exact ⟨calls, (Debugger.stepsTo_start_iff completed).mp steps⟩
    · rintro ⟨calls, steps⟩
      refine ⟨calls + 1, ?_⟩
      rw [Debugger.run, if_neg completed]
      exact ((Debugger.stepsTo_start_iff completed).mpr steps).advance running

end StepGraph
