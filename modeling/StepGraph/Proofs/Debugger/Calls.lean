import StepGraph.Debugger
import StepGraph.Proofs.Graph.Relinking

/-!
# Calls on a debugger

All that can be asked of a debugger, as one function, with the nodes that each
call executes.  Steps and runs are walks: visits of one pending node after the
other, up to the first stop.  What a returned call can have done is said once,
by `perform_cases`.
-/

namespace StepGraph

/-- What can be asked of a debugger.  A run is given fuel. -/
inductive Call where
  | step
  | run (fuel : Nat)
  | setBreakpoint (line : Int)
  | removeBreakpoint (line : Int)
  | clearBreakpoints
  | listBreakpoints
  | close
  | whereAmI
  | showState
  | valueOf (name : Text)
  deriving DecidableEq

inductive Reply where
  | stopped (stop : Stop)
  | changed
  | refused (error : BreakpointError)
  | breakpoints (lines : List Int)
  | place (line : Option Int)
  | state (state : DebugState)
  | value (value : Option Value)
  | closed
  deriving DecidableEq

namespace Debugger

/-- A change of the breakpoints; a refused one leaves the debugger as it is. -/
def change (d : Debugger) : Except BreakpointError Debugger → Debugger × Reply
  | .ok changed => (changed, .changed)
  | .error error => (d, .refused error)

/-- One call: the debugger after it and its answer, `none` when the fuel of a run runs out. -/
def perform (d : Debugger) : Call → Except Defect (Option (Debugger × Reply))
  | .step => d.step.map fun (after, stop) => some (after, .stopped stop)
  | .run fuel => (d.run fuel).map fun result =>
      result.map fun (after, stop) => (after, .stopped stop)
  | .setBreakpoint line => .ok (some (d.change (d.setBreakpoint line)))
  | .removeBreakpoint line => .ok (some (d.change (d.removeBreakpoint line)))
  | .clearBreakpoints => .ok (some (d.clearBreakpoints, .changed))
  | .listBreakpoints => .ok (some (d, .breakpoints d.breakpoints))
  | .close => d.close.map fun after => some (after, .closed)
  | .whereAmI => .ok (some (d, .place d.where?))
  | .showState => .ok (some (d, .state d.state))
  | .valueOf name => .ok (some (d, .value (d.valueOf? name)))

/-! ## The nodes a call executes -/

def stopsBefore (d : Debugger) (id : NodeId) : Bool :=
  match d.graph.line id with
  | .ok line => line ∈ d.breakpoints && !d.reported
  | .error _ => false

/-- A visit executes its node unless a breakpoint stops before it. -/
def visitLog (d : Debugger) (id : NodeId) : List NodeId := if d.stopsBefore id then [] else [id]

def advanceLog (d : Debugger) : (fuel : Nat) → List NodeId
  | 0 => []
  | fuel + 1 =>
    match d.current with
    | none => []
    | some id =>
      d.visitLog id ++
        match d.visit id with
        | .ok (after, none) => after.advanceLog fuel
        | _ => []

/-- The nodes that a call executes, in order. -/
def log (d : Debugger) : Call → List NodeId
  | .step =>
    if d.state = .completed then []
    else
      match d.start.current with
      | none => []
      | some id => d.start.visitLog id
  | .run fuel => if d.state = .completed then [] else d.start.advanceLog fuel
  | _ => []

/-! ## The first move -/

@[simp] theorem start_graph (d : Debugger) : d.start.graph = d.graph := by
  unfold start; split <;> rfl

@[simp] theorem start_machine (d : Debugger) : d.start.machine = d.machine := by
  unfold start; split <;> rfl

@[simp] theorem start_current (d : Debugger) : d.start.current = d.current := by
  unfold start; split <;> rfl

@[simp] theorem start_saved (d : Debugger) : d.start.saved = d.saved := by
  unfold start; split <;> rfl

theorem start_going {d : Debugger} (going : d.state ≠ .completed) :
    d.start.state ≠ .completed := by
  unfold start
  split
  · simp
  · exact going

/-! ## Walks -/

/-- Visits of pending nodes, one after the other, with the nodes executed; a stop ends the walk. -/
inductive Walk : Debugger → List NodeId → Debugger → Option Stop → Prop
  | rest (d : Debugger) : Walk d [] d none
  | stop {d after : Debugger} {id : NodeId} {stop : Stop} (pending : d.current = some id)
      (visited : d.visit id = .ok (after, some stop)) :
      Walk d (d.visitLog id) after (some stop)
  | move {d middle after : Debugger} {id : NodeId} {log : List NodeId} {stop : Option Stop}
      (pending : d.current = some id) (visited : d.visit id = .ok (middle, none))
      (walk : Walk middle log after stop) :
      Walk d (d.visitLog id ++ log) after stop

/-- What a returned call has done, with the nodes it has executed. -/
inductive Performed (d : Debugger) : List NodeId → Debugger → Reply → Prop
  /-- Only the breakpoints may have changed. -/
  | quiet {after : Debugger} {reply : Reply} (lines : List Int)
      (frame : after = { d with breakpoints := lines })
      (noStop : ∀ stop, reply ≠ .stopped stop) : Performed d [] after reply
  | closed {after : Debugger} (closed : d.close = .ok after) : Performed d [] after .closed
  /-- Execution had ended before. -/
  | alreadyOver (completed : d.state = .completed) : Performed d [] d (.stopped .alreadyCompleted)
  | stopped {log : List NodeId} {after : Debugger} {stop : Stop} (going : d.state ≠ .completed)
      (walk : Walk d.start log after (some stop)) : Performed d log after (.stopped stop)
  | finished {log : List NodeId} {after : Debugger} (going : d.state ≠ .completed)
      (walk : Walk d.start log after none) (ended : after.current = none) :
      Performed d log after.complete (.stopped .finished)
  | stepped {log : List NodeId} {after : Debugger} {id : NodeId} {line : Int}
      (going : d.state ≠ .completed) (walk : Walk d.start log after none)
      (pending : after.current = some id) (found : after.graph.line id = .ok line) :
      Performed d log after (.stopped (.stepped line))

theorem step_cases {d after : Debugger} {stop : Stop} (stepped : d.step = .ok (after, stop)) :
    Performed d (d.log .step) after (.stopped stop) := by
  unfold step at stepped
  unfold log
  by_cases completed : d.state = .completed
  · rw [if_pos completed] at stepped ⊢
    cases stepped
    exact .alreadyOver completed
  · rw [if_neg completed] at stepped ⊢
    cases pending : d.start.current with
    | none =>
      simp only [pending] at stepped
      cases stepped
      exact .finished completed (.rest _) pending
    | some id =>
      simp only [pending] at stepped
      cases visited : d.start.visit id with
      | error defect => simp only [visited] at stepped; cases stepped
      | ok result =>
        obtain ⟨middle, stopped⟩ := result
        cases stopped with
        | some early =>
          simp only [visited] at stepped
          cases stepped
          exact .stopped completed (.stop pending visited)
        | none =>
          have walk : Walk d.start (d.start.visitLog id) middle none := by
            simpa using Walk.move pending visited (.rest middle)
          simp only [visited] at stepped
          cases current : middle.current with
          | none =>
            simp only [current] at stepped
            cases stepped
            exact .finished completed walk current
          | some next =>
            simp only [current] at stepped
            cases found : middle.graph.line next with
            | error defect => rw [found] at stepped; cases stepped
            | ok line =>
              rw [found] at stepped
              cases stepped
              exact .stepped completed walk current found

/-- An advance that returns is a walk to a stop, or to the end of the program. -/
theorem advance_cases {fuel : Nat} {d after : Debugger} {stop : Stop}
    (advanced : d.advance fuel = .ok (some (after, stop))) :
    Walk d (d.advanceLog fuel) after (some stop) ∨
      ∃ last, Walk d (d.advanceLog fuel) last none ∧ last.current = none ∧
        after = last.complete ∧ stop = .finished := by
  induction fuel generalizing d with
  | zero => simp only [advance] at advanced; cases advanced
  | succ fuel ih =>
    unfold advance at advanced
    unfold advanceLog
    cases pending : d.current with
    | none =>
      simp only [pending] at advanced
      cases advanced
      exact .inr ⟨d, .rest d, pending, rfl, rfl⟩
    | some id =>
      simp only [pending] at advanced
      cases visited : d.visit id with
      | error defect => simp only [visited] at advanced; cases advanced
      | ok result =>
        obtain ⟨middle, stopped⟩ := result
        cases stopped with
        | some early =>
          simp only [visited] at advanced
          cases advanced
          simp only [visited, List.append_nil]
          exact .inl (.stop pending visited)
        | none =>
          simp only [visited] at advanced ⊢
          rcases ih advanced with walk | ⟨last, walk, ended, final, stopIs⟩
          · exact .inl (.move pending visited walk)
          · exact .inr ⟨last, .move pending visited walk, ended, final, stopIs⟩

theorem run_cases {fuel : Nat} {d after : Debugger} {stop : Stop}
    (ran : d.run fuel = .ok (some (after, stop))) :
    Performed d (d.log (.run fuel)) after (.stopped stop) := by
  unfold run at ran
  simp only [log]
  by_cases completed : d.state = .completed
  · rw [if_pos completed] at ran ⊢
    cases ran
    exact .alreadyOver completed
  · rw [if_neg completed] at ran ⊢
    rcases advance_cases ran with walk | ⟨last, walk, ended, rfl, rfl⟩
    · exact .stopped completed walk
    · exact .finished completed walk ended

theorem change_cases {d after : Debugger} {reply : Reply}
    {result : Except BreakpointError Debugger}
    (frame : ∀ changed, result = .ok changed → ∃ lines, changed = { d with breakpoints := lines })
    (performed : d.change result = (after, reply)) : Performed d [] after reply := by
  cases result with
  | ok changed =>
    obtain ⟨lines, same⟩ := frame changed rfl
    cases performed
    exact .quiet lines same (by simp)
  | error error =>
    cases performed
    exact .quiet d.breakpoints rfl (by simp)

theorem setBreakpoint_frame {d changed : Debugger} {line : Int}
    (set : d.setBreakpoint line = .ok changed) :
    ∃ lines, changed = { d with breakpoints := lines } := by
  unfold setBreakpoint at set
  split at set
  · cases set
  · split at set
    · cases set
    · cases set
      exact ⟨_, rfl⟩

theorem removeBreakpoint_frame {d changed : Debugger} {line : Int}
    (removed : d.removeBreakpoint line = .ok changed) :
    ∃ lines, changed = { d with breakpoints := lines } := by
  unfold removeBreakpoint at removed
  split at removed
  · cases removed
    exact ⟨_, rfl⟩
  · cases removed

/-- All that a returned call can have done. -/
theorem perform_cases {d after : Debugger} {call : Call} {reply : Reply}
    (performed : d.perform call = .ok (some (after, reply))) :
    Performed d (d.log call) after reply := by
  cases call with
  | step =>
    unfold perform at performed
    cases stepped : d.step with
    | error defect => rw [stepped] at performed; cases performed
    | ok result =>
      rw [stepped] at performed
      cases performed
      exact step_cases stepped
  | run fuel =>
    simp only [perform] at performed
    cases ran : d.run fuel with
    | error defect => rw [ran] at performed; cases performed
    | ok result =>
      rw [ran] at performed
      cases result with
      | none => cases performed
      | some result =>
        cases performed
        exact run_cases ran
  | setBreakpoint line =>
    simp only [perform, Except.ok.injEq, Option.some.injEq] at performed
    exact change_cases (fun _ => setBreakpoint_frame) performed
  | removeBreakpoint line =>
    simp only [perform, Except.ok.injEq, Option.some.injEq] at performed
    exact change_cases (fun _ => removeBreakpoint_frame) performed
  | close =>
    unfold perform at performed
    cases closed : d.close with
    | error defect => rw [closed] at performed; cases performed
    | ok result =>
      rw [closed] at performed
      cases performed
      exact .closed closed
  | clearBreakpoints =>
    cases performed
    exact .quiet [] rfl (by simp)
  | listBreakpoints | whereAmI | showState | valueOf name =>
    cases performed
    exact .quiet d.breakpoints rfl (by simp)

end Debugger

end StepGraph
