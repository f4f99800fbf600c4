import StepGraph.Proofs.Debugger.Calls
import StepGraph.Shell

/-!
# Commands are calls

Whatever the shell is asked to do is one call on its debugger, together with
reading and writing on the machine.  So what all calls keep, and what does not
depend on the machine, holds throughout a session.
-/

namespace StepGraph

/-- The call that a command makes; one that only writes something asks for the state. -/
def Command.call (fuel : Nat) : Command → Call
  | .run => .run fuel
  | .step => .step
  | .setBreakpoint (some line) => .setBreakpoint line
  | .removeBreakpoint (some line) => .removeBreakpoint line
  | .listBreakpoints => .listBreakpoints
  | .clearBreakpoints => .clearBreakpoints
  | .print (some name) => .valueOf name
  | .whereAmI => .whereAmI
  | _ => .showState

namespace Shell

theorem writeLine_debugger (sh : Shell) (text : Text) :
    (sh.writeLine text).debugger =
      { sh.debugger with machine := sh.debugger.machine.write (text ++ [Text.newline]) } := rfl

theorem report_debugger (sh : Shell) (stop : Stop) :
    ∃ machine, (sh.report stop).debugger = { sh.debugger with machine } := by
  unfold report
  split
  · exact ⟨_, sh.writeLine_debugger _⟩
  · exact ⟨sh.debugger.machine, rfl⟩

theorem readLine_debugger (sh : Shell) :
    ∃ machine, sh.readLine.1.debugger = { sh.debugger with machine } := by
  unfold readLine
  split
  · exact ⟨_, rfl⟩
  · exact ⟨_, rfl⟩

theorem remember_debugger (sh : Shell) (line : Text) :
    ∃ machine, (sh.remember line).debugger = { sh.debugger with machine } := by
  unfold remember
  split
  · exact ⟨sh.debugger.machine, rfl⟩
  · exact ⟨_, rfl⟩

theorem nextRequest_debugger (sh : Shell) :
    ∃ machine, sh.nextRequest.1.debugger = { sh.debugger with machine } := by
  obtain ⟨read, afterRead⟩ := (sh.writeLine []).readLine_debugger
  unfold nextRequest
  split
  · rename_i asked line request
    rw [request] at afterRead
    obtain ⟨remembered, afterRemember⟩ := asked.remember_debugger line
    refine ⟨remembered, ?_⟩
    rw [afterRemember, afterRead]
    rfl
  · rename_i asked request
    rw [request] at afterRead
    exact ⟨read, afterRead⟩
  · rename_i asked reason request
    rw [request] at afterRead
    exact ⟨read, afterRead⟩

theorem answerBreakpoint_debugger (sh : Shell) (result : Except BreakpointError Debugger)
    (done : String) :
    ∃ machine, (sh.answerBreakpoint result done).debugger =
      { (sh.debugger.change result).1 with machine } := by
  cases result with
  | ok changed => exact ⟨_, rfl⟩
  | error error => exact ⟨_, rfl⟩

/-- What a command comes to, told from what its call comes to. -/
def CarriedOut (sh : Shell) (fuel : Nat) (command : Command) :
    Except Defect (Option (Debugger × Reply)) → Prop
  | .error defect => sh.carryOut fuel command = .error defect
  | .ok none => sh.carryOut fuel command = .ok none
  | .ok (some (d, _)) =>
    ∃ after machine, sh.carryOut fuel command = .ok (some after) ∧
      after.debugger = { d with machine }

/-- A command is carried out as its call is, up to what is written. -/
theorem carryOut_call (sh : Shell) (fuel : Nat) (command : Command) :
    sh.CarriedOut fuel command (sh.debugger.perform (command.call fuel)) := by
  cases command with
  | run =>
    simp only [Command.call, Debugger.perform]
    cases ran : sh.debugger.run fuel with
    | error defect =>
      simp only [Except.map, CarriedOut, carryOut, ran]
      rfl
    | ok result =>
      cases result with
      | none =>
        simp only [Except.map, CarriedOut, Option.map_none, carryOut, ran]
        rfl
      | some result =>
        obtain ⟨d, stop⟩ := result
        simp only [Except.map, CarriedOut, Option.map_some, carryOut, ran]
        obtain ⟨machine, reported⟩ := ({ sh with debugger := d } : Shell).report_debugger stop
        exact ⟨_, machine, rfl, reported⟩
  | step =>
    simp only [Command.call, Debugger.perform]
    cases stepped : sh.debugger.step with
    | error defect =>
      simp only [Except.map, CarriedOut, carryOut, stepped]
      rfl
    | ok result =>
      obtain ⟨d, stop⟩ := result
      simp only [Except.map, CarriedOut, carryOut, stepped]
      obtain ⟨machine, reported⟩ := ({ sh with debugger := d } : Shell).report_debugger stop
      exact ⟨_, machine, rfl, reported⟩
  | setBreakpoint line =>
    cases line with
    | none => exact ⟨_, _, rfl, rfl⟩
    | some line =>
      obtain ⟨machine, answered⟩ :=
        sh.answerBreakpoint_debugger (sh.debugger.setBreakpoint line) "breakpoint set"
      exact ⟨_, machine, rfl, answered⟩
  | removeBreakpoint line =>
    cases line with
    | none => exact ⟨_, _, rfl, rfl⟩
    | some line =>
      obtain ⟨machine, answered⟩ :=
        sh.answerBreakpoint_debugger (sh.debugger.removeBreakpoint line) "breakpoint removed"
      exact ⟨_, machine, rfl, answered⟩
  | print name => cases name <;> exact ⟨_, _, rfl, rfl⟩
  | help | listBreakpoints | clearBreakpoints | showMemory | showState | whereAmI | unknown =>
    exact ⟨_, _, rfl, rfl⟩

/-- The states of a session at the moments when it asks for the next command. -/
inductive Session (opened : Shell) : Shell → Prop
  | opened : Session opened opened
  | blank {sh after : Shell} (session : Session opened sh)
      (asked : sh.nextRequest = (after, .ok .nothing)) : Session opened after
  | command {sh asked after : Shell} {fuel : Nat} {command : Command} (session : Session opened sh)
      (request : sh.nextRequest = (asked, .ok (.command command)))
      (done : asked.carryOut fuel command = .ok (some after)) : Session opened after

/-! ## What sessions keep -/

/-- A property of debuggers that has nothing to do with the machine and that every call keeps,
coming out without a defect. -/
structure Stable (Inv : Debugger → Prop) : Prop where
  machine : ∀ {d : Debugger} (m : Machine), Inv d → Inv { d with machine := m }
  call : ∀ {d : Debugger} (call : Call), Inv d →
    ∃ result, d.perform call = .ok result ∧ ∀ after reply, result = some (after, reply) → Inv after

namespace Stable

variable {Inv : Debugger → Prop}

theorem nextRequest (stable : Stable Inv) {sh after : Shell} {request : Except SessionEnd Request}
    (inv : Inv sh.debugger) (asked : sh.nextRequest = (after, request)) : Inv after.debugger := by
  obtain ⟨m, frame⟩ := sh.nextRequest_debugger
  rw [asked] at frame
  rw [frame]
  exact stable.machine m inv

theorem carryOut (stable : Stable Inv) {sh : Shell} (inv : Inv sh.debugger) (fuel : Nat)
    (command : Command) :
    ∃ result, sh.carryOut fuel command = .ok result ∧
      ∀ after, result = some after → Inv after.debugger := by
  obtain ⟨performed, comesOut, kept⟩ := stable.call (command.call fuel) inv
  have carried := sh.carryOut_call fuel command
  rw [comesOut] at carried
  match performed with
  | none => exact ⟨none, carried, fun _ returned => by cases returned⟩
  | some (d, reply) =>
    obtain ⟨after, m, done, frame⟩ := carried
    refine ⟨some after, done, ?_⟩
    intro other same
    cases same
    rw [frame]
    exact stable.machine m (kept d reply rfl)

theorem session (stable : Stable Inv) {opened sh : Shell} (session : Session opened sh)
    (inv : Inv opened.debugger) : Inv sh.debugger := by
  induction session with
  | opened => exact inv
  | blank session asked ih => exact stable.nextRequest ih asked
  | command session request done ih =>
    obtain ⟨result, carried, kept⟩ := stable.carryOut (stable.nextRequest ih request) _ _
    rw [carried] at done
    cases done
    exact kept _ rfl

theorem finish (stable : Stable Inv) {sh : Shell} (inv : Inv sh.debugger) (ending : SessionEnd) :
    ∃ result, sh.finish ending = .ok result ∧
      ∀ after how, result = some (after, how) → ∃ d, Inv d ∧ d.close = .ok after.debugger := by
  obtain ⟨result, performed, -⟩ := stable.call .close inv
  cases closed : sh.debugger.close with
  | error defect =>
    simp only [Debugger.perform, closed, Except.map] at performed
    cases performed
  | ok d =>
    simp only [Shell.finish, closed, Except.map]
    refine ⟨_, rfl, ?_⟩
    intro after how returned
    cases returned
    exact ⟨sh.debugger, inv, closed⟩

/-- A session comes out without a defect, and ends by closing a debugger with the property. -/
theorem run (stable : Stable Inv) {sh : Shell} (inv : Inv sh.debugger) (fuel : Nat) :
    ∃ result, sh.run fuel = .ok result ∧
      ∀ after ending, result = some (after, ending) →
        ∃ d, Inv d ∧ d.close = .ok after.debugger := by
  induction fuel generalizing sh with
  | zero => exact ⟨none, rfl, fun _ _ returned => by cases returned⟩
  | succ fuel ih =>
    unfold Shell.run
    cases asked : sh.nextRequest with
    | mk next request =>
      have nextInv := stable.nextRequest inv asked
      match request with
      | .error ending => exact stable.finish nextInv ending
      | .ok .quit => exact stable.finish nextInv .quit
      | .ok .nothing => exact ih nextInv
      | .ok (.command command) =>
        obtain ⟨result, carried, kept⟩ := stable.carryOut nextInv fuel command
        simp only [carried]
        match result with
        | none => exact ⟨none, rfl, fun _ _ returned => by cases returned⟩
        | some after => exact ih (kept after rfl)

end Stable

end Shell

end StepGraph
