import StepGraph.Proofs.Debugger.Calls
import StepGraph.Proofs.Debugger.Replay
import StepGraph.Shell

/-!
# Sessions as dialogues

A session is a sequence of exchanges: a command line, and the text written in
answer to it by the shell and the program.  The fuel of a session only has to be
large enough, so that a session ends as it does exactly when a dialogue leads to
that end.  What a command does depends on the channel of the program by its
events, and not on where the commands come from.
-/

namespace StepGraph

/-- The commands that look at the debugger and change nothing. -/
def Command.inspects : Command → Bool
  | .help | .listBreakpoints | .print _ | .showMemory | .showState | .whereAmI | .unknown => true
  | _ => false

namespace Debugger

theorem replays_write (d : Debugger) (text : Text) :
    d.Replays (d.on (d.channel.write text)) fun e f => f = e.on (e.channel.write text) := by
  refine ⟨[.wrote text], .wrote .done, ?_⟩
  intro c c' plays
  cases plays with
  | wrote rest =>
    cases rest
    rfl

/-- More fuel does not change what came out. -/
theorem advance_mono {d after : Debugger} {stop : Stop} {fuel more : Nat} (le : fuel ≤ more)
    (advanced : d.advance fuel = .ok (some (after, stop))) :
    d.advance more = .ok (some (after, stop)) := by
  induction fuel generalizing d more with
  | zero => cases advanced
  | succ fuel ih =>
    obtain ⟨more, rfl⟩ := Nat.exists_eq_add_of_lt le
    unfold advance at advanced ⊢
    split at advanced
    · exact advanced
    · split at advanced
      · cases advanced
      · exact advanced
      · exact ih (Nat.le_add_right fuel more) advanced

theorem run_mono {d after : Debugger} {stop : Stop} {fuel more : Nat} (le : fuel ≤ more)
    (ran : d.run fuel = .ok (some (after, stop))) : d.run more = .ok (some (after, stop)) := by
  by_cases completed : d.state = .completed
  · rw [run, if_pos completed] at ran ⊢
    exact ran
  · rw [run, if_neg completed] at ran ⊢
    exact advance_mono le ran

theorem setBreakpoint_on (d : Debugger) (line : Int) (c : Channel) :
    (d.on c).setBreakpoint line = (d.setBreakpoint line).map fun after => after.on c :=
  d.setBreakpoint_mapMachine (fun m => m.on c) line

theorem removeBreakpoint_on (d : Debugger) (line : Int) (c : Channel) :
    (d.on c).removeBreakpoint line = (d.removeBreakpoint line).map fun after => after.on c :=
  d.removeBreakpoint_mapMachine (fun m => m.on c) line

end Debugger

namespace Shell

def output (sh : Shell) : Array UInt8 := sh.debugger.machine.output

/-! ## What a command does -/

/-- A command writes a text and leaves the breakpoints on some lines, whatever the channel and the
source of the commands are. -/
def Writes (sh : Shell) (command : Command) (breakpoints : List Int) (text : Text) : Prop :=
  ∀ fuel c commands,
    ({ sh with debugger := sh.debugger.on c, commands } : Shell).carryOut fuel command =
      .ok (some { sh with
        debugger := ({ sh.debugger with breakpoints } : Debugger).on (c.write text), commands })

theorem answerBreakpoint_writes (sh : Shell) {result : Except BreakpointError Debugger}
    (frame : ∀ changed, result = .ok changed →
      ∃ lines, changed = { sh.debugger with breakpoints := lines }) (done : String) :
    ∃ breakpoints text, ∀ (c : Channel) (commands : Option LineSource),
      ({ sh with debugger := sh.debugger.on c, commands } : Shell).answerBreakpoint
          (result.map fun after => after.on c) done =
        { sh with
          debugger := ({ sh.debugger with breakpoints } : Debugger).on (c.write text)
          commands } := by
  cases result with
  | ok changed =>
    obtain ⟨lines, rfl⟩ := frame changed rfl
    exact ⟨lines, utf8 done ++ [Text.newline], fun _ _ => rfl⟩
  | error error =>
    exact ⟨sh.debugger.breakpoints, error.message ++ [Text.newline], fun _ _ => rfl⟩

theorem writes_of_inspects (sh : Shell) {command : Command} (inspects : command.inspects = true) :
    ∃ text, sh.Writes command sh.debugger.breakpoints text := by
  cases command with
  | help => exact ⟨helpText, fun _ _ _ => rfl⟩
  | listBreakpoints =>
    exact ⟨breakpointsText sh.debugger.breakpoints ++ [Text.newline], fun _ _ _ => rfl⟩
  | print name => exact ⟨variableText sh.debugger name ++ [Text.newline], fun _ _ _ => rfl⟩
  | showMemory => exact ⟨sh.debugger.machine.memory.dump, fun _ _ _ => rfl⟩
  | showState => exact ⟨sh.debugger.state.name ++ [Text.newline], fun _ _ _ => rfl⟩
  | whereAmI => exact ⟨whereText sh.debugger ++ [Text.newline], fun _ _ _ => rfl⟩
  | unknown => exact ⟨utf8 "unknown command" ++ [Text.newline], fun _ _ _ => rfl⟩
  | run | step | setBreakpoint | removeBreakpoint | clearBreakpoints => cases inspects

/-- A command other than run and step writes a text and changes the breakpoints at most. -/
theorem writes_of_still (sh : Shell) {command : Command} (noRun : command ≠ .run)
    (noStep : command ≠ .step) : ∃ breakpoints text, sh.Writes command breakpoints text := by
  cases inspects : command.inspects with
  | true => exact ⟨_, sh.writes_of_inspects inspects⟩
  | false =>
    cases command with
    | setBreakpoint line =>
      cases line with
      | none => exact ⟨_, BreakpointError.noSuchLine.message ++ [Text.newline], fun _ _ _ => rfl⟩
      | some line =>
        obtain ⟨breakpoints, text, answers⟩ :=
          sh.answerBreakpoint_writes
            (fun changed (set : sh.debugger.setBreakpoint line = .ok changed) =>
              Debugger.setBreakpoint_frame set) "breakpoint set"
        refine ⟨breakpoints, text, ?_⟩
        intro fuel c commands
        simp only [carryOut, Debugger.setBreakpoint_on, answers]
    | removeBreakpoint line =>
      cases line with
      | none =>
        exact ⟨_, BreakpointError.noSuchBreakpoint.message ++ [Text.newline], fun _ _ _ => rfl⟩
      | some line =>
        obtain ⟨breakpoints, text, answers⟩ :=
          sh.answerBreakpoint_writes
            (fun changed (removed : sh.debugger.removeBreakpoint line = .ok changed) =>
              Debugger.removeBreakpoint_frame removed) "breakpoint removed"
        refine ⟨breakpoints, text, ?_⟩
        intro fuel c commands
        simp only [carryOut, Debugger.removeBreakpoint_on, answers]
    | clearBreakpoints =>
      exact ⟨[], utf8 "breakpoints cleared" ++ [Text.newline], fun _ _ _ => rfl⟩
    | run => exact absurd rfl noRun
    | step => exact absurd rfl noStep
    | help | listBreakpoints | print | showMemory | showState | whereAmI | unknown => cases inspects

/-- What is said about a stop does not depend on the debugger. -/
theorem exists_report (sh : Shell) (stop : Stop) :
    ∃ text, ∀ (d : Debugger) (commands : Option LineSource),
      ({ sh with debugger := d, commands } : Shell).report stop =
        { sh with debugger := d.on (d.channel.write text), commands } := by
  cases said : sh.stopText? stop with
  | none =>
    refine ⟨[], ?_⟩
    intro d commands
    have saidHere : ({ sh with debugger := d, commands } : Shell).stopText? stop = none := said
    rw [report, saidHere, Channel.write_nil, Debugger.on_channel]
  | some text =>
    refine ⟨text ++ [Text.newline], ?_⟩
    intro d commands
    have saidHere : ({ sh with debugger := d, commands } : Shell).stopText? stop = some text := said
    simp only [report, saidHere]
    rfl

theorem carryOut_run {sh : Shell} {fuel : Nat} {d : Debugger} {stop : Stop}
    (ran : sh.debugger.run fuel = .ok (some (d, stop))) :
    sh.carryOut fuel .run = .ok (some (({ sh with debugger := d } : Shell).report stop)) := by
  rw [carryOut, ran]
  rfl

theorem run_of_carryOut {sh after : Shell} {fuel : Nat}
    (carried : sh.carryOut fuel .run = .ok (some after)) :
    ∃ d stop, sh.debugger.run fuel = .ok (some (d, stop)) ∧
      after = ({ sh with debugger := d } : Shell).report stop := by
  rw [carryOut] at carried
  cases ran : sh.debugger.run fuel with
  | error defect =>
    rw [ran] at carried
    cases carried
  | ok result =>
    rw [ran] at carried
    cases result with
    | none => cases carried
    | some result =>
      cases carried
      exact ⟨result.1, result.2, rfl, rfl⟩

theorem carryOut_step {sh : Shell} {d : Debugger} {stop : Stop}
    (stepped : sh.debugger.step = .ok (d, stop)) (fuel : Nat) :
    sh.carryOut fuel .step = .ok (some (({ sh with debugger := d } : Shell).report stop)) := by
  rw [carryOut, stepped]
  rfl

theorem step_of_carryOut {sh after : Shell} {fuel : Nat}
    (carried : sh.carryOut fuel .step = .ok (some after)) :
    ∃ d stop, sh.debugger.step = .ok (d, stop) ∧
      after = ({ sh with debugger := d } : Shell).report stop := by
  rw [carryOut] at carried
  cases stepped : sh.debugger.step with
  | error defect =>
    rw [stepped] at carried
    cases carried
  | ok result =>
    rw [stepped] at carried
    cases carried
    exact ⟨result.1, result.2, rfl, rfl⟩

/-- The command leads from one debugger to another, wherever the commands come from. -/
def Leads (sh : Shell) (fuel : Nat) (command : Command) (e f : Debugger) : Prop :=
  ∀ commands, ({ sh with debugger := e, commands } : Shell).carryOut fuel command =
    .ok (some { sh with debugger := f, commands })

theorem replays_report {sh : Shell} {fuel : Nat} {command : Command} {d : Debugger} {stop : Stop}
    {call : Debugger → Debugger → Prop} (replays : sh.debugger.Replays d call)
    (carries : ∀ e f commands, call e f →
      ({ sh with debugger := e, commands } : Shell).carryOut fuel command =
        .ok (some (({ sh with debugger := f, commands } : Shell).report stop))) :
    ∃ f, ({ sh with debugger := d } : Shell).report stop = { sh with debugger := f } ∧
      sh.debugger.Replays f (sh.Leads fuel command) := by
  obtain ⟨text, reports⟩ := sh.exists_report stop
  refine ⟨_, reports d sh.commands, replays.trans (d.replays_write text) ?_⟩
  intro c c' c'' called writes commands
  rw [writes, carries _ _ commands called, reports]

/-- A command that is carried out leaves the shell as it is, and its debugger comes out so on every
channel with the same events, wherever the commands come from. -/
theorem carryOut_replays {sh after : Shell} {fuel : Nat} {command : Command}
    (carried : sh.carryOut fuel command = .ok (some after)) :
    after = { sh with debugger := after.debugger } ∧
      sh.debugger.Replays after.debugger (sh.Leads fuel command) := by
  by_cases runs : command = .run
  · subst runs
    obtain ⟨d, stop, ran, rfl⟩ := run_of_carryOut carried
    obtain ⟨f, frame, replays⟩ := replays_report (Debugger.run_replays ran)
      fun _ _ _ ranThere => carryOut_run ranThere
    rw [frame]
    exact ⟨rfl, replays⟩
  · by_cases steps : command = .step
    · subst steps
      obtain ⟨d, stop, stepped, rfl⟩ := step_of_carryOut carried
      obtain ⟨f, frame, replays⟩ := replays_report (Debugger.step_replays stepped)
        fun _ _ _ steppedThere => carryOut_step steppedThere fuel
      rw [frame]
      exact ⟨rfl, replays⟩
    · obtain ⟨breakpoints, text, writes⟩ := sh.writes_of_still runs steps
      have here := writes fuel sh.debugger.channel sh.commands
      have same := carried.symm.trans here
      injection same with same
      injection same with same
      subst same
      refine ⟨rfl, [.wrote text], .wrote .done, ?_⟩
      intro c c' plays commands
      cases plays with
      | wrote rest =>
        cases rest
        exact writes fuel c commands

theorem carryOut_mono {sh after : Shell} {fuel more : Nat} {command : Command} (le : fuel ≤ more)
    (carried : sh.carryOut fuel command = .ok (some after)) :
    sh.carryOut more command = .ok (some after) := by
  cases command with
  | run =>
    obtain ⟨d, stop, ran, rfl⟩ := run_of_carryOut carried
    exact carryOut_run (Debugger.run_mono le ran)
  | setBreakpoint line => cases line <;> exact carried
  | removeBreakpoint line => cases line <;> exact carried
  | _ => exact carried

/-! ## Exchanges -/

/-- A command line and the text written in answer to it. -/
structure Exchange where
  line : Text
  reply : Text
  deriving DecidableEq

/-- A command line is read, and the shell is about to answer it. -/
def Asks (sh : Shell) (line : Text) (asked : Shell) : Prop :=
  ∃ read, (sh.writeLine []).readLine = (read, .line line) ∧ asked = read.remember line

/-- A session goes on from one prompt to a later one, with the exchanges in between. -/
inductive Dialogue : Shell → List Exchange → Shell → Prop
  | here {sh : Shell} : Dialogue sh [] sh
  | blank {sh asked now : Shell} {line : Text} {exchanges : List Exchange}
      (asks : sh.Asks line asked) (request : Request.ofLine line = .nothing)
      (rest : Dialogue asked exchanges now) : Dialogue sh (⟨line, []⟩ :: exchanges) now
  | command {sh asked answered now : Shell} {line reply : Text} {command : Command} {fuel : Nat}
      {exchanges : List Exchange} (asks : sh.Asks line asked)
      (request : Request.ofLine line = .command command)
      (carried : asked.carryOut fuel command = .ok (some answered))
      (writes : answered.output = asked.output ++ reply)
      (rest : Dialogue answered exchanges now) : Dialogue sh (⟨line, reply⟩ :: exchanges) now

/-- A session ends at a prompt: it is asked to, or there is no line. -/
inductive Closes (sh : Shell) : Shell → SessionEnd → Prop
  | quit {asked after : Shell} {line : Text} (asks : sh.Asks line asked)
      (request : Request.ofLine line = .quit)
      (finished : asked.finish .quit = .ok (some (after, .quit))) : Closes sh after .quit
  | ended {read after : Shell} {ending : SessionEnd}
      (none : sh.nextRequest = (read, .error ending))
      (finished : read.finish ending = .ok (some (after, ending))) : Closes sh after ending

theorem nextRequest_of_asks {sh asked : Shell} {line : Text} (asks : sh.Asks line asked) :
    sh.nextRequest = (asked, .ok (Request.ofLine line)) := by
  obtain ⟨read, reads, rfl⟩ := asks
  rw [nextRequest, reads]

theorem asks_of_nextRequest {sh asked : Shell} {request : Request}
    (next : sh.nextRequest = (asked, .ok request)) :
    ∃ line, sh.Asks line asked ∧ Request.ofLine line = request := by
  unfold nextRequest at next
  split at next
  · rename_i read line reads
    cases next
    exact ⟨line, ⟨read, reads, rfl⟩, rfl⟩
  · cases next
  · cases next

theorem finish_on {sh after : Shell} {how ending : SessionEnd}
    (finished : sh.finish how = .ok (some (after, ending))) :
    ending = how ∧ after.debugger.channel = sh.debugger.channel ∧
      ∀ c commands, ({ sh with debugger := sh.debugger.on c, commands } : Shell).finish how =
        .ok (some ({ sh with debugger := after.debugger.on c, commands }, how)) := by
  obtain ⟨d, closes, same⟩ := Debugger.ok_of_map_ok finished
  cases same
  refine ⟨rfl, Debugger.channel_of_rejoin closes, ?_⟩
  intro c commands
  have closesOn := sh.debugger.rejoin_on c
  have joined : sh.debugger.rejoin = .ok d := closes
  rw [joined] at closesOn
  simp only [finish, Debugger.close, closesOn]
  rfl

theorem exists_reply {sh after : Shell} {fuel : Nat} {command : Command}
    (carried : sh.carryOut fuel command = .ok (some after)) :
    ∃ reply : Text, after.output = sh.output ++ reply := by
  obtain ⟨-, events, plays, -⟩ := carryOut_replays carried
  obtain ⟨reply, writes, -⟩ := plays.elsewhere
  exact ⟨reply, writes⟩

/-- A dialogue up to the end of the session. -/
theorem dialogue_of_run {sh after : Shell} {ending : SessionEnd} {fuel : Nat}
    (ran : sh.run fuel = .ok (some (after, ending))) :
    ∃ exchanges last, sh.Dialogue exchanges last ∧ last.Closes after ending := by
  induction fuel generalizing sh with
  | zero => cases ran
  | succ fuel ih =>
    unfold run at ran
    rcases next : sh.nextRequest with ⟨asked, how | request⟩
    · simp only [next] at ran
      obtain ⟨rfl, -⟩ := finish_on ran
      exact ⟨[], sh, .here, .ended next ran⟩
    · simp only [next] at ran
      obtain ⟨line, asks, asked⟩ := asks_of_nextRequest next
      match request with
      | .quit =>
        obtain ⟨rfl, -⟩ := finish_on ran
        exact ⟨[], sh, .here, .quit asks asked ran⟩
      | .nothing =>
        obtain ⟨exchanges, last, dialogue, closes⟩ := ih ran
        exact ⟨_, last, .blank asks asked dialogue, closes⟩
      | .command command =>
        simp only at ran
        split at ran
        · cases ran
        · cases ran
        · rename_i answered carried
          obtain ⟨reply, writes⟩ := exists_reply carried
          obtain ⟨exchanges, last, dialogue, closes⟩ := ih ran
          exact ⟨_, last, .command asks asked carried writes dialogue, closes⟩

/-- A session with enough fuel ends as its dialogue does. -/
theorem run_of_dialogue {sh last after : Shell} {exchanges : List Exchange} {ending : SessionEnd}
    (dialogue : sh.Dialogue exchanges last) (closes : last.Closes after ending) :
    ∃ enough, ∀ fuel, enough ≤ fuel → sh.run fuel = .ok (some (after, ending)) := by
  induction dialogue with
  | here =>
    refine ⟨1, ?_⟩
    intro fuel le
    obtain ⟨fuel, rfl⟩ := Nat.exists_eq_add_of_le' le
    cases closes with
    | quit asks request finished =>
      simp only [run, nextRequest_of_asks asks, request]
      exact finished
    | ended none finished =>
      simp only [run, none]
      exact finished
  | blank asks request _ ih =>
    obtain ⟨enough, ran⟩ := ih closes
    refine ⟨enough + 1, ?_⟩
    intro fuel le
    obtain ⟨fuel, rfl⟩ := Nat.exists_eq_add_of_le' (Nat.le_trans (Nat.le_add_left 1 enough) le)
    simp only [run, nextRequest_of_asks asks, request]
    exact ran fuel (Nat.le_of_succ_le_succ le)
  | @command _ _ _ _ _ _ _ needed _ asks request carried _ _ ih =>
    obtain ⟨enough, ran⟩ := ih closes
    -- One fuel for the line, and enough for both the command and the rest.
    refine ⟨max needed enough + 1, ?_⟩
    intro fuel le
    obtain ⟨fuel, rfl⟩ := Nat.exists_eq_add_of_le' (Nat.le_trans (Nat.le_add_left 1 _) le)
    have le : max needed enough ≤ fuel := Nat.le_of_succ_le_succ le
    have carriedOut := carryOut_mono (Nat.le_trans (Nat.le_max_left needed enough) le) carried
    simp only [run, nextRequest_of_asks asks, request, carriedOut]
    exact ran fuel (Nat.le_trans (Nat.le_max_right needed enough) le)

/-- A session comes to an end exactly when a dialogue leads there. -/
theorem run_iff_dialogue {sh after : Shell} {ending : SessionEnd} :
    (∃ fuel, sh.run fuel = .ok (some (after, ending))) ↔
      ∃ exchanges last, sh.Dialogue exchanges last ∧ last.Closes after ending := by
  constructor
  · rintro ⟨fuel, ran⟩
    exact dialogue_of_run ran
  · rintro ⟨exchanges, last, dialogue, closes⟩
    obtain ⟨enough, ran⟩ := run_of_dialogue dialogue closes
    exact ⟨enough, ran enough (Nat.le_refl enough)⟩

/-- What can be seen of a session that ends, told of the session. -/
theorem exists_session {α : Type} (loads : Except Defect Debugger)
    (session : Debugger → Except Defect (Option (Shell × SessionEnd))) (view : Shell → α)
    (ending : SessionEnd) (seen : α)
    (answered : ((loads.toOption.bind fun d => (session d).toOption.join).map
      fun result => (result.2, view result.1)) = some (ending, seen)) :
    ∃ loaded after, loads = .ok loaded ∧ session loaded = .ok (some (after, ending)) ∧
      view after = seen := by
  obtain ⟨⟨after, how⟩, returned, same⟩ := Option.map_eq_some_iff.mp answered
  obtain ⟨rfl, rfl⟩ := Prod.mk.inj same
  cases loads with
  | error defect => cases returned
  | ok loaded =>
    refine ⟨loaded, after, rfl, ?_, rfl⟩
    have joined : (session loaded).toOption.join = some (after, how) := returned
    cases ran : session loaded with
    | error defect =>
      rw [ran] at joined
      cases joined
    | ok result =>
      rw [ran] at joined
      exact congrArg Except.ok joined

end Shell

end StepGraph
