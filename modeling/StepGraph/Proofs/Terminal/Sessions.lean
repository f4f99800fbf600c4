import StepGraph.Proofs.Shell.Dialogue
import StepGraph.Proofs.Terminal.Debugging

/-!
# Sessions at a terminal

Whether the lines are all there when a program starts or are typed one by one when
they are asked for makes no difference: a call at a terminal ends with the report of
the call on the text of all the lines.
-/

namespace StepGraph

/-! ## Sessions -/

namespace Shell

variable {sh : Shell} {lines : List Text}

/-- The shell reads its commands where the program reads its lines, and more are to come. -/
def Expects (sh : Shell) (lines : List Text) : Prop :=
  sh.commands = none ∧ sh.debugger.machine.input.Expects lines

/-- The shell after a line has been asked for. -/
def asked (sh : Shell) : Shell :=
  let reply := sh.debugger.machine.input.read sh.prompt
  { sh with debugger :=
      { sh.debugger with machine :=
          { (sh.debugger.machine.writeLine []).write reply.written with input := reply.source } } }

theorem readLine_of_shared (shared : sh.commands = none) :
    (sh.writeLine []).readLine =
      (sh.asked, (sh.debugger.machine.input.read sh.prompt).result) := by
  obtain ⟨debugger, commands, prompt, errorStyle⟩ := sh
  cases shared
  rfl

theorem remember_supply (expects : sh.Expects lines) (line text : Text) :
    (sh.supply text).remember line = (sh.remember line).supply text ∧
      (sh.remember line).Expects lines := by
  obtain ⟨debugger, commands, prompt, errorStyle⟩ := sh
  obtain ⟨shared, expects⟩ := expects
  cases shared
  obtain ⟨same, kept⟩ := expects.remember line
  refine ⟨?_, rfl, kept⟩
  simp only [remember, supply, Debugger.supply, Machine.supply, same]

theorem asked_supply (reads : (sh.debugger.machine.input.supply lines.flatten).read sh.prompt =
    { sh.debugger.machine.input.read sh.prompt with
      source := (sh.debugger.machine.input.read sh.prompt).source.supply lines.flatten }) :
    (sh.supply lines.flatten).asked = sh.asked.supply lines.flatten := by
  simp only [asked, supply, Debugger.supply, Machine.supply, reads]
  rfl

/-- Asking for a request does not depend on lines that come in later. -/
theorem nextRequest_supply (expects : sh.Expects lines)
    (served : Attempt.nextRequest.wantsLine sh.nextRequest = false ∨
      sh.debugger.machine.input.left ≠ [] ∨ lines = []) :
    (sh.supply lines.flatten).nextRequest =
        (sh.nextRequest.1.supply lines.flatten, sh.nextRequest.2) ∧
      sh.nextRequest.1.Expects lines := by
  obtain ⟨shared, expects⟩ := expects
  have answered : (sh.debugger.machine.input.read sh.prompt).result ≠ .endOfInput ∨ lines = [] := by
    obtain found | filled | none := served
    · refine .inl fun ended => ?_
      rw [nextRequest, readLine_of_shared shared, ended] at found
      cases found
    · exact .inl (expects.read_ne_endOfInput filled)
    · exact .inr none
  obtain ⟨reads, kept⟩ := expects.read_supply answered
  have readThere : ((sh.supply lines.flatten).writeLine []).readLine =
      (sh.asked.supply lines.flatten, (sh.debugger.machine.input.read sh.prompt).result) := by
    have sharedThere : (sh.supply lines.flatten).commands = none := shared
    rw [readLine_of_shared sharedThere, asked_supply reads]
    have result := congrArg LineSource.Reply.result reads
    exact congrArg (Prod.mk _) result
  unfold nextRequest
  rw [readLine_of_shared shared, readThere]
  cases (sh.debugger.machine.input.read sh.prompt).result with
  | line line =>
    have expectsAsked : sh.asked.Expects lines := ⟨shared, kept⟩
    obtain ⟨remembered, keptToo⟩ := remember_supply expectsAsked line lines.flatten
    exact ⟨congrArg (fun after => (after, _)) remembered, keptToo⟩
  | endOfInput => exact ⟨rfl, shared, kept⟩
  | failed reason => exact ⟨rfl, shared, kept⟩

end Shell

theorem Attempt.nextRequest_follows :
    Attempt.nextRequest.Follows Shell.Expects (fun sh => sh.debugger.machine.input.left ≠ [])
      (fun result text => (result.1.supply text, result.2))
      (fun result lines => result.1.Expects lines) where
  supply_supply ready first second := by
    simp only [Attempt.nextRequest, Shell.supply, Debugger.supply_supply ready.2]
  comesIn ready typed := by
    obtain ⟨expects, filled⟩ := ready.2.supply typed
    exact ⟨⟨ready.1, expects⟩, filled⟩
  frame ready served := Shell.nextRequest_supply ready served

namespace Shell

variable {sh : Shell} {lines : List Text}

def carriedOut (result : Except Defect (Option Shell)) (text : Text) :
    Except Defect (Option Shell) :=
  result.map fun after => after.map fun sh => sh.supply text

/-- A stop is told the same way when more lines are to come. -/
theorem stopped_supply (sh : Shell) (ended : Debugger × Stop) (before text : Text) :
    (sh.supply before).stopped (ended.1.supply text, ended.2) = (sh.stopped ended).supply text := by
  obtain ⟨told, reports⟩ := sh.exists_report ended.2
  have here := reports ended.1 sh.commands
  have there := reports (ended.1.supply text) sh.commands
  exact there.trans (congrArg (fun after => after.supply text) here.symm)

theorem expects_stopped (shared : sh.commands = none) {ended : Debugger × Stop}
    (expects : ended.1.machine.input.Expects lines) : (sh.stopped ended).Expects lines := by
  obtain ⟨told, reports⟩ := sh.exists_report ended.2
  have here : sh.stopped ended = _ := reports ended.1 sh.commands
  rw [here]
  exact ⟨shared, expects⟩

theorem carryOut_run_eq (sh : Shell) (fuel : Nat) :
    sh.carryOut fuel .run = (sh.debugger.run fuel).map fun ended => ended.map sh.stopped := by
  rw [carryOut]
  rcases sh.debugger.run fuel with defect | ended
  · rfl
  · cases ended <;> rfl

theorem carryOut_step_eq (sh : Shell) (fuel : Nat) :
    sh.carryOut fuel .step = sh.debugger.step.map fun ended => some (sh.stopped ended) := by
  rw [carryOut]
  cases sh.debugger.step <;> rfl

/-- A command that executes nothing does not depend on lines that come in later. -/
theorem carryOut_supply (fuel : Nat) {command : Command} (noRun : command ≠ .run)
    (noStep : command ≠ .step) (expects : sh.Expects lines) (text : Text) :
    (sh.supply text).carryOut fuel command = carriedOut (sh.carryOut fuel command) text ∧
      ∀ after, sh.carryOut fuel command = .ok (some after) → after.Expects lines := by
  obtain ⟨breakpoints, written, writes⟩ := sh.writes_of_still noRun noStep
  have here : sh.carryOut fuel command = _ := writes fuel sh.debugger.channel sh.commands
  have there : (sh.supply text).carryOut fuel command = _ :=
    writes fuel { sh.debugger.channel with input := sh.debugger.machine.input.supply text }
      sh.commands
  rw [here, there]
  refine ⟨rfl, ?_⟩
  rintro _ ⟨⟩
  exact expects

/-- What can be said of a command at a terminal: it does what it does on the text of the lines. -/
def CarriesOut (sh : Shell) (fuel : Nat) (command : Command) (lines : List Text) : Prop :=
  ∃ result rest, (Terminal.typist.carryOut sh fuel command).run lines = pure (result, rest) ∧
    Typed rest ∧ (sh.supply lines.flatten).carryOut fuel command = carriedOut result rest.flatten ∧
    ∀ after, result = .ok (some after) → after.Expects rest

/-- A command that makes the program move tells the stop, whichever lines were typed for it. -/
theorem carriesOut_of_ranOut {fuel : Nat} {command : Command} {rest : List Text}
    (result : Except Defect (Option (Debugger × Stop))) (shared : sh.commands = none)
    (ran : (Terminal.typist.carryOut sh fuel command).run lines =
      pure (result.map fun ended => ended.map sh.stopped, rest))
    (typed : Typed rest)
    (same : (sh.supply lines.flatten).carryOut fuel command =
      (Debugger.ranOut result rest.flatten).map fun ended =>
        ended.map (sh.supply lines.flatten).stopped)
    (kept : ∀ after stop, result = .ok (some (after, stop)) → after.machine.input.Expects rest) :
    sh.CarriesOut fuel command lines := by
  refine ⟨_, rest, ran, typed, ?_, ?_⟩
  · rw [same]
    rcases result with defect | _ | ended
    · rfl
    · rfl
    · exact congrArg (fun after => Except.ok (some after)) (stopped_supply sh ended _ _)
  · intro after returned
    rcases result with defect | _ | ended
    · cases returned
    · cases returned
    · cases returned
      exact expects_stopped shared (kept ended.1 ended.2 rfl)

theorem step_follows (fuel : Nat) (expects : sh.Expects lines) (typed : Typed lines) :
    sh.CarriesOut fuel .step lines := by
  obtain ⟨result, left, ran, typedLeft, same, kept⟩ :=
    Attempt.step_follows.attempt expects.2 typed
  have same : (sh.supply lines.flatten).debugger.step = Debugger.supplied result left.flatten :=
    same
  refine carriesOut_of_ranOut (result.map some) expects.1 ?_ typedLeft ?_ ?_
  · simp only [Terminal.carryOut, StateT.run_bind, ran]
    cases result <;> rfl
  · rw [carryOut_step_eq, same]
    cases result <;> rfl
  · intro after stop returned
    cases result with
    | error defect => cases returned
    | ok ended =>
      cases returned
      exact kept after stop rfl

theorem run_follows (fuel : Nat) (expects : sh.Expects lines) (typed : Typed lines) :
    sh.CarriesOut fuel .run lines := by
  by_cases completed : sh.debugger.state = .completed
  · have ran : sh.debugger.run fuel = .ok (some (sh.debugger, .alreadyCompleted)) :=
      if_pos completed
    have ranThere : (sh.supply lines.flatten).debugger.run fuel =
        .ok (some ((sh.supply lines.flatten).debugger, .alreadyCompleted)) := if_pos completed
    refine carriesOut_of_ranOut (.ok (some (sh.debugger, .alreadyCompleted))) expects.1 ?_ typed
      ?_ ?_
    · simp only [Terminal.carryOut, if_pos completed, carryOut_run_eq, ran]
      rfl
    · rw [carryOut_run_eq, ranThere]
      rfl
    · rintro _ _ ⟨⟩
      exact expects.2
  · have expectsStart : sh.debugger.start.machine.input.Expects lines := by
      rw [sh.debugger.start_machine]
      exact expects.2
    obtain ⟨result, left, ran, typedLeft, same, kept⟩ :=
      Debugger.advance_follows fuel expectsStart typed
    have ranThere : (sh.supply lines.flatten).debugger.run fuel =
        Debugger.ranOut result left.flatten := by
      rw [← same, ← Debugger.start_supply]
      exact if_neg completed
    refine carriesOut_of_ranOut result expects.1 ?_ typedLeft ?_ kept
    · simp only [Terminal.carryOut, if_neg completed, StateT.run_bind, ran]
      rfl
    · rw [carryOut_run_eq, ranThere]

/-- At a terminal a command is carried out as on the text of the lines. -/
theorem carryOut_follows (fuel : Nat) (command : Command) (expects : sh.Expects lines)
    (typed : Typed lines) : sh.CarriesOut fuel command lines := by
  by_cases noRun : command = .run
  · rw [noRun]
    exact run_follows fuel expects typed
  by_cases noStep : command = .step
  · rw [noStep]
    exact step_follows fuel expects typed
  obtain ⟨same, kept⟩ := carryOut_supply fuel noRun noStep expects lines.flatten
  refine ⟨sh.carryOut fuel command, lines, ?_, typed, same, kept⟩
  cases command with
  | run => exact absurd rfl noRun
  | step => exact absurd rfl noStep
  | _ => rfl

theorem finish_supply (sh : Shell) (ending : SessionEnd) (text : Text) :
    (sh.supply text).finish ending =
      (sh.finish ending).map fun ended => ended.map fun ended => (ended.1.supply text, ended.2) := by
  have closed : (sh.supply text).debugger.close =
      sh.debugger.close.map (Debugger.mapMachine (·.supply text)) :=
    sh.debugger.rejoin_mapMachine (·.supply text)
  unfold finish
  rw [closed]
  cases sh.debugger.close <;> rfl

/-- At a terminal a session goes as on the text of the lines. -/
theorem session_follows (fuel : Nat) {sh : Shell} {lines : List Text} (expects : sh.Expects lines)
    (typed : Typed lines) :
    ∃ result rest, (Terminal.typist.session fuel sh).run lines = pure (result, rest) ∧
      (sh.supply lines.flatten).run fuel =
        result.map fun ended => ended.map fun ended => (ended.1.supply rest.flatten, ended.2) := by
  induction fuel generalizing sh lines with
  | zero => exact ⟨.ok none, lines, rfl, rfl⟩
  | succ fuel ih =>
    obtain ⟨⟨asked, request⟩, left, ran, typedLeft, same, kept⟩ :=
      Attempt.nextRequest_follows.attempt expects typed
    have same : (sh.supply lines.flatten).nextRequest = (asked.supply left.flatten, request) := same
    simp only [Terminal.session, run, StateT.run_bind, ran, same, pure_bind]
    rcases request with ending | request
    · exact ⟨asked.finish ending, left, rfl, finish_supply asked ending left.flatten⟩
    cases request with
    | nothing => exact ih kept typedLeft
    | quit => exact ⟨asked.finish .quit, left, rfl, finish_supply asked .quit left.flatten⟩
    | command command =>
      obtain ⟨result, rest, carried, typedRest, sameCommand, keptCommand⟩ :=
        carryOut_follows fuel command kept typedLeft
      simp only [StateT.run_bind, carried, sameCommand]
      rcases result with defect | _ | after
      · exact ⟨.error defect, rest, rfl, rfl⟩
      · exact ⟨.ok none, rest, rfl, rfl⟩
      · exact ih (keptCommand after rfl) typedRest

end Shell

/-! ## Calls -/

namespace CommandLine.Prepared

variable (p : Prepared)

theorem runReport_supply (records : List LogRecord) (m : Machine) (halt : Halt) (text : Text) :
    p.runReport records (m.supply text, halt) = p.runReport records (m, halt) := by
  rcases halt with _ | (_ | _) | _ <;> rfl

theorem keepHistory_supply (files : FileTree) (source : LineSource) (text : Text) :
    p.keepHistory files (source.supply text) = p.keepHistory files source := by
  cases source <;> rfl

theorem sessionReport_supply (records : List LogRecord) (sh : Shell) (ending : SessionEnd)
    (text : Text) : p.sessionReport records (sh.supply text) ending =
      p.sessionReport records sh ending := by
  have same : p.keepHistory p.surroundings.files (sh.supply text).debugger.machine.input = _ :=
    p.keepHistory_supply p.surroundings.files sh.debugger.machine.input text
  simp only [sessionReport, same]
  rfl

theorem lineSource_supply (text : Text) : p.lineSource text = (p.lineSource []).supply text := by
  unfold lineSource
  split <;> rfl

theorem setBreakpoints_mapMachine (f : Machine → Machine) (d : Debugger) (places : List Int) :
    setBreakpoints (d.mapMachine f) places =
      ((setBreakpoints d places).1.mapMachine f, (setBreakpoints d places).2) := by
  induction places generalizing d with
  | nil => rfl
  | cons place rest ih =>
    simp only [setBreakpoints, Debugger.setBreakpoint_mapMachine]
    cases d.setBreakpoint place with
    | ok changed => exact ih changed
    | error error => simp only [Except.map, ih d]

/-- A session is opened in the same way on every machine. -/
theorem openShell_mapMachine (f : Machine → Machine) {text : Text}
    (same : f ⟨p.memory, p.lineSource [], #[]⟩ = ⟨p.memory, p.lineSource text, #[]⟩) :
    p.openShell text = (p.openShell []).map fun opened =>
      ({ opened.1 with debugger := opened.1.debugger.mapMachine f }, opened.2) := by
  have opens (text : Text) : p.openShell text =
      (Debugger.load p.graph ⟨p.memory, p.lineSource text, #[]⟩).map fun d =>
        (Shell.make (setBreakpoints d p.settings.debugger.breakpoints).1 none
          p.settings.debugger.prompt p.errorStyle,
          (setBreakpoints d p.settings.debugger.breakpoints).2) := rfl
  rw [opens text, opens [], ← same, Debugger.load_mapMachine]
  cases Debugger.load p.graph ⟨p.memory, p.lineSource [], #[]⟩ with
  | error defect => rfl
  | ok d =>
    simp only [Except.map, setBreakpoints_mapMachine]
    rfl

theorem openShell_supply (text : Text) :
    p.openShell text = (p.openShell []).map fun opened => (opened.1.supply text, opened.2) := by
  refine p.openShell_mapMachine (·.supply text) ?_
  rw [p.lineSource_supply text]
  rfl

theorem expects_lineSource (lines : List Text) : (p.lineSource []).Expects lines := by
  unfold lineSource
  split
  · exact .editor (.inl Text.isWhole_nil)
  · exact .console (.inl Text.isWhole_nil)

theorem expects_openShell {sh : Shell} {records : List LogRecord}
    (opened : p.openShell [] = .ok (sh, records)) (lines : List Text) : sh.Expects lines := by
  have same := p.openShell_mapMachine (fun _ => ⟨p.memory, p.lineSource [], #[]⟩) rfl
  rw [opened] at same
  have machine : sh.debugger.machine = ⟨p.memory, p.lineSource [], #[]⟩ :=
    congrArg (fun opened => opened.1.debugger.machine) (Except.ok.inj same)
  obtain ⟨d, -, made⟩ := Debugger.ok_of_map_ok opened
  refine ⟨(congrArg (fun opened => opened.1.commands) made).symm, ?_⟩
  rw [machine]
  exact p.expects_lineSource lines

theorem runAt_follows {lines : List Text} (typed : Typed lines) (fuel : Nat) :
    ((p.runAt Terminal.typist fuel).run lines).1 = p.run lines.flatten fuel := by
  have expects : (p.machine []).input.Expects lines := .console (.inl Text.isWhole_nil)
  obtain ⟨after, halt, rest, ran, same⟩ := Terminal.run_follows p.graph
    (Severity.debug.level ≤ p.settings.log.verbosity) fuel #[] p.graph.entry expects typed
  have same : p.graph.run fuel p.graph.entry (p.machine lines.flatten) =
      (after.supply rest.flatten, halt) := same
  simp only [runAt, StateT.run_bind, ran]
  rw [run, same, runReport_supply, runRecords]
  by_cases verbose : Severity.debug.level ≤ p.settings.log.verbosity
  · rw [if_pos verbose]
    simp only [decide_eq_true verbose]
    rfl
  · rw [if_neg verbose]
    simp only [decide_eq_false verbose]
    rfl

theorem debugAt_follows {lines : List Text} (typed : Typed lines) (fuel : Nat) :
    ((p.debugAt Terminal.typist fuel).run lines).1 = p.debug lines.flatten fuel := by
  unfold debugAt debug
  rw [p.openShell_supply lines.flatten]
  rcases opened : p.openShell [] with defect | ⟨sh, records⟩
  · rfl
  obtain ⟨result, rest, ran, same⟩ :=
    Shell.session_follows fuel (p.expects_openShell opened lines) typed
  simp only [StateT.run_bind, ran, Except.map, same]
  rcases result with defect | _ | ⟨closed, ending⟩
  · rfl
  · rfl
  · exact congrArg some (p.sessionReport_supply records closed ending rest.flatten).symm

end CommandLine.Prepared

/-- Lines that are typed when they are asked for do what they do as a text that is there from the
start. -/
theorem terminal_follows_text (p : CommandLine.Prepared) {lines : List Text} (typed : Typed lines)
    (fuel : Nat) :
    ((p.runAt Terminal.typist fuel).run lines).1 = p.run lines.flatten fuel ∧
      ((p.debugAt Terminal.typist fuel).run lines).1 = p.debug lines.flatten fuel :=
  ⟨p.runAt_follows typed fuel, p.debugAt_follows typed fuel⟩

end StepGraph
