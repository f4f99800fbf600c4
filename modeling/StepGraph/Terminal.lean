import StepGraph.CommandLine

/-!
# Work at a terminal

Lines are asked for only when they are needed: a statement or a command prompt
that finds no line shows what it has written, waits for a line and is tried
again with it.  A terminal is whatever can show a text and give a line.
-/

namespace StepGraph

namespace LineSource

/-- A line comes in behind what is left. -/
def supply (source : LineSource) (line : Text) : LineSource :=
  match source with
  | .console rest showsPrompt failure => .console (rest ++ line) showsPrompt failure
  | .editor state => .editor { state with rest := state.rest ++ line }
  | .script lines failure => .script (lines ++ [line]) failure

end LineSource

namespace Machine

def supply (m : Machine) (line : Text) : Machine := { m with input := m.input.supply line }

end Machine

namespace Debugger

def supply (d : Debugger) (line : Text) : Debugger :=
  { d with machine := d.machine.supply line }

end Debugger

namespace Shell

def supply (sh : Shell) (line : Text) : Shell := { sh with debugger := sh.debugger.supply line }

/-- The shell after a step or a run has stopped and that has been told. -/
def stopped (sh : Shell) (ended : Debugger × Stop) : Shell :=
  ({ sh with debugger := ended.1 } : Shell).report ended.2

end Shell

/-! ## What is tried again -/

/-- Something that may fail for want of a line. -/
structure Attempt (σ α : Type) where
  make : σ → α
  wantsLine : α → Bool
  supply : σ → Text → σ
  /-- The machine that has made the attempt. -/
  machine? : α → Option Machine

namespace Attempt

def ofError (error : ExecutionError) : Bool := error.cause = .endOfInput

def execute (g : Graph) (id : NodeId) : Attempt Machine (Machine × Except Fault Outcome) where
  make := g.execute id
  wantsLine
    | (_, .error (.error error)) => ofError error
    | _ => false
  supply := Machine.supply
  machine? result := some result.1

def ofStop : Stop → Bool
  | .halted _ error => ofError error
  | _ => false

def visit (id : NodeId) : Attempt Debugger (Except Defect (Debugger × Option Stop)) where
  make d := d.visit id
  wantsLine
    | .ok (_, some stop) => ofStop stop
    | _ => false
  supply := Debugger.supply
  machine? result := result.toOption.map (·.1.machine)

def step : Attempt Debugger (Except Defect (Debugger × Stop)) where
  make := Debugger.step
  wantsLine
    | .ok (_, stop) => ofStop stop
    | _ => false
  supply := Debugger.supply
  machine? result := result.toOption.map (·.1.machine)

def nextRequest : Attempt Shell (Shell × Except SessionEnd Request) where
  make := Shell.nextRequest
  wantsLine
    | (_, .error .endOfInput) => true
    | _ => false
  supply := Shell.supply
  machine? result := some result.1.debugger.machine

end Attempt

/-! ## Dialogues -/

structure Terminal (μ : Type → Type) where
  /-- Shows all that has been written, as far as it is new. -/
  display : Array UInt8 → μ Unit
  /-- The next line with its line end, empty when there is none. -/
  ask : μ Text

namespace Terminal

variable {μ : Type → Type} [Monad μ] (t : Terminal μ)

def displayMachine : Option Machine → μ Unit
  | some m => t.display m.output
  | none => pure ()

/-- An attempt, and another one with a line if that was missing. -/
def attempt {σ α : Type} (a : Attempt σ α) (s : σ) : μ α := do
  t.displayMachine (a.machine? (a.make s))
  if a.wantsLine (a.make s) then
    let line ← t.ask
    if line.isEmpty then return a.make s
    else
      t.displayMachine (a.machine? (a.make (a.supply s line)))
      return a.make (a.supply s line)
  else return a.make s

/-- The run of a graph, with the records of its assignments if they are wanted. -/
def run (g : Graph) (verbose : Bool) :
    (fuel : Nat) → Array LogRecord → Link → Machine → μ (Array LogRecord × Machine × Halt)
  | _, records, none, m => return (records, m, .finished)
  | 0, records, some _, m => return (records, m, .outOfFuel)
  | fuel + 1, records, some id, m => do
    match ← t.attempt (.execute g id) m with
    | (m, .ok outcome) =>
      let record :=
        if verbose then ((g.node? id).map (LogRecord.ofAssignment · m)).getD [] else []
      run g verbose fuel (records ++ record) outcome.next m
    | (m, .error fault) => return (records, m, .failed fault)

def advance : (fuel : Nat) → Debugger → μ (Except Defect (Option (Debugger × Stop)))
  | 0, _ => return .ok none
  | fuel + 1, d => do
    match d.current with
    | none => return .ok (some (d.complete, .finished))
    | some id =>
      match ← t.attempt (.visit id) d with
      | .error defect => return .error defect
      | .ok (d, some stop) => return .ok (some (d, stop))
      | .ok (d, none) => advance fuel d

/-- One command is carried out.  Those that do not execute anything need no line. -/
def carryOut (sh : Shell) (fuel : Nat) : Command → μ (Except Defect (Option Shell))
  | .run => do
    if sh.debugger.state = .completed then return sh.carryOut fuel .run
    else return (← t.advance fuel sh.debugger.start).map fun ended => ended.map sh.stopped
  | .step => return (← t.attempt .step sh.debugger).map fun ended => some (sh.stopped ended)
  | command => return sh.carryOut fuel command

def session : (fuel : Nat) → Shell → μ (Except Defect (Option (Shell × SessionEnd)))
  | 0, _ => return .ok none
  | fuel + 1, sh => do
    match ← t.attempt .nextRequest sh with
    | (sh, .error ending) => return sh.finish ending
    | (sh, .ok .quit) => return sh.finish .quit
    | (sh, .ok .nothing) => session fuel sh
    | (sh, .ok (.command command)) =>
      match ← t.carryOut sh fuel command with
      | .error defect => return .error defect
      | .ok none => return .ok none
      | .ok (some sh) => session fuel sh

end Terminal

namespace CommandLine.Prepared

variable {μ : Type → Type} [Monad μ] (p : Prepared) (t : Terminal μ) (fuel : Nat)

/-- The program is run at a terminal. -/
def runAt : μ (Option Report) := do
  let verbose := Severity.debug.level ≤ p.settings.log.verbosity
  let (records, ended) ← t.run p.graph verbose fuel #[] p.graph.entry (p.machine [])
  return p.runReport records.toList ended

/-- A session of the debugger at a terminal. -/
def debugAt : μ (Option Report) :=
  match p.openShell [] with
  | .error defect => return some (p.defective [] defect)
  | .ok (sh, records) => do
    match ← t.session fuel sh with
    | .error defect => return some (p.defective [] defect)
    | .ok none => return none
    | .ok (some (sh, ending)) => return some (p.sessionReport records sh ending)

end CommandLine.Prepared

end StepGraph
