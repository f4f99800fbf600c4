import StepGraph.Graph.Lines
import StepGraph.Machine

/-!
# The debugger

The debugger executes one statement at a time.  The statement it waits at is cut
off from its successors, so that nothing runs past it; the links are put back
after the statement has been executed, and when the debugger is closed.  A
breakpoint stops once before each visit of its line.
-/

namespace StepGraph

inductive DebugState where
  | loaded
  | running
  | completed
  deriving DecidableEq

namespace DebugState

def name : DebugState → Text
  | .loaded => utf8 "Loaded"
  | .running => utf8 "Running"
  | .completed => utf8 "Completed"

def nameOfCode (code : Int) : Text :=
  if code = 0 then name .loaded
  else if code = 1 then name .running
  else if code = 2 then name .completed
  else utf8 "Unknown"

end DebugState

inductive Stop where
  | stepped (line : Int)
  | breakpoint (line : Int)
  | halted (line : Int) (error : ExecutionError)
  | finished
  | alreadyCompleted
  deriving DecidableEq

inductive BreakpointError where
  | noSuchLine
  | alreadyExists
  | noSuchBreakpoint
  deriving DecidableEq

namespace BreakpointError

def message : BreakpointError → Text
  | .noSuchLine => utf8 "no such line"
  | .alreadyExists => utf8 "breakpoint already exists"
  | .noSuchBreakpoint => utf8 "no such breakpoint"

end BreakpointError

structure Debugger where
  graph : Graph
  machine : Machine
  state : DebugState
  /-- The lines of the program, ascending. -/
  lines : List Int
  /-- The lines with a breakpoint, ascending. -/
  breakpoints : List Int
  /-- Whether the breakpoint of the pending statement has been reported. -/
  reported : Bool
  current : Link
  /-- The links of the pending statement while it is cut off. -/
  saved : Option Links
  deriving DecidableEq

namespace Debugger

/-- The pending statement is cut off from its successors. -/
def isolate (d : Debugger) : Except Defect Debugger :=
  match d.current, d.saved with
  | some id, none =>
    match d.graph.sever id with
    | .ok (links, graph) => .ok { d with graph, saved := some links }
    | .error defect => .error defect
  | _, _ => .ok d

/-- The pending statement gets its links back. -/
def rejoin (d : Debugger) : Except Defect Debugger :=
  match d.saved, d.current with
  | none, _ => .ok d
  | some _, none => .error (.invalidNode (-1))
  | some links, some id =>
    match d.graph.restore id links with
    | .ok graph => .ok { d with graph, saved := none }
    | .error defect => .error defect

def load (graph : Graph) (machine : Machine) : Except Defect Debugger :=
  match graph.lines with
  | .error defect => .error defect
  | .ok lines =>
    isolate
      { graph, machine, state := .loaded, lines, breakpoints := [], reported := false,
        current := graph.entry, saved := none }

def close (d : Debugger) : Except Defect Debugger := d.rejoin

def complete (d : Debugger) : Debugger := { d with state := .completed }

/-- The first move leaves the state in which the program was loaded. -/
def start (d : Debugger) : Debugger :=
  if d.state = .loaded then { d with state := .running } else d

/-- The pending statement has been executed: the next one takes its place. -/
def moveOn (d : Debugger) (id : NodeId) (branch : Branch) : Except Defect Debugger :=
  match d.rejoin with
  | .error defect => .error defect
  | .ok d =>
    match d.graph.follow id branch with
    | .error defect => .error defect
    | .ok next => isolate { d with current := next }

/-- The pending statement is visited: an unreported breakpoint stops there, otherwise it is
executed.  There is no stop when execution can go on. -/
def visit (d : Debugger) (id : NodeId) : Except Defect (Debugger × Option Stop) :=
  match d.graph.line id with
  | .error defect => .error defect
  | .ok line =>
    if line ∈ d.breakpoints && !d.reported then
      .ok ({ d with reported := true }, some (.breakpoint line))
    else
      match d.graph.execute id d.machine with
      | (_, .error (.defect defect)) => .error defect
      | (machine, .error (.error error)) =>
        match ({ d with machine, reported := false } : Debugger).rejoin with
        | .error defect => .error defect
        | .ok d => .ok (d.complete, some (.halted line error))
      | (machine, .ok outcome) =>
        match ({ d with machine, reported := false } : Debugger).moveOn id outcome.branch with
        | .error defect => .error defect
        | .ok d => .ok (d, none)

/-- One statement is executed, unless a breakpoint stops first. -/
def step (d : Debugger) : Except Defect (Debugger × Stop) :=
  if d.state = .completed then .ok (d, .alreadyCompleted)
  else
    match d.start.current with
    | none => .ok (d.start.complete, .finished)
    | some id =>
      match d.start.visit id with
      | .error defect => .error defect
      | .ok (d, some stop) => .ok (d, stop)
      | .ok (d, none) =>
        match d.current with
        | none => .ok (d.complete, .finished)
        | some id => (d.graph.line id).map fun line => (d, .stepped line)

/-- At most `fuel` statements are visited, until something stops execution; `none` when the fuel
runs out first. -/
def advance (d : Debugger) : (fuel : Nat) → Except Defect (Option (Debugger × Stop))
  | 0 => .ok none
  | fuel + 1 =>
    match d.current with
    | none => .ok (some (d.complete, .finished))
    | some id =>
      match d.visit id with
      | .error defect => .error defect
      | .ok (d, some stop) => .ok (some (d, stop))
      | .ok (d, none) => d.advance fuel

/-- Statements are executed until a breakpoint, an error or the end. -/
def run (d : Debugger) (fuel : Nat) : Except Defect (Option (Debugger × Stop)) :=
  if d.state = .completed then .ok (some (d, .alreadyCompleted)) else d.start.advance fuel

def setBreakpoint (d : Debugger) (line : Int) : Except BreakpointError Debugger :=
  if line ∉ d.lines then .error .noSuchLine
  else if line ∈ d.breakpoints then .error .alreadyExists
  else .ok { d with breakpoints := Graph.insertAscending line d.breakpoints }

def removeBreakpoint (d : Debugger) (line : Int) : Except BreakpointError Debugger :=
  if line ∈ d.breakpoints then
    .ok { d with breakpoints := d.breakpoints.filter (· != line) }
  else .error .noSuchBreakpoint

def clearBreakpoints (d : Debugger) : Debugger := { d with breakpoints := [] }

def valueOf? (d : Debugger) (name : Text) : Option Value := d.machine.memory.read? name

def where? (d : Debugger) : Option Int :=
  match d.state, d.current with
  | .completed, _ => none
  | _, none => none
  | _, some id => (d.graph.node? id).map Node.line

end Debugger

end StepGraph
