import StepGraph.Debugger

/-!
# The debugger shell

Commands are read one a line and answered in text.  They may come from the same
source as the input of the program, or from one of their own.
-/

namespace StepGraph

inductive Command where
  | help
  | run
  | step
  | setBreakpoint (line : Option Int)
  | removeBreakpoint (line : Option Int)
  | listBreakpoints
  | clearBreakpoints
  | print (name : Option Text)
  | showMemory
  | showState
  | whereAmI
  | unknown
  deriving DecidableEq

inductive Request where
  | nothing
  | quit
  | command (c : Command)
  deriving DecidableEq

namespace Request

def lineArgument (arguments : List Text) : Option Int := arguments.head?.bind Integer.ofLiteral?

def ofWords (word : Text) (arguments : List Text) : Request :=
  if word = utf8 "q" then .quit
  else if word = utf8 "h" then .command .help
  else if word = utf8 "r" then .command .run
  else if word = utf8 "s" then .command .step
  else if word = utf8 "b" then .command (.setBreakpoint (lineArgument arguments))
  else if word = utf8 "rb" then .command (.removeBreakpoint (lineArgument arguments))
  else if word = utf8 "lb" then .command .listBreakpoints
  else if word = utf8 "cb" then .command .clearBreakpoints
  else if word = utf8 "p" then .command (.print arguments.head?)
  else if word = utf8 "sm" then .command .showMemory
  else if word = utf8 "ss" then .command .showState
  else if word = utf8 "w" then .command .whereAmI
  else .command .unknown

/-- The request of a command line; a blank one asks for nothing. -/
def ofLine (line : Text) : Request :=
  match line.fields with
  | [] => .nothing
  | word :: arguments => ofWords word arguments

end Request

inductive SessionEnd where
  | quit
  | endOfInput
  | readFailed (reason : Text)
  deriving DecidableEq

namespace SessionEnd

/-- The error message of a session whose commands could not be read. -/
def message? : SessionEnd → Option Text
  | .readFailed reason => some (utf8 "shell: read command: " ++ reason)
  | _ => none

end SessionEnd

structure Shell where
  debugger : Debugger
  /-- The source of the commands, when it is not the input of the program. -/
  commands : Option LineSource
  prompt : Text
  /-- How an error message of the program is set off. -/
  errorStyle : Text → Text

namespace Shell

def defaultPrompt : Text := utf8 "Enter a command, type h for help. Type r to run. > "

def helpLines : List String :=
  ["Available commands:",
    "r -> Run the program / continue from a breakpoint",
    "s -> Step to next stmt by executing current stmt",
    "b n -> Breakpoint at line n",
    "rb n -> Remove breakpoint at line n",
    "lb -> List all breakpoints",
    "cb -> Clear all breakpoints",
    "p varname -> Print variable",
    "sm -> Show memory contents",
    "ss -> Show state of debugger",
    "w -> What line are we on?",
    "q -> Quit the debugger"]

def helpText : Text := helpLines.flatMap fun line => utf8 line ++ [Text.newline]

/-- A shell; an empty prompt stands for the usual one. -/
def make (debugger : Debugger) (commands : Option LineSource) (prompt : Text)
    (errorStyle : Text → Text) : Shell :=
  { debugger, commands, prompt := if prompt.isEmpty then defaultPrompt else prompt, errorStyle }

def write (sh : Shell) (text : Text) : Shell :=
  { sh with debugger :=
      { sh.debugger with machine := sh.debugger.machine.write text } }

def writeLine (sh : Shell) (text : Text) : Shell := sh.write (text ++ [Text.newline])

def readLine (sh : Shell) : Shell × ReadResult :=
  match sh.commands with
  | some source =>
    let reply := source.read sh.prompt
    ({ sh.write reply.written with commands := some reply.source }, reply.result)
  | none =>
    match sh.debugger.machine.readLine sh.prompt with
    | (machine, result) => ({ sh with debugger := { sh.debugger with machine } }, result)

def remember (sh : Shell) (line : Text) : Shell :=
  match sh.commands with
  | some source => { sh with commands := some (source.remember line) }
  | none =>
    let machine := sh.debugger.machine
    { sh with debugger :=
        { sh.debugger with machine := { machine with input := machine.input.remember line } } }

/-- What is said about a stop; a step and the end of the program are silent. -/
def stopText? (sh : Shell) : Stop → Option Text
  | .breakpoint line => some (utf8 "hit breakpoint at line " ++ Text.ofInt line)
  | .halted _ error => some (sh.errorStyle error.message)
  | .alreadyCompleted => some (utf8 "program has completed")
  | .stepped _ => none
  | .finished => none

def report (sh : Shell) (stop : Stop) : Shell :=
  match sh.stopText? stop with
  | some text => sh.writeLine text
  | none => sh

def breakpointsText (lines : List Int) : Text :=
  if lines.isEmpty then utf8 "no breakpoints"
  else utf8 "breakpoints on lines:" ++ lines.flatMap fun line => utf8 " " ++ Text.ofInt line

def variableText (debugger : Debugger) (name : Option Text) : Text :=
  match name with
  | none => utf8 "no such variable"
  | some name =>
    match debugger.valueOf? name with
    | none => utf8 "no such variable"
    | some value =>
      name ++ utf8 " (" ++ value.kind.name ++ utf8 "): " ++ value.inspect

def whereText (debugger : Debugger) : Text :=
  match debugger.where? with
  | some line => utf8 "line " ++ Text.ofInt line
  | none => utf8 "completed execution"

def answerBreakpoint (sh : Shell) (result : Except BreakpointError Debugger) (done : String) :
    Shell :=
  match result with
  | .ok debugger => ({ sh with debugger } : Shell).writeLine (utf8 done)
  | .error error => sh.writeLine error.message

/-- One command is carried out; `none` when the fuel does not suffice for the program. -/
def carryOut (sh : Shell) (fuel : Nat) : Command → Except Defect (Option Shell)
  | .help => .ok (some (sh.write helpText))
  | .run => do
    match ← sh.debugger.run fuel with
    | some (debugger, stop) => return some (({ sh with debugger } : Shell).report stop)
    | none => return none
  | .step => do
    let (debugger, stop) ← sh.debugger.step
    return some (({ sh with debugger } : Shell).report stop)
  | .setBreakpoint none => .ok (some (sh.writeLine BreakpointError.noSuchLine.message))
  | .setBreakpoint (some line) =>
    .ok (some (sh.answerBreakpoint (sh.debugger.setBreakpoint line) "breakpoint set"))
  | .removeBreakpoint none => .ok (some (sh.writeLine BreakpointError.noSuchBreakpoint.message))
  | .removeBreakpoint (some line) =>
    .ok (some (sh.answerBreakpoint (sh.debugger.removeBreakpoint line) "breakpoint removed"))
  | .listBreakpoints => .ok (some (sh.writeLine (breakpointsText sh.debugger.breakpoints)))
  | .clearBreakpoints =>
    .ok (some (({ sh with debugger := sh.debugger.clearBreakpoints } : Shell).writeLine
      (utf8 "breakpoints cleared")))
  | .print name => .ok (some (sh.writeLine (variableText sh.debugger name)))
  | .showMemory => .ok (some (sh.write sh.debugger.machine.memory.dump))
  | .showState => .ok (some (sh.writeLine sh.debugger.state.name))
  | .whereAmI => .ok (some (sh.writeLine (whereText sh.debugger)))
  | .unknown => .ok (some (sh.writeLine (utf8 "unknown command")))

/-- The session is over and the graph is whole again. -/
def finish (sh : Shell) (ending : SessionEnd) : Except Defect (Option (Shell × SessionEnd)) :=
  sh.debugger.close.map fun debugger => some ({ sh with debugger }, ending)

/-- The next request, asked for on a new line. -/
def nextRequest (sh : Shell) : Shell × Except SessionEnd Request :=
  match (sh.writeLine []).readLine with
  | (sh, .line line) => (sh.remember line, .ok (Request.ofLine line))
  | (sh, .endOfInput) => (sh, .error .endOfInput)
  | (sh, .failed reason) => (sh, .error (.readFailed reason))

/-- At most `fuel` command lines are carried out; `none` when the fuel runs out first. -/
def run (sh : Shell) : (fuel : Nat) → Except Defect (Option (Shell × SessionEnd))
  | 0 => .ok none
  | fuel + 1 =>
    match sh.nextRequest with
    | (sh, .error ending) => sh.finish ending
    | (sh, .ok .quit) => sh.finish .quit
    | (sh, .ok .nothing) => sh.run fuel
    | (sh, .ok (.command command)) =>
      match sh.carryOut fuel command with
      | .error defect => .error defect
      | .ok none => .ok none
      | .ok (some sh) => sh.run fuel

end Shell

end StepGraph
