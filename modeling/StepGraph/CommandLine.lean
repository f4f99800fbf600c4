import StepGraph.CommandLine.Options
import StepGraph.Log
import StepGraph.ProgramFile
import StepGraph.Settings
import StepGraph.Shell

/-!
# The command line

One call of the program: its arguments choose between running a program file,
debugging it and writing it to another file.  Everything the call depends on is
in its surroundings, and everything it leaves behind is in its report.
-/

namespace StepGraph

namespace CommandLine

structure Surroundings where
  files : FileTree
  directory : List Text
  terminal : Text
  colored : Bool
  session : Text

structure Report where
  status : Nat
  output : Text
  errors : Text
  files : FileTree

namespace Report

def silent (status : Nat) (errors : Text) (files : FileTree) : Report :=
  { status, output := [], errors, files }

end Report

def misused : Nat := 2

def errorLine (message : Text) : Text := utf8 "Error: " ++ message ++ [Text.newline]

def plainTerminals : List Text := ["", "dumb", "cons25"].map utf8

def canEdit (terminal : Text) : Bool := !plainTerminals.contains terminal.lower

def red (message : Text) : Text := utf8 "\x1b[31m" ++ message ++ utf8 "\x1b[0m"

/-! ## Preparation -/

/-- The options and the one program file of a call, or what the call says instead. -/
def readArguments (files : FileTree) (arguments : List Text) : Except Report (Options × Text) :=
  match Options.default.read arguments with
  | .error .help => .error (.silent 0 usage files)
  | .error (.wrong error) =>
    .error (.silent misused (error.message ++ [Text.newline] ++ usage) files)
  | .ok (options, [path]) => .ok (options, path)
  | .ok _ => .error (.silent misused usage files)

namespace Options

/-- The settings with what the options change in them. -/
def override (options : Options) (settings : Settings) : Settings :=
  { settings with log :=
      { verbosity := if 0 ≤ options.verbosity then options.verbosity else settings.log.verbosity
        file := if options.logFile.isEmpty then settings.log.file else options.logFile } }

def findSettings (options : Options) (s : Surroundings) : Except SettingsError Settings :=
  (if options.settings.isEmpty then Settings.find s.files s.directory (Path.ofParts s.directory)
    else Settings.load s.files s.directory options.settings).map options.override

end Options

def hasLogFile (settings : Settings) : Bool :=
  !settings.logPath.isEmpty && LogRecord.leastVerbosity ≤ settings.log.verbosity

def openLog (s : Surroundings) (settings : Settings) : Except FileError FileTree :=
  if hasLogFile settings then s.files.append s.directory settings.logPath [] else .ok s.files

/-- A program that is ready to run. -/
structure Prepared where
  graph : Graph
  settings : Settings
  surroundings : Surroundings

/-- Reads the program of a call, or writes it to another file, once the log is open. -/
def takeProgram (s : Surroundings) (settings : Settings) (options : Options) (path : Text) :
    Except Report Prepared :=
  if options.target.isEmpty then
    match s.files.load s.directory path with
    | .error error => .error (.silent 1 (errorLine error.message) s.files)
    | .ok graph => .ok { graph, settings, surroundings := s }
  else
    match s.files.compile s.directory path options.target with
    | .error error => .error (.silent 1 (errorLine error.message) s.files)
    | .ok files => .error (.silent 0 [] files)

/-- Everything that comes before the first statement.  When nothing is left to run, the report says
how the call ended. -/
def prepare (s : Surroundings) (options : Options) (path : Text) : Except Report Prepared :=
  match options.findSettings s with
  | .error error => .error (.silent 1 (errorLine error.message) s.files)
  | .ok settings =>
    match openLog s settings with
    | .error error =>
      .error (.silent 1 (utf8 "log file error: " ++ error.message ++ [Text.newline]) s.files)
    | .ok files => takeProgram { s with files } settings options path

/-! ## Work -/

namespace Prepared

def memory (p : Prepared) : Memory := .withCapacity p.settings.memory.initialCapacity

def errorStyle (p : Prepared) : Text → Text :=
  if p.surroundings.colored && p.settings.debugger.color then red else id

/-- The records that are kept go to the log file. -/
def logged (p : Prepared) (records : List LogRecord) (files : FileTree) : FileTree :=
  if hasLogFile p.settings then
    (files.append p.surroundings.directory p.settings.logPath
      (LogRecord.linesAt p.settings.log.verbosity records)).toOption.getD files
  else files

def shown (p : Prepared) (records : List LogRecord) : Text :=
  if p.settings.logPath.isEmpty then LogRecord.linesAt p.settings.log.verbosity records else []

/-- A fault of the graph itself ends the call at once. -/
def defective (p : Prepared) (output : Text) (defect : Defect) : Report :=
  { status := misused, output, errors := errorLine defect.message, files := p.surroundings.files }

/-! ### Running -/

def machine (p : Prepared) (input : Text) : Machine :=
  { memory := p.memory, input := .console input true, output := #[] }

def runRecords (p : Prepared) (input : Text) (fuel : Nat) : List LogRecord :=
  if Severity.debug.level ≤ p.settings.log.verbosity then
    (p.graph.runRecords #[] fuel p.graph.entry (p.machine input)).toList
  else []

def runReport (p : Prepared) (records : List LogRecord) : Machine × Halt → Option Report
  | (_, .outOfFuel) => none
  | (m, .finished) =>
    some { status := 0, output := m.output.toList, errors := p.shown records
           files := p.logged records p.surroundings.files }
  | (m, .failed (.error error)) =>
    some { status := 1, output := (m.writeLine (p.errorStyle error.message)).output.toList
           errors := p.shown records, files := p.logged records p.surroundings.files }
  | (m, .failed (.defect defect)) => some (p.defective m.output.toList defect)

def run (p : Prepared) (input : Text) (fuel : Nat) : Option Report :=
  p.runReport (p.runRecords input fuel) (p.graph.run fuel p.graph.entry (p.machine input))

/-! ### Debugging -/

/-- The lines of the history file; one that cannot be read has none. -/
def oldHistory (p : Prepared) : List Text :=
  if p.settings.historyPath.isEmpty then []
  else
    match p.surroundings.files.read p.surroundings.directory p.settings.historyPath with
    | .ok stored => LineEditor.loadHistory stored
    | .error _ => []

def lineSource (p : Prepared) (input : Text) : LineSource :=
  if canEdit p.surroundings.terminal then .editor { rest := input, history := p.oldHistory }
  else .console input true

/-- Keeps the history of a line editor; a file that cannot be written is left alone. -/
def keepHistory (p : Prepared) (files : FileTree) : LineSource → FileTree
  | .editor state =>
    if p.settings.historyPath.isEmpty then files
    else
      (files.write p.surroundings.directory p.settings.historyPath
        (LineEditor.storedHistory state.history)).toOption.getD files
  | _ => files

def banner (p : Prepared) : Text :=
  utf8 "nupy debugger (session " ++ p.surroundings.session ++ utf8 ")" ++ [Text.newline]

def loadedRecord (p : Prepared) : LogRecord :=
  { severity := .info
    text := utf8 "session " ++ p.surroundings.session ++ utf8 ": loaded " ++
      Text.ofNat p.graph.size ++ utf8 " statements" }

def closedRecord (p : Prepared) (state : DebugState) : LogRecord :=
  { severity := .info
    text := utf8 "session " ++ p.surroundings.session ++ utf8 ": closed in state " ++ state.name }

/-- Sets the breakpoints of the settings.  One that cannot be set leaves a record. -/
def setBreakpoints : Debugger → List Int → Debugger × List LogRecord
  | debugger, [] => (debugger, [])
  | debugger, line :: rest =>
    match debugger.setBreakpoint line with
    | .ok debugger => setBreakpoints debugger rest
    | .error error =>
      match setBreakpoints debugger rest with
      | (debugger, records) =>
        (debugger,
          { severity := .warning
            text := utf8 "breakpoint at line " ++ Text.ofInt line ++
              utf8 " from configuration: " ++ error.message } :: records)

def openShell (p : Prepared) (input : Text) : Except Defect (Shell × List LogRecord) :=
  (Debugger.load p.graph { memory := p.memory, input := p.lineSource input, output := #[] }).map
    fun debugger =>
      match setBreakpoints debugger p.settings.debugger.breakpoints with
      | (debugger, records) =>
        (Shell.make debugger none p.settings.debugger.prompt p.errorStyle, records)

def sessionReport (p : Prepared) (records : List LogRecord) (sh : Shell) (ending : SessionEnd) :
    Report :=
  let closed := p.closedRecord sh.debugger.state
  { status := if ending.message?.isSome then 1 else 0
    output := sh.debugger.machine.output.toList
    errors := p.shown [p.loadedRecord] ++ p.banner ++ p.shown (records ++ [closed]) ++
      (ending.message?.map errorLine).getD []
    files := p.logged (p.loadedRecord :: records ++ [closed])
      (p.keepHistory p.surroundings.files sh.debugger.machine.input) }

def debug (p : Prepared) (input : Text) (fuel : Nat) : Option Report :=
  match p.openShell input with
  | .error defect => some (p.defective [] defect)
  | .ok (sh, records) =>
    match sh.run fuel with
    | .error defect => some (p.defective [] defect)
    | .ok none => none
    | .ok (some (sh, ending)) => some (p.sessionReport records sh ending)

end Prepared

/-- One call on the text of the input; `none` when the fuel runs out. -/
def run (s : Surroundings) (arguments : List Text) (input : Text) (fuel : Nat) : Option Report :=
  match readArguments s.files arguments with
  | .error report => some report
  | .ok (options, path) =>
    match prepare s options path with
    | .error report => some report
    | .ok prepared => if options.debug then prepared.debug input fuel else prepared.run input fuel

end CommandLine

end StepGraph
