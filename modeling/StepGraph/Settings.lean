import StepGraph.FileTree
import StepGraph.Toml.Key
import StepGraph.Toml.Table

/-!
# Settings

Settings come from a file in a directory; what the file does not say keeps its
default.  Without a given directory the nearest one above the start that has
such a file counts.
-/

namespace StepGraph

structure MemorySettings where
  initialCapacity : Int
  deriving DecidableEq

structure DebuggerSettings where
  prompt : Text
  history : Text
  breakpoints : List Int
  color : Bool
  deriving DecidableEq

structure LogSettings where
  verbosity : Int
  file : Text
  deriving DecidableEq

structure Settings where
  memory : MemorySettings
  debugger : DebuggerSettings
  log : LogSettings
  /-- The directory of the settings file, empty for the defaults. -/
  directory : Text
  deriving DecidableEq

inductive SettingsError where
  | unreadable (path : Text) (error : FileError)
  | malformed (path : Text)
  | unknownKeys (path : Text) (keys : List Text)
  | capacity (path : Text)
  deriving DecidableEq

namespace SettingsError

def message : SettingsError → Text
  | unreadable path error => utf8 "cannot read " ++ path ++ utf8 ": " ++ error.message
  | malformed path => utf8 "parse error in " ++ path
  | unknownKeys path keys =>
    utf8 "unknown keys in " ++ path ++ utf8 ": " ++ Text.join (utf8 ", ") keys
  | capacity path => path ++ utf8 ": memory.initial-capacity must be positive"

end SettingsError

namespace Settings

def fileName : Text := utf8 "nupy.toml"

def default : Settings where
  memory := { initialCapacity := 4 }
  debugger :=
    { prompt := utf8 "Enter a command, type h for help. Type r to run. > "
      history := utf8 ".nupy_history"
      breakpoints := []
      color := true }
  log := { verbosity := 0, file := [] }
  directory := []

/-! ## Values -/

def int? : Toml.Value → Option Int
  | .integer n => some n
  | _ => none

def text? : Toml.Value → Option Text
  | .string t => some t
  | _ => none

def bool? : Toml.Value → Option Bool
  | .boolean b => some b
  | _ => none

def ints? : Toml.Value → Option (List Int)
  | .array items => items.mapM int?
  | .tables [] => some []
  | _ => none

def table? : Toml.Value → Option Toml.Table
  | .table t => some t
  | _ => none

/-! ## Fields -/

/-- The fields of a group of settings: their names and how each changes the group. -/
abbrev Fields (α : Type) := List (Text × (α → Toml.Value → Option α))

/-- The field of a name, whose case does not matter. -/
def Fields.change? {α : Type} (fields : Fields α) (name : Text) :
    Option (α → Toml.Value → Option α) :=
  List.lookup (Toml.folded name) fields

/-- Changes a group by a table; names that are not known change nothing. -/
def Fields.apply {α : Type} (fields : Fields α) : α → Toml.Table → Option α
  | group, [] => some group
  | group, (name, value) :: rest =>
    match fields.change? name with
    | some change => do fields.apply (← change group value) rest
    | none => fields.apply group rest

def memoryFields : Fields MemorySettings :=
  [(utf8 "initial-capacity", fun m v => (int? v).map fun n => { m with initialCapacity := n })]

def debuggerFields : Fields DebuggerSettings :=
  [(utf8 "prompt", fun d v => (text? v).map fun t => { d with prompt := t }),
    (utf8 "history", fun d v => (text? v).map fun t => { d with history := t }),
    (utf8 "breakpoints", fun d v => (ints? v).map fun lines => { d with breakpoints := lines }),
    (utf8 "color", fun d v => (bool? v).map fun b => { d with color := b })]

def logFields : Fields LogSettings :=
  [(utf8 "verbosity", fun l v => (int? v).map fun n => { l with verbosity := n }),
    (utf8 "file", fun l v => (text? v).map fun t => { l with file := t })]

def groups : Fields Settings :=
  [(utf8 "memory", fun s v => do
      return { s with memory := ← memoryFields.apply s.memory (← table? v) }),
    (utf8 "debugger", fun s v => do
      return { s with debugger := ← debuggerFields.apply s.debugger (← table? v) }),
    (utf8 "log", fun s v => do
      return { s with log := ← logFields.apply s.log (← table? v) })]

def fieldNames (group : Text) : List Text :=
  if group = utf8 "memory" then memoryFields.map (·.1)
  else if group = utf8 "debugger" then debuggerFields.map (·.1)
  else if group = utf8 "log" then logFields.map (·.1)
  else []

def isKnown : Toml.Key → Bool
  | [group] => (groups.map (·.1)).contains (Toml.folded group)
  | [group, name] => (fieldNames (Toml.folded group)).contains (Toml.folded name)
  | _ => false

/-- The keys without meaning, in order. -/
def unknownKeys (keys : List Toml.Key) : List Text :=
  ((keys.filter fun key => !isKnown key).map Toml.keyText).mergeSort fun s t =>
    Text.compare s t != .gt

def ofContent (path directory content : Text) : Except SettingsError Settings :=
  match (Toml.contents? content).bind fun c => (groups.apply default c.table).map (c.keys, ·) with
  | none => .error (.malformed path)
  | some (keys, settings) =>
    match unknownKeys keys with
    | [] =>
      if settings.memory.initialCapacity ≤ 0 then .error (.capacity path)
      else .ok { settings with directory }
    | unknown => .error (.unknownKeys path unknown)

/-- The settings in a directory, for one who works in the directory `current`. -/
def load (tree : FileTree) (current : List Text) (directory : Text) :
    Except SettingsError Settings :=
  let path := Path.join directory fileName
  match tree.read current path with
  | .error error => .error (.unreadable path error)
  | .ok content => ofContent path (Path.absolute (Path.ofParts current) directory) content

/-- The settings in the nearest directory that has some, from the one whose parts are given, the
last of them first, up to the root; the defaults when there are none. -/
def findFrom (tree : FileTree) : List Text → Except SettingsError Settings
  | [] =>
    if tree.hasEntry [] (Path.join (Path.ofParts []) fileName) then load tree [] (Path.ofParts [])
    else .ok default
  | part :: above =>
    let directory := Path.ofParts (part :: above).reverse
    if tree.hasEntry [] (Path.join directory fileName) then load tree [] directory
    else findFrom tree above

/-- The settings that count in a directory. -/
def find (tree : FileTree) (current : List Text) (directory : Text) :
    Except SettingsError Settings :=
  findFrom tree (Path.parts (Path.absolute (Path.ofParts current) directory)).reverse

/-! ## Paths -/

def resolve (s : Settings) (path : Text) : Text :=
  if path.isEmpty || Path.isAbsolute path || s.directory.isEmpty then path
  else Path.join s.directory path

/-- The file with the history of commands, empty when there is none. -/
def historyPath (s : Settings) : Text := s.resolve s.debugger.history

/-- The file that takes log records, empty for the error stream. -/
def logPath (s : Settings) : Text := s.resolve s.log.file

end Settings

end StepGraph
