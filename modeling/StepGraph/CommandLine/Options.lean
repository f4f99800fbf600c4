import StepGraph.Integer.Marked
import StepGraph.Text.Quoted

/-!
# Options

Options stand before the other arguments.  An option starts with one or two
dashes and takes its value after an equals sign or from the next argument; two
dashes alone end the options.
-/

namespace StepGraph

namespace CommandLine

structure Options where
  debug : Bool
  /-- The verbosity of the log; a negative one leaves that of the settings. -/
  verbosity : Int
  /-- The log file; an empty one leaves that of the settings. -/
  logFile : Text
  /-- The directory of the settings; an empty one asks for a search. -/
  settings : Text
  /-- The file that the program is written to; an empty one asks for a run. -/
  target : Text
  deriving DecidableEq

namespace Options

def default : Options :=
  { debug := false, verbosity := -1, logFile := [], settings := [], target := [] }

end Options

inductive OptionError where
  | badForm (argument : Text)
  | unknown (name : Text)
  | noValue (name : Text)
  | notBoolean (value name : Text)
  | notNumber (value name : Text)
  | outOfRange (value name : Text)
  deriving DecidableEq

namespace OptionError

def message : OptionError → Text
  | badForm argument => utf8 "bad flag syntax: " ++ argument
  | unknown name => utf8 "flag provided but not defined: -" ++ name
  | noValue name => utf8 "flag needs an argument: -" ++ name
  | notBoolean value name =>
    utf8 "invalid boolean value " ++ value.quote ++ utf8 " for -" ++ name ++ utf8 ": parse error"
  | notNumber value name =>
    utf8 "invalid value " ++ value.quote ++ utf8 " for flag -" ++ name ++ utf8 ": parse error"
  | outOfRange value name =>
    utf8 "invalid value " ++ value.quote ++ utf8 " for flag -" ++ name ++
      utf8 ": value out of range"

end OptionError

/-- Why nothing is run: help was asked for, or the options are wrong. -/
inductive Refusal where
  | help
  | wrong (error : OptionError)
  deriving DecidableEq

/-- An argument as far as its form tells. -/
inductive Argument where
  /-- The first argument that is no option. -/
  | operand
  /-- The end of the options. -/
  | stop
  | option (name : Text) (value : Option Text)
  | badForm
  deriving DecidableEq

namespace Argument

def ofName : Text → Argument
  | [] => badForm
  | b :: rest =>
    if b = 45 || b = 61 then badForm
    else
      match rest.dropWhile (· != 61) with
      | [] => option (b :: rest) none
      | _ :: value => option (b :: rest.takeWhile (· != 61)) (some value)

def ofText : Text → Argument
  | [45, 45] => stop
  | 45 :: 45 :: name => ofName name
  | 45 :: b :: name => ofName (b :: name)
  | _ => operand

end Argument

inductive OptionKind where
  /-- A truth value, true when none is given. -/
  | switch
  | number
  | word
  deriving DecidableEq

def optionKinds : List (Text × OptionKind) :=
  [(utf8 "c", .word), (utf8 "config", .word), (utf8 "d", .switch), (utf8 "log", .word),
    (utf8 "v", .number)]

def trueWords : List Text := ["1", "t", "T", "true", "TRUE", "True"].map utf8

def falseWords : List Text := ["0", "f", "F", "false", "FALSE", "False"].map utf8

def helpNames : List Text := ["h", "help"].map utf8

namespace Options

def setWord (options : Options) (name value : Text) : Options :=
  if name = utf8 "c" then { options with target := value }
  else if name = utf8 "config" then { options with settings := value }
  else { options with logFile := value }

/-- A value is given to the option of a name. -/
def set (options : Options) (name value : Text) : OptionKind → Except OptionError Options
  | .switch =>
    if trueWords.contains value then .ok { options with debug := true }
    else if falseWords.contains value then .ok { options with debug := false }
    else .error (.notBoolean value name)
  | .number =>
    match Integer.readMarked value with
    | .ok verbosity => .ok { options with verbosity }
    | .error .malformed => .error (.notNumber value name)
    | .error .outOfRange => .error (.outOfRange value name)
  | .word => .ok (options.setWord name value)

/-- The options at the front of the arguments, and the arguments after them. -/
def read (options : Options) : List Text → Except Refusal (Options × List Text)
  | [] => .ok (options, [])
  | argument :: rest =>
    match Argument.ofText argument with
    | .operand => .ok (options, argument :: rest)
    | .stop => .ok (options, rest)
    | .badForm => .error (.wrong (.badForm argument))
    | .option name value =>
      match optionKinds.lookup name, value with
      | none, _ =>
        .error (if helpNames.contains name then .help else .wrong (.unknown name))
      | some kind, some value =>
        match options.set name value kind with
        | .ok options => options.read rest
        | .error error => .error (.wrong error)
      | some .switch, none => ({ options with debug := true } : Options).read rest
      | some kind, none =>
        match rest with
        | [] => .error (.wrong (.noValue name))
        | value :: rest =>
          match options.set name value kind with
          | .ok options => options.read rest
          | .error error => .error (.wrong error)

end Options

def usageLines : List String :=
  ["Usage: nupy [options] program.yaml|program.nupyc",
    "",
    "Runs a program graph file to completion.",
    "",
    "Options:",
    "  -c string",
    "    \tWrite the program to this file and exit (.nupyc for compiled form)",
    "  -config string",
    "    \tDirectory containing nupy.toml (default: search upward from the working directory)",
    "  -d\tStart the interactive debugger",
    "  -log string",
    "    \tLog file (overrides nupy.toml, default stderr)",
    "  -v int",
    "    \tLog verbosity (overrides nupy.toml) (default -1)",
    "",
    "Examples:",
    "  nupy loop.yaml                  # Run the program",
    "  nupy -d loop.yaml               # Debug the program",
    "  nupy -c loop.nupyc loop.yaml    # Write the compiled form"]

def usage : Text := usageLines.flatMap fun line => utf8 line ++ [Text.newline]

end CommandLine

end StepGraph
