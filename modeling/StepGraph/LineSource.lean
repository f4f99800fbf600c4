import StepGraph.Text.Blank
import StepGraph.Text.Control

/-!
# Sources of lines

Where a program and the debugger get their lines from: a console that shows the
prompt and cuts its text at line feeds, a line editor with a history, or a
prepared list of lines.  The text of a console and the prepared lines may end
with a failure.
-/

namespace StepGraph

inductive ReadResult where
  | line (text : Text)
  | endOfInput
  | failed (reason : Text)
  deriving DecidableEq

/-- A line editor on redirected input: the text not yet read and the lines to remember. -/
structure LineEditor where
  rest : Text
  history : List Text
  deriving DecidableEq

namespace LineEditor

def historyLimit : Nat := 1000

def window : Nat := 4096

/-- The line end is one line feed, with a carriage return before it if there is one. -/
def dropLineEnd (line : Text) : Text :=
  match line.reverse with
  | 10 :: 13 :: rest => rest.reverse
  | 10 :: rest => rest.reverse
  | _ => line

/-- The bytes of the next piece of a line, counted with its line end; a piece that fills the
window does not end in a carriage return. -/
def pieceLength (text : Text) : Nat :=
  let line := (Text.takeLine (text.take window)).1
  if line.length < window || line.getLast? = some 10 then line.length
  else if line.getLast? = some 13 then window - 1
  else window

def nextLine? (text : Text) : Option (Text × Text) :=
  if text.isEmpty then none
  else some (dropLineEnd (text.take (pieceLength text)), text.drop (pieceLength text))

/-- A line is added to the history unless it repeats the last one. -/
def remember (history : List Text) (line : Text) : List Text :=
  if history.getLast? = some line then history
  else (history ++ [line]).drop (history.length + 1 - historyLimit)

/-- The lines of a stored history, up to the first one that is too long or not UTF-8. -/
def loadHistory (stored : Text) : List Text :=
  go [] stored stored.length
where
  go (history : List Text) (text : Text) : (fuel : Nat) → List Text
    | 0 => history
    | fuel + 1 =>
      match nextLine? text with
      | none => history
      | some (line, rest) =>
        if (text.take window).all (· != 10) && window ≤ text.length || !line.isUtf8 then history
        else go ((history ++ [line]).drop (history.length + 1 - historyLimit)) rest fuel

def storedHistory (history : List Text) : Text := history.flatMap fun line => line ++ [10]

end LineEditor

inductive LineSource where
  | console (rest : Text) (showsPrompt : Bool) (failure : Option Text := none)
  | editor (state : LineEditor)
  | script (lines : List Text) (failure : Option Text)
  deriving DecidableEq

namespace LineSource

/-- The result of a read: what was read, what was written on the way, and the source after it. -/
structure Reply where
  result : ReadResult
  written : Text
  source : LineSource

/-- Whether a line comes first.  Before the end of the input a line needs no line end, but before a
failure what has none is never given. -/
def startsWithLine (rest : Text) (failure : Option Text) : Bool :=
  match failure with
  | none => !rest.isEmpty
  | some _ => rest.takeLine.1.getLast? == some 10

def ending (failure : Option Text) : ReadResult :=
  match failure with
  | some reason => .failed reason
  | none => .endOfInput

/-- A read from a console: the prompt is shown even when no line is left. -/
def readConsole (rest : Text) (showsPrompt : Bool) (failure : Option Text) (prompt : Text) :
    Reply :=
  let written := if showsPrompt then prompt else []
  if startsWithLine rest failure then
    { result := .line rest.takeLine.1.trimLineEnd, written
      source := .console rest.takeLine.2 showsPrompt failure }
  else { result := ending failure, written, source := .console rest showsPrompt failure }

/-- A read through a line editor, which refuses prompts with control characters. -/
def readEditor (state : LineEditor) (prompt : Text) : Reply :=
  if prompt.hasControl then
    { result := .failed (utf8 "invalid prompt"), written := [], source := .editor state }
  else
    match LineEditor.nextLine? state.rest with
    | none => { result := .endOfInput, written := prompt, source := .editor state }
    | some (line, rest) =>
      { result := .line line, written := prompt, source := .editor { state with rest } }

def readScript (lines : List Text) (failure : Option Text) : Reply :=
  match lines with
  | line :: rest => { result := .line line, written := [], source := .script rest failure }
  | [] => { result := ending failure, written := [], source := .script [] failure }

def read (source : LineSource) (prompt : Text) : Reply :=
  match source with
  | .console rest showsPrompt failure => readConsole rest showsPrompt failure prompt
  | .editor state => readEditor state prompt
  | .script lines failure => readScript lines failure

/-- A command line that is not blank goes into the history of a line editor. -/
def remember (source : LineSource) (line : Text) : LineSource :=
  match source with
  | .editor state =>
    if line.isBlank then source
    else .editor { state with history := LineEditor.remember state.history line }
  | source => source

end LineSource

end StepGraph
