import StepGraph.Evaluation
import StepGraph.Graph
import StepGraph.LineSource

/-!
# Running graphs

A machine is the memory a graph works on, the source of the lines it reads and
the text it has written.  Executing a node changes the machine and tells which
link to follow; a run repeats that until no link is left or a node fails.
-/

namespace StepGraph

structure Machine where
  memory : Memory
  input : LineSource
  output : Array UInt8
  deriving DecidableEq

structure Outcome where
  branch : Branch
  next : Link
  deriving DecidableEq

namespace Machine

def write (m : Machine) (text : Text) : Machine := { m with output := m.output ++ text }

def writeLine (m : Machine) (text : Text) : Machine := m.write (text ++ [Text.newline])

def assign (m : Machine) (name : Text) (value : Value) : Machine :=
  { m with memory := m.memory.write name value }

def readLine (m : Machine) (prompt : Text) : Machine × ReadResult :=
  let reply := m.input.read prompt
  ({ m.write reply.written with input := reply.source }, reply.result)

/-- The string that a conversion works on, which must be held by a variable. -/
def stringArgument (m : Machine) (function : Text) (argument : Element) (line : Int) :
    Except Fault Text :=
  match argument.kind with
  | .identifier =>
    match m.memory.read? argument.text with
    | none => failAt line (.undefinedName argument.text)
    | some (.str s) => .ok s
    | some _ => failAt line (.notString function)
  | _ => failAt line (.notVariable function)

def startsWithZero (s : Text) : Bool := s.head? == some 48

/-- A string converted to an integer.  A zero counts only if the string starts with one. -/
def convertInt (s : Text) (line : Int) : Except Fault Value :=
  if Integer.ofPrefix s = 0 && !startsWithZero s then failAt line (.notNumber (utf8 "int"))
  else .ok (.int (Int64.ofInt (Integer.ofPrefix s)))

/-- A string converted to a real.  A zero counts only if the string starts with one. -/
def convertFloat (s : Text) (line : Int) : Except Fault Value :=
  if Double.ofPrefix s == 0 && !startsWithZero s then failAt line (.notNumber (utf8 "float"))
  else .ok (.real (Double.ofPrefix s))

def callInput (m : Machine) (argument : Element) (line : Int) : Machine × Except Fault Value :=
  match argument.eval m.memory line with
  | .error fault => (m, .error fault)
  | .ok (.str prompt) =>
    match m.readLine prompt with
    | (m, .line text) => (m, .ok (.str text.trimLineEnd))
    | (m, .endOfInput) => (m, failAt line .endOfInput)
    | (m, .failed reason) => (m, failAt line (.inputFailed reason))
  | .ok _ => (m, failAt line .promptNotString)

def callFunction (m : Machine) (function : Text) (argument : Element) (line : Int) :
    Machine × Except Fault Value :=
  if function = utf8 "input" then m.callInput argument line
  else if function = utf8 "int" then
    (m, m.stringArgument function argument line >>= fun s => convertInt s line)
  else if function = utf8 "float" then
    (m, m.stringArgument function argument line >>= fun s => convertFloat s line)
  else (m, failAt line (.unknownFunction function))

def evalSource (m : Machine) (source : Source) (line : Int) : Machine × Except Fault Value :=
  match source with
  | .expr e => (m, e.eval m.memory line)
  | .call function argument => m.callFunction function argument line

/-- A call as a statement; only `print` can be called so. -/
def callStatement (m : Machine) (function : Text) (argument : Option Element) (line : Int) :
    Machine × Except Fault Unit :=
  if function = utf8 "print" then
    match argument with
    | none => (m.writeLine [], .ok ())
    | some e =>
      match e.eval m.memory line with
      | .ok value => (m.writeLine value.display, .ok ())
      | .error fault => (m, .error fault)
  else (m, failAt line (.unknownFunction function))

def act (m : Machine) (action : Action) (line : Int) : Machine × Except Fault Unit :=
  match action with
  | .assign target source =>
    match m.evalSource source line with
    | (m, .ok value) => (m.assign target value, .ok ())
    | (m, .error fault) => (m, .error fault)
  | .call function argument => m.callStatement function argument line
  | .pass => (m, .ok ())

def execute (m : Machine) : Node → Machine × Except Fault Outcome
  | .step line action next =>
    match m.act action line with
    | (m, .ok ()) => (m, .ok { branch := .next, next })
    | (m, .error fault) => (m, .error fault)
  | .loop line condition body next =>
    match condition.eval m.memory line with
    | .error fault => (m, .error fault)
    | .ok (.bool true) => (m, .ok { branch := .body, next := body })
    | .ok (.bool false) => (m, .ok { branch := .next, next })
    | .ok _ => (m, failAt line .conditionNotBool)

end Machine

inductive Halt where
  | finished
  | failed (fault : Fault)
  | outOfFuel
  deriving DecidableEq

namespace Graph

def execute (g : Graph) (id : NodeId) (m : Machine) : Machine × Except Fault Outcome :=
  match g.node id with
  | .ok node => m.execute node
  | .error defect => (m, .error (.defect defect))

/-- At most `fuel` nodes are executed, each by the link of the one before. -/
def run (g : Graph) : (fuel : Nat) → Link → Machine → Machine × Halt
  | _, none, m => (m, .finished)
  | 0, some _, m => (m, .outOfFuel)
  | fuel + 1, some id, m =>
    match g.execute id m with
    | (m, .ok outcome) => g.run fuel outcome.next m
    | (m, .error fault) => (m, .failed fault)

end Graph

end StepGraph
