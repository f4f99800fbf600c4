import StepGraph.Machine

/-!
# Log records

Records have a severity; the verbosity decides which of them are kept.
-/

namespace StepGraph

inductive Severity where
  | warning
  | info
  | debug
  deriving DecidableEq

namespace Severity

/-- The least verbosity that keeps records of a severity. -/
def level : Severity → Int
  | warning => -1
  | info => 1
  | debug => 2

def name : Severity → Text
  | warning => utf8 "WARNING"
  | info => utf8 "INFO"
  | debug => utf8 "DEBUG"

end Severity

structure LogRecord where
  severity : Severity
  text : Text
  deriving DecidableEq

namespace LogRecord

def line (record : LogRecord) : Text :=
  record.severity.name ++ utf8 " " ++ record.text ++ [Text.newline]

def linesAt (verbosity : Int) (records : List LogRecord) : Text :=
  (records.filter (·.severity.level ≤ verbosity)).flatMap line

/-- The least verbosity of a log that is written at all. -/
def leastVerbosity : Int := -3

def ofAssignment (node : Node) (m : Machine) : List LogRecord :=
  match node with
  | .step line (.assign target _) _ =>
    (m.memory.read? target).toList.map fun value =>
      { severity := .debug
        text := utf8 "line " ++ Text.ofInt line ++ utf8 ": " ++ target ++ utf8 " = " ++
          value.describe }
  | _ => []

end LogRecord

namespace Graph

def runRecords (g : Graph) (records : Array LogRecord) :
    (fuel : Nat) → Link → Machine → Array LogRecord
  | 0, _, _ => records
  | _, none, _ => records
  | fuel + 1, some id, m =>
    match g.execute id m with
    | (_, .error _) => records
    | (m, .ok outcome) =>
      g.runRecords (records ++ ((g.node? id).map (LogRecord.ofAssignment · m)).getD [])
        fuel outcome.next m

end Graph

end StepGraph
