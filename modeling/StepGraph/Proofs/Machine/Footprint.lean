import StepGraph.Machine
import StepGraph.Proofs.Memory.Stability

/-!
# What a statement reads and stores

A statement looks at the memory only through the names that stand in it, and
changes it only by storing one value under the target of an assignment.  So on
two memories that agree on these names it does the same, and stores the same.
-/

namespace StepGraph

/-! ## The names in a statement -/

/-- The variable that the element stands for, if it stands for one. -/
def Element.reads (e : Element) : List Text := if e.kind = .identifier then [e.text] else []

def Expr.reads (e : Expr) : List Text := e.lhs.reads ++ e.operation.toList.flatMap (·.2.reads)

def Source.reads : Source → List Text
  | .expr e => e.reads
  | .call _ argument => argument.reads

def Action.reads : Action → List Text
  | .assign _ source => source.reads
  | .call _ argument => argument.toList.flatMap Element.reads
  | .pass => []

namespace Node

def reads : Node → List Text
  | .step _ action _ => action.reads
  | .loop _ condition _ _ => condition.reads

def target? : Node → Option Text
  | .step _ (.assign target _) _ => some target
  | _ => none

end Node

/-! ## Evaluation -/

section Evaluation

variable {memory other : Memory}

theorem Element.eval_congr {e : Element}
    (agree : ∀ name ∈ e.reads, other.read? name = memory.read? name) (line : Int) :
    e.eval other line = e.eval memory line := by
  unfold eval
  cases kind : e.kind with
  | identifier =>
    have same := agree e.text (by rw [reads, if_pos kind]; exact List.mem_singleton_self _)
    simp only [same]
  | _ => rfl

theorem Expr.eval_congr {e : Expr}
    (agree : ∀ name ∈ e.reads, other.read? name = memory.read? name) (line : Int) :
    e.eval other line = e.eval memory line := by
  obtain ⟨lhs, operation⟩ := e
  have left : lhs.eval other line = lhs.eval memory line :=
    Element.eval_congr (fun name member => agree name (List.mem_append_left _ member)) line
  unfold eval
  rw [left]
  cases operation with
  | none => rfl
  | some operation =>
    obtain ⟨op, rhs⟩ := operation
    have right : rhs.eval other line = rhs.eval memory line :=
      Element.eval_congr (fun name member => agree name (by simp [reads, member])) line
    simp only [right]

end Evaluation

namespace Machine

def withMemory (m : Machine) (memory : Memory) : Machine := { m with memory }

@[simp] theorem withMemory_memory (m : Machine) : m.withMemory m.memory = m := rfl

/-! ## Right sides and calls -/

section Calls

variable (m : Machine) {other : Memory} (line : Int)

theorem stringArgument_withMemory (function : Text) {argument : Element}
    (agree : ∀ name ∈ argument.reads, other.read? name = m.memory.read? name) :
    (m.withMemory other).stringArgument function argument line =
      m.stringArgument function argument line := by
  unfold stringArgument
  cases kind : argument.kind with
  | identifier =>
    have same := agree argument.text (by
      rw [Element.reads, if_pos kind]
      exact List.mem_singleton_self _)
    simp only [withMemory, same]
  | _ => rfl

theorem callInput_withMemory {argument : Element}
    (agree : ∀ name ∈ argument.reads, other.read? name = m.memory.read? name) :
    (m.withMemory other).callInput argument line =
      ((m.callInput argument line).1.withMemory other, (m.callInput argument line).2) := by
  have same : argument.eval (m.withMemory other).memory line = argument.eval m.memory line :=
    Element.eval_congr agree line
  unfold callInput
  rw [same]
  cases argument.eval m.memory line with
  | error fault => rfl
  | ok value =>
    cases value with
    | str prompt =>
      simp only [readLine, withMemory, write]
      cases (m.input.read prompt).result <;> rfl
    | _ => rfl

theorem callFunction_withMemory (function : Text) {argument : Element}
    (agree : ∀ name ∈ argument.reads, other.read? name = m.memory.read? name) :
    (m.withMemory other).callFunction function argument line =
      ((m.callFunction function argument line).1.withMemory other,
        (m.callFunction function argument line).2) := by
  unfold callFunction
  rw [m.stringArgument_withMemory line function agree]
  split
  · exact m.callInput_withMemory line agree
  · split
    · rfl
    · split <;> rfl

/-- A right side is worked out from the names in it, and leaves the memory alone. -/
theorem evalSource_withMemory {source : Source}
    (agree : ∀ name ∈ source.reads, other.read? name = m.memory.read? name) :
    (m.withMemory other).evalSource source line =
      ((m.evalSource source line).1.withMemory other, (m.evalSource source line).2) := by
  cases source with
  | expr e =>
    have same : e.eval (m.withMemory other).memory line = e.eval m.memory line :=
      Expr.eval_congr agree line
    simp only [evalSource, same]
  | call function argument => exact m.callFunction_withMemory line function agree

theorem callStatement_withMemory (function : Text) {argument : Option Element}
    (agree : ∀ name ∈ argument.toList.flatMap Element.reads,
      other.read? name = m.memory.read? name) :
    (m.withMemory other).callStatement function argument line =
      ((m.callStatement function argument line).1.withMemory other,
        (m.callStatement function argument line).2) := by
  unfold callStatement
  split
  · cases argument with
    | none => rfl
    | some e =>
      have same : e.eval (m.withMemory other).memory line = e.eval m.memory line :=
        Element.eval_congr (fun name member => agree name (by simpa using member)) line
      simp only [same]
      cases e.eval m.memory line <;> rfl
  · rfl

end Calls

/-! ## Statements -/

/-- What executing a node stores, and under which name. -/
def stored? (m : Machine) : Node → Option Cell
  | .step line (.assign target source) _ =>
    (m.evalSource source line).2.toOption.map fun value => { name := target, value }
  | _ => none

/-- On a memory that agrees on the names in it a statement does the same and stores the same. -/
theorem execute_withMemory (m : Machine) {node : Node} {other : Memory}
    (agree : ∀ name ∈ node.reads, other.read? name = m.memory.read? name) :
    (m.withMemory other).execute node =
      ((m.execute node).1.withMemory (other.writes (m.stored? node).toList),
        (m.execute node).2) := by
  cases node with
  | step line action next =>
    cases action with
    | assign target source =>
      simp only [execute, act, stored?, m.evalSource_withMemory line agree]
      rcases m.evalSource source line with ⟨after, fault | value⟩ <;> rfl
    | call function argument =>
      simp only [execute, act, m.callStatement_withMemory line function agree]
      rcases m.callStatement function argument line with ⟨after, fault | _⟩ <;> rfl
    | pass => rfl
  | loop line condition body next =>
    have same : condition.eval (m.withMemory other).memory line =
        condition.eval m.memory line :=
      Expr.eval_congr agree line
    simp only [execute, same]
    cases condition.eval m.memory line with
    | error fault => rfl
    | ok value =>
      cases value with
      | bool truth => cases truth <;> rfl
      | _ => rfl

/-- A statement changes the memory by what it stores. -/
theorem memory_execute (m : Machine) (node : Node) :
    (m.execute node).1.memory = m.memory.writes (m.stored? node).toList := by
  have executed : (m.withMemory m.memory).execute node = _ := m.execute_withMemory fun _ _ => rfl
  rw [withMemory_memory] at executed
  exact congrArg (fun result => result.1.memory) executed

/-- A statement that succeeds stores under its target, if it has one. -/
theorem name_of_stored? {m : Machine} {node : Node} {outcome : Outcome}
    (succeeded : (m.execute node).2 = .ok outcome) :
    (m.stored? node).map (·.name) = node.target? := by
  cases node with
  | step line action next =>
    cases action with
    | assign target source =>
      simp only [execute, act] at succeeded
      simp only [stored?, Node.target?]
      rcases evaluated : m.evalSource source line with ⟨after, fault | value⟩
      · rw [evaluated] at succeeded
        cases succeeded
      · rfl
    | call | pass => rfl
  | loop => rfl

theorem stored?_of_error {m : Machine} {node : Node} {fault : Fault}
    (failed : (m.execute node).2 = .error fault) : m.stored? node = none := by
  cases node with
  | step line action next =>
    cases action with
    | assign target source =>
      simp only [execute, act] at failed
      simp only [stored?]
      rcases evaluated : m.evalSource source line with ⟨after, fault | value⟩
      · rfl
      · rw [evaluated] at failed
        cases failed
    | call | pass => rfl
  | loop => rfl

end Machine

end StepGraph
