import StepGraph.Proofs.Build.Nodes
import StepGraph.Proofs.Debugger.Soundness

/-!
# Safety of running and debugging

A workbench is a graph and a machine that are used in every possible way: nodes
are executed directly, runs are started anywhere, and any number of debuggers
work on the same graph, each taking links from nodes and putting them back while
the others do the same.  No such use of a runnable graph ends in a defect.
-/

namespace StepGraph

/-- Debuggers on one graph and one machine, which are the graph and the machine of all of them. -/
structure Workbench where
  graph : Graph
  machine : Machine
  debuggers : List Debugger

/-- What can be done on a workbench.  The machine may be given any memory and input in between, a
run is given fuel, a call goes to one of the debuggers. -/
inductive Operation where
  | supply (machine : Machine)
  | execute (id : NodeId)
  | interpret (link : Link) (fuel : Nat)
  | load
  | call (index : Nat) (call : Call)
  deriving DecidableEq

/-- Nodes are executed, and runs started, at positions of the graph only. -/
def Operation.IsWithin (g : Graph) : Operation → Prop
  | .execute id => g.isValid id = true
  | .interpret link _ => g.InRange link
  | _ => True

def Reply.error? : Reply → Option ExecutionError
  | .stopped (.halted _ error) => some error
  | _ => none

theorem Reply.exists_of_error? {reply : Reply} {error : ExecutionError}
    (reported : reply.error? = some error) : ∃ line, reply = .stopped (.halted line error) := by
  unfold Reply.error? at reported
  split at reported
  · cases reported
    exact ⟨_, rfl⟩
  · cases reported

namespace Workbench

def start (g : Graph) (m : Machine) : Workbench := { graph := g, machine := m, debuggers := [] }

def attach (b : Workbench) (d : Debugger) : Debugger :=
  { d with graph := b.graph, machine := b.machine }

def detach (b : Workbench) (index : Nat) (d : Debugger) : Workbench :=
  { graph := d.graph, machine := d.machine, debuggers := b.debuggers.set index d }

/-- One operation: the workbench after it and the error it reports, `none` when fuel runs out. -/
def perform (b : Workbench) : Operation → Except Defect (Option (Workbench × Option ExecutionError))
  | .supply machine => .ok (some ({ b with machine }, none))
  | .execute id =>
    match b.graph.execute id b.machine with
    | (machine, .ok _) => .ok (some ({ b with machine }, none))
    | (machine, .error (.error error)) => .ok (some ({ b with machine }, some error))
    | (_, .error (.defect defect)) => .error defect
  | .interpret link fuel =>
    match b.graph.run fuel link b.machine with
    | (machine, .finished) => .ok (some ({ b with machine }, none))
    | (machine, .failed (.error error)) => .ok (some ({ b with machine }, some error))
    | (_, .failed (.defect defect)) => .error defect
    | (_, .outOfFuel) => .ok none
  | .load => (Debugger.load b.graph b.machine).map fun d =>
      some ({ b with graph := d.graph, debuggers := b.debuggers ++ [d] }, none)
  | .call index call =>
    match b.debuggers[index]? with
    | none => .ok (some (b, none))
    | some d => ((b.attach d).perform call).map fun result =>
        result.map fun (after, reply) => (b.detach index after, reply.error?)

/-- The graph fits the positions of `base`, and so do the pending nodes and kept links of all
debuggers. -/
structure Fits (base : Graph) (b : Workbench) : Prop where
  graph : Graph.Fits Element.IsReadable base b.graph
  debuggers : ∀ d ∈ b.debuggers,
    base.InRange d.current ∧
      ∀ l, d.saved = some l → d.current ≠ none ∧ base.LinksInRange l

/-- What has come of an operation fits, and the error it reports is not that of an unreadable
literal. -/
def IsSound (base : Graph) : Option (Workbench × Option ExecutionError) → Prop
  | some (after, some e) => after.Fits base ∧ ¬ e.cause.IsUnreadable
  | some (after, none) => after.Fits base
  | none => True

namespace Fits

variable {base : Graph} {b : Workbench}

theorem attach (fits : b.Fits base) {d : Debugger} (member : d ∈ b.debuggers) :
    (b.attach d).Fits Element.IsReadable base where
  graph := fits.graph
  current := (fits.debuggers d member).1
  saved := (fits.debuggers d member).2

theorem detach (fits : b.Fits base) {d : Debugger} (after : d.Fits Element.IsReadable base)
    (index : Nat) : (b.detach index d).Fits base where
  graph := after.graph
  debuggers := by
    intro other member
    rcases List.mem_or_eq_of_mem_set member with old | rfl
    · exact fits.debuggers other old
    · exact ⟨after.current, after.saved⟩

theorem withMachine (fits : b.Fits base) (m : Machine) :
    ({ b with machine := m } : Workbench).Fits base :=
  ⟨fits.graph, fits.debuggers⟩

/-- An operation comes out without a defect, and its outcome is sound. -/
theorem perform (fits : b.Fits base) {op : Operation} (within : op.IsWithin base) :
    ∃ outcome, b.perform op = .ok outcome ∧ IsSound base outcome := by
  cases op with
  | supply machine => exact ⟨_, rfl, fits.withMachine machine⟩
  | execute id =>
    obtain ⟨node, found⟩ := fits.graph.exists_node? within
    simp only [Workbench.perform, Graph.execute_of_node? found]
    cases executed : b.machine.execute node with
    | mk machine result =>
      have ordinary : ∀ fault, result = .error fault → fault.IsOrdinary := fun fault failed =>
        covers_readable.execute (fits.graph.composed found)
          ((congrArg Prod.snd executed).trans failed)
      match result with
      | .ok _ => exact ⟨_, rfl, fits.withMachine machine⟩
      | .error (.error e) => exact ⟨_, rfl, fits.withMachine machine, ordinary _ rfl⟩
      | .error (.defect defect) => exact (ordinary _ rfl).elim
  | interpret link fuel =>
    simp only [Workbench.perform]
    cases ran : b.graph.run fuel link b.machine with
    | mk machine halt =>
      have ordinary : ∀ fault, halt = .failed fault → fault.IsOrdinary := fun fault failed =>
        fits.graph.run covers_readable within ((congrArg Prod.snd ran).trans failed)
      match halt with
      | .finished => exact ⟨_, rfl, fits.withMachine machine⟩
      | .failed (.error e) => exact ⟨_, rfl, fits.withMachine machine, ordinary _ rfl⟩
      | .failed (.defect defect) => exact (ordinary _ rfl).elim
      | .outOfFuel => exact ⟨none, rfl, trivial⟩
  | load =>
    obtain ⟨d, loaded, loadedFits⟩ := Debugger.Fits.load fits.graph b.machine
    simp only [Workbench.perform, loaded, Except.map]
    refine ⟨_, rfl, loadedFits.graph, ?_⟩
    intro other member
    rcases List.mem_append.mp member with old | new
    · exact fits.debuggers other old
    · rw [List.mem_singleton.mp new]
      exact ⟨loadedFits.current, loadedFits.saved⟩
  | call index call =>
    simp only [Workbench.perform]
    cases asked : b.debuggers[index]? with
    | none => exact ⟨_, rfl, fits⟩
    | some d =>
      have attached := fits.attach (List.mem_of_getElem? asked)
      obtain ⟨result, performed, covered⟩ :=
        attached.perform covers_readable (fun _ defect => defect) call
      simp only [performed, Except.map]
      cases result with
      | none => exact ⟨_, rfl, trivial⟩
      | some result =>
        obtain ⟨after, reply⟩ := result
        obtain ⟨afterFits, ordinary⟩ := covered after reply rfl
        have detached := fits.detach afterFits index
        refine ⟨_, rfl, ?_⟩
        cases reported : reply.error? with
        | none =>
          simp only [Option.map_some, reported]
          exact detached
        | some e =>
          obtain ⟨line, halted⟩ := Reply.exists_of_error? reported
          simp only [Option.map_some, reported]
          exact ⟨detached, ordinary _ halted⟩

end Fits

/-- What can become of a workbench by operations within a graph that return. -/
inductive Reachable (g : Graph) (first : Workbench) : Workbench → Prop
  | first : Reachable g first first
  | perform {b after : Workbench} {op : Operation} {error : Option ExecutionError}
      (reached : Reachable g first b) (within : op.IsWithin g)
      (performed : b.perform op = .ok (some (after, error))) : Reachable g first after

theorem Reachable.fits {g : Graph} {first b : Workbench} (reached : Reachable g first b)
    (start : first.Fits g) : b.Fits g := by
  induction reached with
  | first => exact start
  | @perform b after op error _ within performed ih =>
    obtain ⟨outcome, comesOut, sound⟩ := ih.perform within
    rw [performed] at comesOut
    cases comesOut
    cases error with
    | none => exact sound
    | some e => exact sound.1

end Workbench

/-- Runnable graphs, and so all built ones, cannot go wrong by a defect.  After any operations on
the graph, with any memory, any input and any number of debuggers, every further one comes out
without a defect and without the error of an unreadable literal, and the place of every pending
node can be told. -/
theorem runnable_has_no_defects :
    (∀ {draft : Draft} {g : Graph}, draft.build = .ok g → g.IsRunnable) ∧
      ∀ {g : Graph}, g.IsRunnable → ∀ (m : Machine) {b : Workbench},
        Workbench.Reachable g (.start g m) b →
          (∀ {op : Operation}, op.IsWithin g → ∃ outcome, b.perform op = .ok outcome ∧
            ∀ after (e : ExecutionError), outcome = some (after, some e) → ¬ e.cause.IsUnreadable) ∧
          ∀ d ∈ b.debuggers, ∀ id, d.current = some id → ∃ line, b.graph.line id = .ok line := by
  refine ⟨fun built => Draft.isRunnable_of_build built, ?_⟩
  intro g runnable m b reached
  have fits : b.Fits g := by
    apply reached.fits
    refine ⟨runnable.fits, ?_⟩
    intro d member
    cases member
  refine ⟨?_, ?_⟩
  · intro op within
    obtain ⟨outcome, performed, sound⟩ := fits.perform within
    refine ⟨outcome, performed, ?_⟩
    rintro after e rfl
    exact sound.2
  · intro d member id pending
    obtain ⟨node, found⟩ := fits.graph.exists_node? ((fits.debuggers d member).1 id pending)
    exact ⟨node.line, Graph.line_of_node? found⟩

/-- The countdown can be run from the middle in every situation. -/
theorem countdown_has_no_defects :
    Graph.countdown.IsRunnable ∧ (Operation.interpret (some 3) 20).IsWithin .countdown ∧
      ∀ (m : Machine) {b : Workbench}, Workbench.Reachable .countdown (.start .countdown m) b →
        ∃ outcome, b.perform (.interpret (some 3) 20) = .ok outcome ∧
          ∀ after (e : ExecutionError), outcome = some (after, some e) → ¬ e.cause.IsUnreadable := by
  have runnable := runnable_has_no_defects.1 Draft.build_countdown
  have within : (Operation.interpret (some 3) 20).IsWithin .countdown := by
    intro id pending
    cases pending
    decide
  refine ⟨runnable, within, ?_⟩
  intro m b reached
  exact (runnable_has_no_defects.2 runnable m reached).1 within

end StepGraph
