import Mathlib.Data.List.Forall2
import Mathlib.Logic.Function.Iterate
import StepGraph.Proofs.Graph.Relinking

/-!
# The course of a run

A course tells from what is left of a run which statement comes next and what
executing it does.  Its progress after `n` statements is the list of statements
executed, the machine, and what is left or the fault that ended the run.  Two
courses that match statement by statement make the same progress.
-/

namespace StepGraph

/-- From what is left of a run: the statement to execute, with the machine and the rest that its
execution leads to; `none` at the end. -/
structure Course (Event Rest : Type) where
  next : Rest → Option (Event × (Machine → Machine × Except Fault Rest))

/-- How far a run has come.  Its status is what is left of it, or the fault that ended it. -/
@[ext]
structure Progress (Event Rest : Type) where
  executed : List Event
  machine : Machine
  status : Except Fault Rest

namespace Progress

variable {Event Rest : Type}

def start (rest : Rest) (m : Machine) : Progress Event Rest :=
  { executed := [], machine := m, status := .ok rest }

end Progress

namespace Course

variable {Event Rest : Type}

def advance (c : Course Event Rest) (p : Progress Event Rest) : Progress Event Rest :=
  match p.status with
  | .error _ => p
  | .ok rest =>
    match c.next rest with
    | none => p
    | some (event, execute) =>
      { executed := p.executed ++ [event], machine := (execute p.machine).1,
        status := (execute p.machine).2 }

def after (c : Course Event Rest) (n : Nat) (rest : Rest) (m : Machine) : Progress Event Rest :=
  c.advance^[n] (.start rest m)

/-- How a run ends that is given up at this point. -/
def halt (c : Course Event Rest) (p : Progress Event Rest) : Halt :=
  match p.status with
  | .error fault => .failed fault
  | .ok rest => if (c.next rest).isNone then .finished else .outOfFuel

variable {c : Course Event Rest} {p : Progress Event Rest}

theorem advance_of_error {fault : Fault} (failed : p.status = .error fault) :
    c.advance p = p := by
  unfold advance
  rw [failed]

theorem advance_of_end {rest : Rest} (status : p.status = .ok rest) (ended : c.next rest = none) :
    c.advance p = p := by
  unfold advance
  rw [status]
  simp only [ended]

theorem advance_of_next {rest : Rest} {event : Event}
    {execute : Machine → Machine × Except Fault Rest} (status : p.status = .ok rest)
    (next : c.next rest = some (event, execute)) :
    c.advance p =
      { executed := p.executed ++ [event], machine := (execute p.machine).1,
        status := (execute p.machine).2 } := by
  unfold advance
  rw [status]
  simp only [next]

theorem halt_of_error {fault : Fault} (failed : p.status = .error fault) :
    c.halt p = .failed fault := by
  unfold halt
  rw [failed]

theorem halt_of_end {rest : Rest} (status : p.status = .ok rest) (ended : c.next rest = none) :
    c.halt p = .finished := by
  unfold halt
  rw [status]
  simp only [ended, Option.isNone_none, if_true]

theorem advance_of_halt (ended : c.halt p ≠ .outOfFuel) : c.advance p = p := by
  cases status : p.status with
  | error fault => exact advance_of_error status
  | ok rest =>
    cases next : c.next rest with
    | none => exact advance_of_end status next
    | some move =>
      exfalso
      apply ended
      simp [halt, status, next]

theorem after_succ (c : Course Event Rest) (n : Nat) (rest : Rest) (m : Machine) :
    c.after (n + 1) rest m = c.advance (c.after n rest m) :=
  Function.iterate_succ_apply' _ _ _

theorem after_add_of_halt {n : Nat} {rest : Rest} {m : Machine}
    (ended : c.halt (c.after n rest m) ≠ .outOfFuel) (extra : Nat) :
    c.after (n + extra) rest m = c.after n rest m := by
  induction extra with
  | zero => rfl
  | succ extra ih =>
    rw [← Nat.add_assoc, after_succ, ih]
    exact advance_of_halt ended

theorem after_of_le {n later : Nat} {rest : Rest} {m : Machine}
    (ended : c.halt (c.after n rest m) ≠ .outOfFuel) (le : n ≤ later) :
    c.after later rest m = c.after n rest m := by
  obtain ⟨extra, rfl⟩ := Nat.exists_eq_add_of_le le
  exact after_add_of_halt ended extra

/-! ## Courses that match -/

/-- Two runs fail with the same fault, or go on with related rests. -/
inductive Agree {Rest Rest' : Type} (related : Rest → Rest' → Prop) :
    Except Fault Rest → Except Fault Rest' → Prop
  | failed (fault : Fault) : Agree related (.error fault) (.error fault)
  | goesOn {rest : Rest} {rest' : Rest'} (hold : related rest rest') :
      Agree related (.ok rest) (.ok rest')

/-- Related rests end together, or have matching statements next whose executions agree. -/
structure Simulation {Event' Rest' : Type} (c : Course Event Rest) (c' : Course Event' Rest')
    (related : Rest → Rest' → Prop) (same : Event → Event' → Prop) : Prop where
  ends : ∀ {rest rest'}, related rest rest' → c.next rest = none → c'.next rest' = none
  moves : ∀ {rest rest' event execute}, related rest rest' →
    c.next rest = some (event, execute) →
    ∃ event' execute', c'.next rest' = some (event', execute') ∧ same event event' ∧
      ∀ m, (execute m).1 = (execute' m).1 ∧ Agree related (execute m).2 (execute' m).2

namespace Simulation

variable {Event' Rest' : Type} {c' : Course Event' Rest'} {related : Rest → Rest' → Prop}
  {same : Event → Event' → Prop}

/-- The same statements have been executed, on the same machine, and the rests are related. -/
structure InStep (related : Rest → Rest' → Prop) (same : Event → Event' → Prop)
    (p : Progress Event Rest) (q : Progress Event' Rest') : Prop where
  executed : List.Forall₂ same p.executed q.executed
  machine : p.machine = q.machine
  status : Agree related p.status q.status

theorem advance_inStep (sim : Simulation c c' related same) {q : Progress Event' Rest'}
    (inStep : InStep related same p q) : InStep related same (c.advance p) (c'.advance q) := by
  cases pStatus : p.status with
  | error fault =>
    have qStatus : q.status = .error fault := by
      have agree := inStep.status
      rw [pStatus] at agree
      generalize q.status = status at agree
      cases agree
      rfl
    rw [advance_of_error pStatus, advance_of_error qStatus]
    exact inStep
  | ok rest =>
    obtain ⟨rest', qStatus, hold⟩ : ∃ rest', q.status = .ok rest' ∧ related rest rest' := by
      have agree := inStep.status
      rw [pStatus] at agree
      generalize q.status = status at agree
      cases agree with
      | goesOn hold => exact ⟨_, rfl, hold⟩
    cases next : c.next rest with
    | none =>
      rw [advance_of_end pStatus next, advance_of_end qStatus (sim.ends hold next)]
      exact inStep
    | some move =>
      obtain ⟨event, execute⟩ := move
      obtain ⟨event', execute', next', sameEvent, agree⟩ := sim.moves hold next
      rw [advance_of_next pStatus next, advance_of_next qStatus next']
      rw [inStep.machine]
      exact
        { executed := List.rel_append inStep.executed (.cons sameEvent .nil)
          machine := (agree q.machine).1
          status := (agree q.machine).2 }

/-- Two matching courses are in step after every number of statements. -/
theorem after_inStep (sim : Simulation c c' related same) {rest : Rest} {rest' : Rest'}
    (hold : related rest rest') (m : Machine) (n : Nat) :
    InStep related same (c.after n rest m) (c'.after n rest' m) := by
  induction n with
  | zero => exact { executed := .nil, machine := rfl, status := .goesOn hold }
  | succ n ih =>
    rw [after_succ, after_succ]
    exact sim.advance_inStep ih

theorem halt_eq (sim : Simulation c c' related same) {q : Progress Event' Rest'}
    (inStep : InStep related same p q) : c.halt p = c'.halt q := by
  have agree := inStep.status
  unfold halt
  generalize p.status = pStatus at agree
  generalize q.status = qStatus at agree
  cases agree with
  | failed fault => rfl
  | @goesOn rest rest' hold =>
    cases next : c.next rest with
    | none => simp [next, sim.ends hold next]
    | some move =>
      obtain ⟨event', execute', next', -, -⟩ := sim.moves hold next
      simp [next, next']

end Simulation

end Course

namespace Graph

/-- A graph is run by following links. -/
def course (g : Graph) : Course NodeId Link where
  next link := link.map fun id =>
    (id, fun m => ((g.execute id m).1, (g.execute id m).2.map Outcome.next))

theorem run_eq_iterate (g : Graph) (n : Nat) {p : Progress NodeId Link} {link : Link}
    (status : p.status = .ok link) :
    g.run n link p.machine =
      ((g.course.advance^[n] p).machine, g.course.halt (g.course.advance^[n] p)) := by
  induction n generalizing p link with
  | zero =>
    cases link with
    | none => simp [run, Course.halt, status, course]
    | some id => simp [run, Course.halt, status, course]
  | succ n ih =>
    rw [Function.iterate_succ_apply]
    cases link with
    | none =>
      have stays : g.course.advance p = p := Course.advance_of_end status rfl
      rw [stays, ← ih status]
      cases n <;> rfl
    | some id =>
      rw [Course.advance_of_next status rfl]
      cases executed : g.execute id p.machine with
      | mk m result =>
        cases result with
        | ok outcome =>
          rw [run, executed]
          exact ih (p := ⟨p.executed ++ [id], m, .ok outcome.next⟩) rfl
        | error fault =>
          have stays : g.course.advance ⟨p.executed ++ [id], m, .error fault⟩ =
              ⟨p.executed ++ [id], m, .error fault⟩ := Course.advance_of_error rfl
          rw [run, executed]
          simp only [Except.map]
          rw [Function.iterate_fixed stays]
          rfl

/-- A run with fuel for `n` statements ends where the course is after `n` statements. -/
theorem run_eq_after (g : Graph) (n : Nat) (link : Link) (m : Machine) :
    g.run n link m =
      ((g.course.after n link m).machine, g.course.halt (g.course.after n link m)) :=
  g.run_eq_iterate n (p := .start link m) rfl

/-- A run that has come to an end is the same with all larger fuels. -/
theorem run_of_halt {g : Graph} {n later : Nat} {link : Link} {m : Machine} {halt : Halt}
    (halted : g.course.halt (g.course.after n link m) = halt) (ended : halt ≠ .outOfFuel)
    (le : n ≤ later) :
    g.run later link m = ((g.course.after n link m).machine, halt) := by
  rw [g.run_eq_after, Course.after_of_le (by rw [halted]; exact ended) le, halted]

end Graph

end StepGraph
