import StepGraph.Proofs.Debugger.Breakpoints
import StepGraph.Proofs.Debugger.Restoration
import StepGraph.Proofs.Debugger.Stepping

/-!
# The life of a debugger

A debugger is loaded, then it runs, then it has completed, and it never goes
back.  What a returned call means for this is said once, by `turn_of_perform`;
the rest follows along a history.
-/

namespace StepGraph

/-- How far along its life a debugger is. -/
def DebugState.rank : DebugState → Nat
  | .loaded => 0
  | .running => 1
  | .completed => 2

def Call.Moves : Call → Prop
  | .step | .run _ => True
  | _ => False

/-- The reply tells that execution has just come to its end. -/
def Reply.IsEnd : Reply → Prop
  | .stopped stop => stop.IsEnd
  | _ => False

namespace Debugger

/-! ## What a call does to the state -/

inductive Ending (g : Graph) (d after : Debugger) : Option Stop → Prop
  | going (state : after.state = d.state) : Ending g d after none
  | breakpoint {id : NodeId} {line : Int} (state : after.state = d.state)
      (pending : after.current = some id) (named : g.line id = .ok line) :
      Ending g d after (some (.breakpoint line))
  | halted {id : NodeId} {node : Node} {m : Machine} {error : ExecutionError}
      (state : after.state = .completed) (found : g.node? id = some node)
      (failed : (m.effect node).2 = .error (.error error)) :
      Ending g d after (some (.halted node.line error))

theorem Walk.ending {g : Graph} {log : List NodeId} {d after : Debugger} {stop : Option Stop}
    (walk : Walk d log after stop) (intact : Intact g d) (going : d.state ≠ .completed) :
    Ending g d after stop := by
  induction walk with
  | rest d => exact .going rfl
  | @stop d after id stop pending visited =>
    obtain ⟨node, found, cases⟩ := intact.visit_cases going visited
    generalize d.visitLog id = log at cases
    cases cases with
    | breakpoint => exact .breakpoint rfl pending (Graph.line_of_node? found)
    | halted failed => exact .halted rfl found failed
  | @move d middle after id log stop pending visited walk ih =>
    obtain ⟨node, found, cases⟩ := intact.visit_cases going visited
    generalize d.visitLog id = visitLog at cases
    cases cases with
    | moved graph saved taken middleIntact frame =>
      have same : middle.state = d.state := by rw [frame]
      cases ih middleIntact (same ▸ going) with
      | going state => exact .going (state.trans same)
      | breakpoint state pending named => exact .breakpoint (state.trans same) pending named
      | halted state found failed => exact .halted state found failed

theorem Walk.begins {log : List NodeId} {d after : Debugger} {stop : Option Stop}
    (walk : Walk d log after stop) : d.current ≠ none ∨ after = d ∧ stop = none := by
  cases walk with
  | rest => exact .inr ⟨rfl, rfl⟩
  | stop pending _ => exact .inl (by simp [pending])
  | move pending _ _ => exact .inl (by simp [pending])

/-- What a returned call means for the life of a debugger. -/
inductive Turn (g : Graph) (d after : Debugger) : Reply → Prop
  /-- No step and no run. -/
  | idle {reply : Reply} (noStop : ∀ stop, reply ≠ .stopped stop) (state : after.state = d.state)
      (current : after.current = d.current) : Turn g d after reply
  /-- Execution had completed before. -/
  | nothing (completed : d.state = .completed) (same : after = d) :
      Turn g d after (.stopped .alreadyCompleted)
  /-- Execution waits at a node. -/
  | waits {stop : Stop} {id : NodeId} {line : Int} (going : d.state ≠ .completed)
      (kind : stop = .stepped line ∨ stop = .breakpoint line) (began : d.current ≠ none)
      (state : after.state = .running) (pending : after.current = some id)
      (named : g.line id = .ok line) : Turn g d after (.stopped stop)
  | finished (going : d.state ≠ .completed) (state : after.state = .completed) :
      Turn g d after (.stopped .finished)
  | halted {id : NodeId} {node : Node} {m : Machine} {error : ExecutionError}
      (going : d.state ≠ .completed) (state : after.state = .completed)
      (found : g.node? id = some node) (failed : (m.effect node).2 = .error (.error error)) :
      Turn g d after (.stopped (.halted node.line error))

/-- All that a returned call can mean for the life of a debugger. -/
theorem turn_of_perform {g : Graph} {d after : Debugger} {call : Call} {reply : Reply}
    (intact : Intact g d) (performed : d.perform call = .ok (some (after, reply))) :
    Turn g d after reply := by
  obtain ⟨intactAfter, -⟩ := intact.perform performed
  have cases := perform_cases performed
  generalize d.log call = log at cases
  cases cases with
  | quiet lines frame noStop => exact .idle noStop (by rw [frame]) (by rw [frame])
  | closed closed =>
    rcases rejoin_cases closed with ⟨rfl, -⟩ | ⟨_, _, -, -, rfl⟩
    · exact .idle (by simp) rfl rfl
    · exact .idle (by simp) rfl rfl
  | alreadyOver completed => exact .nothing completed rfl
  | stopped going walk =>
    have began : d.current ≠ none := by
      rcases walk.begins with began | ⟨-, same⟩
      · rwa [start_current] at began
      · cases same
    cases walk.ending intact.start (start_going going) with
    | breakpoint state pending named =>
      exact .waits going (.inr rfl) began (state.trans (start_running going)) pending named
    | halted state found failed => exact .halted going state found failed
  | finished going walk ended => exact .finished going rfl
  | stepped going walk pending found =>
    have began : d.current ≠ none := by
      rcases walk.begins with began | ⟨rfl, -⟩
      · rwa [start_current] at began
      · rw [start_current] at pending
        simp [pending]
    cases walk.ending intact.start (start_going going) with
    | going state =>
      exact .waits going (.inl rfl) began (state.trans (start_running going)) pending
        ((intactAfter.line_eq _).symm.trans found)

/-- Steps and runs are answered by stops, and nothing else is. -/
theorem moves_iff_of_perform {d after : Debugger} {call : Call} {reply : Reply}
    (performed : d.perform call = .ok (some (after, reply))) :
    call.Moves ↔ ∃ stop, reply = .stopped stop := by
  have quiet {reply : Reply} (noStop : ∀ stop, reply ≠ .stopped stop) :
      False ↔ ∃ stop, reply = .stopped stop :=
    ⟨False.elim, fun ⟨stop, stopped⟩ => noStop stop stopped⟩
  have changed {result : Except BreakpointError Debugger}
      (done : d.change result = (after, reply)) : False ↔ ∃ stop, reply = .stopped stop := by
    cases result <;> cases done <;> exact quiet (by simp)
  cases call with
  | step =>
    simp only [perform] at performed
    cases stepped : d.step with
    | error defect => rw [stepped] at performed; cases performed
    | ok result =>
      rw [stepped] at performed
      cases performed
      exact ⟨fun _ => ⟨_, rfl⟩, fun _ => trivial⟩
  | run fuel =>
    simp only [perform] at performed
    cases ran : d.run fuel with
    | error defect => rw [ran] at performed; cases performed
    | ok result =>
      rw [ran] at performed
      cases result with
      | none => cases performed
      | some result =>
        cases performed
        exact ⟨fun _ => ⟨_, rfl⟩, fun _ => trivial⟩
  | setBreakpoint line =>
    simp only [perform, Except.ok.injEq, Option.some.injEq] at performed
    exact changed performed
  | removeBreakpoint line =>
    simp only [perform, Except.ok.injEq, Option.some.injEq] at performed
    exact changed performed
  | close =>
    unfold perform at performed
    cases closed : d.close with
    | error defect => rw [closed] at performed; cases performed
    | ok result =>
      rw [closed] at performed
      cases performed
      exact quiet (by simp)
  | clearBreakpoints | listBreakpoints | whereAmI | showState | valueOf name =>
    cases performed
    exact quiet (by simp)

theorem perform_of_completed {d : Debugger} {call : Call} (completed : d.state = .completed)
    (moves : call.Moves) : d.perform call = .ok (some (d, .stopped .alreadyCompleted)) := by
  cases call with
  | step =>
    rw [perform, step, if_pos completed]
    rfl
  | run fuel =>
    rw [perform, run, if_pos completed]
    rfl
  | _ => cases moves

namespace Turn

variable {g : Graph} {d after : Debugger} {reply : Reply}

theorem rank_le (turn : Turn g d after reply) : d.state.rank ≤ after.state.rank := by
  cases turn with
  | idle noStop state current => exact Nat.le_of_eq (by rw [state])
  | nothing completed same => exact Nat.le_of_eq (by rw [same])
  | waits going kind began state pending named =>
    rw [state]
    cases before : d.state with
    | loaded | running => decide
    | completed => exact absurd before going
  | finished going state | halted going state found failed =>
    rw [state]
    cases d.state <;> decide

theorem loaded_iff (turn : Turn g d after reply) :
    after.state = .loaded ↔ d.state = .loaded ∧ ∀ stop, reply ≠ .stopped stop := by
  cases turn with
  | idle noStop state current => rw [state]; exact ⟨fun loaded => ⟨loaded, noStop⟩, And.left⟩
  | nothing completed same => simp [same, completed]
  | waits going kind began state pending named => simp [state]
  | finished going state | halted going state found failed => simp [state]

theorem state_of_quiet (turn : Turn g d after reply) (noStop : ∀ stop, reply ≠ .stopped stop) :
    after.state = d.state := by
  cases turn with
  | idle _ state _ => exact state
  | _ => exact absurd rfl (noStop _)

theorem where?_of_waits {stop : Stop} {line : Int} (turn : Turn g d after (.stopped stop))
    (intact : Intact g after) (kind : stop = .stepped line ∨ stop = .breakpoint line) :
    after.where? = some line := by
  cases turn with
  | idle noStop state current => exact absurd rfl (noStop _)
  | @waits stop id other going otherKind began state pending named =>
    have same : other = line := by
      rcases kind with rfl | rfl <;> rcases otherKind with same | same <;> cases same <;> rfl
    subst same
    exact where?_of_line (by simp [state]) pending ((intact.line_eq id).trans named)
  | nothing => rcases kind with same | same <;> cases same
  | finished => rcases kind with same | same <;> cases same
  | halted => rcases kind with same | same <;> cases same

/-- The end is reported by the call that completes execution. -/
theorem isEnd_iff (turn : Turn g d after reply) :
    reply.IsEnd ↔ d.state ≠ .completed ∧ after.state = .completed := by
  cases turn with
  | idle noStop state current =>
    rw [state]
    refine ⟨fun isEnd => ?_, fun ⟨going, completed⟩ => absurd completed going⟩
    cases reply with
    | stopped stop => exact absurd rfl (noStop stop)
    | _ => cases isEnd
  | nothing completed same => exact ⟨False.elim, fun ⟨going, _⟩ => going completed⟩
  | waits going kind began state pending named =>
    rw [state]
    rcases kind with rfl | rfl <;> exact ⟨False.elim, fun ⟨_, running⟩ => by cases running⟩
  | finished going state | halted going state found failed =>
    exact ⟨fun _ => ⟨going, state⟩, fun _ => trivial⟩

theorem completed_iff (turn : Turn g d after reply) :
    after.state = .completed ↔ d.state = .completed ∨ reply.IsEnd := by
  rw [turn.isEnd_iff]
  refine ⟨fun completed => ?_, ?_⟩
  · by_cases before : d.state = .completed
    · exact .inl before
    · exact .inr ⟨before, completed⟩
  · rintro (before | ⟨-, completed⟩)
    · have order := turn.rank_le
      rw [before] at order
      cases state : after.state with
      | loaded | running => rw [state] at order; exact absurd order (by decide)
      | completed => rfl
    · exact completed

end Turn

/-! ## The state along a history -/

section

variable {g : Graph} {m : Machine} {loaded d : Debugger} {exchanges : List Exchange}
  (isLoaded : Debugger.load g m = .ok loaded)
include isLoaded

theorem History.turn (history : History loaded exchanges d) {x : Exchange}
    (member : x ∈ exchanges) :
    Turn g x.before x.after x.reply ∧ (x.call.Moves ↔ ∃ stop, x.reply = .stopped stop) := by
  obtain ⟨front, back, rfl⟩ := List.append_of_mem member
  obtain ⟨before, performed⟩ := history.split
  exact ⟨turn_of_perform (before.intact isLoaded) performed, moves_iff_of_perform performed⟩

/-- The first step or run leaves the state in which the program was loaded. -/
theorem History.loaded_iff (history : History loaded exchanges d) :
    d.state = .loaded ↔ ∀ x ∈ exchanges, ¬ x.call.Moves := by
  induction history with
  | nil => simp [(Intact.of_load isLoaded).2.2.1]
  | @snoc exchanges d after call reply history performed ih =>
    have turn := turn_of_perform (history.intact isLoaded) performed
    rw [turn.loaded_iff, ih, ← not_exists, ← moves_iff_of_perform performed]
    simp [or_imp, forall_and]

/-- Execution has completed if a call has reported its end. -/
theorem History.completed_iff (history : History loaded exchanges d) :
    d.state = .completed ↔ ∃ x ∈ exchanges, x.reply.IsEnd := by
  induction history with
  | nil => simp [(Intact.of_load isLoaded).2.2.1]
  | @snoc exchanges d after call reply history performed ih =>
    have turn := turn_of_perform (history.intact isLoaded) performed
    rw [turn.completed_iff, ih]
    simp [or_and_right, exists_or]

/-- As long as execution goes on it waits at a node, unless there is none. -/
theorem History.current_eq_none_iff (history : History loaded exchanges d)
    (going : d.state ≠ .completed) : d.current = none ↔ g.entry = none := by
  induction history with
  | nil => rw [(Intact.of_load isLoaded).2.2.2]
  | @snoc exchanges d after call reply history performed ih =>
    cases turn_of_perform (history.intact isLoaded) performed with
    | idle noStop state current => rw [current, ih (state ▸ going)]
    | nothing completed same => exact absurd (same ▸ completed) going
    | waits before kind began state pending named =>
      rw [pending, ← ih before]
      simp [began]
    | finished before state | halted before state found failed => exact absurd state going

end

theorem History.fits {g : Graph} {loaded d : Debugger} {exchanges : List Exchange}
    (fits : loaded.Fits Element.IsReadable g) (history : History loaded exchanges d) :
    d.Fits Element.IsReadable g := by
  induction history with
  | nil => exact fits
  | snoc history performed ih =>
    obtain ⟨result, returned, kept⟩ := ih.perform covers_readable (fun _ => id) _
    rw [performed] at returned
    exact (kept _ _ (Except.ok.inj returned).symm).1

theorem where?_eq_none_iff {P : Element → Prop} {base : Graph} {d : Debugger}
    (fits : d.Fits P base) : d.where? = none ↔ d.state = .completed ∨ d.current = none := by
  cases pending : d.current with
  | none => cases state : d.state <;> simp [where?, state, pending]
  | some id =>
    obtain ⟨node, found⟩ := fits.graph.exists_node? (fits.current id pending)
    cases state : d.state <;> simp [where?, state, pending, found]

end Debugger

theorem Draft.entry_eq_none_iff {d : Draft} {g : Graph} (built : d.build = .ok g) :
    g.entry = none ↔ d.toList = [] := by
  obtain ⟨nodes, -, rfl, -⟩ := d.build_ok built
  cases d.toList <;> simp

/-- Let calls be made on a debugger in any order.  It stays loaded until the first step or run, its
states come in their order, and it has completed once a call has reported the end.  Exactly the call
that completes execution reports it, no later one does, and from then on steps and runs change
nothing.  A stop at a node names the line at which the debugger then is; it is nowhere exactly
when it has completed or the program is empty.  The line of a failed statement is the line of its
error. -/
theorem debugger_life_cycle {draft : Draft} {g : Graph} (built : draft.build = .ok g)
    (m : Machine) :
    ∃ loaded, Debugger.load g m = .ok loaded ∧
      ∀ {exchanges : List Debugger.Exchange} {d : Debugger},
        Debugger.History loaded exchanges d →
          (d.state = .loaded ↔ ∀ x ∈ exchanges, ¬ x.call.Moves) ∧
          (d.state = .completed ↔ ∃ x ∈ exchanges, x.reply.IsEnd) ∧
          (∀ x ∈ exchanges, x.before.state.rank ≤ x.after.state.rank ∧
            (¬ x.call.Moves → x.after.state = x.before.state) ∧
            (x.reply.IsEnd ↔ x.before.state ≠ .completed ∧ x.after.state = .completed)) ∧
          (∀ {first x later}, exchanges = first ++ x :: later → x.reply.IsEnd →
            ∀ y ∈ later, ¬ y.reply.IsEnd) ∧
          (d.state = .completed → ∀ {call : Call}, call.Moves →
            d.perform call = .ok (some (d, .stopped .alreadyCompleted))) ∧
          (∀ {call after stop line}, d.perform call = .ok (some (after, .stopped stop)) →
            stop = .stepped line ∨ stop = .breakpoint line → after.where? = some line) ∧
          (d.where? = none ↔ d.state = .completed ∨ draft.toList = []) ∧
          ∀ {call after line error},
            d.perform call = .ok (some (after, .stopped (.halted line error))) →
            error.line = line := by
  have graphFits := draft.fits_of_build built
  obtain ⟨loaded, isLoaded, fits⟩ := Debugger.Fits.load graphFits m
  refine ⟨loaded, isLoaded, ?_⟩
  intro exchanges d history
  have intact := history.intact isLoaded
  refine ⟨history.loaded_iff isLoaded, history.completed_iff isLoaded, ?_, ?_, ?_, ?_, ?_, ?_⟩
  · intro x member
    obtain ⟨turn, moves⟩ := history.turn isLoaded member
    refine ⟨turn.rank_le, fun quiet => ?_, turn.isEnd_iff⟩
    exact turn.state_of_quiet fun stop stopped => quiet (moves.mpr ⟨stop, stopped⟩)
  · rintro first x later rfl isEnd y member laterEnd
    obtain ⟨between, rest, rfl⟩ := List.append_of_mem member
    have split : first ++ x :: (between ++ y :: rest) = (first ++ x :: between) ++ y :: rest := by
      simp
    rw [split] at history
    obtain ⟨before, performed⟩ := history.split
    have completed := (before.completed_iff isLoaded).mpr ⟨x, by simp, isEnd⟩
    have turn := Debugger.turn_of_perform (before.intact isLoaded) performed
    exact (turn.isEnd_iff.mp laterEnd).1 completed
  · intro completed call moves
    exact Debugger.perform_of_completed completed moves
  · intro call after stop line performed kind
    exact (Debugger.turn_of_perform intact performed).where?_of_waits
      (intact.perform performed).1 kind
  · rw [Debugger.where?_eq_none_iff (history.fits fits), ← draft.entry_eq_none_iff built]
    by_cases completed : d.state = .completed
    · simp [completed]
    · simp [completed, history.current_eq_none_iff isLoaded completed]
  · intro call after line error performed
    cases Debugger.turn_of_perform intact performed with
    | idle noStop state current => exact absurd rfl (noStop _)
    | waits going kind began state pending named => rcases kind with same | same <;> cases same
    | halted going state found failed => exact line_of_effect (graphFits.composed found) failed

/-- The countdown runs to its end.  After that it cannot be stepped and the debugger is nowhere. -/
theorem countdown_completes_once :
    Draft.countdown.build = .ok .countdown ∧
      ∃ loaded after, Debugger.load .countdown .idle = .ok loaded ∧ loaded.state = .loaded ∧
        loaded.perform (.run 20) = .ok (some (after, .stopped .finished)) ∧
        after.perform .step = .ok (some (after, .stopped .alreadyCompleted)) ∧
        after.where? = none := by
  obtain ⟨loaded, isLoaded, life⟩ := debugger_life_cycle Draft.build_countdown .idle
  have answered : ((Debugger.load .countdown .idle).bind fun d =>
      (d.perform (.run 20)).map (Option.map Prod.snd)) = .ok (some (.stopped .finished)) := by
    rw [Debugger.load, Graph.lines_countdown]
    decide +kernel
  rw [isLoaded] at answered
  obtain ⟨after, performed⟩ := Debugger.exists_of_answer answered
  obtain ⟨loadedState, -⟩ := life .nil
  obtain ⟨-, completed, -, -, repeats, -, nowhere, -⟩ := life (.snoc .nil performed)
  have ended : after.state = .completed :=
    completed.mpr ⟨_, List.mem_cons_self, (trivial : Reply.IsEnd (.stopped .finished))⟩
  exact ⟨Draft.build_countdown, loaded, after, isLoaded, loadedState.mpr (by simp), performed,
    repeats ended trivial, nowhere.mpr (.inl ended)⟩

end StepGraph
