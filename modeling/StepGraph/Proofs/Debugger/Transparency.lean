import StepGraph.Proofs.Build.Nodes
import StepGraph.Proofs.Course
import StepGraph.Proofs.Debugger.Isolation

/-!
# Debugging does not change a program

The debugger and the run of the untouched graph are kept side by side: whatever
calls are made, the nodes executed are the first ones of that run, on the same
machine, and the pending node is the one that comes next in it.
-/

namespace StepGraph

namespace Debugger

/-- The debugger has executed the nodes of `log`.  They are the first nodes of the run of `g`, it is
at the machine of that run, and it waits at the node that comes next; once execution has completed,
the run has finished or failed. -/
structure Tracks (g : Graph) (m : Machine) (log : List NodeId) (d : Debugger) : Prop where
  intact : Intact g d
  executed : (g.course.after log.length g.entry m).executed = log
  machine : (g.course.after log.length g.entry m).machine = d.machine
  going : d.state ≠ .completed →
    (g.course.after log.length g.entry m).status = .ok d.current
  ended : d.state = .completed →
    ((g.course.after log.length g.entry m).status = .ok none ∧ d.current = none) ∨
      ∃ error, (g.course.after log.length g.entry m).status = .error (.error error)

/-- The run of the graph has come to the end that a stop reports. -/
def ReportsEnd (g : Graph) (m : Machine) (log : List NodeId) (stop : Stop) : Prop :=
  (stop = .finished → (g.course.after log.length g.entry m).status = .ok none) ∧
    ∀ line error, stop = .halted line error →
      (g.course.after log.length g.entry m).status = .error (.error error)

namespace Tracks

variable {g : Graph} {m : Machine} {log : List NodeId} {d : Debugger}

theorem of_frame {other : Debugger} (tracks : Tracks g m log d) (graph : other.graph = d.graph)
    (machine : other.machine = d.machine) (current : other.current = d.current)
    (saved : other.saved = d.saved)
    (state : other.state = .completed ↔ d.state = .completed) : Tracks g m log other where
  intact := tracks.intact.of_frame graph current saved state.mp
  executed := tracks.executed
  machine := tracks.machine.trans machine.symm
  going := by
    intro going
    rw [current]
    exact tracks.going (mt state.mpr going)
  ended := by
    intro completed
    rw [current]
    exact tracks.ended (state.mp completed)

theorem after_next {id : NodeId} {node : Node} (tracks : Tracks g m log d)
    (going : d.state ≠ .completed) (pending : d.current = some id)
    (found : g.node? id = some node) :
    g.course.after (log ++ [id]).length g.entry m =
      { executed := log ++ [id], machine := (d.machine.effect node).1,
        status := (d.machine.effect node).2.map node.links.along } := by
  have status := tracks.going going
  rw [pending] at status
  rw [List.length_append, List.length_singleton, Course.after_succ,
    Course.advance_of_next status rfl, tracks.executed, tracks.machine,
    Graph.execute_of_node? found, Machine.execute_eq_effect]
  cases (d.machine.effect node).2 <;> rfl

theorem visit {after : Debugger} {id : NodeId} {stop : Option Stop} (tracks : Tracks g m log d)
    (going : d.state ≠ .completed) (pending : d.current = some id)
    (visited : d.visit id = .ok (after, stop)) :
    Tracks g m (log ++ d.visitLog id) after ∧
      (stop = none → after.state ≠ .completed) ∧
      ∀ reported, stop = some reported → ReportsEnd g m (log ++ d.visitLog id) reported := by
  obtain ⟨node, found, cases⟩ := tracks.intact.visit_cases going visited
  have next := tracks.after_next going pending found
  generalize d.visitLog id = visitLog at cases
  cases cases with
  | breakpoint =>
    rw [List.append_nil]
    refine ⟨tracks.of_frame rfl rfl rfl rfl Iff.rfl, fun none => (by cases none), ?_⟩
    intro reported same
    cases same
    exact ⟨fun finished => (by cases finished), fun _ _ halted => by cases halted⟩
  | @halted error failed =>
    have status : (g.course.after (log ++ [id]).length g.entry m).status =
        .error (.error error) := by
      rw [next, failed]
      rfl
    refine ⟨?_, fun none => (by cases none), ?_⟩
    · exact
        { intact := .whole rfl rfl
          executed := by rw [next]
          machine := by rw [next]
          going := fun going => absurd rfl going
          ended := fun _ => .inr ⟨error, status⟩ }
    · intro reported same
      cases same
      refine ⟨fun finished => (by cases finished), ?_⟩
      intro line other halted
      cases halted
      exact status
  | @moved branch _ graph saved taken intact frame =>
    have status : (g.course.after (log ++ [id]).length g.entry m).status =
        .ok (node.links.along branch) := by
      rw [next, taken]
      rfl
    have state : after.state = d.state := by rw [frame]
    refine ⟨?_, fun _ => (by rw [state]; exact going), fun _ none => by cases none⟩
    exact
      { intact
        executed := by rw [next]
        machine := by rw [next, frame]
        going := fun _ => by rw [status, frame]
        ended := fun completed => absurd (state.symm.trans completed) going }

end Tracks

theorem Walk.tracks {g : Graph} {m : Machine} {log walked : List NodeId} {d after : Debugger}
    {stop : Option Stop} (walk : Walk d walked after stop) (tracks : Tracks g m log d)
    (going : d.state ≠ .completed) :
    Tracks g m (log ++ walked) after ∧
      (stop = none → after.state ≠ .completed) ∧
      ∀ reported, stop = some reported → ReportsEnd g m (log ++ walked) reported := by
  induction walk generalizing log with
  | rest d =>
    rw [List.append_nil]
    exact ⟨tracks, fun _ => going, fun _ none => by cases none⟩
  | stop pending visited => exact tracks.visit going pending visited
  | move pending visited walk ih =>
    obtain ⟨moved, stillGoing, -⟩ := tracks.visit going pending visited
    rw [← List.append_assoc]
    exact ih moved (stillGoing rfl)

namespace Tracks

variable {g : Graph} {m : Machine} {log : List NodeId} {d : Debugger}

theorem start (tracks : Tracks g m log d) : Tracks g m log d.start := by
  apply tracks.of_frame d.start_graph d.start_machine d.start_current d.start_saved
  unfold Debugger.start
  split
  · rename_i loaded
    simp [loaded]
  · exact Iff.rfl

theorem complete (tracks : Tracks g m log d) (going : d.state ≠ .completed)
    (ended : d.current = none) :
    Tracks g m log d.complete ∧ ReportsEnd g m log .finished := by
  have status := tracks.going going
  rw [ended] at status
  refine ⟨?_, fun _ => status, fun _ _ halted => by cases halted⟩
  have whole : d.graph = g ∧ d.saved = none := by
    cases tracks.intact with
    | whole graph saved => exact ⟨graph, saved⟩
    | severed pending => rw [ended] at pending; cases pending
  exact
    { intact := .whole whole.1 whole.2
      executed := tracks.executed
      machine := tracks.machine
      going := fun going => absurd rfl going
      ended := fun _ => .inl ⟨status, ended⟩ }

/-- A call keeps the debugger at the run, and reports the end of the run when there is one. -/
theorem perform {after : Debugger} {call : Call} {reply : Reply} (tracks : Tracks g m log d)
    (performed : d.perform call = .ok (some (after, reply))) :
    Tracks g m (log ++ d.log call) after ∧
      ∀ stop, reply = .stopped stop → ReportsEnd g m (log ++ d.log call) stop := by
  have cases := perform_cases performed
  generalize d.log call = callLog at cases
  cases cases with
  | quiet lines frame noStop =>
    rw [List.append_nil, frame]
    exact ⟨tracks.of_frame rfl rfl rfl rfl Iff.rfl,
      fun stop stopped => absurd stopped (noStop stop)⟩
  | closed closed =>
    rw [close, tracks.intact.rejoin] at closed
    cases closed
    rw [List.append_nil]
    refine ⟨?_, fun _ stopped => by cases stopped⟩
    exact
      { intact := .whole rfl rfl
        executed := tracks.executed
        machine := tracks.machine
        going := tracks.going
        ended := tracks.ended }
  | alreadyOver completed =>
    rw [List.append_nil]
    refine ⟨tracks, ?_⟩
    intro stop same
    cases same
    exact ⟨fun finished => (by cases finished), fun _ _ halted => by cases halted⟩
  | stopped going walk =>
    obtain ⟨tracksAfter, -, reports⟩ := walk.tracks tracks.start (start_going going)
    refine ⟨tracksAfter, ?_⟩
    intro stop same
    cases same
    exact reports _ rfl
  | finished going walk ended =>
    obtain ⟨tracksAfter, stillGoing, -⟩ := walk.tracks tracks.start (start_going going)
    obtain ⟨completed, reports⟩ := tracksAfter.complete (stillGoing rfl) ended
    refine ⟨completed, ?_⟩
    intro stop same
    cases same
    exact reports
  | stepped going walk pending found =>
    obtain ⟨tracksAfter, -, -⟩ := walk.tracks tracks.start (start_going going)
    refine ⟨tracksAfter, ?_⟩
    intro stop same
    cases same
    exact ⟨fun finished => (by cases finished), fun _ _ halted => by cases halted⟩

theorem of_load (loaded : Debugger.load g m = .ok d) : Tracks g m [] d := by
  obtain ⟨intact, machine, state, current⟩ := Intact.of_load loaded
  exact
    { intact
      executed := rfl
      machine := machine.symm
      going := fun _ => by rw [current]; rfl
      ended := fun completed => by rw [state] at completed; cases completed }

end Tracks

/-- Calls that return, one after the other, with the nodes that they execute in total. -/
inductive Calls (loaded : Debugger) : List NodeId → Debugger → Prop
  | nil : Calls loaded [] loaded
  | snoc {log : List NodeId} {d after : Debugger} {call : Call} {reply : Reply}
      (calls : Calls loaded log d) (performed : d.perform call = .ok (some (after, reply))) :
      Calls loaded (log ++ d.log call) after

theorem Calls.tracks {g : Graph} {m : Machine} {loaded d : Debugger} {log : List NodeId}
    (calls : Calls loaded log d) (start : Tracks g m [] loaded) : Tracks g m log d := by
  induction calls with
  | nil => exact start
  | snoc _ performed ih => exact (ih.perform performed).1

end Debugger

theorem Debugger.exists_of_answer {result : Except Defect (Option (Debugger × Reply))}
    {reply : Reply} (answered : result.map (Option.map Prod.snd) = .ok (some reply)) :
    ∃ after, result = .ok (some (after, reply)) := by
  rcases result with _ | _ | ⟨after, same⟩
  · cases answered
  · cases answered
  · cases answered
    exact ⟨after, rfl⟩

/-- Debugging does not change what a program does.  Whatever calls are made on a debugger, the nodes
they execute are the first ones of the run of the untouched graph, the debugger has the machine of
that run at this point, and unless the last of these nodes failed it waits at the node that comes
next in it.  When it reports the end of the program or an error, this is how the run ends. -/
theorem debugging_follows_run {draft : Draft} {g : Graph} (built : draft.build = .ok g)
    (m : Machine) :
    ∃ loaded, Debugger.load g m = .ok loaded ∧
      ∀ {log : List NodeId} {d : Debugger}, Debugger.Calls loaded log d →
        ((g.course.after log.length g.entry m).executed = log ∧
          (g.course.after log.length g.entry m).machine = d.machine ∧
          (g.run log.length g.entry m).1 = d.machine ∧
          ∀ link, (g.course.after log.length g.entry m).status = .ok link → d.current = link) ∧
        ∀ {call : Call} {after : Debugger} {stop : Stop},
          d.perform call = .ok (some (after, .stopped stop)) →
          ∀ fuel, (log ++ d.log call).length ≤ fuel →
            (stop = .finished → g.run fuel g.entry m = (after.machine, .finished)) ∧
            ∀ line error, stop = .halted line error →
              g.run fuel g.entry m = (after.machine, .failed (.error error)) := by
  obtain ⟨loaded, isLoaded, -⟩ := Debugger.Fits.load (draft.fits_of_build built) m
  refine ⟨loaded, isLoaded, ?_⟩
  intro log d calls
  have tracks := calls.tracks (.of_load isLoaded)
  refine ⟨⟨tracks.executed, tracks.machine, ?_, ?_⟩, ?_⟩
  · rw [g.run_eq_after]
    exact tracks.machine
  · intro link status
    by_cases completed : d.state = .completed
    · rcases tracks.ended completed with ⟨finished, noNode⟩ | ⟨error, failed⟩
      · rw [finished] at status
        cases status
        exact noNode
      · rw [failed] at status
        cases status
    · rw [tracks.going completed] at status
      cases status
      rfl
  · intro call after stop performed fuel enough
    obtain ⟨tracksAfter, reports⟩ := tracks.perform performed
    obtain ⟨finishes, halts⟩ := reports stop rfl
    rw [← tracksAfter.machine]
    refine ⟨?_, ?_⟩
    · intro finished
      exact Graph.run_of_halt (Course.halt_of_end (finishes finished) rfl) (by simp) enough
    · intro line error halted
      exact Graph.run_of_halt (Course.halt_of_error (halts line error halted)) (by simp) enough

/-- However the countdown is debugged, it has printed zero when it is finished. -/
theorem debugged_countdown_prints_zero :
    Draft.countdown.build = .ok .countdown ∧
      ∃ loaded, Debugger.load .countdown .idle = .ok loaded ∧
        (∃ after, loaded.perform (.run 20) = .ok (some (after, .stopped .finished))) ∧
        ∀ {log d call after}, Debugger.Calls loaded log d →
          d.perform call = .ok (some (after, .stopped .finished)) →
          after.machine.output = (utf8 "0\n").toArray := by
  refine ⟨Draft.build_countdown, ?_⟩
  obtain ⟨loaded, isLoaded, follows⟩ := debugging_follows_run Draft.build_countdown .idle
  refine ⟨loaded, isLoaded, ?_, ?_⟩
  · have answered : ((Debugger.load .countdown .idle).bind fun d =>
        (d.perform (.run 20)).map (Option.map Prod.snd)) = .ok (some (.stopped .finished)) := by
      rw [Debugger.load, Graph.lines_countdown]
      decide +kernel
    rw [isLoaded] at answered
    exact Debugger.exists_of_answer answered
  · intro log d call after calls performed
    have ends := ((follows calls).2 performed _ (Nat.le_max_left _ 20)).1 rfl
    have halts : Graph.countdown.course.halt
        (Graph.countdown.course.after 20 Graph.countdown.entry .idle) = .finished := by
      decide +kernel
    rw [Graph.run_of_halt halts (by decide) (Nat.le_max_right _ 20)] at ends
    rw [← (Prod.mk.inj ends).1]
    decide +kernel

end StepGraph
