import StepGraph.Debugger
import StepGraph.Proofs.Machine.Interaction

/-!
# Calls on another channel

What a step or a run of the debugger does depends on the channel of its machine
by the answers only.  The events of a call that returns are therefore enough to
know the same call from the same debugger on any other channel on which they take
place: it returns as well, with the same stop, and with a debugger that differs
in nothing but the channel.
-/

namespace StepGraph

namespace Debugger

def channel (d : Debugger) : Channel := d.machine.channel

/-! ## What leaves the machine alone -/

def mapMachine (f : Machine → Machine) (d : Debugger) : Debugger :=
  { d with machine := f d.machine }

section

variable (d : Debugger) (f : Machine → Machine)

theorem isolate_mapMachine : (d.mapMachine f).isolate = d.isolate.map (mapMachine f) := by
  simp only [isolate, mapMachine]
  split
  · cases d.graph.sever _ <;> rfl
  · rfl

theorem load_mapMachine (graph : Graph) (m : Machine) :
    load graph (f m) = (load graph m).map (mapMachine f) := by
  unfold load
  cases graph.lines with
  | error defect => rfl
  | ok lines =>
    exact isolate_mapMachine
      { graph, machine := m, state := .loaded, lines, breakpoints := [], reported := false,
        current := graph.entry, saved := none } f

theorem rejoin_mapMachine : (d.mapMachine f).rejoin = d.rejoin.map (mapMachine f) := by
  simp only [rejoin, mapMachine]
  split
  · rfl
  · rfl
  · cases d.graph.restore _ _ <;> rfl

theorem moveOn_mapMachine (id : NodeId) (branch : Branch) :
    (d.mapMachine f).moveOn id branch = (d.moveOn id branch).map (mapMachine f) := by
  simp only [moveOn, rejoin_mapMachine]
  cases d.rejoin with
  | error defect => rfl
  | ok joined =>
    simp only [Except.map]
    cases follows : joined.graph.follow id branch with
    | error defect => simp only [mapMachine, follows]
    | ok next =>
      simp only [mapMachine, follows]
      exact isolate_mapMachine { joined with current := next } f

theorem start_mapMachine : (d.mapMachine f).start = d.start.mapMachine f := by
  by_cases loaded : d.state = .loaded
  · have loadedThere : (d.mapMachine f).state = .loaded := loaded
    rw [start, if_pos loadedThere, start, if_pos loaded]
    rfl
  · have loadedThere : (d.mapMachine f).state ≠ .loaded := loaded
    rw [start, if_neg loadedThere, start, if_neg loaded]

theorem setBreakpoint_mapMachine (line : Int) :
    (d.mapMachine f).setBreakpoint line = (d.setBreakpoint line).map (mapMachine f) := by
  by_cases known : line ∈ d.lines
  · by_cases set : line ∈ d.breakpoints
    · simp [setBreakpoint, mapMachine, known, set, Except.map]
    · simp [setBreakpoint, mapMachine, known, set, Except.map]
  · simp [setBreakpoint, mapMachine, known, Except.map]

theorem removeBreakpoint_mapMachine (line : Int) :
    (d.mapMachine f).removeBreakpoint line = (d.removeBreakpoint line).map (mapMachine f) := by
  by_cases set : line ∈ d.breakpoints
  · simp [removeBreakpoint, mapMachine, set, Except.map]
  · simp [removeBreakpoint, mapMachine, set, Except.map]

end

/-! ## Other channels -/

def on (d : Debugger) (c : Channel) : Debugger := { d with machine := d.machine.on c }

@[simp] theorem on_channel (d : Debugger) : d.on d.channel = d := rfl

theorem rejoin_on (d : Debugger) (c : Channel) :
    (d.on c).rejoin = d.rejoin.map fun after => after.on c :=
  d.rejoin_mapMachine fun m => m.on c

theorem moveOn_on (d : Debugger) (id : NodeId) (branch : Branch) (c : Channel) :
    (d.on c).moveOn id branch = (d.moveOn id branch).map fun after => after.on c :=
  d.moveOn_mapMachine (fun m => m.on c) id branch

theorem start_on (d : Debugger) (c : Channel) : (d.on c).start = d.start.on c :=
  d.start_mapMachine fun m => m.on c

@[simp] theorem start_channel (d : Debugger) : d.start.channel = d.channel := by
  have same := d.start_on d.channel
  rw [on_channel] at same
  rw [same]
  rfl

/-- A debugger that comes out the same when it is put on a channel is on that channel. -/
theorem channel_of_map {result : Except Defect Debugger} {after : Debugger} {c : Channel}
    (same : result = result.map fun d => d.on c) (returned : result = .ok after) :
    after.channel = c := by
  rw [returned] at same
  injection same with same
  rw [same]
  rfl

theorem channel_of_rejoin {d after : Debugger} (rejoined : d.rejoin = .ok after) :
    after.channel = d.channel :=
  channel_of_map (d.rejoin_on d.channel) rejoined

theorem channel_of_moveOn {d after : Debugger} {id : NodeId} {branch : Branch}
    (moved : d.moveOn id branch = .ok after) : after.channel = d.channel :=
  channel_of_map (d.moveOn_on id branch d.channel) moved

/-! ## The ways of a visit -/

section

variable {d : Debugger} {id : NodeId} {line : Int} {m : Machine}

/-- A breakpoint stops before a node unless it has been reported. -/
theorem visit_of_stop (found : d.graph.line id = .ok line)
    (stops : (decide (line ∈ d.breakpoints) && !d.reported) = true) :
    d.visit id = .ok ({ d with reported := true }, some (.breakpoint line)) := by
  rw [visit, found]
  exact if_pos stops

theorem visit_of_defect {defect : Defect} (found : d.graph.line id = .ok line)
    (passes : (decide (line ∈ d.breakpoints) && !d.reported) = false)
    (executed : d.graph.execute id d.machine = (m, .error (.defect defect))) :
    d.visit id = .error defect := by
  simp only [visit, found, passes, executed, Bool.false_eq_true, if_false]

theorem visit_of_error {error : ExecutionError} (found : d.graph.line id = .ok line)
    (passes : (decide (line ∈ d.breakpoints) && !d.reported) = false)
    (executed : d.graph.execute id d.machine = (m, .error (.error error))) :
    d.visit id = ({ d with machine := m, reported := false } : Debugger).rejoin.map
      fun joined => (joined.complete, some (.halted line error)) := by
  simp only [visit, found, passes, executed, Bool.false_eq_true, if_false]
  cases ({ d with machine := m, reported := false } : Debugger).rejoin <;> rfl

theorem visit_of_outcome {outcome : Outcome} (found : d.graph.line id = .ok line)
    (passes : (decide (line ∈ d.breakpoints) && !d.reported) = false)
    (executed : d.graph.execute id d.machine = (m, .ok outcome)) :
    d.visit id =
      (({ d with machine := m, reported := false } : Debugger).moveOn id outcome.branch).map
        fun moved => (moved, none) := by
  simp only [visit, found, passes, executed, Bool.false_eq_true, if_false]
  cases ({ d with machine := m, reported := false } : Debugger).moveOn id outcome.branch <;> rfl

end

/-! ## The events of a call -/

/-- A call that leads from one debugger to another has events such that, on every channel on which
they take place, it leads from the one to the other as well. -/
def Replays (d after : Debugger) (call : Debugger → Debugger → Prop) : Prop :=
  ∃ events, Plays d.channel events after.channel ∧
    ∀ c c', Plays c events c' → call (d.on c) (after.on c')

namespace Replays

variable {d middle after : Debugger} {call first second : Debugger → Debugger → Prop}

theorem quiet (channel : after.channel = d.channel) (same : ∀ c, call (d.on c) (after.on c)) :
    d.Replays after call := by
  refine ⟨[], ?_, ?_⟩
  · rw [channel]
    exact .done
  · intro c c' plays
    cases plays
    exact same c

/-- What is done before and after a call leaves the channel alone. -/
theorem around {started : Debugger} (replays : started.Replays middle first)
    (before : started.channel = d.channel) (behind : after.channel = middle.channel)
    (same : ∀ c c', first (started.on c) (middle.on c') → call (d.on c) (after.on c')) :
    d.Replays after call := by
  obtain ⟨events, here, there⟩ := replays
  rw [before, ← behind] at here
  exact ⟨events, here, fun c c' plays => same c c' (there c c' plays)⟩

theorem trans (one : d.Replays middle first) (two : middle.Replays after second)
    (both : ∀ c c' c'', first (d.on c) (middle.on c') → second (middle.on c') (after.on c'') →
      call (d.on c) (after.on c'')) : d.Replays after call := by
  obtain ⟨events, here, there⟩ := one
  obtain ⟨more, hereMore, thereMore⟩ := two
  refine ⟨events ++ more, here.append hereMore, ?_⟩
  intro c c' plays
  obtain ⟨reached, before, last⟩ := plays.split
  exact both c reached c' (there c reached before) (thereMore reached c' last)

end Replays

theorem ok_of_map_ok {α β : Type} {result : Except Defect α} {f : α → β} {b : β}
    (mapped : result.map f = .ok b) : ∃ a, result = .ok a ∧ f a = b := by
  cases result with
  | error defect => cases mapped
  | ok a =>
    cases mapped
    exact ⟨a, rfl, rfl⟩

variable {d after : Debugger} {id : NodeId}

/-- A visit that returns does so on every channel with the same events. -/
theorem visit_replays {stop : Option Stop} (visited : d.visit id = .ok (after, stop)) :
    d.Replays after fun e f => e.visit id = .ok (f, stop) := by
  cases found : d.graph.line id with
  | error defect =>
    rw [visit, found] at visited
    cases visited
  | ok line =>
    have foundOn (c : Channel) : (d.on c).graph.line id = .ok line := found
    cases stops : decide (line ∈ d.breakpoints) && !d.reported with
    | true =>
      rw [visit_of_stop found stops] at visited
      cases visited
      exact .quiet rfl fun c => visit_of_stop (foundOn c) stops
    | false =>
      obtain ⟨events, here, there⟩ := d.graph.execute_plays id d.machine
      refine ⟨events, ?_⟩
      rcases executed : d.graph.execute id d.machine with ⟨m, fault | outcome⟩
      · rw [executed] at here there
        cases fault with
        | defect defect =>
          rw [visit_of_defect found stops executed] at visited
          cases visited
        | error error =>
          rw [visit_of_error found stops executed] at visited
          obtain ⟨joined, rejoined, same⟩ := ok_of_map_ok visited
          cases same
          constructor
          · have channel := channel_of_rejoin rejoined
            exact channel ▸ here
          · intro c c' plays
            have rejoinedOn := rejoin_on { d with machine := m, reported := false } c'
            rw [rejoined] at rejoinedOn
            refine (visit_of_error (foundOn c) stops (there c c' plays)).trans ?_
            exact congrArg _ rejoinedOn
      · rw [executed] at here there
        rw [visit_of_outcome found stops executed] at visited
        obtain ⟨moved, moves, same⟩ := ok_of_map_ok visited
        cases same
        constructor
        · have channel := channel_of_moveOn moves
          exact channel ▸ here
        · intro c c' plays
          have movesOn := moveOn_on { d with machine := m, reported := false } id outcome.branch c'
          rw [moves] at movesOn
          refine (visit_of_outcome (foundOn c) stops (there c c' plays)).trans ?_
          exact congrArg _ movesOn

theorem advance_replays {fuel : Nat} {stop : Stop}
    (advanced : d.advance fuel = .ok (some (after, stop))) :
    d.Replays after fun e f => e.advance fuel = .ok (some (f, stop)) := by
  induction fuel generalizing d with
  | zero => cases advanced
  | succ fuel ih =>
    cases pending : d.current with
    | none =>
      simp only [advance, pending] at advanced
      cases advanced
      refine .quiet rfl fun c => ?_
      have pendingOn : (d.on c).current = none := pending
      simp only [advance, pendingOn]
      rfl
    | some id =>
      have pendingOn (c : Channel) : (d.on c).current = some id := pending
      simp only [advance, pending] at advanced
      cases visited : d.visit id with
      | error defect =>
        rw [visited] at advanced
        cases advanced
      | ok result =>
        obtain ⟨middle, stopped⟩ := result
        simp only [visited] at advanced
        have replays := visit_replays visited
        cases stopped with
        | some stopped =>
          cases advanced
          refine replays.around rfl rfl fun c c' visited => ?_
          simp only [advance, pendingOn, visited]
        | none =>
          refine replays.trans (ih advanced) fun c c' c'' visited advanced => ?_
          simp only [advance, pendingOn, visited]
          exact advanced

/-- A run that returns does so on every channel with the same events. -/
theorem run_replays {fuel : Nat} {stop : Stop} (ran : d.run fuel = .ok (some (after, stop))) :
    d.Replays after fun e f => e.run fuel = .ok (some (f, stop)) := by
  by_cases completed : d.state = .completed
  · rw [run, if_pos completed] at ran
    cases ran
    exact .quiet rfl fun c => if_pos completed
  · rw [run, if_neg completed] at ran
    refine (advance_replays ran).around d.start_channel rfl fun c c' ran => ?_
    refine (if_neg completed).trans ?_
    rw [start_on]
    exact ran

theorem step_replays {stop : Stop} (stepped : d.step = .ok (after, stop)) :
    d.Replays after fun e f => e.step = .ok (f, stop) := by
  by_cases completed : d.state = .completed
  · rw [step, if_pos completed] at stepped
    cases stepped
    exact .quiet rfl fun c => if_pos completed
  · rw [step, if_neg completed] at stepped
    have stepOn (c : Channel) : (d.on c).step = _ := if_neg completed
    simp only [start_on] at stepOn
    cases pending : d.start.current with
    | none =>
      simp only [pending] at stepped
      cases stepped
      refine .quiet d.start_channel fun c => ?_
      have pendingOn : (d.start.on c).current = none := pending
      simp only [stepOn, pendingOn]
      rfl
    | some id =>
      have pendingOn (c : Channel) : (d.start.on c).current = some id := pending
      simp only [pending] at stepped
      cases visited : d.start.visit id with
      | error defect =>
        rw [visited] at stepped
        cases stepped
      | ok result =>
        obtain ⟨middle, stopped⟩ := result
        simp only [visited] at stepped
        have replays := visit_replays visited
        cases stopped with
        | some stopped =>
          cases stepped
          refine replays.around d.start_channel rfl fun c c' visited => ?_
          simp only [stepOn, pendingOn, visited]
        | none =>
          cases follows : middle.current with
          | none =>
            simp only [follows] at stepped
            cases stepped
            refine replays.around d.start_channel rfl fun c c' visited => ?_
            have followsOn : (middle.on c').current = none := follows
            simp only [stepOn, pendingOn, visited, followsOn]
            rfl
          | some next =>
            simp only [follows] at stepped
            obtain ⟨line, found, same⟩ := ok_of_map_ok stepped
            cases same
            refine replays.around d.start_channel rfl fun c c' visited => ?_
            have followsOn : (after.on c').current = some next := follows
            have foundOn : (after.on c').graph.line next = .ok line := found
            simp only [stepOn, pendingOn, visited, followsOn, foundOn]
            rfl

end Debugger

end StepGraph
