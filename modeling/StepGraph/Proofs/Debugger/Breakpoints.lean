import StepGraph.Proofs.Debugger.Transparency

/-!
# Breakpoints stop once for each visit

A debugger remembers by one latch that it has reported the breakpoint of its
pending node.  The latch belongs to one visit of that node: it is set by a stop
and cleared when the node is executed, whatever is done to the breakpoints in
between.  So no node is executed past a breakpoint that was not reported for
this visit, and no visit is reported twice.
-/

namespace StepGraph

namespace Debugger

/-! ## Histories -/

/-- A call that has returned, with the debugger before it and after it. -/
structure Exchange where
  before : Debugger
  call : Call
  reply : Reply
  after : Debugger

def Exchange.executed (x : Exchange) : List NodeId := x.before.log x.call

/-- Calls that return, one after the other. -/
inductive History (loaded : Debugger) : List Exchange → Debugger → Prop
  | nil : History loaded [] loaded
  | snoc {exchanges : List Exchange} {d after : Debugger} {call : Call} {reply : Reply}
      (history : History loaded exchanges d)
      (performed : d.perform call = .ok (some (after, reply))) :
      History loaded (exchanges ++ [{ before := d, call, reply, after }]) after

def executedBy (exchanges : List Exchange) : List NodeId := exchanges.flatMap Exchange.executed

/-- A breakpoint stop has named the line while the debugger was waiting at the node, and nothing has
been executed since. -/
def Announced (exchanges : List Exchange) (id : NodeId) (line : Int) : Prop :=
  ∃ first stop between, exchanges = first ++ stop :: between ∧
    stop.reply = .stopped (.breakpoint line) ∧ stop.after.current = some id ∧
    ∀ x ∈ between, x.executed = []

theorem Announced.snoc {exchanges : List Exchange} {id : NodeId} {line : Int} {x : Exchange}
    (announced : Announced exchanges id line) (idle : x.executed = []) :
    Announced (exchanges ++ [x]) id line := by
  obtain ⟨first, stop, between, rfl, reply, there, nothing⟩ := announced
  refine ⟨first, stop, between ++ [x], by simp, reply, there, ?_⟩
  intro other member
  rcases List.mem_append.mp member with old | new
  · exact nothing other old
  · rw [List.mem_singleton.mp new]
    exact idle

theorem History.calls {loaded d : Debugger} {exchanges : List Exchange}
    (history : History loaded exchanges d) : Calls loaded (executedBy exchanges) d := by
  induction history with
  | nil => exact .nil
  | snoc history performed ih =>
    unfold executedBy at ih ⊢
    rw [List.flatMap_append, List.flatMap_singleton]
    exact .snoc ih performed

theorem snoc_eq_split {α : Type} {xs front back : List α} {x y : α}
    (same : xs ++ [y] = front ++ x :: back) :
    (back = [] ∧ front = xs ∧ x = y) ∨ ∃ rest, back = rest ++ [y] ∧ xs = front ++ x :: rest := by
  rcases List.eq_nil_or_concat back with rfl | ⟨rest, last, rfl⟩
  · obtain ⟨rfl, ends⟩ := List.append_inj' same rfl
    cases ends
    exact .inl ⟨rfl, rfl, rfl⟩
  · have shorter : xs ++ [y] = (front ++ x :: rest) ++ [last] := by simpa using same
    obtain ⟨rfl, ends⟩ := List.append_inj' shorter rfl
    cases ends
    exact .inr ⟨rest, List.concat_eq_append, rfl⟩

/-- Every call of a history was made on what the calls before it had left. -/
theorem History.split {loaded d : Debugger} {front back : List Exchange} {x : Exchange}
    (history : History loaded (front ++ x :: back) d) :
    History loaded front x.before ∧ x.before.perform x.call = .ok (some (x.after, x.reply)) := by
  generalize whole : front ++ x :: back = exchanges at history
  induction history generalizing back with
  | nil => simp at whole
  | snoc history performed ih =>
    rcases snoc_eq_split whole.symm with ⟨-, rfl, rfl⟩ | ⟨rest, -, shorter⟩
    · exact ⟨history, performed⟩
    · exact ih shorter.symm

/-! ## The latch -/

@[simp] theorem start_reported (d : Debugger) : d.start.reported = d.reported := by
  unfold start; split <;> rfl

@[simp] theorem start_breakpoints (d : Debugger) : d.start.breakpoints = d.breakpoints := by
  unfold start; split <;> rfl

/-- The debugger waits at a node whose breakpoint it has reported. -/
structure Latched (id : NodeId) (d : Debugger) : Prop where
  reported : d.reported = true
  pending : d.current = some id
  going : d.state ≠ .completed

theorem Latched.start {id : NodeId} {d : Debugger} (latched : Latched id d) :
    Latched id d.start where
  reported := d.start_reported.trans latched.reported
  pending := d.start_current.trans latched.pending
  going := start_going latched.going

theorem visitLog_of_reported {d : Debugger} (reported : d.reported = true) (id : NodeId) :
    d.visitLog id = [id] := by
  unfold visitLog stopsBefore
  split <;> simp [reported]

namespace Latched

variable {id : NodeId} {d : Debugger}

theorem log_step (latched : Latched id d) : d.log .step = [id] := by
  unfold log
  rw [if_neg latched.going]
  simp only [latched.start.pending, visitLog_of_reported latched.start.reported]

theorem log_run (latched : Latched id d) (fuel : Nat) :
    ∃ later, d.log (.run (fuel + 1)) = id :: later := by
  simp only [log, if_neg latched.going, advanceLog, latched.start.pending,
    visitLog_of_reported latched.start.reported]
  exact ⟨_, rfl⟩

theorem walk {log : List NodeId} {after : Debugger} {stop : Option Stop} (latched : Latched id d)
    (walk : Walk d log after stop) : log ≠ [] ∨ after = d ∧ stop = none := by
  cases walk with
  | rest => exact .inr ⟨rfl, rfl⟩
  | stop pending visited =>
    rw [visitLog_of_reported latched.reported]
    exact .inl (by simp)
  | move pending visited walk =>
    rw [visitLog_of_reported latched.reported]
    exact .inl (by simp)

/-- A call that executes nothing leaves the latch as it is, and is no breakpoint stop. -/
theorem perform {after : Debugger} {call : Call} {reply : Reply} (latched : Latched id d)
    (performed : d.perform call = .ok (some (after, reply))) (idle : d.log call = []) :
    Latched id after ∧ ∀ line, reply ≠ .stopped (.breakpoint line) := by
  have cases := perform_cases performed
  rw [idle] at cases
  generalize nothing : ([] : List NodeId) = log at cases
  cases cases with
  | quiet lines frame noStop =>
    rw [frame]
    exact ⟨⟨latched.reported, latched.pending, latched.going⟩, fun line => noStop _⟩
  | closed closed =>
    refine ⟨?_, by simp⟩
    rcases rejoin_cases closed with ⟨rfl, -⟩ | ⟨_, l, -, -, rfl⟩
    · exact latched
    · exact ⟨latched.reported, latched.pending, latched.going⟩
  | alreadyOver completed => exact absurd completed latched.going
  | stopped going walk =>
    rcases latched.start.walk walk with moved | ⟨-, same⟩
    · exact absurd nothing.symm moved
    · cases same
  | finished going walk ended =>
    rcases latched.start.walk walk with moved | ⟨rfl, -⟩
    · exact absurd nothing.symm moved
    · rw [latched.start.pending] at ended
      cases ended
  | stepped going walk pending found =>
    rcases latched.start.walk walk with moved | ⟨rfl, -⟩
    · exact absurd nothing.symm moved
    · exact ⟨latched.start, by simp⟩

end Latched

/-! ## What sets the latch -/

theorem Intact.line_eq {g : Graph} {d : Debugger} (intact : Intact g d) (id : NodeId) :
    d.graph.line id = g.line id := by
  cases intact with
  | whole graph saved => rw [graph]
  | @severed pendingId node pending found graph saved going =>
    by_cases same : id = pendingId
    · subst same
      rw [graph, Graph.line_of_node? (Graph.node?_relink_self found _), Graph.line_of_node? found,
        Node.line_withLinks]
    · unfold Graph.line Graph.node
      rw [graph, Graph.node?_relink_of_ne same]

theorem where?_of_line {d : Debugger} {id : NodeId} {line : Int} (going : d.state ≠ .completed)
    (pending : d.current = some id) (named : d.graph.line id = .ok line) :
    d.where? = some line := by
  have found : (d.graph.node? id).map Node.line = some line := by
    unfold Graph.line Graph.node at named
    cases here : d.graph.node? id with
    | none => rw [here] at named; cases named
    | some node =>
      rw [here] at named
      cases named
      rfl
  unfold where?
  rw [pending]
  cases state : d.state with
  | completed => exact absurd state going
  | loaded | running => exact found

/-- What a breakpoint stop leaves behind: the latch is set at a node with the line that is named, on
which a breakpoint is set. -/
structure StoppedAt (g : Graph) (id : NodeId) (line : Int) (d : Debugger) : Prop where
  latched : Latched id d
  named : g.line id = .ok line
  isSet : line ∈ d.breakpoints

/-- After a walk the latch is set only by a breakpoint stop, or if nothing has been visited. -/
theorem Walk.latch {g : Graph} {log : List NodeId} {d after : Debugger} {stop : Option Stop}
    (walk : Walk d log after stop) (intact : Intact g d) (going : d.state ≠ .completed) :
    after.breakpoints = d.breakpoints ∧
      (after.reported = true → after = d ∧ log = [] ∨
        ∃ id line, stop = some (.breakpoint line) ∧ StoppedAt g id line after) ∧
      ∀ line, stop = some (.breakpoint line) → ∃ id, StoppedAt g id line after := by
  induction walk with
  | rest d => exact ⟨rfl, fun _ => .inl ⟨rfl, rfl⟩, fun _ none => by cases none⟩
  | @stop d after id stop pending visited =>
    obtain ⟨node, found, cases⟩ := intact.visit_cases going visited
    generalize logged : d.visitLog id = log at cases
    cases cases with
    | breakpoint =>
      have stopped : StoppedAt g id node.line { d with reported := true } := by
        refine ⟨⟨rfl, pending, going⟩, Graph.line_of_node? found, ?_⟩
        unfold visitLog stopsBefore at logged
        rw [intact.line_eq, Graph.line_of_node? found] at logged
        simp at logged
        exact logged.1
      refine ⟨rfl, fun _ => .inr ⟨id, node.line, rfl, stopped⟩, ?_⟩
      intro line same
      cases same
      exact ⟨id, stopped⟩
    | halted failed =>
      exact ⟨rfl, fun set => (by cases set), fun _ same => by cases same⟩
  | @move d middle after id log stop pending visited walk ih =>
    obtain ⟨node, found, cases⟩ := intact.visit_cases going visited
    generalize d.visitLog id = visitLog at cases
    cases cases with
    | moved graph saved taken middleIntact frame =>
      have middleGoing : middle.state ≠ .completed := by
        rw [frame]
        exact going
      obtain ⟨breakpoints, set, stops⟩ := ih middleIntact middleGoing
      refine ⟨by rw [breakpoints, frame], ?_, stops⟩
      intro reported
      rcases set reported with ⟨same, -⟩ | stopped
      · rw [same, frame] at reported
        cases reported
      · exact .inr stopped

theorem stoppedAt_of_perform {g : Graph} {d after : Debugger} {call : Call} {line : Int}
    (intact : Intact g d)
    (performed : d.perform call = .ok (some (after, .stopped (.breakpoint line)))) :
    (∃ id, StoppedAt g id line after) ∧ after.breakpoints = d.breakpoints := by
  have cases := perform_cases performed
  generalize d.log call = log at cases
  cases cases with
  | quiet lines frame noStop => exact absurd rfl (noStop _)
  | stopped going walk =>
    obtain ⟨same, -, stops⟩ := walk.latch intact.start (start_going going)
    exact ⟨stops line rfl, same.trans d.start_breakpoints⟩

theorem reported_of_perform {g : Graph} {d after : Debugger} {call : Call} {reply : Reply}
    (intact : Intact g d) (performed : d.perform call = .ok (some (after, reply)))
    (reported : after.reported = true) :
    (d.log call = [] ∧ d.reported = true ∧ after.current = d.current) ∨
      ∃ id line, reply = .stopped (.breakpoint line) ∧ StoppedAt g id line after := by
  have walked {log : List NodeId} {last : Debugger} {stop : Option Stop}
      (going : d.state ≠ .completed) (walk : Walk d.start log last stop)
      (set : last.reported = true) :
      (log = [] ∧ d.reported = true ∧ last.current = d.current) ∨
        ∃ id line, stop = some (.breakpoint line) ∧ StoppedAt g id line last := by
    rcases (walk.latch intact.start (start_going going)).2.1 set with ⟨rfl, rfl⟩ | stopped
    · exact .inl ⟨rfl, d.start_reported.symm.trans set, d.start_current⟩
    · exact .inr stopped
  have cases := perform_cases performed
  generalize d.log call = log at cases
  cases cases with
  | quiet lines frame noStop =>
    rw [frame] at reported ⊢
    exact .inl ⟨rfl, reported, rfl⟩
  | closed closed =>
    left
    rcases rejoin_cases closed with ⟨rfl, -⟩ | ⟨_, l, -, -, rfl⟩
    · exact ⟨rfl, reported, rfl⟩
    · exact ⟨rfl, reported, rfl⟩
  | alreadyOver completed => exact .inl ⟨rfl, reported, rfl⟩
  | stopped going walk =>
    rcases walked going walk reported with idle | ⟨id, line, same, stopped⟩
    · exact .inl idle
    · cases same
      exact .inr ⟨id, line, rfl, stopped⟩
  | finished going walk ended =>
    rcases walked going walk reported with idle | ⟨_, _, same, _⟩
    · exact .inl idle
    · cases same
  | stepped going walk pending found =>
    rcases walked going walk reported with idle | ⟨_, _, same, _⟩
    · exact .inl idle
    · cases same

/-! ## Executions at breakpoints -/

/-- What is executed at a breakpoint: the first node only, whose breakpoint has been reported. -/
structure FirstReported (d : Debugger) (before : List NodeId) (id : NodeId) : Prop where
  isFirst : before = []
  pending : d.current = some id
  reported : d.reported = true

section Armed

variable {g : Graph} {d : Debugger} {before later : List NodeId} {id : NodeId} {line : Int}
  (intact : Intact g d) (named : g.line id = .ok line) (armed : line ∈ d.breakpoints)
include intact named armed

theorem firstReported_of_visitLog {first : NodeId} (pending : d.current = some first)
    (executed : d.visitLog first = before ++ id :: later) : d.FirstReported before id := by
  unfold visitLog at executed
  split at executed
  · simp at executed
  · rename_i passes
    obtain ⟨rfl, ends⟩ : before = [] ∧ [first] = id :: later := by
      cases before with
      | nil => exact ⟨rfl, executed⟩
      | cons other rest => simp at executed
    cases ends
    refine ⟨rfl, pending, ?_⟩
    unfold stopsBefore at passes
    simpa [intact.line_eq, named, armed] using passes

/-- Every execution clears the latch, so it can have been set for the first node only. -/
theorem firstReported_of_advanceLog {fuel : Nat} (going : d.state ≠ .completed)
    (executed : d.advanceLog fuel = before ++ id :: later) : d.FirstReported before id := by
  induction fuel generalizing d before with
  | zero => simp [advanceLog] at executed
  | succ fuel ih =>
    unfold advanceLog at executed
    cases pending : d.current with
    | none => simp [pending] at executed
    | some first =>
      simp only [pending] at executed
      cases visited : d.visit first with
      | error defect =>
        simp only [visited, List.append_nil] at executed
        exact firstReported_of_visitLog intact named armed pending executed
      | ok result =>
        obtain ⟨after, _ | stop⟩ := result
        · simp only [visited] at executed
          obtain ⟨node, -, cases⟩ := intact.visit_cases going visited
          generalize logged : d.visitLog first = log at cases executed
          cases cases with
          | moved graph saved taken afterIntact frame =>
            cases before with
            | nil =>
              obtain ⟨rfl, -⟩ := List.cons.inj executed
              exact firstReported_of_visitLog intact named armed pending logged
            | cons other rest =>
              obtain ⟨-, further⟩ := List.cons.inj executed
              have afterArmed : line ∈ after.breakpoints := by
                rw [frame]
                exact armed
              have afterGoing : after.state ≠ .completed := by
                rw [frame]
                exact going
              have reported := (ih afterIntact afterArmed afterGoing further).reported
              rw [frame] at reported
              cases reported
        · simp only [visited, List.append_nil] at executed
          exact firstReported_of_visitLog intact named armed pending executed

/-- No call executes a node whose breakpoint has not been reported. -/
theorem firstReported_of_log {call : Call} (executed : d.log call = before ++ id :: later) :
    d.FirstReported before id := by
  have armedStart : line ∈ d.start.breakpoints := by simpa using armed
  have fromStart (there : d.start.FirstReported before id) : d.FirstReported before id :=
    ⟨there.isFirst, d.start_current.symm.trans there.pending,
      d.start_reported.symm.trans there.reported⟩
  cases call with
  | step =>
    simp only [log] at executed
    split at executed
    · simp at executed
    · split at executed
      · simp at executed
      · rename_i first pending
        exact fromStart
          (firstReported_of_visitLog intact.start named armedStart pending executed)
  | run fuel =>
    simp only [log] at executed
    split at executed
    · simp at executed
    · rename_i going
      exact fromStart
        (firstReported_of_advanceLog intact.start named armedStart (start_going going) executed)
  | _ => simp [log] at executed

end Armed

theorem reported_of_load {g : Graph} {m : Machine} {loaded : Debugger}
    (isLoaded : Debugger.load g m = .ok loaded) : loaded.reported = false := by
  unfold Debugger.load at isLoaded
  split at isLoaded
  · cases isLoaded
  · rcases isolate_cases isLoaded with ⟨rfl, -⟩ | ⟨_, _, -, -, -, rfl⟩ <;> rfl

/-! ## The latch along a history -/

section

variable {g : Graph} {m : Machine} {loaded d : Debugger} {exchanges : List Exchange}
  (isLoaded : Debugger.load g m = .ok loaded)
include isLoaded

theorem History.intact (history : History loaded exchanges d) : Intact g d :=
  (history.calls.tracks (.of_load isLoaded)).intact

/-- After a breakpoint stop the latch is set until something is executed. -/
theorem History.stoppedAt (history : History loaded exchanges d) {first between : List Exchange}
    {stop : Exchange} {line : Int} (split : exchanges = first ++ stop :: between)
    (stopped : stop.reply = .stopped (.breakpoint line))
    (idle : ∀ x ∈ between, x.executed = []) :
    ∃ id, stop.after.current = some id ∧ g.line id = .ok line ∧ Latched id d := by
  induction history generalizing between with
  | nil => simp at split
  | snoc history performed ih =>
    rcases snoc_eq_split split with ⟨rfl, rfl, rfl⟩ | ⟨rest, rfl, shorter⟩
    · cases stopped
      obtain ⟨⟨id, there⟩, -⟩ := stoppedAt_of_perform (history.intact isLoaded) performed
      exact ⟨id, there.latched.pending, there.named, there.latched⟩
    · obtain ⟨id, pending, named, latched⟩ := ih shorter fun x member =>
        idle x (List.mem_append_left _ member)
      have nothing := idle _ (List.mem_append_right _ List.mem_cons_self)
      exact ⟨id, pending, named, (latched.perform performed nothing).1⟩

/-- The latch is set only if the breakpoint of the pending node has been reported. -/
theorem History.announced (history : History loaded exchanges d) (reported : d.reported = true) :
    ∃ id line, d.current = some id ∧ g.line id = .ok line ∧ Announced exchanges id line := by
  induction history with
  | nil =>
    rw [reported_of_load isLoaded] at reported
    cases reported
  | snoc history performed ih =>
    rcases reported_of_perform (history.intact isLoaded) performed reported with
      ⟨idle, before, same⟩ | ⟨id, line, rfl, stopped⟩
    · obtain ⟨id, line, pending, named, announced⟩ := ih before
      exact ⟨id, line, same.trans pending, named, announced.snoc idle⟩
    · exact ⟨id, line, stopped.latched.pending, stopped.named, _, _, [], rfl, rfl,
        stopped.latched.pending, fun _ none => by cases none⟩

end

end Debugger

/-- Breakpoints are neither missed nor repeated.  Let calls be made on a debugger in any order.
A call executes a node whose line has a breakpoint only as its first one, and only after a stop that
named this line for the same visit.  After a breakpoint stop the next step or run executes the node
it stopped at first, so that something is executed between two stops.  A breakpoint stop names the
line of the pending node, on which a breakpoint is set, and the run of the program is at that point
about to execute this node. -/
theorem breakpoints_stop_once {draft : Draft} {g : Graph} (built : draft.build = .ok g)
    (m : Machine) :
    ∃ loaded, Debugger.load g m = .ok loaded ∧
      ∀ {exchanges : List Debugger.Exchange} {d : Debugger},
        Debugger.History loaded exchanges d →
          (∀ {call before id later line}, d.log call = before ++ id :: later →
            g.line id = .ok line → line ∈ d.breakpoints →
            before = [] ∧ Debugger.Announced exchanges id line) ∧
          (∀ {first stop between line}, exchanges = first ++ stop :: between →
            stop.reply = .stopped (.breakpoint line) → (∀ x ∈ between, x.executed = []) →
            ∃ id, stop.after.current = some id ∧ g.line id = .ok line ∧ d.current = some id ∧
              d.log .step = [id] ∧ ∀ fuel, ∃ later, d.log (.run (fuel + 1)) = id :: later) ∧
          (∀ {first stop between next rest line nextLine},
            exchanges = first ++ stop :: between ++ next :: rest →
            stop.reply = .stopped (.breakpoint line) →
            next.reply = .stopped (.breakpoint nextLine) →
            ∃ x ∈ between ++ [next], x.executed ≠ []) ∧
          ∀ {call after line}, d.perform call = .ok (some (after, .stopped (.breakpoint line))) →
            line ∈ d.breakpoints ∧ after.where? = some line ∧
            ∃ id, after.current = some id ∧ g.line id = .ok line ∧
              g.course.after (Debugger.executedBy exchanges ++ d.log call).length g.entry m =
                { executed := Debugger.executedBy exchanges ++ d.log call, machine := after.machine,
                  status := .ok (some id) } := by
  obtain ⟨loaded, isLoaded, -⟩ := Debugger.Fits.load (draft.fits_of_build built) m
  refine ⟨loaded, isLoaded, ?_⟩
  intro exchanges d history
  refine ⟨?_, ?_, ?_, ?_⟩
  · intro call before id later line executed named armed
    have first := Debugger.firstReported_of_log (history.intact isLoaded) named armed executed
    obtain ⟨other, otherLine, pending, otherNamed, announced⟩ :=
      history.announced isLoaded first.reported
    rw [first.pending] at pending
    cases pending
    rw [named] at otherNamed
    cases otherNamed
    exact ⟨first.isFirst, announced⟩
  · intro first stop between line split stopped idle
    obtain ⟨id, there, named, latched⟩ := history.stoppedAt isLoaded split stopped idle
    exact ⟨id, there, named, latched.pending, latched.log_step, latched.log_run⟩
  · rintro first stop between next rest line nextLine rfl stopped stoppedAgain
    obtain ⟨historyBefore, performed⟩ := history.split
    by_contra nothing
    have idle : ∀ x ∈ between ++ [next], x.executed = [] := by
      intro x member
      by_contra executed
      exact nothing ⟨x, member, executed⟩
    obtain ⟨id, -, -, latched⟩ := historyBefore.stoppedAt isLoaded rfl stopped fun x member =>
      idle x (List.mem_append_left _ member)
    have nextIdle := idle next (List.mem_append_right _ List.mem_cons_self)
    exact (latched.perform performed nextIdle).2 nextLine stoppedAgain
  · intro call after line performed
    have tracks := history.calls.tracks (.of_load isLoaded)
    obtain ⟨⟨id, stopped⟩, same⟩ := Debugger.stoppedAt_of_perform tracks.intact performed
    obtain ⟨tracksAfter, -⟩ := tracks.perform performed
    have waits := tracksAfter.going stopped.latched.going
    rw [stopped.latched.pending] at waits
    refine ⟨same ▸ stopped.isSet, ?_, id, stopped.latched.pending, stopped.named, ?_⟩
    · exact Debugger.where?_of_line stopped.latched.going stopped.latched.pending
        ((tracksAfter.intact.line_eq id).trans stopped.named)
    · exact Progress.ext tracksAfter.executed tracksAfter.machine waits

/-- The countdown can be stopped before its outer loop, and whenever it is, the next step executes
that loop. -/
theorem stopped_countdown_steps_on :
    Draft.countdown.build = .ok .countdown ∧
      ∃ loaded, Debugger.load .countdown .idle = .ok loaded ∧
        (∃ exchanges d after, Debugger.History loaded exchanges d ∧
          d.perform (.run 20) = .ok (some (after, .stopped (.breakpoint 2)))) ∧
        ∀ {exchanges d call after}, Debugger.History loaded exchanges d →
          d.perform call = .ok (some (after, .stopped (.breakpoint 2))) →
          ∃ id, Graph.countdown.line id = .ok 2 ∧ after.log .step = [id] := by
  refine ⟨Draft.build_countdown, ?_⟩
  obtain ⟨loaded, isLoaded, stops⟩ := breakpoints_stop_once Draft.build_countdown .idle
  refine ⟨loaded, isLoaded, ?_, ?_⟩
  · have answered : ((Debugger.load .countdown .idle).bind fun d =>
        ((d.change (d.setBreakpoint 2)).1.perform (.run 20)).map (Option.map Prod.snd)) =
          .ok (some (.stopped (.breakpoint 2))) := by
      rw [Debugger.load, Graph.lines_countdown]
      decide +kernel
    rw [isLoaded] at answered
    obtain ⟨after, performed⟩ := Debugger.exists_of_answer answered
    have set : loaded.perform (.setBreakpoint 2) =
        .ok (some (loaded.change (loaded.setBreakpoint 2))) := rfl
    exact ⟨_, _, after, .snoc .nil set, performed⟩
  · intro exchanges d call after history performed
    obtain ⟨id, -, named, -, stepped, -⟩ := (stops (history.snoc performed)).2.1 rfl rfl (by simp)
    exact ⟨id, named, stepped⟩

end StepGraph
