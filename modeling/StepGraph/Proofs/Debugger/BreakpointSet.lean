import Mathlib.Data.Finset.Erase
import Mathlib.Data.Finset.Insert
import StepGraph.Proofs.Build.Shape
import StepGraph.Proofs.Debugger.LifeCycle

/-!
# The set of breakpoints

A debugger keeps its breakpoints as an ascending list.  Only the calls that
change breakpoints touch it, and only when they are granted.  Along a history it
lists the set that these calls make, one after the other.  The lines that can
have a breakpoint were taken down when the program was loaded, while all its
nodes still had their links: they are the lines of its statements.
-/

namespace StepGraph

/-! ## The lines of a program -/

theorem Node.line_written (node : Node) : node.written.line = node.line := by
  cases node with
  | step line action next =>
    cases action with
    | assign target source => cases source <;> rfl
    | call function argument => rfl
    | pass => rfl
  | loop line condition body next => rfl

namespace Draft

variable {d : Draft} {g : Graph}

theorem Stands.line_eq {position : Nat} {s : StatementDraft} {rest : List StatementDraft}
    {loop : Link} {node : Node} (isNode : IsNodeOf position s rest loop node) :
    node.line = s.line := by
  rw [← node.line_written, isNode.written, StatementDraft.alone, StatementDraft.line_trimmed]

/-- The lines of a built graph are those of the statements of its draft. -/
theorem mem_lines_of_build (built : d.build = .ok g) {lines : List Int}
    (found : g.lines = .ok lines) (line : Int) :
    line ∈ lines ↔ ∃ s ∈ d.visited, s.line = line := by
  rcases g.reachable_cases with ⟨id, failed, -⟩ | ⟨seen, searched, exact, -⟩
  · rw [Graph.lines_of_reachable_error failed] at found
    cases found
  obtain ⟨others, alsoFound, -, mem_lines⟩ := Graph.lines_of_reachable searched
  rw [found] at alsoFound
  cases alsoFound
  rw [mem_lines]
  constructor
  · rintro ⟨position, -, node, here, rfl⟩
    obtain ⟨place, s, rest, loop, same, stands⟩ :=
      exists_stands_of_isValid built (Graph.isValid_iff.mpr ⟨node, here⟩)
    obtain rfl : position = place := Int.ofNat.inj same
    obtain ⟨other, otherHere, isNode⟩ := stands.exists_node built
    rw [here] at otherHere
    cases otherHere
    exact ⟨s, List.mem_of_getElem? stands.getElem?_visited, (Stands.line_eq isNode).symm⟩
  · rintro ⟨s, visited, rfl⟩
    obtain ⟨position, place⟩ := List.mem_iff_getElem?.mp visited
    obtain ⟨rest, loop, stands⟩ := exists_stands place
    obtain ⟨node, here, isNode⟩ := stands.exists_node built
    obtain ⟨other, member, same⟩ := (exact position).mpr (stands.reaches built)
    obtain rfl : position = other := Int.ofNat.inj same
    exact ⟨position, member, node, here, Stands.line_eq isNode⟩

end Draft

namespace Debugger

/-! ## What a call does to the breakpoints -/

/-- The lines that can have a breakpoint and those that have one are the same. -/
structure SameMarks (d after : Debugger) : Prop where
  lines : after.lines = d.lines
  breakpoints : after.breakpoints = d.breakpoints

theorem SameMarks.start (d : Debugger) : SameMarks d d.start where
  lines := by unfold Debugger.start; split <;> rfl
  breakpoints := d.start_breakpoints

theorem SameMarks.trans {d middle after : Debugger} (first : SameMarks d middle)
    (second : SameMarks middle after) : SameMarks d after where
  lines := second.lines.trans first.lines
  breakpoints := second.breakpoints.trans first.breakpoints

theorem Walk.sameMarks {g : Graph} {log : List NodeId} {d after : Debugger} {stop : Option Stop}
    (walk : Walk d log after stop) (intact : Intact g d) (going : d.state ≠ .completed) :
    SameMarks d after := by
  induction walk with
  | rest d => exact ⟨rfl, rfl⟩
  | @stop d after id stop pending visited =>
    obtain ⟨node, -, cases⟩ := intact.visit_cases going visited
    generalize d.visitLog id = log at cases
    cases cases with
    | breakpoint | halted failed => exact ⟨rfl, rfl⟩
  | @move d middle after id log stop pending visited walk ih =>
    obtain ⟨node, -, cases⟩ := intact.visit_cases going visited
    generalize d.visitLog id = visitLog at cases
    cases cases with
    | moved graph saved taken middleIntact frame =>
      have first : SameMarks d middle := by
        rw [frame]
        exact ⟨rfl, rfl⟩
      have middleGoing : middle.state ≠ .completed := by
        rw [frame]
        exact going
      exact first.trans (ih middleIntact middleGoing)

/-- What a returned call has done to the breakpoints. -/
inductive Marked (d after : Debugger) : Call → Reply → Prop
  | set {line : Int} (isLine : line ∈ d.lines)
      (breakpoints : after.breakpoints = Graph.insertAscending line d.breakpoints) :
      Marked d after (.setBreakpoint line) .changed
  | removed {line : Int} (breakpoints : after.breakpoints = d.breakpoints.filter (· != line)) :
      Marked d after (.removeBreakpoint line) .changed
  | cleared (breakpoints : after.breakpoints = []) : Marked d after .clearBreakpoints .changed
  | kept {call : Call} {reply : Reply} (notChanged : reply ≠ .changed)
      (breakpoints : after.breakpoints = d.breakpoints) : Marked d after call reply

theorem Performed.sameMarks {g : Graph} {d after : Debugger} {log : List NodeId} {stop : Stop}
    (performed : Performed d log after (.stopped stop)) (intact : Intact g d) :
    SameMarks d after := by
  generalize answer : Reply.stopped stop = reply at performed
  have walked {last : Debugger} {stop : Option Stop} (going : d.state ≠ .completed)
      (walk : Walk d.start log last stop) : SameMarks d last :=
    (SameMarks.start d).trans (walk.sameMarks intact.start (start_going going))
  cases performed with
  | quiet lines frame noStop => exact absurd answer.symm (noStop stop)
  | closed closed => cases answer
  | alreadyOver completed => exact ⟨rfl, rfl⟩
  | stopped going walk => exact walked going walk
  | finished going walk ended => exact (walked going walk).trans ⟨rfl, rfl⟩
  | stepped going walk pending found => exact walked going walk

theorem setBreakpoint_ok {d after : Debugger} {line : Int}
    (succeeded : d.setBreakpoint line = .ok after) :
    line ∈ d.lines ∧ line ∉ d.breakpoints ∧
      after = { d with breakpoints := Graph.insertAscending line d.breakpoints } := by
  unfold setBreakpoint at succeeded
  split at succeeded
  · cases succeeded
  · rename_i isLine
    split at succeeded
    · cases succeeded
    · rename_i isNew
      cases succeeded
      exact ⟨not_not.mp isLine, isNew, rfl⟩

theorem removeBreakpoint_ok {d after : Debugger} {line : Int}
    (succeeded : d.removeBreakpoint line = .ok after) :
    after = { d with breakpoints := d.breakpoints.filter (· != line) } := by
  unfold removeBreakpoint at succeeded
  split at succeeded
  · cases succeeded
    rfl
  · cases succeeded

/-- All that a returned call can have done to the breakpoints. -/
theorem marked_of_perform {g : Graph} {d after : Debugger} {call : Call} {reply : Reply}
    (intact : Intact g d) (performed : d.perform call = .ok (some (after, reply))) :
    after.lines = d.lines ∧ Marked d after call reply := by
  have stopped {log : List NodeId} {stop : Stop} (done : Performed d log after (.stopped stop)) :
      after.lines = d.lines ∧ Marked d after call (.stopped stop) :=
    have same := done.sameMarks intact
    ⟨same.lines, .kept (by simp) same.breakpoints⟩
  cases call with
  | step | run fuel =>
    obtain ⟨stop, rfl⟩ := (moves_iff_of_perform performed).mp trivial
    exact stopped (perform_cases performed)
  | setBreakpoint line =>
    simp only [perform, Except.ok.injEq, Option.some.injEq] at performed
    cases result : d.setBreakpoint line with
    | error error =>
      rw [result] at performed
      cases performed
      exact ⟨rfl, .kept (by simp) rfl⟩
    | ok changed =>
      rw [result] at performed
      cases performed
      obtain ⟨isLine, -, rfl⟩ := setBreakpoint_ok result
      exact ⟨rfl, .set isLine rfl⟩
  | removeBreakpoint line =>
    simp only [perform, Except.ok.injEq, Option.some.injEq] at performed
    cases result : d.removeBreakpoint line with
    | error error =>
      rw [result] at performed
      cases performed
      exact ⟨rfl, .kept (by simp) rfl⟩
    | ok changed =>
      rw [result] at performed
      cases performed
      obtain rfl := removeBreakpoint_ok result
      exact ⟨rfl, .removed rfl⟩
  | clearBreakpoints =>
    cases performed
    exact ⟨rfl, .cleared rfl⟩
  | close =>
    unfold perform at performed
    cases closed : d.close with
    | error defect => rw [closed] at performed; cases performed
    | ok result =>
      rw [closed] at performed
      cases performed
      rcases rejoin_cases closed with ⟨rfl, -⟩ | ⟨_, _, -, -, rfl⟩
      · exact ⟨rfl, .kept (by simp) rfl⟩
      · exact ⟨rfl, .kept (by simp) rfl⟩
  | listBreakpoints | whereAmI | showState | valueOf name =>
    cases performed
    exact ⟨rfl, .kept (by simp) rfl⟩

/-! ## The set along a history -/

/-- A set of lines after a call: one that has been granted adds a line, removes it, or removes all
lines, and no other call changes anything. -/
def Exchange.applyTo (x : Exchange) (lines : Finset Int) : Finset Int :=
  match x.call, x.reply with
  | .setBreakpoint line, .changed => insert line lines
  | .removeBreakpoint line, .changed => lines.erase line
  | .clearBreakpoints, .changed => ∅
  | _, _ => lines

/-- The lines that the calls of a history have left with a breakpoint, none of them at first. -/
def enabled (exchanges : List Exchange) : Finset Int :=
  exchanges.foldl (fun lines x => x.applyTo lines) ∅

theorem enabled_snoc (exchanges : List Exchange) (x : Exchange) :
    enabled (exchanges ++ [x]) = x.applyTo (enabled exchanges) := by
  unfold enabled
  rw [List.foldl_append]
  rfl

theorem applyTo_of_not_changed {x : Exchange} (notChanged : x.reply ≠ .changed)
    (lines : Finset Int) : x.applyTo lines = lines := by
  unfold Exchange.applyTo
  split
  · exact absurd (by assumption) notChanged
  · exact absurd (by assumption) notChanged
  · exact absurd (by assumption) notChanged
  · rfl

/-- The breakpoints of a debugger list a set of lines that can have one. -/
structure Lists (d : Debugger) (marked : Finset Int) : Prop where
  ascending : d.breakpoints.Pairwise (· < ·)
  mem_iff : ∀ line, line ∈ d.breakpoints ↔ line ∈ marked
  known : ∀ line ∈ d.breakpoints, line ∈ d.lines

theorem Lists.perform {g : Graph} {d after : Debugger} {call : Call} {reply : Reply}
    {marked : Finset Int} (lists : Lists d marked) (intact : Intact g d)
    (performed : d.perform call = .ok (some (after, reply))) :
    Lists after (Exchange.applyTo { before := d, call, reply, after } marked) := by
  obtain ⟨sameLines, cases⟩ := marked_of_perform intact performed
  cases cases with
  | @set line isLine breakpoints =>
    constructor
    · rw [breakpoints]
      exact Graph.pairwise_insertAscending lists.ascending
    · intro other
      rw [breakpoints, Graph.mem_insertAscending, lists.mem_iff]
      exact Finset.mem_insert.symm
    · intro other member
      rw [breakpoints, Graph.mem_insertAscending] at member
      rw [sameLines]
      rcases member with rfl | member
      · exact isLine
      · exact lists.known other member
  | @removed line breakpoints =>
    constructor
    · rw [breakpoints]
      exact lists.ascending.filter _
    · intro other
      rw [breakpoints, List.mem_filter, lists.mem_iff, bne_iff_ne, and_comm]
      exact Finset.mem_erase.symm
    · intro other member
      rw [breakpoints] at member
      rw [sameLines]
      exact lists.known other (List.mem_of_mem_filter member)
  | cleared breakpoints =>
    constructor
    · rw [breakpoints]
      exact List.Pairwise.nil
    · intro other
      rw [breakpoints]
      simp [Exchange.applyTo]
    · intro other member
      rw [breakpoints] at member
      cases member
  | kept notChanged breakpoints =>
    rw [applyTo_of_not_changed notChanged]
    constructor
    · rw [breakpoints]
      exact lists.ascending
    · intro other
      rw [breakpoints, lists.mem_iff]
    · intro other member
      rw [breakpoints] at member
      rw [sameLines]
      exact lists.known other member

theorem marks_of_load {g : Graph} {m : Machine} {loaded : Debugger}
    (isLoaded : Debugger.load g m = .ok loaded) :
    g.lines = .ok loaded.lines ∧ loaded.breakpoints = [] := by
  unfold Debugger.load at isLoaded
  split at isLoaded
  · cases isLoaded
  · rename_i lines found
    rcases isolate_cases isLoaded with ⟨rfl, -⟩ | ⟨_, _, -, -, -, rfl⟩
    · exact ⟨found, rfl⟩
    · exact ⟨found, rfl⟩

/-- Along a history the lines stay those of the program, and the breakpoints list the set. -/
theorem History.lists {g : Graph} {m : Machine} {loaded d : Debugger} {exchanges : List Exchange}
    (isLoaded : Debugger.load g m = .ok loaded) (history : History loaded exchanges d) :
    g.lines = .ok d.lines ∧ Lists d (enabled exchanges) := by
  induction history with
  | nil =>
    obtain ⟨lines, none⟩ := marks_of_load isLoaded
    refine ⟨lines, ?_, ?_, ?_⟩
    · rw [none]
      exact List.Pairwise.nil
    · intro line
      rw [none]
      simp [enabled]
    · intro line member
      rw [none] at member
      cases member
  | @snoc exchanges d after call reply history performed ih =>
    obtain ⟨lines, lists⟩ := ih
    have intact := history.intact isLoaded
    rw [enabled_snoc, (marked_of_perform intact performed).1]
    exact ⟨lines, lists.perform intact performed⟩

/-! ## Refusals -/

/-- Which lines get a breakpoint: those that can have one and have none. -/
theorem setBreakpoint_iff (d : Debugger) (line : Int) :
    (d.setBreakpoint line = .error .noSuchLine ↔ line ∉ d.lines) ∧
      (d.setBreakpoint line = .error .alreadyExists ↔ line ∈ d.lines ∧ line ∈ d.breakpoints) ∧
      ((∃ after, d.setBreakpoint line = .ok after) ↔ line ∈ d.lines ∧ line ∉ d.breakpoints) := by
  unfold setBreakpoint
  by_cases isLine : line ∈ d.lines
  · by_cases isSet : line ∈ d.breakpoints
    · simp [isLine, isSet]
    · simp [isLine, isSet]
  · simp [isLine]

theorem removeBreakpoint_error_iff (d : Debugger) (line : Int) (error : BreakpointError) :
    d.removeBreakpoint line = .error error ↔ line ∉ d.breakpoints ∧ error = .noSuchBreakpoint := by
  unfold removeBreakpoint
  by_cases isSet : line ∈ d.breakpoints
  · simp [isSet]
  · simp [isSet, eq_comm]

end Debugger

/-- Breakpoints form a set of lines.  Let calls be made on a debugger in any order.  The breakpoints
are the set that the granted changes make one after the other, listed in ascending order, and all of
them are on lines of statements of the program.  A breakpoint cannot be set on any other line, nor
where there is one, and can be removed exactly where there is one.  A call that is not a granted
change leaves all breakpoints as they are. -/
theorem breakpoints_form_set {draft : Draft} {g : Graph} (built : draft.build = .ok g)
    (m : Machine) :
    ∃ loaded, Debugger.load g m = .ok loaded ∧
      ∀ {exchanges : List Debugger.Exchange} {d : Debugger},
        Debugger.History loaded exchanges d →
          (∃ lines, d.perform .listBreakpoints = .ok (some (d, .breakpoints lines)) ∧
            lines.Pairwise (· < ·) ∧ ∀ line, line ∈ lines ↔ line ∈ Debugger.enabled exchanges) ∧
          (∀ line ∈ Debugger.enabled exchanges, ∃ s ∈ draft.visited, s.line = line) ∧
          (∀ line,
            (d.setBreakpoint line = .error .noSuchLine ↔ ¬ ∃ s ∈ draft.visited, s.line = line) ∧
            (d.setBreakpoint line = .error .alreadyExists ↔ line ∈ Debugger.enabled exchanges) ∧
            ((∃ after, d.setBreakpoint line = .ok after) ↔
              (∃ s ∈ draft.visited, s.line = line) ∧ line ∉ Debugger.enabled exchanges) ∧
            ∀ error, d.removeBreakpoint line = .error error ↔
              line ∉ Debugger.enabled exchanges ∧ error = .noSuchBreakpoint) ∧
          ∀ {call after reply}, d.perform call = .ok (some (after, reply)) → reply ≠ .changed →
            after.breakpoints = d.breakpoints := by
  obtain ⟨loaded, isLoaded, -⟩ := Debugger.Fits.load (draft.fits_of_build built) m
  refine ⟨loaded, isLoaded, ?_⟩
  intro exchanges d history
  obtain ⟨found, lists⟩ := history.lists isLoaded
  have isLine := draft.mem_lines_of_build built found
  have known : ∀ line ∈ Debugger.enabled exchanges, ∃ s ∈ draft.visited, s.line = line := by
    intro line member
    exact (isLine line).mp (lists.known line ((lists.mem_iff line).mpr member))
  refine ⟨⟨d.breakpoints, rfl, lists.ascending, lists.mem_iff⟩, known, ?_, ?_⟩
  · intro line
    obtain ⟨noLine, taken, granted⟩ := d.setBreakpoint_iff line
    rw [isLine] at noLine taken granted
    rw [lists.mem_iff] at taken granted
    refine ⟨noLine, taken.trans ⟨And.right, fun member => ⟨known line member, member⟩⟩, granted, ?_⟩
    intro error
    rw [d.removeBreakpoint_error_iff, lists.mem_iff]
  · intro call after reply performed notChanged
    cases (Debugger.marked_of_perform (history.intact isLoaded) performed).2 with
    | set | removed | cleared => exact absurd rfl notChanged
    | kept _ breakpoints => exact breakpoints

/-- A breakpoint can be set on the inner loop of the countdown, but not twice, not after its last
line, and it is not removed from another line. -/
theorem countdown_takes_breakpoint :
    Draft.countdown.build = .ok .countdown ∧
      ∃ loaded after, Debugger.load .countdown .idle = .ok loaded ∧
        loaded.setBreakpoint 4 = .ok after ∧ after.setBreakpoint 4 = .error .alreadyExists ∧
        after.setBreakpoint 7 = .error .noSuchLine ∧
        after.removeBreakpoint 2 = .error .noSuchBreakpoint ∧
        ∃ lines, after.perform .listBreakpoints = .ok (some (after, .breakpoints lines)) ∧
          ∀ line, line ∈ lines ↔ line = 4 := by
  obtain ⟨loaded, isLoaded, marks⟩ := breakpoints_form_set Draft.build_countdown .idle
  have isLine (line : Int) :
      (∃ s ∈ Draft.countdown.visited, s.line = line) ↔ line ∈ [1, 2, 3, 4, 5, 6] :=
    (Draft.countdown.mem_lines_of_build Draft.build_countdown Graph.lines_countdown line).symm
  obtain ⟨-, -, first, -⟩ := marks .nil
  obtain ⟨after, set⟩ :=
    (first 4).2.2.1.mpr ⟨(isLine 4).mpr (by decide), by simp [Debugger.enabled]⟩
  have performed : loaded.perform (.setBreakpoint 4) = .ok (some (after, .changed)) := by
    rw [Debugger.perform, set]
    rfl
  obtain ⟨⟨lines, listed, -, mem_iff⟩, -, second, -⟩ := marks (.snoc .nil performed)
  simp only [Debugger.enabled, List.nil_append, List.foldl_cons, List.foldl_nil,
    Debugger.Exchange.applyTo, Finset.mem_insert, Finset.notMem_empty, or_false] at mem_iff second
  refine ⟨Draft.build_countdown, loaded, after, isLoaded, set, (second 4).2.1.mpr rfl,
    (second 7).1.mpr ?_, ((second 2).2.2.2 _).mpr ⟨by decide, rfl⟩, lines, listed, mem_iff⟩
  rw [isLine]
  decide

end StepGraph
