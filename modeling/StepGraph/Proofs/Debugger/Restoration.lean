import StepGraph.Proofs.Debugger.Isolation
import StepGraph.Proofs.Shell.Commands

/-!
# Links are given back

However a debugger is used, alone, together with direct executions on the same
graph, or from a shell, the graph differs from the one that was loaded at most
in the links of the pending node, and only while the debugger keeps them.  After
it has been closed, after the end of execution, and after a session, the graph
is the one that was loaded.
-/

namespace StepGraph

/-- The stop tells that execution has just come to its end. -/
def Stop.IsEnd : Stop → Prop
  | .finished | .halted _ _ => True
  | _ => False

namespace Debugger

/-- What can become of a debugger by calls on it, by writing to its memory, by executing nodes of
its graph directly, and by sessions of a shell. -/
inductive Reachable (loaded : Debugger) : Debugger → Prop
  | loaded : Reachable loaded loaded
  | call {d after : Debugger} {call : Call} {reply : Reply} (reached : Reachable loaded d)
      (performed : d.perform call = .ok (some (after, reply))) : Reachable loaded after
  | write {d : Debugger} (reached : Reachable loaded d) (name : Text) (value : Value) :
      Reachable loaded { d with machine := d.machine.assign name value }
  | writeAt {d : Debugger} {address : Int} {value : Value} {memory : Memory}
      (reached : Reachable loaded d)
      (written : d.machine.memory.writeAt? address value = some memory) :
      Reachable loaded { d with machine := { d.machine with memory } }
  | execute {d : Debugger} (reached : Reachable loaded d) (id : NodeId) :
      Reachable loaded { d with machine := (d.graph.execute id d.machine).1 }
  | interpret {d : Debugger} (reached : Reachable loaded d) (fuel : Nat) (link : Link) :
      Reachable loaded { d with machine := (d.graph.run fuel link d.machine).1 }
  | session {opened sh : Shell} (reached : Reachable loaded opened.debugger)
      (session : Shell.Session opened sh) : Reachable loaded sh.debugger
  | sessionEnd {sh after : Shell} {fuel : Nat} {ending : SessionEnd}
      (reached : Reachable loaded sh.debugger)
      (ended : sh.run fuel = .ok (some (after, ending))) : Reachable loaded after.debugger

/-- The graph is `g` up to the links of the pending node.  It is `g` unless the debugger keeps
links; these are then those of the pending node, which has none in the meantime, and execution has
not completed. -/
structure LinksKept (g : Graph) (d : Debugger) : Prop where
  entry : d.graph.entry = g.entry
  others : ∀ id, d.current ≠ some id → d.graph.node? id = g.node? id
  pending : ∀ id, d.current = some id →
    ∃ l, d.graph.node? id = (g.node? id).map (Node.withLinks l)
  whole : d.saved = none → d.graph = g
  severed : ∀ l, d.saved = some l → ∃ id node, d.current = some id ∧ g.node? id = some node ∧
    l = node.links ∧ d.graph.links id = .ok .none
  completed : d.state = .completed → d.saved = none

namespace Intact

variable {g : Graph} {d : Debugger}

theorem linksKept (intact : Intact g d) : LinksKept g d := by
  cases intact with
  | whole graph saved =>
    refine ⟨by rw [graph], fun _ _ => by rw [graph], ?_, fun _ => graph, ?_, fun _ => saved⟩
    · intro id _
      rw [graph]
      cases found : g.node? id with
      | none => exact ⟨.none, rfl⟩
      | some node => exact ⟨node.links, by simp⟩
    · intro l kept
      rw [saved] at kept
      cases kept
  | @severed id node pending found graph saved going =>
    have here : d.graph.node? id = some (node.withLinks .none) := by
      rw [graph]
      exact Graph.node?_relink_self found .none
    refine ⟨?_, ?_, ?_, ?_, ?_, fun completed => absurd completed going⟩
    · rw [graph, Graph.entry_relink]
    · intro other elsewhere
      have apart : other ≠ id := by
        rintro rfl
        exact elsewhere pending
      rw [graph, Graph.node?_relink_of_ne apart]
    · intro other waits
      rw [pending] at waits
      cases waits
      exact ⟨.none, by rw [here, found, Option.map_some]⟩
    · intro nothing
      rw [saved] at nothing
      cases nothing
    · intro l kept
      rw [saved] at kept
      cases kept
      refine ⟨id, node, pending, found, rfl, ?_⟩
      rw [Graph.links, Graph.node_of_node? here]
      simp [Except.map]

theorem complete (intact : Intact g d) (ended : d.current = none) :
    d.complete.graph = g ∧ Intact g d.complete := by
  cases intact with
  | whole graph saved => exact ⟨graph, .whole graph saved⟩
  | severed pending =>
    rw [ended] at pending
    cases pending

end Intact

theorem Walk.intact {g : Graph} {log : List NodeId} {d after : Debugger} {stop : Option Stop}
    (walk : Walk d log after stop) (intact : Intact g d) (going : d.state ≠ .completed) :
    Intact g after ∧ (stop = none → after.state ≠ .completed) ∧
      ∀ reported, stop = some reported → reported.IsEnd → after.graph = g := by
  induction walk with
  | rest d => exact ⟨intact, fun _ => going, fun _ none => by cases none⟩
  | @stop d after id stop pending visited =>
    obtain ⟨node, -, cases⟩ := intact.visit_cases going visited
    generalize d.visitLog id = executed at cases
    cases cases with
    | breakpoint =>
      refine ⟨intact.of_frame rfl rfl rfl fun completed => completed,
        fun none => (by cases none), ?_⟩
      intro reported same isEnd
      cases same
      exact isEnd.elim
    | halted failed =>
      exact ⟨.whole rfl rfl, fun none => (by cases none), fun _ _ _ => rfl⟩
  | @move d middle after id log stop pending visited walk ih =>
    obtain ⟨node, -, cases⟩ := intact.visit_cases going visited
    generalize d.visitLog id = executed at cases
    cases cases with
    | moved graph saved taken middleIntact frame =>
      apply ih middleIntact
      rw [frame]
      exact going

/-- A call keeps the invariant, and one that reports the end of execution leaves the graph whole. -/
theorem Intact.perform {g : Graph} {d after : Debugger} {call : Call} {reply : Reply}
    (intact : Intact g d) (performed : d.perform call = .ok (some (after, reply))) :
    Intact g after ∧ ∀ stop, reply = .stopped stop → stop.IsEnd → after.graph = g := by
  have cases := perform_cases performed
  generalize d.log call = executed at cases
  cases cases with
  | quiet lines frame noStop =>
    rw [frame]
    exact ⟨intact.of_frame rfl rfl rfl fun completed => completed,
      fun stop stopped => absurd stopped (noStop stop)⟩
  | closed closed =>
    rw [close, intact.rejoin] at closed
    cases closed
    exact ⟨.whole rfl rfl, fun _ stopped => by cases stopped⟩
  | alreadyOver completed =>
    refine ⟨intact, ?_⟩
    intro stop same isEnd
    cases same
    exact isEnd.elim
  | stopped going walk =>
    obtain ⟨afterIntact, -, whole⟩ := walk.intact intact.start (start_going going)
    refine ⟨afterIntact, ?_⟩
    intro stop same
    cases same
    exact whole _ rfl
  | finished going walk ended =>
    obtain ⟨lastIntact, -, -⟩ := walk.intact intact.start (start_going going)
    obtain ⟨whole, completed⟩ := lastIntact.complete ended
    exact ⟨completed, fun _ _ _ => whole⟩
  | stepped going walk pending found =>
    obtain ⟨afterIntact, -, -⟩ := walk.intact intact.start (start_going going)
    refine ⟨afterIntact, ?_⟩
    intro stop same isEnd
    cases same
    exact isEnd.elim

/-- The invariant of a debugger in use: the graph is intact, and sound. -/
structure Usable (g : Graph) (d : Debugger) : Prop where
  intact : Intact g d
  fits : d.Fits Element.IsKnown g

theorem stable_usable (g : Graph) : Shell.Stable (Usable g) where
  machine m usable :=
    ⟨usable.intact.of_frame rfl rfl rfl fun completed => completed,
      usable.fits.of_frame rfl rfl rfl⟩
  call := by
    intro d call usable
    obtain ⟨result, performed, covered⟩ :=
      usable.fits.perform covers_known (fun _ defect => defect) call
    refine ⟨result, performed, ?_⟩
    rintro after reply rfl
    exact ⟨(usable.intact.perform performed).1, (covered after reply rfl).1⟩

theorem Usable.close {g : Graph} {d : Debugger} (usable : Usable g d) :
    ∃ after, d.close = .ok after ∧ after.graph = g ∧ after.close = .ok after ∧ Usable g after := by
  have closed : d.close = .ok { d with graph := g, saved := none } := usable.intact.rejoin
  have afterIntact : Intact g { d with graph := g, saved := none } := .whole rfl rfl
  obtain ⟨after, rejoined, fits⟩ := usable.fits.rejoin
  rw [usable.intact.rejoin] at rejoined
  cases rejoined
  exact ⟨_, closed, rfl, afterIntact.rejoin, afterIntact, fits⟩

theorem Reachable.usable {g : Graph} {loaded d : Debugger} (reached : Reachable loaded d)
    (start : Usable g loaded) : Usable g d := by
  have stable := stable_usable g
  induction reached with
  | loaded => exact start
  | call _ performed ih =>
    obtain ⟨result, comesOut, kept⟩ := stable.call _ ih
    rw [performed] at comesOut
    cases comesOut
    exact kept _ _ rfl
  | write _ name value ih => exact stable.machine _ ih
  | writeAt _ written ih => exact stable.machine _ ih
  | execute _ id ih => exact stable.machine _ ih
  | interpret _ fuel link ih => exact stable.machine _ ih
  | session _ session ih => exact stable.session session ih
  | sessionEnd _ ended ih =>
    obtain ⟨result, comesOut, closes⟩ := stable.run ih _
    rw [ended] at comesOut
    cases comesOut
    obtain ⟨last, lastUsable, closed⟩ := closes _ _ rfl
    obtain ⟨after, closedAgain, -, -, afterUsable⟩ := lastUsable.close
    rw [closed] at closedAgain
    cases closedAgain
    exact afterUsable

end Debugger

/-- Links are given back.  However a debugger is used, alone, beside direct executions or from a
shell, it keeps the links of its pending node at most and only until execution has completed; no
call on it has a defect.  Closing it, any number of times, the end of execution and the end of a
session leave the graph that was loaded. -/
theorem links_are_restored {g : Graph} (entry : g.InRange g.entry)
    (links : ∀ {id node}, g.node? id = some node → g.LinksInRange node.links)
    (known : ∀ {id node}, g.node? id = some node → node.ComposedOf Element.IsKnown) (m : Machine) :
    ∃ loaded, Debugger.load g m = .ok loaded ∧
      ∀ {d : Debugger}, Debugger.Reachable loaded d →
        Debugger.LinksKept g d ∧
        (∃ after, d.close = .ok after ∧ after.graph = g ∧ after.close = .ok after) ∧
        (∀ call, ∃ result, d.perform call = .ok result ∧
          ∀ after stop, result = some (after, .stopped stop) → stop.IsEnd →
            after.graph = g) ∧
        ∀ (sh : Shell) (fuel : Nat), sh.debugger = d →
          ∃ result, sh.run fuel = .ok result ∧
            ∀ after ending, result = some (after, ending) → after.debugger.graph = g := by
  have fits : Graph.Fits Element.IsKnown g g := ⟨fun _ => rfl, entry, links, known⟩
  obtain ⟨loaded, isLoaded, loadedFits⟩ := Debugger.Fits.load fits m
  refine ⟨loaded, isLoaded, ?_⟩
  intro d reached
  have usable := reached.usable ⟨(Debugger.Intact.of_load isLoaded).1, loadedFits⟩
  have stable := Debugger.stable_usable g
  refine ⟨usable.intact.linksKept, ?_, ?_, ?_⟩
  · obtain ⟨after, closed, whole, again, -⟩ := usable.close
    exact ⟨after, closed, whole, again⟩
  · intro call
    obtain ⟨result, performed, -⟩ := stable.call call usable
    refine ⟨result, performed, ?_⟩
    rintro after stop rfl isEnd
    exact (usable.intact.perform performed).2 stop rfl isEnd
  · rintro sh fuel rfl
    obtain ⟨result, ran, closes⟩ := stable.run usable fuel
    refine ⟨result, ran, ?_⟩
    intro after ending returned
    obtain ⟨last, lastUsable, closed⟩ := closes after ending returned
    obtain ⟨again, closedAgain, whole, -, -⟩ := lastUsable.close
    rw [closed] at closedAgain
    cases closedAgain
    exact whole

/-- A loop that is its own body, and so comes back to the node that was just isolated. -/
def Graph.spin : Graph :=
  { nodes := #[.loop 1 ⟨{ kind := .trueLiteral, text := [] }, none⟩ (some 0) none],
    entry := some 0 }

/-- Loading takes the links of the only node, and closing gives them back at any time. -/
theorem spin_is_restored :
    Graph.Fits Element.IsKnown .spin .spin ∧
      ∀ m : Machine, ∃ loaded, Debugger.load .spin m = .ok loaded ∧
        loaded.graph = Graph.spin.relink 0 .none ∧
        ∀ {d : Debugger}, Debugger.Reachable loaded d →
          ∃ after, d.close = .ok after ∧ after.graph = .spin := by
  have only {id : NodeId} {node : Node} (found : Graph.spin.node? id = some node) :
      node = .loop 1 ⟨{ kind := .trueLiteral, text := [] }, none⟩ (some 0) none := by
    simpa [Graph.spin] using Graph.mem_of_node? found
  have toItself : Graph.spin.InRange (some 0) := by
    intro id leads
    cases leads
    rfl
  have fits : Graph.Fits Element.IsKnown .spin .spin := by
    refine ⟨fun _ => rfl, toItself, ?_, ?_⟩
    · intro id node found
      rw [only found]
      exact ⟨Graph.inRange_none _, toItself⟩
    · intro id node found
      rw [only found]
      exact ⟨by simp [Element.IsKnown, ElementKind.known], fun _ _ single => by cases single⟩
  refine ⟨fits, ?_⟩
  intro m
  obtain ⟨loaded, isLoaded, kept⟩ := links_are_restored fits.entry fits.links fits.composed m
  refine ⟨loaded, isLoaded, ?_, ?_⟩
  · obtain ⟨lines, found⟩ := fits.lines_ok
    simp only [Debugger.load, found] at isLoaded
    cases isLoaded
    rfl
  · intro d reached
    obtain ⟨after, closed, whole, -⟩ := (kept reached).2.1
    exact ⟨after, closed, whole⟩

end StepGraph
