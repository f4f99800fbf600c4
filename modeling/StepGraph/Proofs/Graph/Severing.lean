import StepGraph.Proofs.Build.Nodes
import StepGraph.Proofs.Course

/-!
# Runs of a graph with severed nodes

A course that stops after certain statements executes the same statements as
the course it comes from, up to and including the first of these.  A graph some
of whose nodes have lost their links is run by such a course: what a statement
does has nothing to do with its links, so a severed node is still executed, and
is the last one.
-/

namespace StepGraph

namespace Course

variable {Event Rest : Type} {c cut : Course Event Rest} {stop : Event → Prop} {last : Rest}

/-! ## The statements executed -/

theorem halt_of_next {p : Progress Event Rest} {rest : Rest}
    {move : Event × (Machine → Machine × Except Fault Rest)} (status : p.status = .ok rest)
    (next : c.next rest = some move) : c.halt p = .outOfFuel := by
  unfold halt
  rw [status]
  simp only [next, Option.isNone_some, Bool.false_eq_true, if_false]

theorem advance_cases (c : Course Event Rest) (p : Progress Event Rest) :
    c.halt p ≠ .outOfFuel ∨
      ∃ rest event execute, p.status = .ok rest ∧ c.next rest = some (event, execute) ∧
        c.advance p =
          { executed := p.executed ++ [event], machine := (execute p.machine).1,
            status := (execute p.machine).2 } := by
  cases status : p.status with
  | error fault =>
    left
    rw [halt_of_error status]
    simp
  | ok rest =>
    cases next : c.next rest with
    | none =>
      left
      rw [halt_of_end status next]
      simp
    | some move => exact .inr ⟨rest, move.1, move.2, rfl, next, advance_of_next status next⟩

/-- A run executes one statement at a time until it has ended. -/
theorem length_executed_after (c : Course Event Rest) (n : Nat) (rest : Rest) (m : Machine) :
    (c.after n rest m).executed.length ≤ n ∧
      ((c.after n rest m).executed.length = n ∨ c.halt (c.after n rest m) ≠ .outOfFuel) := by
  induction n with
  | zero => exact ⟨Nat.le_refl 0, .inl rfl⟩
  | succ n ih =>
    obtain ⟨le, grown⟩ := ih
    rw [after_succ]
    rcases c.advance_cases (c.after n rest m) with ended | ⟨_, event, _, status, next, moved⟩
    · rw [advance_of_halt ended]
      exact ⟨Nat.le_succ_of_le le, .inr ended⟩
    · have length : (c.after n rest m).executed.length = n :=
        grown.resolve_right (not_not_intro (halt_of_next status next))
      rw [moved, List.length_append, length]
      exact ⟨Nat.le_refl _, .inl rfl⟩

theorem executed_after_of_le (c : Course Event Rest) {k n : Nat} (le : k ≤ n) (rest : Rest)
    (m : Machine) :
    (c.after k rest m).executed = (c.after n rest m).executed.take k := by
  obtain ⟨extra, rfl⟩ := Nat.exists_eq_add_of_le le
  induction extra with
  | zero => rw [Nat.add_zero, List.take_of_length_le (c.length_executed_after k rest m).1]
  | succ extra ih =>
    rw [ih (Nat.le_add_right k extra), ← Nat.add_assoc, after_succ]
    obtain ⟨-, grown⟩ := c.length_executed_after (k + extra) rest m
    rcases c.advance_cases (c.after (k + extra) rest m) with
      ended | ⟨_, event, _, status, next, moved⟩
    · rw [advance_of_halt ended]
    · have length := grown.resolve_right (not_not_intro (halt_of_next status next))
      rw [moved, List.take_append_of_le_length (by omega)]

/-! ## Courses that stop -/

/-- The course `cut` executes the same statements as `c` with the same effects, but after one with
`stop` it is at its end. -/
structure StopsAfter (c cut : Course Event Rest) (stop : Event → Prop) (last : Rest) : Prop where
  ended : cut.next last = none
  ends : ∀ {rest}, c.next rest = none → cut.next rest = none
  passes : ∀ {rest event execute}, c.next rest = some (event, execute) → ¬ stop event →
    cut.next rest = some (event, execute)
  stops : ∀ {rest event execute}, c.next rest = some (event, execute) → stop event →
    cut.next rest = some (event, fun m => ((execute m).1, (execute m).2.map fun _ => last))

namespace StopsAfter

theorem advance_of_halt {p : Progress Event Rest} (stopping : StopsAfter c cut stop last)
    (ended : c.halt p ≠ .outOfFuel) : cut.advance p = p := by
  cases status : p.status with
  | error fault => exact advance_of_error status
  | ok rest =>
    cases next : c.next rest with
    | none => exact advance_of_end status (stopping.ends next)
    | some move => exact absurd (halt_of_next status next) ended

/-- As long as no statement with `stop` has been executed there is no difference. -/
theorem after_of_avoids (stopping : StopsAfter c cut stop last) {n : Nat} {rest : Rest}
    {m : Machine} (avoids : ∀ event ∈ (c.after n rest m).executed, ¬ stop event) :
    cut.after n rest m = c.after n rest m := by
  induction n with
  | zero => rfl
  | succ n ih =>
    rw [after_succ] at avoids ⊢
    rw [after_succ]
    rcases c.advance_cases (c.after n rest m) with ended | ⟨_, event, _, status, next, moved⟩
    · rw [Course.advance_of_halt ended] at avoids ⊢
      rw [ih avoids]
      exact stopping.advance_of_halt ended
    · rw [moved] at avoids ⊢
      have passed : ¬ stop event := avoids event (List.mem_append_right _ List.mem_cons_self)
      rw [ih fun earlier member => avoids earlier (List.mem_append_left _ member)]
      exact advance_of_next status (stopping.passes next passed)

/-- The first statement with `stop` is executed as well, and is the last one. -/
theorem after_of_reaches (stopping : StopsAfter c cut stop last) {k n : Nat} {rest : Rest}
    {m : Machine} {before : List Event} {event : Event}
    (executed : (c.after (k + 1) rest m).executed = before ++ [event]) (length : before.length = k)
    (avoids : ∀ earlier ∈ before, ¬ stop earlier) (reaches : stop event) (le : k + 1 ≤ n) :
    cut.after n rest m =
      { executed := before ++ [event], machine := (c.after (k + 1) rest m).machine,
        status := (c.after (k + 1) rest m).status.map fun _ => last } := by
  have upTo : (c.after k rest m).executed = before := by
    rw [c.executed_after_of_le (Nat.le_succ k), executed, List.take_append_of_le_length (by omega),
      List.take_of_length_le (by omega)]
  have same : cut.after k rest m = c.after k rest m := by
    apply stopping.after_of_avoids
    rw [upTo]
    exact avoids
  have bounded : cut.after (k + 1) rest m =
      { executed := before ++ [event], machine := (c.after (k + 1) rest m).machine,
        status := (c.after (k + 1) rest m).status.map fun _ => last } := by
    rw [after_succ] at executed ⊢
    rw [after_succ, same]
    rcases c.advance_cases (c.after k rest m) with ended | ⟨_, next, _, status, isNext, moved⟩
    · rw [Course.advance_of_halt ended, upTo] at executed
      simp at executed
    · rw [moved] at executed ⊢
      rw [upTo] at executed
      obtain rfl : next = event := by simpa using executed
      rw [advance_of_next status (stopping.stops isNext reaches), upTo]
  have halted : cut.halt (cut.after (k + 1) rest m) ≠ .outOfFuel := by
    rw [bounded]
    cases status : (c.after (k + 1) rest m).status with
    | error fault =>
      rw [halt_of_error (by rfl)]
      simp
    | ok left =>
      rw [halt_of_end (by rfl) stopping.ended]
      simp
  rw [after_of_le halted le, bounded]

end StopsAfter

end Course

/-- How a run ends whose last statement has this result. -/
def Halt.ofLast {α : Type} : Except Fault α → Halt
  | .ok _ => .finished
  | .error fault => .failed fault

namespace Graph

variable {g severed : Graph} {ids : List NodeId}

def severAll (g : Graph) : List NodeId → Except Defect Graph
  | [] => .ok g
  | id :: rest =>
    match g.sever id with
    | .error defect => .error defect
    | .ok (_, g) => g.severAll rest

/-- The nodes at some positions have lost their links, all others are the same. -/
def SeveredAt (g severed : Graph) (ids : List NodeId) : Prop :=
  ∀ id, severed.node? id =
    if id ∈ ids then (g.node? id).map (Node.withLinks .none) else g.node? id

theorem exists_severAll (valid : ∀ id ∈ ids, g.isValid id = true) :
    ∃ severed, g.severAll ids = .ok severed ∧ SeveredAt g severed ids := by
  induction ids generalizing g with
  | nil => exact ⟨g, rfl, fun id => by simp⟩
  | cons first rest ih =>
    obtain ⟨node, found⟩ := isValid_iff.mp (valid first List.mem_cons_self)
    have restValid : ∀ id ∈ rest, (g.relink first .none).isValid id = true := by
      intro id member
      rw [isValid_relink]
      exact valid id (List.mem_cons_of_mem _ member)
    obtain ⟨severed, cut, severedAt⟩ := ih restValid
    refine ⟨severed, ?_, ?_⟩
    · rw [severAll, sever_of_node? found]
      exact cut
    · intro id
      rw [severedAt id]
      by_cases isFirst : id = first
      · subst isFirst
        rw [node?_relink, if_pos rfl, if_pos List.mem_cons_self]
        split
        · cases g.node? id <;> simp
        · rfl
      · rw [node?_relink_of_ne isFirst]
        simp [isFirst]

theorem execute_congr {h : Graph} {id : NodeId} (same : g.node? id = h.node? id) (m : Machine) :
    g.execute id m = h.execute id m := by
  unfold execute node
  rw [same]

/-- A node without links does what it did with them, and leads nowhere. -/
theorem execute_of_severed {id : NodeId} {node : Node} (found : g.node? id = some node)
    (cut : severed.node? id = some (node.withLinks .none)) (m : Machine) :
    severed.execute id m =
      ((g.execute id m).1, (g.execute id m).2.map fun outcome => { outcome with next := none }) := by
  rw [execute_of_node? cut, execute_of_node? found, Machine.execute_eq_effect,
    m.execute_eq_effect node, Machine.effect_withLinks, Node.links_withLinks_none]
  cases (m.effect node).2 with
  | error fault => rfl
  | ok branch => cases branch <;> rfl

/-- A graph with severed nodes is run like the whole graph, but stops after each of them. -/
theorem SeveredAt.stopsAfter (severedAt : SeveredAt g severed ids)
    (valid : ∀ id ∈ ids, g.isValid id = true) :
    Course.StopsAfter g.course severed.course (· ∈ ids) none where
  ended := rfl
  ends := by
    intro link ended
    cases link with
    | none => rfl
    | some id => cases ended
  passes := by
    intro link id execute next passed
    cases link with
    | none => cases next
    | some pending =>
      cases next
      have same : severed.node? id = g.node? id := by rw [severedAt id, if_neg passed]
      simp only [course, Option.map_some, execute_congr same]
  stops := by
    intro link id execute next stops
    cases link with
    | none => cases next
    | some pending =>
      cases next
      obtain ⟨node, found⟩ := isValid_iff.mp (valid id stops)
      have cut : severed.node? id = some (node.withLinks .none) := by
        rw [severedAt id, if_pos stops, found, Option.map_some]
      simp only [course, Option.map_some, execute_of_severed found cut]
      congr 3
      funext m
      cases (g.execute id m).2 <;> rfl

theorem course_after_one (g : Graph) (id : NodeId) (m : Machine) :
    g.course.after 1 (some id) m =
      { executed := [id], machine := (g.execute id m).1,
        status := (g.execute id m).2.map Outcome.next } :=
  rfl

theorem halt_course (g h : Graph) (p : Progress NodeId Link) :
    g.course.halt p = h.course.halt p := by
  unfold Course.halt
  cases p.status with
  | error fault => rfl
  | ok link => cases link <;> rfl

end Graph

/-- A severed node bounds execution.  Some nodes of a graph are severed and a run is started
anywhere.  As long as none of them is executed it makes the same progress as in the whole graph, so
it is the same run if this never happens.  The first of them that is executed in the whole graph is
executed in the same way, and ends the run.  A run from a severed node executes this node alone. -/
theorem severed_node_ends_run {g : Graph} {ids : List NodeId}
    (valid : ∀ id ∈ ids, g.isValid id = true) :
    ∃ severed, g.severAll ids = .ok severed ∧ ∀ (start : Link) (m : Machine),
      (∀ n, (∀ id ∈ (g.course.after n start m).executed, id ∉ ids) →
        severed.course.after n start m = g.course.after n start m ∧
          severed.run n start m = g.run n start m) ∧
      (∀ {n before id later}, (g.course.after n start m).executed = before ++ id :: later →
        (∀ earlier ∈ before, earlier ∉ ids) → id ∈ ids →
        (g.course.after (before.length + 1) start m).executed = before ++ [id] ∧
          ∀ fuel, before.length + 1 ≤ fuel →
            (severed.course.after fuel start m).executed = before ++ [id] ∧
            severed.run fuel start m =
              ((g.course.after (before.length + 1) start m).machine,
                .ofLast (g.course.after (before.length + 1) start m).status)) ∧
      ∀ id ∈ ids, start = some id → ∀ fuel, 0 < fuel →
        (severed.course.after fuel start m).executed = [id] ∧
          severed.run fuel start m = ((g.execute id m).1, .ofLast (g.execute id m).2) := by
  obtain ⟨severed, cut, severedAt⟩ := Graph.exists_severAll valid
  have stopping := severedAt.stopsAfter valid
  refine ⟨severed, cut, ?_⟩
  intro start m
  have reaches {before : List NodeId} {id : NodeId}
      (executed : (g.course.after (before.length + 1) start m).executed = before ++ [id])
      (avoids : ∀ earlier ∈ before, earlier ∉ ids) (member : id ∈ ids) :
      ∀ fuel, before.length + 1 ≤ fuel →
        (severed.course.after fuel start m).executed = before ++ [id] ∧
        severed.run fuel start m =
          ((g.course.after (before.length + 1) start m).machine,
            .ofLast (g.course.after (before.length + 1) start m).status) := by
    intro fuel enough
    have bounded := stopping.after_of_reaches executed rfl avoids member enough
    rw [severed.run_eq_after, bounded]
    refine ⟨rfl, ?_⟩
    cases (g.course.after (before.length + 1) start m).status <;> rfl
  refine ⟨?_, ?_, ?_⟩
  · intro n avoids
    have same := stopping.after_of_avoids avoids
    refine ⟨same, ?_⟩
    rw [severed.run_eq_after, g.run_eq_after, same, severed.halt_course g]
  · intro n before id later executed avoids member
    have length := (g.course.length_executed_after n start m).1
    rw [executed, List.length_append, List.length_cons] at length
    have first : (g.course.after (before.length + 1) start m).executed = before ++ [id] := by
      rw [g.course.executed_after_of_le (by omega : before.length + 1 ≤ n), executed,
        List.take_length_add_append]
      rfl
    exact ⟨first, reaches first avoids member⟩
  · rintro id member rfl fuel enough
    obtain ⟨executed, ran⟩ := @reaches [] id (by simp [g.course_after_one])
      (fun _ earlier => by cases earlier) member fuel enough
    refine ⟨executed, ?_⟩
    rw [ran, List.length_nil, g.course_after_one]
    cases (g.execute id m).2 <;> rfl

/-- The countdown with its outer loop severed evaluates the condition of that loop, which is true,
and ends before anything is counted or printed. -/
theorem severed_countdown_ends_at_loop :
    (∀ id ∈ [1, 4], Graph.countdown.isValid id = true) ∧
      ∃ severed, Graph.countdown.severAll [1, 4] = .ok severed ∧ ∀ fuel, 2 ≤ fuel →
        (severed.course.after fuel (some 0) .idle).executed = [0, 1] ∧
          (severed.run fuel (some 0) .idle).2 = .finished ∧
          (severed.run fuel (some 0) .idle).1.output = #[] := by
  have valid : ∀ id ∈ [1, 4], Graph.countdown.isValid id = true := by decide
  refine ⟨valid, ?_⟩
  obtain ⟨severed, cut, bounds⟩ := severed_node_ends_run valid
  refine ⟨severed, cut, ?_⟩
  intro fuel enough
  have whole : (Graph.countdown.course.after 2 (some 0) .idle).executed = [0] ++ 1 :: [] := by
    decide +kernel
  obtain ⟨-, ends⟩ := (bounds (some 0) .idle).2.1 whole (by decide) (by decide)
  obtain ⟨executed, ran⟩ := ends fuel enough
  rw [executed, ran]
  decide +kernel

end StepGraph
