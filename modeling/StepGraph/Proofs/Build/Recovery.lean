import StepGraph.Proofs.Build.Shape

/-!
# The draft of a built graph

A built graph still holds all that its draft says.  The nodes are read from the
last one back, and the statements after a node are kept as a row.  A loop takes
its body off the front of this row: it ends with the first statement that leads
back to the loop, since the others lead to places after it.
-/

namespace StepGraph

/-- A statement read from a graph, with the link of its node to what comes after it. -/
structure PlacedStatement where
  statement : StatementDraft
  next : Link

namespace PlacedStatement

/-- The statements up to the first one that leads to a place, and those after it. -/
def splitAfter (link : Link) : List PlacedStatement → List PlacedStatement × List PlacedStatement
  | [] => ([], [])
  | first :: rest =>
    if first.next = link then ([first], rest)
    else (first :: (splitAfter link rest).1, (splitAfter link rest).2)

/-- The statements of some nodes, of which the first one stands at a position. -/
def ofNodes (position : Nat) : List Node → List PlacedStatement
  | [] => []
  | .step line action next :: rest =>
    { statement := (Node.step line action next).written, next } :: ofNodes (position + 1) rest
  | .loop line condition body next :: rest =>
    let split := splitAfter (some position) (ofNodes (position + 1) rest)
    let statement := (Node.loop line condition body next).written
    { statement := { statement with body := split.1.map PlacedStatement.statement }, next } ::
      split.2

end PlacedStatement

/-- The draft that a graph has been built from, without the fields that are not used. -/
def Graph.toDraft (g : Graph) : Draft :=
  { statements := some ((PlacedStatement.ofNodes 0 g.nodes.toList).map
      PlacedStatement.statement) }

namespace StatementDraft

/-! ## Statements without unused fields -/

theorem body_trimmed_of_not_isLoop {s : StatementDraft} (other : ¬ s.isLoop = true) :
    s.trimmed.body = [] := by
  obtain ⟨line, kind, target, function, argument, expr, body⟩ := s
  rw [trimmed]
  cases named : StatementKind.ofName? kind with
  | none => rfl
  | some found =>
    cases found with
    | assign | call | pass => rfl
    | loop => exact absurd (by simp [isLoop, named]) other

theorem alone_of_not_isLoop {s : StatementDraft} (other : ¬ s.isLoop = true) :
    s.alone = s.trimmed := by
  have noBody := body_trimmed_of_not_isLoop other
  unfold alone
  generalize s.trimmed = t at noBody ⊢
  cases t
  cases noBody
  rfl

theorem alone_of_isLoop {s : StatementDraft} (isLoop : s.isLoop = true) :
    { s.alone with body := trimmedAll s.body } = s.trimmed := by
  rw [← body_trimmed_of_isLoop s isLoop]
  unfold alone
  cases s.trimmed
  rfl

mutual

def ofKind : StatementDraft → StatementDraft
  | { line, kind, target, function, argument, expr, body } =>
    match StatementKind.ofName? kind with
    | some .assign => { empty with line, kind, target, function, argument, expr }
    | some .call => { empty with line, kind, function, argument }
    | some .loop => { empty with line, kind, expr, body := ofKinds body }
    | some .pass | none => { empty with line, kind }

def ofKinds : List StatementDraft → List StatementDraft
  | [] => []
  | s :: rest => ofKind s :: ofKinds rest

end

/-- An assignment of an expression, with an argument that belongs to no function. -/
def HasIdleArgument (s : StatementDraft) : Prop :=
  s.kind = utf8 "assign" ∧ s.function = [] ∧ s.argument ≠ none

instance : DecidablePred HasIdleArgument := fun s =>
  inferInstanceAs (Decidable (s.kind = utf8 "assign" ∧ s.function = [] ∧ s.argument ≠ none))

/-- Apart from idle arguments the kinds tell which fields are used. -/
theorem trimmedAll_eq_ofKinds (drafts : List StatementDraft)
    (used : ∀ s ∈ visitedAll drafts, ¬ s.HasIdleArgument) : trimmedAll drafts = ofKinds drafts := by
  induction drafts using visitedAll.induct
    (fun s => (∀ t ∈ s.visited, ¬ t.HasIdleArgument) → s.trimmed = s.ofKind) with
  | case1 line kind target function argument expr body ih =>
    rename_i used
    rw [visited_eq] at used
    rw [trimmed, ofKind]
    cases found : StatementKind.ofName? kind with
    | none => rfl
    | some known =>
      have named := (StatementKind.ofName?_eq_some_iff.mp found).symm
      cases known with
      | assign =>
        have own := used _ List.mem_cons_self
        by_cases noFunction : function = []
        · have noArgument : argument = none :=
            Classical.byContradiction fun present => own ⟨named, noFunction, present⟩
          simp [noFunction, noArgument]
        · simp [noFunction]
      | call | pass => rfl
      | loop =>
        have body := ih fun t member => used t (List.mem_cons_of_mem _ (by
          change t ∈ if kind = StatementKind.loop.name then visitedAll body else []
          rwa [if_pos named]))
        simp only [body]
  | case2 => rfl
  | case3 s rest ihFirst ihRest =>
    rw [visitedAll] at used
    rw [trimmedAll, ofKinds, ihFirst fun t member => used t (List.mem_append_left _ member),
      ihRest fun t member => used t (List.mem_append_right _ member)]

/-! ## Reading the nodes of statements -/

def placedAll (position : Nat) (tail : Link) : List StatementDraft → List PlacedStatement
  | [] => []
  | s :: rest =>
    { statement := s.trimmed, next := successor position s rest tail } ::
      placedAll (position + nodeCount s) tail rest

theorem map_statement_placedAll (position : Nat) (tail : Link) (drafts : List StatementDraft) :
    (placedAll position tail drafts).map PlacedStatement.statement = trimmedAll drafts := by
  induction drafts generalizing position with
  | nil => rfl
  | cons s rest ih => rw [placedAll, List.map_cons, ih, trimmedAll]

/-- The statements of a body are those up to the first one that leads back to the loop: every other
one leads to its right neighbour, which stands after the loop. -/
theorem splitAfter_placedAll {position loop : Nat} (inside : loop < position)
    {drafts : List StatementDraft} (filled : drafts.isEmpty = false)
    (others : List PlacedStatement) :
    PlacedStatement.splitAfter (some loop) (placedAll position (some loop) drafts ++ others) =
      (placedAll position (some loop) drafts, others) := by
  induction drafts generalizing position with
  | nil => cases filled
  | cons s rest ih =>
    rw [placedAll, List.cons_append, PlacedStatement.splitAfter]
    cases rest with
    | nil =>
      have back : successor position s [] (some loop) = some (loop : NodeId) := rfl
      rw [if_pos back]
      rfl
    | cons next more =>
      have further : successor position s (next :: more) (some loop) ≠ some (loop : NodeId) := by
        intro back
        have same : ((position + nodeCount s : Nat) : Int) = loop := Option.some.inj back
        omega
      rw [if_neg further, ih (by omega) rfl]

/-- The nodes of a list of statements are read as these statements, whatever comes after them. -/
theorem ofNodes_of_blockNodes (position : Nat) (tail : Link) (drafts : List StatementDraft)
    {built : List Node} (succeeded : blockNodes position tail drafts = .ok built)
    (more : List Node) :
    PlacedStatement.ofNodes position (built ++ more) =
      placedAll position tail drafts ++
        PlacedStatement.ofNodes (position + nodeCounts drafts) more := by
  induction position, tail, drafts using blockNodes.induct
    (fun position next s => ∀ {built}, nodes position next s = .ok built → ∀ more,
      PlacedStatement.ofNodes position (built ++ more) =
        { statement := s.trimmed, next } ::
          PlacedStatement.ofNodes (position + nodeCount s) more) generalizing built more with
  | case1 position next line kind target function argument expr body ih =>
    rename_i built succeeded more
    generalize written : StatementDraft.mk line kind target function argument expr body = s
      at succeeded ⊢
    obtain rfl : s.body = body := by rw [← written]
    rcases nodes_cases succeeded with ⟨action, checked, rfl⟩ |
      ⟨condition, inner, checked, innerBuilt, rfl⟩
    · have other := mt (isLoop_iff_of_check checked).mp (by simp)
      have same : (Node.step s.line action next).written = s.trimmed :=
        (written_of_check checked).trans (alone_of_not_isLoop other)
      rw [nodeCount_eq, if_neg other, List.cons_append, List.nil_append, PlacedStatement.ofNodes,
        same]
    · have isLoop := (isLoop_iff_of_check checked).mpr ⟨condition, rfl⟩
      have same : (Node.loop s.line condition (some (position + 1 : Nat)) next).written = s.alone :=
        written_of_check checked
      rw [nodeCount_eq, if_pos isLoop, List.cons_append, PlacedStatement.ofNodes,
        ih innerBuilt more, splitAfter_placedAll (Nat.lt_succ_self position)
          (body_of_check checked), same]
      simp only [map_statement_placedAll, alone_of_isLoop isLoop, Nat.add_assoc]
  | case2 position tail =>
    cases succeeded
    rfl
  | case3 position tail s rest ihFirst ihRest =>
    obtain ⟨first, others, firstBuilt, othersBuilt, rfl⟩ := blockNodes_cons_ok succeeded
    rw [List.append_assoc, ihFirst firstBuilt, ihRest othersBuilt, placedAll, nodeCounts,
      List.cons_append, Nat.add_assoc]

end StatementDraft

namespace Draft

theorem build_congr {d e : Draft} (same : d.toList = e.toList) : d.build = e.build := by
  unfold build
  rw [same]

def ofKinds (d : Draft) : Draft := { statements := d.statements.map StatementDraft.ofKinds }

theorem toList_ofKinds (d : Draft) : d.ofKinds.toList = StatementDraft.ofKinds d.toList := by
  obtain ⟨_ | statements⟩ := d
  · rfl
  · rfl

theorem build_trimmed (d : Draft) : d.trimmed.build = d.build := by
  rw [build_eq, build_eq, toList_trimmed, StatementDraft.blockNodes_trimmedAll,
    StatementDraft.isEmpty_trimmedAll]

/-- What is read from a built graph is what its draft says. -/
theorem toDraft_of_build {d : Draft} {g : Graph} (built : d.build = .ok g) :
    g.toDraft.toList = d.trimmed.toList := by
  obtain ⟨nodes, laidOut, rfl, -⟩ := build_ok built
  have read := StatementDraft.ofNodes_of_blockNodes 0 none d.toList laidOut []
  rw [List.append_nil, PlacedStatement.ofNodes, List.append_nil] at read
  rw [toList_trimmed, ← StatementDraft.map_statement_placedAll 0 none, ← read]
  rfl

end Draft

/-- Nothing that is used is lost when a draft is built.  It can be read from the graph, and is built
into the same graph again.  So two drafts have the same graph exactly if they have the same
statements without the fields that are not used.  These are the fields that do not belong to the
kind of a statement, and the argument of an assignment that calls no function. -/
theorem built_draft_is_recovered :
    (∀ {d : Draft} {g : Graph}, d.build = .ok g →
      g.toDraft.toList = d.trimmed.toList ∧ g.toDraft.build = .ok g) ∧
      (∀ {d e : Draft} {g h : Graph}, d.build = .ok g → e.build = .ok h →
        (g = h ↔ d.trimmed.toList = e.trimmed.toList)) ∧
      ∀ {d : Draft}, (∀ s ∈ d.visited, ¬ s.HasIdleArgument) →
        d.trimmed.toList = d.ofKinds.toList := by
  refine ⟨?_, ?_, ?_⟩
  · intro d g built
    have same := Draft.toDraft_of_build built
    refine ⟨same, ?_⟩
    rw [Draft.build_congr same, d.build_trimmed, built]
  · intro d e g h built otherBuilt
    constructor
    · rintro rfl
      rw [← Draft.toDraft_of_build built, Draft.toDraft_of_build otherBuilt]
    · intro same
      have agree : d.build = e.build := by
        rw [← d.build_trimmed, Draft.build_congr same, e.build_trimmed]
      rw [built, otherBuilt] at agree
      exact Except.ok.inj agree
  · intro d used
    rw [Draft.toList_trimmed, Draft.toList_ofKinds]
    exact StatementDraft.trimmedAll_eq_ofKinds d.toList used

/-- The countdown with an argument wherever none is used. -/
def Draft.litteredCountdown : Draft :=
  let unused : ElementDraft := { kind := utf8 "str", value := utf8 "unused" }
  { statements := Draft.countdown.statements.map fun statements => statements.map fun s =>
      if s.function.isEmpty then { s with argument := some unused } else s }

/-- Both loops of the countdown are recovered with their bodies, though they end at the same
statement, and the arguments that are not used make no difference. -/
theorem countdown_is_recovered :
    Draft.countdown.build = .ok .countdown ∧ Draft.litteredCountdown.build = .ok .countdown ∧
      Graph.countdown.toDraft.toList = Draft.countdown.trimmed.toList ∧
      Graph.countdown.toDraft.build = .ok .countdown ∧
      Draft.litteredCountdown.trimmed.toList = Draft.countdown.trimmed.toList ∧
      (∀ s ∈ Draft.countdown.visited, ¬ s.HasIdleArgument) ∧
      Draft.countdown.trimmed.toList = Draft.countdown.ofKinds.toList := by
  have littered : Draft.litteredCountdown.build = .ok .countdown := by
    rw [Draft.build_eq]
    rfl
  have used : ∀ s ∈ Draft.countdown.visited, ¬ s.HasIdleArgument := by decide
  obtain ⟨recovers, agree, kinds⟩ := built_draft_is_recovered
  obtain ⟨same, builtAgain⟩ := recovers Draft.build_countdown
  exact ⟨Draft.build_countdown, littered, same, builtAgain,
    (agree littered Draft.build_countdown).mp rfl, used, kinds used⟩

/-- A variable becomes one; the argument belongs to no function. -/
def Draft.becomesOne (argument : Option ElementDraft) : Draft :=
  { statements := some
      [{ StatementDraft.empty with
          line := 1, kind := utf8 "assign", target := utf8 "x", argument
          expr := some ⟨{ kind := utf8 "int", value := utf8 "1" }, [], none⟩ }] }

/-- An idle argument is lost: with and without it the graph is the same, though the argument belongs
to the kind of the statement. -/
theorem idle_argument_is_lost :
    let argument : ElementDraft := { kind := utf8 "int", value := utf8 "7" }
    ∃ g, (Draft.becomesOne (some argument)).build = .ok g ∧
      (Draft.becomesOne none).build = .ok g ∧
      (Draft.becomesOne (some argument)).ofKinds.toList ≠ (Draft.becomesOne none).ofKinds.toList := by
  refine ⟨_, rfl, rfl, ?_⟩
  intro same
  injection same with first
  injection first with _ _ _ _ argument
  cases argument

end StepGraph
