import StepGraph.Proofs.Build.Grammar
import StepGraph.Proofs.Build.Meaning

/-!
# What is built

A draft is built exactly if all its statements are well formed, where the
statements are visited in the order in which they are written and bodies count
in loops only.  The first one that is not well formed gives the error.  Fields
that a kind of statement does not use are without influence, and the links of
the nodes that have been laid out always lead to nodes.
-/

namespace StepGraph

namespace StatementDraft

/-! ## The statements that are visited -/

mutual

/-- A statement, and if it is a loop the statements of its body. -/
def visited : StatementDraft → List StatementDraft
  | { line, kind, target, function, argument, expr, body } =>
    { line, kind, target, function, argument, expr, body } ::
      if kind = utf8 "while" then visitedAll body else []

def visitedAll : List StatementDraft → List StatementDraft
  | [] => []
  | s :: rest => visited s ++ visitedAll rest

end

theorem isLoop_iff (s : StatementDraft) : s.isLoop = true ↔ s.kind = utf8 "while" := by
  unfold isLoop
  rw [beq_iff_eq, StatementKind.ofName?_eq_some_iff]
  exact eq_comm

def FirstError (statements : List StatementDraft) (error : BuildError) : Prop :=
  ∃ before s after, statements = before ++ s :: after ∧
    (∀ earlier ∈ before, earlier.WellFormed) ∧ ¬ s.WellFormed ∧ s.HasError error

theorem firstError_nil (error : BuildError) : ¬ FirstError [] error := by
  rintro ⟨before, s, after, split, -⟩
  simp at split

theorem not_wellFormed_of_hasError {s : StatementDraft} {error : BuildError}
    (hasError : s.HasError error) : ¬ s.WellFormed := by
  intro wellFormed
  obtain ⟨checked, succeeded⟩ := s.decides_check.ok_iff.mpr wellFormed
  rw [(s.decides_check.error_iff error).mpr hasError] at succeeded
  cases succeeded

theorem firstError_append_iff (front back : List StatementDraft) (error : BuildError) :
    FirstError (front ++ back) error ↔
      FirstError front error ∨ (∀ s ∈ front, s.WellFormed) ∧ FirstError back error := by
  constructor
  · rintro ⟨before, s, after, split, earlier, illFormed, hasError⟩
    rcases List.append_eq_append_iff.mp split with ⟨rest, rfl, rfl⟩ | ⟨rest, rfl, cut⟩
    · refine .inr ⟨?_, rest, s, after, rfl, ?_, illFormed, hasError⟩
      · exact fun s member => earlier s (List.mem_append_left _ member)
      · exact fun s member => earlier s (List.mem_append_right _ member)
    · cases rest with
      | nil =>
        obtain rfl : back = s :: after := cut.symm
        refine .inr ⟨?_, [], s, after, rfl, fun _ none => (by cases none), illFormed, hasError⟩
        simpa using earlier
      | cons first rest =>
        obtain ⟨rfl, -⟩ := List.cons.inj cut
        exact .inl ⟨before, s, rest, rfl, earlier, illFormed, hasError⟩
  · rintro (⟨before, s, after, rfl, earlier, bad⟩ |
      ⟨wellFormed, before, s, after, rfl, earlier, bad⟩)
    · exact ⟨before, s, after ++ back, by simp, earlier, bad⟩
    · refine ⟨front ++ before, s, after, by simp, ?_, bad⟩
      intro other member
      rcases List.mem_append.mp member with inFront | inBefore
      · exact wellFormed other inFront
      · exact earlier other inBefore

theorem firstError_cons_iff (s : StatementDraft) (rest : List StatementDraft) (error : BuildError) :
    FirstError (s :: rest) error ↔ s.HasError error ∨ s.WellFormed ∧ FirstError rest error := by
  have alone : FirstError [s] error ↔ s.HasError error := by
    constructor
    · rintro ⟨before, other, after, split, -, -, hasError⟩
      cases before with
      | nil =>
        cases split
        exact hasError
      | cons first before => simp at split
    · intro hasError
      exact ⟨[], s, [], rfl, fun _ none => (by cases none), not_wellFormed_of_hasError hasError,
        hasError⟩
  have appended := firstError_append_iff [s] rest error
  simpa [alone] using appended

/-- All are well formed and laid out, or the first one that is not gives the error. -/
theorem decides_blockNodes (position : Nat) (tail : Link) (drafts : List StatementDraft) :
    Decides (∀ s ∈ visitedAll drafts, s.WellFormed) (FirstError (visitedAll drafts))
      (blockNodes position tail drafts) := by
  induction position, tail, drafts using blockNodes.induct
    (fun position next s => Decides (∀ t ∈ visited s, t.WellFormed) (FirstError (visited s))
      (nodes position next s)) with
  | case1 position next line kind target function argument expr body ih =>
    rw [nodes, visited]
    -- Whether there is a body to visit is known only once the statement has passed.
    apply ((decides_check _).bind fun statement checked => ?_).congr
    · rw [List.forall_mem_cons]
    · intro error
      rw [firstError_cons_iff]
    · have isLoop := isLoop_iff_of_check checked
      rw [isLoop_iff] at isLoop
      cases statement with
      | step action =>
        rw [if_neg (by simp [isLoop])]
        exact .ok _ (fun _ none => by cases none) firstError_nil
      | loop condition =>
        rw [if_pos (isLoop.mpr ⟨condition, rfl⟩)]
        exact ih.map _
  | case2 position tail =>
    rw [visitedAll, blockNodes]
    exact .ok [] (fun _ none => by cases none) firstError_nil
  | case3 position tail s rest ihFirst ihRest =>
    rw [visitedAll, blockNodes]
    apply (ihFirst.bind fun first _ => ihRest.map _).congr
    · simp only [List.forall_mem_append]
    · intro error
      rw [firstError_append_iff]

/-! ## Fields that are not used -/

mutual

/-- A statement without the fields that it does not use: those that do not belong to its kind, and
the argument of an assignment that calls no function. -/
def trimmed : StatementDraft → StatementDraft
  | { line, kind, target, function, argument, expr, body } =>
    match StatementKind.ofName? kind with
    | some .assign =>
      let argument := if function = [] then none else argument
      { empty with line, kind, target, function, argument, expr }
    | some .call => { empty with line, kind, function, argument }
    | some .loop => { empty with line, kind, expr, body := trimmedAll body }
    | some .pass | none => { empty with line, kind }

def trimmedAll : List StatementDraft → List StatementDraft
  | [] => []
  | s :: rest => trimmed s :: trimmedAll rest

end

@[simp] theorem isEmpty_trimmedAll (drafts : List StatementDraft) :
    (trimmedAll drafts).isEmpty = drafts.isEmpty := by
  cases drafts <;> simp [trimmedAll]

section Trimmed

variable (s : StatementDraft)

@[simp] theorem line_trimmed : s.trimmed.line = s.line := by
  obtain ⟨line, kind, target, function, argument, expr, body⟩ := s
  rw [trimmed]
  split <;> rfl

@[simp] theorem kind_trimmed : s.trimmed.kind = s.kind := by
  obtain ⟨line, kind, target, function, argument, expr, body⟩ := s
  rw [trimmed]
  split <;> rfl

theorem body_trimmed_of_isLoop (isLoop : s.isLoop = true) : s.trimmed.body = trimmedAll s.body := by
  obtain ⟨line, kind, target, function, argument, expr, body⟩ := s
  have named : StatementKind.ofName? kind = some .loop := by
    simpa [StatementDraft.isLoop] using isLoop
  rw [trimmed, named]

@[simp] theorem isLoop_trimmed : s.trimmed.isLoop = s.isLoop := by
  unfold isLoop
  rw [kind_trimmed]

/-- The check reads no field that is left out. -/
@[simp] theorem check_trimmed : s.trimmed.check = s.check := by
  unfold check
  rw [line_trimmed, kind_trimmed]
  obtain ⟨line, kind, target, function, argument, expr, body⟩ := s
  cases named : StatementKind.ofName? kind with
  | none => rfl
  | some kind =>
    cases kind with
    | assign =>
      by_cases empty : function = []
      · simp [trimmed, named, checkAssign, checkSource, empty]
      · simp [trimmed, named, checkAssign, checkSource, empty]
    | call => simp [trimmed, named, checkCall]
    | pass => rfl
    | loop => simp [trimmed, named, checkLoop]

end Trimmed

theorem nodeCounts_trimmedAll (drafts : List StatementDraft) :
    nodeCounts (trimmedAll drafts) = nodeCounts drafts := by
  induction drafts using nodeCounts.induct (fun s => nodeCount s.trimmed = nodeCount s) with
  | case1 line kind target function argument expr body isLoop ih =>
    rw [nodeCount_eq, nodeCount_eq, isLoop_trimmed, body_trimmed_of_isLoop _ isLoop, ih]
  | case2 line kind target function argument expr body other =>
    rw [nodeCount_eq, nodeCount_eq, isLoop_trimmed, if_neg other, if_neg other]
  | case3 => rfl
  | case4 s rest ihFirst ihRest => rw [trimmedAll, nodeCounts, nodeCounts, ihFirst, ihRest]

theorem nodeCount_trimmed (s : StatementDraft) : nodeCount s.trimmed = nodeCount s := by
  have counted := nodeCounts_trimmedAll [s]
  simpa [trimmedAll, nodeCounts] using counted

/-- The fields that are left out do not influence the nodes. -/
theorem blockNodes_trimmedAll (position : Nat) (tail : Link) (drafts : List StatementDraft) :
    blockNodes position tail (trimmedAll drafts) = blockNodes position tail drafts := by
  induction position, tail, drafts using blockNodes.induct
    (fun position next s => nodes position next s.trimmed = nodes position next s) with
  | case1 position next line kind target function argument expr body ih =>
    generalize written : StatementDraft.mk line kind target function argument expr body = s
    obtain rfl : s.body = body := by rw [← written]
    have unchanged := check_trimmed s
    cases checked : s.check with
    | error failure =>
      rw [nodes_of_check_error checked, nodes_of_check_error (unchanged.trans checked)]
    | ok statement =>
      cases statement with
      | step action =>
        rw [nodes_of_check_step checked, nodes_of_check_step (unchanged.trans checked),
          line_trimmed]
      | loop condition =>
        have isLoop : s.isLoop = true := (isLoop_iff_of_check checked).mpr ⟨condition, rfl⟩
        rw [nodes_of_check_loop checked, nodes_of_check_loop (unchanged.trans checked),
          line_trimmed, body_trimmed_of_isLoop s isLoop, ih]
  | case2 position tail => rfl
  | case3 position tail s rest ihFirst ihRest =>
    rw [trimmedAll, blockNodes, blockNodes, nodeCount_trimmed, ihRest]
    have sameSuccessor : successor position s.trimmed (trimmedAll rest) tail =
        successor position s rest tail := by
      rw [successor, successor, isEmpty_trimmedAll, nodeCount_trimmed]
    rw [sameSuccessor, ihFirst]

end StatementDraft

/-! ## The links of the nodes -/

namespace Graph

variable {g : Graph}

theorem inRange_of_lt {position : Nat} (bound : position < g.size) :
    g.InRange (some (position : Nat)) := by
  intro id same
  cases same
  simpa [isValid, node?, size] using bound

theorem nodeViolation?_step {line : Int} {action : Action} {next : Link}
    (inRange : g.InRange next) : g.nodeViolation? (.step line action next) = none := by
  simp only [nodeViolation?, Node.links, danglingTarget?_eq_none_iff.mpr inRange,
    danglingTarget?_eq_none_iff.mpr g.inRange_none]

theorem nodeViolation?_loop {line : Int} {condition : Expr} {body : NodeId} {next : Link}
    (bodyInRange : g.InRange (some body)) (inRange : g.InRange next) :
    g.nodeViolation? (.loop line condition (some body) next) = none := by
  simp only [nodeViolation?, Node.links, danglingTarget?_eq_none_iff.mpr inRange,
    danglingTarget?_eq_none_iff.mpr bodyInRange]

end Graph

namespace StatementDraft

theorem nodeCounts_pos {drafts : List StatementDraft} (filled : drafts.isEmpty = false) :
    0 < nodeCounts drafts := by
  cases drafts with
  | nil => cases filled
  | cons s rest =>
    rw [nodeCounts, nodeCount_eq]
    split <;> omega

/-- In a graph with room for all nodes of a list, none of them is a violation. -/
theorem nodeViolation?_of_blockNodes {g : Graph} (position : Nat) (tail : Link)
    (drafts : List StatementDraft) {built : List Node}
    (succeeded : blockNodes position tail drafts = .ok built)
    (room : position + nodeCounts drafts ≤ g.size) (inRange : g.InRange tail) :
    ∀ node ∈ built, g.nodeViolation? node = none := by
  induction position, tail, drafts using blockNodes.induct
    (fun position next s => ∀ {built}, nodes position next s = .ok built →
      position + nodeCount s ≤ g.size → g.InRange next →
      ∀ node ∈ built, g.nodeViolation? node = none) generalizing built with
  | case1 position next line kind target function argument expr body ih =>
    rename_i built succeeded room inRange node member
    rcases nodes_cases succeeded with ⟨action, checked, rfl⟩ |
      ⟨condition, inner, checked, innerBuilt, rfl⟩
    · rw [List.mem_singleton.mp member]
      exact Graph.nodeViolation?_step inRange
    · have isLoop := (isLoop_iff_of_check checked).mpr ⟨condition, rfl⟩
      have filled : 0 < nodeCounts body := nodeCounts_pos (body_of_check checked)
      have roomForBody : position + (1 + nodeCounts body) ≤ g.size := by
        rwa [nodeCount_eq, if_pos isLoop] at room
      rcases List.mem_cons.mp member with rfl | inBody
      · exact Graph.nodeViolation?_loop (Graph.inRange_of_lt (by omega)) inRange
      · exact ih innerBuilt (by omega) (Graph.inRange_of_lt (by omega)) node inBody
  | case2 position tail =>
    cases succeeded
    intro node member
    cases member
  | case3 position tail s rest ihFirst ihRest =>
    obtain ⟨first, others, firstBuilt, othersBuilt, rfl⟩ := blockNodes_cons_ok succeeded
    rw [nodeCounts] at room
    have next : g.InRange (successor position s rest tail) := by
      unfold successor
      split
      · exact inRange
      · rename_i filled
        have positive := nodeCounts_pos (Bool.eq_false_iff.mpr filled)
        exact Graph.inRange_of_lt (by omega)
    intro node member
    rcases List.mem_append.mp member with inFirst | inOthers
    · exact ihFirst firstBuilt (by omega) next node inFirst
    · exact ihRest othersBuilt (by omega) inRange node inOthers

end StatementDraft

/-! ## Building -/

namespace Draft

def visited (d : Draft) : List StatementDraft := StatementDraft.visitedAll d.toList

def trimmed (d : Draft) : Draft := { statements := d.statements.map StatementDraft.trimmedAll }

theorem toList_trimmed (d : Draft) : d.trimmed.toList = StatementDraft.trimmedAll d.toList := by
  obtain ⟨_ | statements⟩ := d
  · rw [toList, toList, trimmed, Option.map_none, Option.getD_none, StatementDraft.trimmedAll]
  · rfl

theorem violation?_of_blockNodes {d : Draft} {nodes : List Node}
    (laidOut : StatementDraft.blockNodes 0 none d.toList = .ok nodes) :
    Graph.violation?
      { nodes := nodes.toArray, entry := if d.toList.isEmpty then none else some 0 } = none := by
  generalize made : Graph.mk nodes.toArray (if d.toList.isEmpty then none else some 0) = g
  have listed : g.nodes.toList = nodes := by rw [← made]
  have size : g.size = StatementDraft.nodeCounts d.toList := by
    rw [← StatementDraft.length_of_blockNodes 0 none d.toList laidOut, ← listed]
    rfl
  have entry : g.InRange g.entry := by
    have start : g.entry = if d.toList.isEmpty then none else some 0 := by rw [← made]
    rw [start]
    split
    · exact g.inRange_none
    · rename_i filled
      have positive : 0 < g.size := by
        rw [size]
        exact StatementDraft.nodeCounts_pos (Bool.eq_false_iff.mpr filled)
      exact Graph.inRange_of_lt positive
  unfold Graph.violation?
  rw [Graph.danglingTarget?_eq_none_iff.mpr entry, listed]
  exact List.findSome?_eq_none_iff.mpr
    (StatementDraft.nodeViolation?_of_blockNodes 0 none d.toList laidOut (by omega) g.inRange_none)

/-- Once the nodes are laid out nothing fails. -/
theorem build_eq (d : Draft) :
    d.build = StatementDraft.blockNodes 0 none d.toList >>= fun nodes =>
      pure { nodes := nodes.toArray, entry := if d.toList.isEmpty then none else some 0 } := by
  rw [build_eq_layout]
  cases laidOut : StatementDraft.blockNodes 0 none d.toList with
  | error failure => rfl
  | ok nodes => exact Graph.validated_of_violation? (violation?_of_blockNodes laidOut)

/-- A draft is built exactly if all statements that are visited are well formed, and otherwise the
first one that is not gives the error.  Fields that are not used have no influence, and the graph
that has been laid out has no violation. -/
theorem build_accepts_grammar (d : Draft) :
    ((∃ g, d.build = .ok g) ↔ ∀ s ∈ d.visited, s.WellFormed) ∧
      (∀ error, d.build = .error error ↔ StatementDraft.FirstError d.visited error) ∧
      d.trimmed.build = d.build ∧
      ∀ violation, d.build ≠ .error (.graph violation) := by
  have decides : Decides (∀ s ∈ d.visited, s.WellFormed) (StatementDraft.FirstError d.visited)
      d.build := by
    rw [build_eq]
    exact (StatementDraft.decides_blockNodes 0 none d.toList).map _
  refine ⟨decides.ok_iff, decides.error_iff, ?_, ?_⟩
  · rw [build_eq, build_eq, toList_trimmed, StatementDraft.blockNodes_trimmedAll,
      StatementDraft.isEmpty_trimmedAll]
  · intro violation failed
    obtain ⟨before, s, after, -, -, -, hasError⟩ := (decides.error_iff _).mp failed
    cases hasError

end Draft

end StepGraph
