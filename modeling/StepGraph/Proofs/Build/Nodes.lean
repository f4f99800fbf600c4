import StepGraph.Proofs.Build.Layout

/-!
# What a built graph is made of

The nodes of a statement are the node of the statement itself, followed for a
loop by the nodes of its body.  Their elements and operators have passed the
checks, so a built graph is sound.
-/

namespace StepGraph

namespace StatementDraft

theorem composedOf_of_blockNodes (position : Nat) (tail : Link) (statements : List StatementDraft)
    {built : List Node} (succeeded : blockNodes position tail statements = .ok built) :
    ∀ node ∈ built, node.ComposedOf Element.IsReadable := by
  induction position, tail, statements using blockNodes.induct
    (fun position next s => ∀ {built}, nodes position next s = .ok built →
      ∀ node ∈ built, node.ComposedOf Element.IsReadable) generalizing built with
  | case1 position next line kind target function argument expr body ih =>
    rename_i built succeeded node member
    rcases nodes_cases succeeded with ⟨action, checked, rfl⟩ |
      ⟨condition, inner, checked, innerBuilt, rfl⟩
    · rw [List.mem_singleton.mp member]
      exact composedOf_of_check checked
    · rcases List.mem_cons.mp member with rfl | inBody
      · exact composedOf_of_check checked
      · exact ih innerBuilt node inBody
  | case2 position tail =>
    cases succeeded
    intro node member
    cases member
  | case3 position tail s rest ihFirst ihRest =>
    obtain ⟨first, others, firstBuilt, othersBuilt, rfl⟩ := blockNodes_cons_ok succeeded
    intro node member
    rcases List.mem_append.mp member with inFirst | inOthers
    · exact ihFirst firstBuilt node inFirst
    · exact ihRest othersBuilt node inOthers

end StatementDraft

namespace Draft

/-- A built graph has no violation, and its elements are readable. -/
theorem isRunnable_of_build {d : Draft} {g : Graph} (built : d.build = .ok g) : g.IsRunnable := by
  obtain ⟨nodes, nodesBuilt, shape, accepted⟩ := build_ok built
  refine ⟨accepted, ?_⟩
  intro id node found
  have member := Graph.mem_of_node? found
  rw [shape] at member
  exact StatementDraft.composedOf_of_blockNodes 0 none d.toList nodesBuilt node member

theorem fits_of_build {d : Draft} {g : Graph} (built : d.build = .ok g) :
    Graph.Fits Element.IsReadable g g :=
  (isRunnable_of_build built).fits

end Draft

/-! ## A countdown

Two nested loops, the inner one at the end of the body of the outer one. -/

/-- Counts a variable down from two and prints what is left of it. -/
def Draft.countdown : Draft :=
  let name : ElementDraft := { kind := utf8 "identifier", value := utf8 "n" }
  let number (digits : String) : ElementDraft := { kind := utf8 "int", value := utf8 digits }
  let assign (line : Int) (expr : ExprDraft) : StatementDraft :=
    { StatementDraft.empty with line, kind := utf8 "assign", target := utf8 "n", expr }
  let whileAbove (line : Int) (bound : String) (body : List StatementDraft) : StatementDraft :=
    { StatementDraft.empty with
      line, kind := utf8 "while", expr := some ⟨name, utf8 ">", number bound⟩, body }
  { statements := some
      [assign 1 ⟨number "2", [], none⟩,
        whileAbove 2 "0"
          [assign 3 ⟨name, utf8 "-", number "1"⟩,
            whileAbove 4 "1" [{ StatementDraft.empty with line := 5, kind := utf8 "pass" }]],
        { StatementDraft.empty with
          line := 6, kind := utf8 "call", function := utf8 "print", argument := name }] }

def Graph.countdown : Graph :=
  let name : Element := { kind := .identifier, text := utf8 "n" }
  let number (digits : String) : Element := { kind := .intLiteral, text := utf8 digits }
  { nodes := #[
      .step 1 (.assign (utf8 "n") (.expr ⟨number "2", none⟩)) (some 1),
      .loop 2 ⟨name, some (.comparison .gt, number "0")⟩ (some 2) (some 5),
      .step 3 (.assign (utf8 "n") (.expr ⟨name, some (.arithmetic .sub, number "1")⟩)) (some 3),
      .loop 4 ⟨name, some (.comparison .gt, number "1")⟩ (some 4) (some 1),
      .step 5 .pass (some 3),
      .step 6 (.call (utf8 "print") (some name)) none],
    entry := some 0 }

theorem Draft.build_countdown : Draft.countdown.build = .ok .countdown := by
  rw [build_eq_layout]
  rfl

theorem Graph.lines_countdown : Graph.countdown.lines = .ok [1, 2, 3, 4, 5, 6] := by
  have reached : Graph.countdown.reachable = .ok [5, 4, 3, 2, 1, 0] := by
    simp [reachable, explore, countdown, node?, Node.links]
  rw [lines, reached]
  rfl

/-- A machine that has done nothing and gets no input. -/
def Machine.idle : Machine := { memory := .empty, input := .script [] none, output := #[] }

end StepGraph
