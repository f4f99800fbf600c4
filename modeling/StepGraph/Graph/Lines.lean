import StepGraph.Graph

/-!
# Lines of a graph

The lines of the nodes that can be reached from the entry, in ascending order.
-/

namespace StepGraph

namespace Graph

/-- A number is put at its place in an ascending list, unless it is there already. -/
def insertAscending (n : Int) : List Int → List Int
  | [] => [n]
  | m :: rest =>
    if n < m then n :: m :: rest
    else if n = m then m :: rest
    else m :: insertAscending n rest

def unseen (g : Graph) (seen : List Nat) : Nat :=
  (List.range g.size).countP fun position => !seen.contains position

theorem countP_not_contains_cons_lt {positions seen : List Nat} {position : Nat}
    (isPosition : position ∈ positions) (isNew : position ∉ seen) :
    positions.countP (fun p => !(position :: seen).contains p)
      < positions.countP (fun p => !seen.contains p) := by
  induction positions with
  | nil => cases isPosition
  | cons first rest ih =>
    have le : rest.countP (fun p => !(position :: seen).contains p)
        ≤ rest.countP (fun p => !seen.contains p) :=
      List.countP_mono_left fun p _ fresh => by
        simp only [List.contains_cons, Bool.not_or, Bool.and_eq_true] at fresh
        exact fresh.2
    by_cases same : position = first
    · subst same
      rw [List.countP_cons_of_neg (by simp), List.countP_cons_of_pos (by simpa using isNew)]
      omega
    · have inRest : position ∈ rest := by
        cases isPosition with
        | head => exact absurd rfl same
        | tail _ inRest => exact inRest
      have less := ih inRest
      rw [List.countP_cons, List.countP_cons]
      have agree : (!(position :: seen).contains first) = !seen.contains first := by
        simp [Ne.symm same]
      rw [agree]
      omega

theorem unseen_cons_lt {g : Graph} {seen : List Nat} {position : Nat}
    (isPosition : position < g.size) (isNew : position ∉ seen) :
    g.unseen (position :: seen) < g.unseen seen :=
  countP_not_contains_cons_lt (List.mem_range.mpr isPosition) isNew

theorem toNat_lt_of_node? {g : Graph} {id : NodeId} {node : Node}
    (found : g.node? id = some node) : id.toNat < g.size := by
  unfold node? at found
  split at found
  · exact (Array.getElem?_eq_some_iff.mp found).1
  · cases found

/-- The positions reached from the pending links, in addition to those seen. -/
def explore (g : Graph) (pending : List Link) (seen : List Nat) : Except Defect (List Nat) :=
  match pending with
  | [] => .ok seen
  | none :: pending => g.explore pending seen
  | some id :: pending =>
    match _ : g.node? id with
    | none => .error (.invalidNode id)
    | some node =>
      if _ : id.toNat ∈ seen then g.explore pending seen
      else g.explore (node.links.body :: node.links.next :: pending) (id.toNat :: seen)
termination_by (g.unseen seen, pending.length)
decreasing_by
  · exact Prod.Lex.right _ (by simp)
  · exact Prod.Lex.right _ (by simp)
  · exact Prod.Lex.left _ _ (unseen_cons_lt (toNat_lt_of_node? (by assumption)) (by assumption))

def reachable (g : Graph) : Except Defect (List Nat) := g.explore [g.entry] []

/-- The lines of the nodes that can be reached from the entry, ascending and each once. -/
def lines (g : Graph) : Except Defect (List Int) :=
  g.reachable.map fun positions =>
    (positions.filterMap fun position => g.nodes[position]?.map Node.line).foldr insertAscending []

end Graph

end StepGraph
