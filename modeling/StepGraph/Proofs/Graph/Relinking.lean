import StepGraph.Machine

/-!
# Changing the links of a node

Relinking touches the links of one node and nothing else, and giving a node its
own links back undoes every earlier change of them.  What a statement does to
the machine, and the branch it takes, do not depend on the links of its node;
these only tell where the branch leads.
-/

namespace StepGraph

namespace Links

def along (l : Links) : Branch → Link
  | .next => l.next
  | .body => l.body

end Links

namespace Node

@[simp]
theorem links_withLinks_none (node : Node) : (node.withLinks .none).links = .none := by
  cases node <;> rfl

end Node

namespace Machine

/-- What executing a node does apart from its links: the machine after it and the branch taken. -/
def effect (m : Machine) (node : Node) : Machine × Except Fault Branch :=
  ((m.execute node).1, (m.execute node).2.map Outcome.branch)

/-- An execution is its effect, and the link of the node for the branch taken. -/
theorem execute_eq_effect (m : Machine) (node : Node) :
    m.execute node =
      ((m.effect node).1,
        (m.effect node).2.map fun branch => { branch, next := node.links.along branch }) := by
  cases node with
  | step line action next =>
    simp only [effect, execute]
    rcases m.act action line with ⟨after, _ | _⟩ <;> rfl
  | loop line condition body next =>
    simp only [effect, execute]
    rcases condition.eval m.memory line with _ | value
    · rfl
    · cases value with
      | bool truth => cases truth <;> rfl
      | _ => rfl

theorem next_of_execute {m : Machine} {node : Node} {outcome : Outcome}
    (executed : (m.execute node).2 = .ok outcome) :
    outcome.next = node.links.along outcome.branch := by
  rw [execute_eq_effect] at executed
  cases taken : (m.effect node).2 with
  | error fault =>
    rw [taken] at executed
    cases executed
  | ok branch =>
    rw [taken] at executed
    cases executed
    rfl

/-- The effect of a node is the same under all links. -/
@[simp]
theorem effect_withLinks (m : Machine) (node : Node) (l : Links) :
    m.effect (node.withLinks l) = m.effect node := by
  cases node with
  | step line action next =>
    simp only [effect, execute, Node.withLinks]
    rcases m.act action line with ⟨after, _ | _⟩ <;> rfl
  | loop line condition body next =>
    simp only [effect, execute, Node.withLinks]
    rcases condition.eval m.memory line with _ | value
    · rfl
    · cases value with
      | bool truth => cases truth <;> rfl
      | _ => rfl

/-- Only a loop takes the branch of its body. -/
theorem exists_loop_of_effect_body {m : Machine} {node : Node}
    (taken : (m.effect node).2 = .ok .body) :
    ∃ line condition body next, node = .loop line condition body next := by
  cases node with
  | loop line condition body next => exact ⟨line, condition, body, next, rfl⟩
  | step line action next =>
    simp only [effect, execute] at taken
    rcases acted : m.act action line with ⟨after, _ | _⟩ <;> rw [acted] at taken <;> cases taken

end Machine

namespace Graph

variable {g : Graph} {id : NodeId} {node : Node}

theorem node_of_node? (found : g.node? id = some node) : g.node id = .ok node := by
  unfold Graph.node
  rw [found]

theorem isValid_iff : g.isValid id = true ↔ ∃ node, g.node? id = some node :=
  Option.isSome_iff_exists

/-- Relinking replaces the links of one node and leaves the others alone. -/
theorem node?_relink (g : Graph) (id other : NodeId) (l : Links) :
    (g.relink id l).node? other =
      if other = id then (g.node? id).map (Node.withLinks l) else g.node? other := by
  unfold relink node?
  by_cases idPosition : 0 ≤ id
  · rw [if_pos idPosition]
    by_cases otherPosition : 0 ≤ other
    · rw [if_pos otherPosition, Array.getElem?_modify]
      by_cases same : other = id
      · subst same
        simp [otherPosition]
      · have apart : id.toNat ≠ other.toNat := by
          intro agree
          apply same
          rw [← Int.toNat_of_nonneg otherPosition, ← agree, Int.toNat_of_nonneg idPosition]
        rw [if_neg apart, if_neg same, if_pos otherPosition]
    · have apart : other ≠ id := by
        rintro rfl
        exact otherPosition idPosition
      rw [if_neg otherPosition, if_neg apart, if_neg otherPosition]
  · rw [if_neg idPosition]
    by_cases same : other = id
    · subst same
      simp [idPosition]
    · rw [if_neg same]

theorem node?_relink_self (found : g.node? id = some node) (l : Links) :
    (g.relink id l).node? id = some (node.withLinks l) := by
  rw [node?_relink, if_pos rfl, found, Option.map_some]

theorem node?_relink_of_ne {other : NodeId} (apart : other ≠ id) (l : Links) :
    (g.relink id l).node? other = g.node? other := by
  rw [node?_relink, if_neg apart]

@[simp]
theorem entry_relink (g : Graph) (id : NodeId) (l : Links) : (g.relink id l).entry = g.entry := by
  unfold relink
  split <;> rfl

@[simp]
theorem isValid_relink (g : Graph) (id other : NodeId) (l : Links) :
    (g.relink id l).isValid other = g.isValid other := by
  unfold isValid
  rw [node?_relink]
  split
  · rename_i same
    rw [same, Option.isSome_map]
  · rfl

theorem ext_node? {g h : Graph} (entry : g.entry = h.entry)
    (nodes : ∀ id, g.node? id = h.node? id) : g = h := by
  obtain ⟨gNodes, gEntry⟩ := g
  obtain ⟨hNodes, hEntry⟩ := h
  have same : gNodes = hNodes := by
    apply Array.ext_getElem?
    intro position
    have agree := nodes (position : Int)
    simpa [node?] using agree
  cases same
  cases entry
  rfl

@[simp]
theorem relink_relink (g : Graph) (id : NodeId) (first second : Links) :
    (g.relink id first).relink id second = g.relink id second := by
  apply ext_node?
  · simp
  · intro other
    simp only [node?_relink, if_true]
    split
    · cases g.node? id <;> simp
    · rfl

theorem relink_links (found : g.node? id = some node) : g.relink id node.links = g := by
  apply ext_node?
  · simp
  · intro other
    rw [node?_relink]
    split
    · rename_i same
      rw [same, found, Option.map_some, Node.withLinks_links]
    · rfl

theorem sever_of_node? (found : g.node? id = some node) :
    g.sever id = .ok (node.links, g.relink id .none) := by
  unfold sever
  rw [node_of_node? found]
  rfl

theorem restore_of_node? (found : g.node? id = some node) (saved : Links) :
    g.restore id saved = .ok (g.relink id saved) := by
  unfold restore setLinks
  rw [node_of_node? found]
  rfl

theorem line_of_node? (found : g.node? id = some node) : g.line id = .ok node.line := by
  unfold line
  rw [node_of_node? found]
  rfl

theorem execute_of_node? (found : g.node? id = some node) (m : Machine) :
    g.execute id m = m.execute node := by
  unfold execute
  rw [node_of_node? found]

/-- A node that took a branch has a link for it. -/
theorem follow_of_effect {m : Machine} {branch : Branch} (found : g.node? id = some node)
    (taken : (m.effect node).2 = .ok branch) :
    g.follow id branch = .ok (node.links.along branch) := by
  unfold follow
  rw [node_of_node? found]
  cases branch with
  | next => cases node <;> rfl
  | body =>
    obtain ⟨line, condition, body, next, rfl⟩ := Machine.exists_loop_of_effect_body taken
    rfl

end Graph

end StepGraph
