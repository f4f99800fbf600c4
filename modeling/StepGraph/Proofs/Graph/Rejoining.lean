import Mathlib.Data.List.Induction
import Mathlib.Data.List.Nodup
import StepGraph.Proofs.Build.Meaning

/-!
# Severing and restoring in any order

Several nodes are severed, and each of them gets back the links that its own
severing has returned.  In whatever order this is done, a node is without links
exactly between the two, and nothing else ever changes.  So the graph is as it
was once every severed node has been restored.
-/

namespace StepGraph

/-- One node is severed, or gets back the links that its severing has returned. -/
inductive LinkChange where
  | sever (id : NodeId)
  | restore (id : NodeId)
  deriving DecidableEq

/-- A graph, and the links that severings have returned, the latest ones first. -/
structure Severance where
  graph : Graph
  returned : List (NodeId × Links)

namespace Severance

def whole (g : Graph) : Severance := { graph := g, returned := [] }

/-- One change.  A node that has not been severed is not restored either. -/
def change (s : Severance) : LinkChange → Except Defect Severance
  | .sever id =>
    match s.graph.sever id with
    | .ok (links, graph) => .ok { graph, returned := (id, links) :: s.returned }
    | .error defect => .error defect
  | .restore id =>
    match s.returned.lookup id with
    | some links => (s.graph.restore id links).map fun graph => { s with graph }
    | none => .ok s

def changeAll (s : Severance) (changes : List LinkChange) : Except Defect Severance :=
  changes.foldlM change s

theorem changeAll_snoc {s middle : Severance} {changes : List LinkChange}
    (changed : s.changeAll changes = .ok middle) (last : LinkChange) :
    s.changeAll (changes ++ [last]) = middle.change last := by
  unfold changeAll at changed ⊢
  rw [List.foldlM_append, changed]
  exact bind_pure (middle.change last)

end Severance

/-- The node has been severed, and has not been restored since. -/
def IsCut (changes : List LinkChange) (id : NodeId) : Prop :=
  .sever id ∈ changes ∧ .restore id ∉ changes

theorem isCut_snoc_sever {changes : List LinkChange} {id : NodeId}
    (notRestored : .restore id ∉ changes) (other : NodeId) :
    IsCut (changes ++ [.sever id]) other ↔ other = id ∨ IsCut changes other := by
  unfold IsCut
  by_cases same : other = id
  · subst same
    simp [notRestored]
  · simp [same]

theorem isCut_snoc_restore (changes : List LinkChange) (id other : NodeId) :
    IsCut (changes ++ [.restore id]) other ↔ other ≠ id ∧ IsCut changes other := by
  unfold IsCut
  by_cases same : other = id
  · simp [same]
  · simp [same]

/-! ## What a change keeps -/

/-- What is known after some changes of a graph: the nodes that are cut have no links, the others
are as they were, and every severing has returned the links that its node had at first. -/
structure Tracked (g : Graph) (changes : List LinkChange) (s : Severance) : Prop where
  entry : s.graph.entry = g.entry
  cut : ∀ {id node}, IsCut changes id → g.node? id = some node →
    s.graph.node? id = some (node.withLinks .none)
  kept : ∀ {id}, ¬ IsCut changes id → s.graph.node? id = g.node? id
  returned : ∀ {id node}, .sever id ∈ changes → g.node? id = some node →
    s.returned.lookup id = some node.links

namespace Tracked

variable {g : Graph} {changes : List LinkChange} {s : Severance} {id : NodeId} {node : Node}

theorem whole (g : Graph) : Tracked g [] (.whole g) where
  entry := rfl
  cut isCut := by cases isCut.1
  kept _ := rfl
  returned severed := by cases severed

theorem sever (tracked : Tracked g changes s) (found : g.node? id = some node)
    (fresh : .sever id ∉ changes) (notRestored : .restore id ∉ changes) :
    ∃ after, s.change (.sever id) = .ok after ∧ Tracked g (changes ++ [.sever id]) after := by
  have here : s.graph.node? id = some node :=
    (tracked.kept fun isCut => fresh isCut.1).trans found
  refine ⟨{ graph := s.graph.relink id .none, returned := (id, node.links) :: s.returned }, ?_, ?_⟩
  · rw [Severance.change, Graph.sever_of_node? here]
  constructor
  · rw [Graph.entry_relink, tracked.entry]
  · intro other otherNode isCut otherFound
    by_cases same : other = id
    · subst same
      rw [found] at otherFound
      cases otherFound
      exact Graph.node?_relink_self here .none
    · rw [Graph.node?_relink_of_ne same]
      have before := ((isCut_snoc_sever notRestored other).mp isCut).resolve_left same
      exact tracked.cut before otherFound
  · intro other notCut
    rw [isCut_snoc_sever notRestored other, not_or] at notCut
    rw [Graph.node?_relink_of_ne notCut.1]
    exact tracked.kept notCut.2
  · intro other otherNode severed otherFound
    by_cases same : other = id
    · subst same
      rw [found] at otherFound
      cases otherFound
      exact List.lookup_cons_self
    · have before : .sever other ∈ changes := by simpa [same] using severed
      rw [List.lookup_cons, beq_eq_false_iff_ne.mpr same]
      exact tracked.returned before otherFound

theorem restore (tracked : Tracked g changes s) (found : g.node? id = some node)
    (severed : .sever id ∈ changes) (pending : .restore id ∉ changes) :
    ∃ after, s.change (.restore id) = .ok after ∧ Tracked g (changes ++ [.restore id]) after := by
  have here : s.graph.node? id = some (node.withLinks .none) :=
    tracked.cut ⟨severed, pending⟩ found
  refine ⟨{ s with graph := s.graph.relink id node.links }, ?_, ?_⟩
  · simp only [Severance.change, tracked.returned severed found, Graph.restore_of_node? here]
    rfl
  constructor
  · rw [Graph.entry_relink, tracked.entry]
  · intro other otherNode isCut otherFound
    obtain ⟨apart, before⟩ := (isCut_snoc_restore changes id other).mp isCut
    rw [Graph.node?_relink_of_ne apart]
    exact tracked.cut before otherFound
  · intro other notCut
    by_cases same : other = id
    · subst same
      rw [Graph.node?_relink_self here, Node.withLinks_withLinks, Node.withLinks_links, found]
    · rw [Graph.node?_relink_of_ne same]
      apply tracked.kept
      exact fun isCut => notCut ((isCut_snoc_restore changes id other).mpr ⟨same, isCut⟩)
  · intro other otherNode severedOther otherFound
    have before : .sever other ∈ changes := by simpa using severedOther
    exact tracked.returned before otherFound

end Tracked

/-! ## Interleavings -/

/-- Each of the nodes is severed once and restored once, and nothing else is done.  Apart from a
node being severed before it is restored, the order is arbitrary. -/
structure Interleaves (ids : List NodeId) (changes : List LinkChange) : Prop where
  each : changes.Perm (ids.map .sever ++ ids.map .restore)
  ordered : ∀ id ∈ ids, changes.idxOf (.sever id) < changes.idxOf (.restore id)

namespace Interleaves

variable {ids : List NodeId} {changes before after : List LinkChange} {id : NodeId}

theorem nodup (interleaves : Interleaves ids changes) (distinct : ids.Nodup) : changes.Nodup := by
  rw [interleaves.each.nodup_iff, List.nodup_append]
  refine ⟨List.Nodup.map ?_ distinct, List.Nodup.map ?_ distinct, ?_⟩
  · intro first second same
    exact LinkChange.sever.inj same
  · intro first second same
    exact LinkChange.restore.inj same
  · intro first isSever second isRestore
    obtain ⟨_, -, rfl⟩ := List.mem_map.mp isSever
    obtain ⟨_, -, rfl⟩ := List.mem_map.mp isRestore
    simp

theorem sever_mem_iff (interleaves : Interleaves ids changes) : .sever id ∈ changes ↔ id ∈ ids := by
  rw [interleaves.each.mem_iff]
  simp

theorem restore_mem_iff (interleaves : Interleaves ids changes) :
    .restore id ∈ changes ↔ id ∈ ids := by
  rw [interleaves.each.mem_iff]
  simp

theorem isCut (interleaves : Interleaves ids changes) (distinct : ids.Nodup)
    (split : changes = before ++ .restore id :: after) : IsCut before id := by
  have once := interleaves.nodup distinct
  have later := interleaves.ordered id (interleaves.restore_mem_iff.mp (by simp [split]))
  rw [split, List.nodup_append] at once
  have pending : .restore id ∉ before := fun restored =>
    once.2.2 _ restored _ List.mem_cons_self rfl
  refine ⟨?_, pending⟩
  by_contra fresh
  rw [split, List.idxOf_append_of_notMem pending, List.idxOf_append_of_notMem fresh,
    List.idxOf_cons_self] at later
  omega

theorem untouched (interleaves : Interleaves ids changes) (distinct : ids.Nodup)
    (split : changes = before ++ .sever id :: after) :
    .sever id ∉ before ∧ .restore id ∉ before := by
  have once := interleaves.nodup distinct
  rw [split, List.nodup_append] at once
  have fresh : .sever id ∉ before := fun severed =>
    once.2.2 _ severed _ List.mem_cons_self rfl
  refine ⟨fresh, ?_⟩
  intro restored
  obtain ⟨front, back, rfl⟩ := List.append_of_mem restored
  have cut : IsCut front id := by
    apply interleaves.isCut distinct
    rw [split, List.append_assoc]
    rfl
  exact fresh (List.mem_append_left _ cut.1)

/-- What is known is kept along an interleaving. -/
theorem tracked {g : Graph} (interleaves : Interleaves ids changes) (distinct : ids.Nodup)
    (valid : ∀ id ∈ ids, g.isValid id = true) (split : changes = before ++ after) :
    ∃ now, (Severance.whole g).changeAll before = .ok now ∧ Tracked g before now := by
  induction before using List.reverseRecOn generalizing after with
  | nil => exact ⟨.whole g, rfl, .whole g⟩
  | append_singleton before last ih =>
    have here : changes = before ++ last :: after := by simpa using split
    obtain ⟨now, changed, tracked⟩ := ih here
    rw [Severance.changeAll_snoc changed]
    have member : last ∈ changes := by simp [here]
    cases last with
    | sever id =>
      obtain ⟨node, found⟩ := Graph.isValid_iff.mp (valid id (interleaves.sever_mem_iff.mp member))
      obtain ⟨fresh, notRestored⟩ := interleaves.untouched distinct here
      exact tracked.sever found fresh notRestored
    | restore id =>
      obtain ⟨node, found⟩ :=
        Graph.isValid_iff.mp (valid id (interleaves.restore_mem_iff.mp member))
      obtain ⟨severed, pending⟩ := interleaves.isCut distinct here
      exact tracked.restore found severed pending

end Interleaves

/-- The nodes at some positions are without links.  All other nodes are those of the graph, and all
nodes say what they say there. -/
structure CutOff (g now : Graph) (cut : NodeId → Prop) : Prop where
  entry : now.entry = g.entry
  content : ∀ id, (now.node? id).map Node.content = (g.node? id).map Node.content
  absent : ∀ id, cut id → now.links id = .ok .none
  kept : ∀ id, ¬ cut id → now.node? id = g.node? id

theorem Tracked.cutOff {g : Graph} {changes : List LinkChange} {s : Severance}
    (tracked : Tracked g changes s) (valid : ∀ id, IsCut changes id → g.isValid id = true) :
    CutOff g s.graph (IsCut changes) where
  entry := tracked.entry
  content id := by
    by_cases isCut : IsCut changes id
    · obtain ⟨node, found⟩ := Graph.isValid_iff.mp (valid id isCut)
      rw [tracked.cut isCut found, found]
      cases node <;> rfl
    · rw [tracked.kept isCut]
  absent id isCut := by
    obtain ⟨node, found⟩ := Graph.isValid_iff.mp (valid id isCut)
    unfold Graph.links
    rw [Graph.node_of_node? (tracked.cut isCut found)]
    exact congrArg Except.ok node.links_withLinks_none
  kept id := tracked.kept

/-- Severing and restoring compose in any order.  Some nodes of a graph are severed and restored,
each with the links that its own severing has returned, in any order that restores no node before it
has been severed.  At every moment exactly the nodes that have been severed and not yet restored are
without links, and the others, the entry and what the nodes say are as they were.  In the end the
graph is the same as at first. -/
theorem restored_in_any_order {g : Graph} {ids : List NodeId} {changes : List LinkChange}
    (distinct : ids.Nodup) (valid : ∀ id ∈ ids, g.isValid id = true)
    (interleaves : Interleaves ids changes) :
    (∃ last, (Severance.whole g).changeAll changes = .ok last ∧ last.graph = g) ∧
      ∀ before after, changes = before ++ after →
        ∃ now, (Severance.whole g).changeAll before = .ok now ∧
          CutOff g now.graph (IsCut before) := by
  constructor
  · obtain ⟨last, changed, tracked⟩ :=
      interleaves.tracked distinct valid (List.append_nil changes).symm
    refine ⟨last, changed, Graph.ext_node? tracked.entry ?_⟩
    intro id
    apply tracked.kept
    rintro ⟨severed, notRestored⟩
    exact notRestored (interleaves.restore_mem_iff.mpr (interleaves.sever_mem_iff.mp severed))
  · intro before after split
    obtain ⟨now, changed, tracked⟩ := interleaves.tracked distinct valid split
    refine ⟨now, changed, tracked.cutOff ?_⟩
    intro id isCut
    have severed : .sever id ∈ changes := by
      rw [split]
      exact List.mem_append_left _ isCut.1
    exact valid id (interleaves.sever_mem_iff.mp severed)

/-- The two loops of the countdown and the body of the inner one, all overlapping. -/
def overlappingCuts : List LinkChange :=
  [.sever 3, .sever 1, .restore 3, .sever 4, .restore 1, .restore 4]

theorem interleaves_overlappingCuts : Interleaves [3, 1, 4] overlappingCuts where
  each := by decide
  ordered := by decide

/-- While both loops of the countdown are severed the rest of it is as it was, and in the end so are
the loops. -/
theorem countdown_restored_in_any_order :
    ([3, 1, 4] : List NodeId).Nodup ∧ (∀ id ∈ [3, 1, 4], Graph.countdown.isValid id = true) ∧
      Interleaves [3, 1, 4] overlappingCuts ∧
      (∃ last, (Severance.whole .countdown).changeAll overlappingCuts = .ok last ∧
        last.graph = .countdown) ∧
      ∃ now, (Severance.whole .countdown).changeAll [.sever 3, .sever 1] = .ok now ∧
        now.graph.links 1 = .ok .none ∧ now.graph.links 3 = .ok .none ∧
        now.graph.node? 4 = Graph.countdown.node? 4 := by
  have distinct : ([3, 1, 4] : List NodeId).Nodup := by decide
  have valid : ∀ id ∈ [3, 1, 4], Graph.countdown.isValid id = true := by decide
  obtain ⟨restored, always⟩ := restored_in_any_order distinct valid interleaves_overlappingCuts
  refine ⟨distinct, valid, interleaves_overlappingCuts, restored, ?_⟩
  obtain ⟨now, changed, cutOff⟩ := always [.sever 3, .sever 1] _ rfl
  refine ⟨now, changed, cutOff.absent 1 ?_, cutOff.absent 3 ?_, cutOff.kept 4 ?_⟩
  · simp [IsCut]
  · simp [IsCut]
  · simp [IsCut]

end StepGraph
