import StepGraph.Proofs.Build.Checks

/-!
# Where the nodes of a draft stand

The nodes of a graph that is built stand in the order in which the statements are
written, so the position of a node is known from the number of statements before
it: each node is linked to its right neighbour, the last one of a body to its
loop, and a loop to the node after itself.  Adding the statements and linking them
afterwards comes to exactly this layout.
-/

namespace StepGraph

namespace StatementDraft

/- The body counts only in a loop. -/
mutual

def nodeCount : StatementDraft → Nat
  | { line, kind, target, function, argument, expr, body } =>
    if ({ line, kind, target, function, argument, expr, body } : StatementDraft).isLoop then
      1 + nodeCounts body
    else 1

def nodeCounts : List StatementDraft → Nat
  | [] => 0
  | s :: rest => nodeCount s + nodeCounts rest

end

/-- The place after a statement: its right neighbour, or the end of its list. -/
def successor (position : Nat) (s : StatementDraft) (rest : List StatementDraft) (tail : Link) :
    Link :=
  if rest.isEmpty then tail else some (position + nodeCount s : Nat)

mutual

/-- The nodes of a statement at a position, given where it continues. -/
def nodes (position : Nat) (next : Link) : StatementDraft → Except BuildError (List Node)
  | { line, kind, target, function, argument, expr, body } => do
    match ← check { line, kind, target, function, argument, expr, body } with
    | .step action => return [.step line action next]
    | .loop condition =>
      let inner ← blockNodes (position + 1) (some position) body
      return .loop line condition (some (position + 1)) next :: inner

/-- The nodes of a list of statements from a position on, given where the last one continues. -/
def blockNodes (position : Nat) (tail : Link) :
    List StatementDraft → Except BuildError (List Node)
  | [] => return []
  | s :: rest => do
    let first ← nodes position (successor position s rest tail) s
    let others ← blockNodes (position + nodeCount s) tail rest
    return first ++ others

end

/-! ## The nodes of statements -/

/-- The nodes of a statement: its own, and for a loop those of the body. -/
theorem nodes_cases {position : Nat} {next : Link} {s : StatementDraft} {built : List Node}
    (succeeded : nodes position next s = .ok built) :
    (∃ action, s.check = .ok (.step action) ∧ built = [.step s.line action next]) ∨
      ∃ condition inner, s.check = .ok (.loop condition) ∧
        blockNodes (position + 1) (some position) s.body = .ok inner ∧
        built = .loop s.line condition (some (position + 1 : Nat)) next :: inner := by
  obtain ⟨line, kind, target, function, argument, expr, body⟩ := s
  rw [nodes] at succeeded
  obtain ⟨statement, checked, rest⟩ := exists_of_bind_ok succeeded
  cases statement with
  | step action =>
    cases rest
    exact .inl ⟨action, checked, rfl⟩
  | loop condition =>
    obtain ⟨inner, innerBuilt, same⟩ := exists_of_bind_ok rest
    cases same
    exact .inr ⟨condition, inner, checked, innerBuilt, rfl⟩

theorem blockNodes_cons_ok {position : Nat} {tail : Link} {s : StatementDraft}
    {rest : List StatementDraft} {built : List Node}
    (succeeded : blockNodes position tail (s :: rest) = .ok built) :
    ∃ first others, nodes position (successor position s rest tail) s = .ok first ∧
      blockNodes (position + nodeCount s) tail rest = .ok others ∧ built = first ++ others := by
  rw [blockNodes] at succeeded
  obtain ⟨first, firstBuilt, remaining⟩ := exists_of_bind_ok succeeded
  obtain ⟨others, othersBuilt, same⟩ := exists_of_bind_ok remaining
  cases same
  exact ⟨first, others, firstBuilt, othersBuilt, rfl⟩

theorem nodes_of_check_error {position : Nat} {next : Link} {s : StatementDraft}
    {error : BuildError} (failed : s.check = .error error) :
    nodes position next s = .error error := by
  obtain ⟨line, kind, target, function, argument, expr, body⟩ := s
  rw [nodes, failed]
  rfl

theorem nodes_of_check_step {position : Nat} {next : Link} {s : StatementDraft} {action : Action}
    (checked : s.check = .ok (.step action)) :
    nodes position next s = .ok [.step s.line action next] := by
  obtain ⟨line, kind, target, function, argument, expr, body⟩ := s
  rw [nodes, checked]
  rfl

theorem nodes_of_check_loop {position : Nat} {next : Link} {s : StatementDraft} {condition : Expr}
    (checked : s.check = .ok (.loop condition)) :
    nodes position next s = blockNodes (position + 1) (some position) s.body >>= fun inner =>
      pure (.loop s.line condition (some (position + 1)) next :: inner) := by
  obtain ⟨line, kind, target, function, argument, expr, body⟩ := s
  rw [nodes, checked]
  rfl

theorem nodeCount_eq (s : StatementDraft) :
    nodeCount s = if s.isLoop then 1 + nodeCounts s.body else 1 := by
  obtain ⟨line, kind, target, function, argument, expr, body⟩ := s
  rw [nodeCount]

/-- A list of statements takes as many nodes as are counted for it. -/
theorem length_of_blockNodes (position : Nat) (tail : Link) (drafts : List StatementDraft)
    {built : List Node} (succeeded : blockNodes position tail drafts = .ok built) :
    built.length = nodeCounts drafts := by
  induction position, tail, drafts using blockNodes.induct
    (fun position next s => ∀ {built}, nodes position next s = .ok built →
      built.length = nodeCount s) generalizing built with
  | case1 position next line kind target function argument expr body ih =>
    rename_i built succeeded
    rw [nodeCount_eq]
    rcases nodes_cases succeeded with ⟨action, checked, rfl⟩ |
      ⟨condition, inner, checked, innerBuilt, rfl⟩
    · have noLoop := mt (isLoop_iff_of_check checked).mp (by simp)
      rw [if_neg noLoop]
      rfl
    · have isLoop := (isLoop_iff_of_check checked).mpr ⟨condition, rfl⟩
      rw [if_pos isLoop, List.length_cons, ih innerBuilt, Nat.add_comm]
  | case2 position tail =>
    cases succeeded
    rfl
  | case3 position tail s rest ihFirst ihRest =>
    obtain ⟨first, others, firstBuilt, othersBuilt, rfl⟩ := blockNodes_cons_ok succeeded
    rw [List.length_append, ihFirst firstBuilt, ihRest othersBuilt, nodeCounts]

theorem length_of_nodes {position : Nat} {next : Link} {s : StatementDraft} {built : List Node}
    (succeeded : nodes position next s = .ok built) : built.length = nodeCount s := by
  have alone : blockNodes position next [s] = .ok (built ++ []) := by
    simp only [blockNodes, successor, List.isEmpty_nil, if_true, succeeded]
    rfl
  simpa [nodeCounts] using length_of_blockNodes position next [s] alone

end StatementDraft

/-! ## Adding nodes and setting their links -/

def Node.withNext (node : Node) (next : Link) : Node := node.withLinks { node.links with next }

namespace Graph

def extend (g : Graph) (more : List Node) : Graph := { g with nodes := g.nodes ++ more.toArray }

theorem extend_nil (g : Graph) : g.extend [] = g := by
  simp [extend]

theorem extend_extend (g : Graph) (first second : List Node) :
    (g.extend first).extend second = g.extend (first ++ second) := by
  simp [extend]

theorem size_extend (g : Graph) (more : List Node) :
    (g.extend more).size = g.size + more.length := by
  simp [extend, size]

theorem add_eq_extend (g : Graph) (node : Node) :
    g.add (some node) = .ok (g.size, g.extend [node]) := by
  simp [add, extend]

section FirstAdded

variable (g : Graph) (node : Node) (rest : List Node)

theorem node_extend : (g.extend (node :: rest)).node g.size = .ok node := by
  simp [Graph.node, node?, extend, size]

theorem setLinks_extend (l : Links) :
    (g.extend (node :: rest)).setLinks g.size l = .ok (g.extend (node.withLinks l :: rest)) := by
  rw [setLinks, node_extend, relink, if_pos (Int.natCast_nonneg _), Int.toNat_natCast]
  refine congrArg Except.ok (congrArg (Graph.mk · g.entry) ?_)
  apply Array.ext_getElem?
  intro position
  rw [Array.getElem?_modify, extend, size]
  rcases Nat.lt_trichotomy position g.nodes.size with before | here | behind
  · rw [if_neg (by omega), Array.getElem?_append_left before, Array.getElem?_append_left before]
  · subst here
    simp
  · rw [if_neg (by omega), Array.getElem?_append_right (by omega),
      Array.getElem?_append_right (by omega)]
    obtain ⟨further, same⟩ := Nat.exists_eq_add_of_lt behind
    simp [same, Nat.add_assoc]

theorem setNext_extend (next : Link) :
    (g.extend (node :: rest)).setNext g.size next =
      .ok (g.extend (node.withNext next :: rest)) := by
  rw [setNext, links, node_extend]
  exact g.setLinks_extend node rest _

theorem setBody_extend (body : Link) :
    (g.extend (node :: rest)).setBody g.size body =
      .ok (g.extend (node.withLinks { node.links with body } :: rest)) := by
  rw [setBody, links, node_extend]
  exact g.setLinks_extend node rest _

end FirstAdded

theorem validated_of_violation? {g : Graph} (clean : g.violation? = none) :
    g.validated = .ok g := by
  unfold validated
  rw [clean]

end Graph

/-! ## Building comes to the layout -/

section Stages

variable {ε ε' α β : Type}

theorem error_of_map_eq_error {computed : Except ε α} {f : α → β} {failure : ε}
    (failed : computed.map f = .error failure) : computed = .error failure := by
  cases computed with
  | error other =>
    cases failed
    rfl
  | ok value => cases failed

theorem mapError_map (computed : Except ε α) (f : α → β) (rename : ε → ε') :
    (computed.map f).mapError rename = (computed.mapError rename).map f := by
  cases computed <;> rfl

end Stages

namespace StatementDraft

def starts (position : Nat) : List StatementDraft → List NodeId
  | [] => []
  | s :: rest => position :: starts (position + nodeCount s) rest

/-- The nodes of a list of statements from a position on before they are linked to each other. -/
def looseNodes (position : Nat) : List StatementDraft → Except BuildError (List Node)
  | [] => return []
  | s :: rest => do
    let first ← nodes position none s
    let others ← looseNodes (position + nodeCount s) rest
    return first ++ others

theorem head?_starts (position : Nat) (drafts : List StatementDraft) (tail : Link) :
    (starts position drafts).head?.or tail =
      if drafts.isEmpty then tail else some (position : NodeId) := by
  cases drafts <;> rfl

/-- Where a statement goes on is written in its first node only. -/
theorem nodes_next (position : Nat) (next : Link) (s : StatementDraft) :
    nodes position next s = (nodes position none s).map (List.modifyHead (·.withNext next)) := by
  cases checked : s.check with
  | error failure => rw [nodes_of_check_error checked, nodes_of_check_error checked]; rfl
  | ok statement =>
    cases statement with
    | step action => rw [nodes_of_check_step checked, nodes_of_check_step checked]; rfl
    | loop condition =>
      rw [nodes_of_check_loop checked, nodes_of_check_loop checked]
      cases blockNodes (position + 1) (some position) s.body <;> rfl

theorem exists_cons_of_nodes {position : Nat} {next : Link} {s : StatementDraft}
    {built : List Node} (succeeded : nodes position next s = .ok built) :
    ∃ own inner, built = own :: inner := by
  rcases nodes_cases succeeded with ⟨action, -, rfl⟩ | ⟨condition, inner, -, -, rfl⟩
  · exact ⟨_, _, rfl⟩
  · exact ⟨_, _, rfl⟩

/-- Linking the loose nodes of a list makes them those of the layout. -/
theorem linkRow_starts (g : Graph) (tail : Link) (drafts : List StatementDraft) :
    (looseNodes g.size drafts >>= fun loose =>
      ((g.extend loose).linkRow tail (starts g.size drafts)).mapError .defect) =
        (blockNodes g.size tail drafts).map g.extend := by
  induction drafts generalizing g with
  | nil => rfl
  | cons s rest ih =>
    rw [looseNodes, blockNodes, nodes_next _ (successor _ _ _ _)]
    cases ownBuilt : nodes g.size none s with
    | error failure => rfl
    | ok first =>
      obtain ⟨own, inner, rfl⟩ := exists_cons_of_nodes ownBuilt
      have next : (starts (g.size + nodeCount s) rest).head?.or tail =
          successor g.size s rest tail :=
        head?_starts (g.size + nodeCount s) rest tail
      generalize successor g.size s rest tail = link at next ⊢
      -- The first node gets its link while the others are still loose behind it.
      have size : (g.extend (own.withNext link :: inner)).size = g.size + nodeCount s := by
        rw [Graph.size_extend, ← length_of_nodes ownBuilt]
        rfl
      have further := ih (g.extend (own.withNext link :: inner))
      rw [size] at further
      cases loose : looseNodes (g.size + nodeCount s) rest with
      | error failure =>
        rw [loose] at further
        rw [error_of_map_eq_error further.symm]
        rfl
      | ok others =>
        rw [loose] at further
        change ((g.extend (own :: (inner ++ others))).linkRow tail
          (g.size :: starts (g.size + nodeCount s) rest)).mapError BuildError.defect = _
        rw [Graph.linkRow, next, Graph.setNext_extend]
        change ((g.extend (own.withNext link :: inner ++ others)).linkRow tail
          (starts (g.size + nodeCount s) rest)).mapError BuildError.defect = _
        rw [← Graph.extend_extend]
        refine Eq.trans further ?_
        cases blockNodes (g.size + nodeCount s) tail rest with
        | error failure => rfl
        | ok linked => exact congrArg Except.ok (Graph.extend_extend _ _ _)

/-- If the statements of a list are added loose, closing their block lays them out. -/
theorem closeBlock_of_loose {g : Graph} {drafts : List StatementDraft}
    (added : addAllTo g drafts =
      (looseNodes g.size drafts).map fun loose => (starts g.size drafts, g.extend loose))
    (tail : Link) :
    (addAllTo g drafts >>= fun block =>
      (block.2.closeBlock tail block.1).mapError BuildError.defect) =
      (blockNodes g.size tail drafts).map fun built =>
        (if drafts.isEmpty then tail else some (g.size : NodeId), g.extend built) := by
  have linked := linkRow_starts g tail drafts
  rw [added]
  cases loose : looseNodes g.size drafts with
  | error failure =>
    rw [loose] at linked
    rw [error_of_map_eq_error linked.symm]
    rfl
  | ok nodes =>
    rw [loose] at linked
    change (((g.extend nodes).linkRow tail (starts g.size drafts)).map fun h =>
      ((starts g.size drafts).head?.or tail, h)).mapError BuildError.defect = _
    rw [head?_starts, mapError_map]
    refine (congrArg (Except.map _) linked).trans ?_
    cases blockNodes g.size tail drafts <;> rfl

theorem addTo_of_check_error {g : Graph} {s : StatementDraft} {failure : BuildError}
    (failed : s.check = .error failure) : addTo g s = .error failure := by
  obtain ⟨line, kind, target, function, argument, expr, body⟩ := s
  rw [addTo, failed]
  rfl

theorem addTo_of_check_step {g : Graph} {s : StatementDraft} {action : Action}
    (checked : s.check = .ok (.step action)) :
    addTo g s = .ok (g.size, g.extend [.step s.line action none]) := by
  obtain ⟨line, kind, target, function, argument, expr, body⟩ := s
  rw [addTo, checked]
  exact congrArg (Except.mapError BuildError.defect) (g.add_eq_extend (.step line action none))

theorem addTo_of_check_loop {g : Graph} {s : StatementDraft} {condition : Expr}
    (checked : s.check = .ok (.loop condition)) :
    addTo g s =
      (addAllTo (g.extend [.loop s.line condition none none]) s.body >>= fun block =>
        (block.2.closeBlock (some (g.size : NodeId)) block.1).mapError .defect) >>= fun closed =>
          (closed.2.setBody g.size closed.1).mapError BuildError.defect >>= fun whole =>
            pure ((g.size : NodeId), whole) := by
  obtain ⟨line, kind, target, function, argument, expr, body⟩ := s
  have added : (g.add (some (.loop line condition none none))).mapError BuildError.defect =
      .ok ((g.size : NodeId), g.extend [.loop line condition none none]) :=
    congrArg (Except.mapError _) (g.add_eq_extend (.loop line condition none none))
  rw [addTo, checked]
  simp only [bind, Except.bind, added]
  cases addAllTo (g.extend [.loop line condition none none]) body <;> rfl

/-- If the statements of a body are added as they are laid out, so is the statement itself. -/
theorem addTo_eq_of_body {g : Graph} {s : StatementDraft}
    (inside : ∀ h : Graph, addAllTo h s.body =
      (looseNodes h.size s.body).map fun loose => (starts h.size s.body, h.extend loose)) :
    addTo g s = (nodes g.size none s).map fun own => ((g.size : NodeId), g.extend own) := by
  cases checked : s.check with
  | error failure => rw [addTo_of_check_error checked, nodes_of_check_error checked]; rfl
  | ok statement =>
    cases statement with
    | step action => rw [addTo_of_check_step checked, nodes_of_check_step checked]; rfl
    | loop condition =>
      have closed := closeBlock_of_loose (inside (g.extend [.loop s.line condition none none]))
        (some (g.size : NodeId))
      rw [Graph.size_extend, body_of_check checked] at closed
      rw [addTo_of_check_loop checked, closed, nodes_of_check_loop checked]
      cases blockNodes (g.size + 1) (some (g.size : NodeId)) s.body with
      | error failure => rfl
      | ok inner =>
        have body : ((g.extend [.loop s.line condition none none]).extend inner).setBody g.size
            (some ((g.size + 1 : Nat) : NodeId)) =
              .ok (g.extend (.loop s.line condition (some ((g.size + 1 : Nat) : NodeId)) none ::
                inner)) := by
          rw [Graph.extend_extend]
          exact g.setBody_extend (.loop s.line condition none none) inner _
        exact congrArg (fun set => set.mapError BuildError.defect >>= fun whole =>
          pure ((g.size : NodeId), whole)) body

/-- Adding statements appends their nodes, each at the place it has in the layout. -/
theorem addAllTo_eq (g : Graph) (drafts : List StatementDraft) :
    addAllTo g drafts =
      (looseNodes g.size drafts).map fun loose => (starts g.size drafts, g.extend loose) := by
  induction g, drafts using addAllTo.induct
    (fun g s => addTo g s =
      (nodes g.size none s).map fun own => ((g.size : NodeId), g.extend own)) with
  | case1 g line kind target function argument expr body ih => exact addTo_eq_of_body ih
  | case2 g => exact congrArg (fun h => Except.ok ([], h)) g.extend_nil.symm
  | case3 g s rest ihFirst ihRest =>
    rw [addAllTo, looseNodes, ihFirst]
    cases built : nodes g.size none s with
    | error failure => rfl
    | ok own =>
      have placed : (g.extend own).size = g.size + nodeCount s := by
        rw [Graph.size_extend, length_of_nodes built]
      have others := ihRest (g.extend own)
      rw [placed] at others
      change (addAllTo (g.extend own) rest >>= fun block =>
        pure ((g.size : NodeId) :: block.1, block.2)) = _
      rw [others]
      cases looseNodes (g.size + nodeCount s) rest with
      | error failure => rfl
      | ok loose =>
        exact congrArg (fun h => Except.ok (starts g.size (s :: rest), h))
          (g.extend_extend own loose)

end StatementDraft

namespace Draft

/-- Adding the statements and linking them afterwards gives the graph of the layout. -/
theorem build_eq_layout (d : Draft) :
    d.build = StatementDraft.blockNodes 0 none d.toList >>= fun nodes =>
      Graph.validated
        { nodes := nodes.toArray, entry := if d.toList.isEmpty then none else some 0 } := by
  have closed := StatementDraft.closeBlock_of_loose
    (StatementDraft.addAllTo_eq .empty d.toList) none
  have stages : d.build =
      (StatementDraft.addAllTo .empty d.toList >>= fun block =>
        (block.2.closeBlock none block.1).mapError BuildError.defect) >>= fun block =>
          Graph.validated { block.2 with entry := block.1 } := by
    unfold build
    cases StatementDraft.addAllTo .empty d.toList <;> rfl
  rw [stages, closed]
  change (StatementDraft.blockNodes 0 none d.toList).map _ >>= _ = _
  cases StatementDraft.blockNodes 0 none d.toList with
  | error failure => rfl
  | ok nodes =>
    have all : (Graph.empty.extend nodes).nodes = nodes.toArray := Array.empty_append
    exact congrArg (fun nodes => Graph.validated
      { nodes, entry := if d.toList.isEmpty then none else some 0 }) all

/-- A built graph holds the nodes of its draft, starts at the first one if there is any, and has no
violation. -/
theorem build_ok {d : Draft} {g : Graph} (built : d.build = .ok g) :
    ∃ nodes, StatementDraft.blockNodes 0 none d.toList = .ok nodes ∧
      g = { nodes := nodes.toArray, entry := if d.toList.isEmpty then none else some 0 } ∧
      g.violation? = none := by
  rw [build_eq_layout] at built
  obtain ⟨nodes, nodesBuilt, accepted⟩ := exists_of_bind_ok built
  refine ⟨nodes, nodesBuilt, ?_⟩
  unfold Graph.validated at accepted
  split at accepted
  · cases accepted
  · rename_i clean
    cases accepted
    exact ⟨rfl, clean⟩

end Draft

end StepGraph
