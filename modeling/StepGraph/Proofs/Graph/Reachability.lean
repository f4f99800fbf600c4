import Mathlib.Logic.Function.Iterate
import StepGraph.Graph.Lines
import StepGraph.Proofs.Graph.Relinking

/-!
# Nodes that can be reached

A route follows links, one after the other.  The search for the lines of a graph
takes the pending links in turn, and every turn keeps what it knows: the
positions seen can be reached, and their links lead to positions that are seen
or pending.  So whatever the links of a graph are, the search ends, finds
exactly what can be reached, and fails exactly if that is not all in the graph.
-/

namespace StepGraph

namespace Graph

variable {g : Graph}

/-! ## Routes -/

/-- Links followed one after the other: the nodes that are left, each with the branch taken. -/
inductive Route (g : Graph) : NodeId → List (NodeId × Branch) → NodeId → Prop
  | stay (id : NodeId) : Route g id [] id
  | follow {id target last : NodeId} {node : Node} {branch : Branch}
      {steps : List (NodeId × Branch)} (found : g.node? id = some node)
      (leads : node.links.along branch = some target) (route : Route g target steps last) :
      Route g id ((id, branch) :: steps) last

/-- A position, in the graph or not, that a route from the entry leads to. -/
def Reaches (g : Graph) (id : NodeId) : Prop :=
  ∃ start steps, g.entry = some start ∧ g.Route start steps id

theorem Route.append {first middle last : NodeId} {front back : List (NodeId × Branch)}
    (route : g.Route first front middle) (further : g.Route middle back last) :
    g.Route first (front ++ back) last := by
  induction route with
  | stay => exact further
  | follow found leads _ ih => exact .follow found leads (ih further)

theorem Reaches.entry {id : NodeId} (start : g.entry = some id) : g.Reaches id :=
  ⟨id, [], start, .stay id⟩

theorem Reaches.link {id target : NodeId} {node : Node} (reached : g.Reaches id) (branch : Branch)
    (found : g.node? id = some node) (leads : node.links.along branch = some target) :
    g.Reaches target := by
  obtain ⟨start, steps, entry, route⟩ := reached
  exact ⟨start, steps ++ [(id, branch)], entry, route.append (.follow found leads (.stay target))⟩

/-- What holds of the entry and is passed on by links holds of everything that can be reached. -/
theorem Reaches.induction {P : NodeId → Prop} {id : NodeId} (reached : g.Reaches id)
    (entry : ∀ start, g.entry = some start → P start)
    (link : ∀ {id target node branch}, P id → g.node? id = some node →
      node.links.along branch = some target → P target) : P id := by
  obtain ⟨start, steps, isEntry, route⟩ := reached
  have holds := entry start isEntry
  clear isEntry
  induction route with
  | stay => exact holds
  | follow found leads _ ih => exact ih (link holds found leads)

/-! ## The search in turns -/

/-- A search: the links to be taken and the positions seen so far, or what has come of it. -/
inductive Search where
  | going (pending : List Link) (seen : List Nat)
  | ended (result : Except Defect (List Nat))

/-- The first pending link is taken.  A position that is new makes its own links pending. -/
def turn (g : Graph) : Search → Search
  | .going [] seen => .ended (.ok seen)
  | .going (none :: pending) seen => .going pending seen
  | .going (some id :: pending) seen =>
    match g.node? id with
    | none => .ended (.error (.invalidNode id))
    | some node =>
      if id.toNat ∈ seen then .going pending seen
      else .going (node.links.body :: node.links.next :: pending) (id.toNat :: seen)
  | .ended result => .ended result

section Equations

variable {id : NodeId} {node : Node} {pending : List Link} {seen : List Nat}

theorem explore_of_missing (missing : g.node? id = none) :
    g.explore (some id :: pending) seen = .error (.invalidNode id) := by
  rw [explore]
  split
  · rfl
  · simp_all

theorem explore_of_seen (found : g.node? id = some node) (known : id.toNat ∈ seen) :
    g.explore (some id :: pending) seen = g.explore pending seen := by
  rw [explore]
  split
  · simp_all
  · rw [dif_pos known]

theorem explore_of_new (found : g.node? id = some node) (fresh : id.toNat ∉ seen) :
    g.explore (some id :: pending) seen =
      g.explore (node.links.body :: node.links.next :: pending) (id.toNat :: seen) := by
  rw [explore]
  split
  · simp_all
  · simp_all

theorem turn_of_missing (missing : g.node? id = none) :
    g.turn (.going (some id :: pending) seen) = .ended (.error (.invalidNode id)) := by
  simp only [turn, missing]

theorem turn_of_seen (found : g.node? id = some node) (known : id.toNat ∈ seen) :
    g.turn (.going (some id :: pending) seen) = .going pending seen := by
  simp only [turn, found, if_pos known]

theorem turn_of_new (found : g.node? id = some node) (fresh : id.toNat ∉ seen) :
    g.turn (.going (some id :: pending) seen) =
      .going (node.links.body :: node.links.next :: pending) (id.toNat :: seen) := by
  simp only [turn, found, if_neg fresh]

end Equations

/-- The turns of a search come to its result.  Every turn takes one pending link, and every new
position adds two. -/
theorem exists_turns (g : Graph) (pending : List Link) (seen : List Nat) :
    ∃ turns ≤ 2 * g.unseen seen + pending.length + 1,
      g.turn^[turns] (.going pending seen) = .ended (g.explore pending seen) := by
  induction pending, seen using explore.induct g with
  | case1 seen =>
    refine ⟨1, by omega, ?_⟩
    rw [explore]
    rfl
  | case2 seen pending ih =>
    obtain ⟨turns, bound, ended⟩ := ih
    refine ⟨turns + 1, by rw [List.length_cons]; omega, ?_⟩
    rw [explore, ← ended]
    rfl
  | case3 seen id pending missing =>
    refine ⟨1, by omega, ?_⟩
    rw [explore_of_missing missing, Function.iterate_one, turn_of_missing missing]
  | case4 seen id pending node found known ih =>
    obtain ⟨turns, bound, ended⟩ := ih
    refine ⟨turns + 1, by rw [List.length_cons]; omega, ?_⟩
    rw [explore_of_seen found known, Function.iterate_succ_apply, turn_of_seen found known, ended]
  | case5 seen id pending node found fresh ih =>
    obtain ⟨turns, bound, ended⟩ := ih
    have fewer := unseen_cons_lt (toNat_lt_of_node? found) fresh
    refine ⟨turns + 1, by simp only [List.length_cons] at bound ⊢; omega, ?_⟩
    rw [explore_of_new found fresh, Function.iterate_succ_apply, turn_of_new found fresh, ended]

/-! ## What a turn keeps -/

/-- The position is among those seen, or a pending link leads to it. -/
def Noticed (pending : List Link) (seen : List Nat) (id : NodeId) : Prop :=
  (∃ position ∈ seen, id = position) ∨ some id ∈ pending

/-- What a search knows: only what can be reached is seen or pending, and the entry and all links of
seen positions have been noticed.  A search that has failed did so at a position outside the graph
that can be reached. -/
inductive Explored (g : Graph) : Search → Prop
  | going {pending : List Link} {seen : List Nat}
      (sound : ∀ id, Noticed pending seen id → g.Reaches id)
      (inside : ∀ position ∈ seen, ∃ node, g.node? position = some node)
      (entry : ∀ start, g.entry = some start → Noticed pending seen start)
      (closed : ∀ position ∈ seen, ∀ node branch target, g.node? position = some node →
        node.links.along branch = some target → Noticed pending seen target) :
      Explored g (.going pending seen)
  | failed {id : NodeId} (reached : g.Reaches id) (missing : g.node? id = none) :
      Explored g (.ended (.error (.invalidNode id)))
  | found {seen : List Nat}
      (exact : ∀ id : NodeId, (∃ position ∈ seen, id = position) ↔ g.Reaches id)
      (inside : ∀ position ∈ seen, ∃ node, g.node? position = some node) :
      Explored g (.ended (.ok seen))

theorem toNat_of_node? {id : NodeId} {node : Node} (found : g.node? id = some node) :
    (id.toNat : Int) = id := by
  unfold node? at found
  split at found
  · exact Int.toNat_of_nonneg (by assumption)
  · cases found

/-- A search that has nothing left to do has found all that can be reached. -/
theorem Explored.found_of_nil {seen : List Nat} (explored : Explored g (.going [] seen)) :
    Explored g (.ended (.ok seen)) := by
  cases explored with
  | going sound inside entry closed =>
    have isSeen {id : NodeId} (noticed : Noticed [] seen id) :
        ∃ position ∈ seen, id = position := by
      rcases noticed with here | pending
      · exact here
      · cases pending
    refine .found (fun id => ⟨fun here => sound id (.inl here), ?_⟩) inside
    intro reached
    refine reached.induction (fun start isEntry => isSeen (entry start isEntry)) ?_
    rintro _ target node branch ⟨position, member, rfl⟩ found leads
    exact isSeen (closed position member node branch target found leads)

theorem Explored.drop {link : Link} {pending : List Link} {seen : List Nat}
    (explored : Explored g (.going (link :: pending) seen))
    (known : ∀ id, link = some id → ∃ position ∈ seen, id = position) :
    Explored g (.going pending seen) := by
  have still {id : NodeId} (noticed : Noticed (link :: pending) seen id) :
      Noticed pending seen id := by
    rcases noticed with here | awaited
    · exact .inl here
    · rcases List.mem_cons.mp awaited with same | awaited
      · exact .inl (known id same.symm)
      · exact .inr awaited
  cases explored with
  | going sound inside entry closed =>
    refine .going ?_ inside (fun start isEntry => still (entry start isEntry)) ?_
    · rintro id (here | awaited)
      · exact sound id (.inl here)
      · exact sound id (.inr (List.mem_cons_of_mem _ awaited))
    · intro position member node branch target found leads
      exact still (closed position member node branch target found leads)

theorem Explored.take {id : NodeId} {node : Node} {pending : List Link} {seen : List Nat}
    (explored : Explored g (.going (some id :: pending) seen)) (found : g.node? id = some node) :
    Explored g (.going (node.links.body :: node.links.next :: pending) (id.toNat :: seen)) := by
  have here := toNat_of_node? found
  have leadsTo {target : NodeId} {branch : Branch} (leads : node.links.along branch = some target) :
      some target ∈ node.links.body :: node.links.next :: pending := by
    cases branch with
    | next => exact List.mem_cons_of_mem _ (List.mem_cons.mpr (.inl leads.symm))
    | body => exact List.mem_cons.mpr (.inl leads.symm)
  have still {other : NodeId} (noticed : Noticed (some id :: pending) seen other) :
      Noticed (node.links.body :: node.links.next :: pending) (id.toNat :: seen) other := by
    rcases noticed with ⟨position, member, same⟩ | awaited
    · exact .inl ⟨position, List.mem_cons_of_mem _ member, same⟩
    · rcases List.mem_cons.mp awaited with same | awaited
      · cases same
        exact .inl ⟨id.toNat, List.mem_cons_self, here.symm⟩
      · exact .inr (List.mem_cons_of_mem _ (List.mem_cons_of_mem _ awaited))
  cases explored with
  | going sound inside entry closed =>
    have reached : g.Reaches id := sound id (.inr List.mem_cons_self)
    refine .going ?_ ?_ (fun start isEntry => still (entry start isEntry)) ?_
    · rintro other (⟨position, member, rfl⟩ | awaited)
      · rcases List.mem_cons.mp member with rfl | member
        · rw [here]
          exact reached
        · exact sound _ (.inl ⟨position, member, rfl⟩)
      · rcases List.mem_cons.mp awaited with leads | awaited
        · exact reached.link .body found leads.symm
        rcases List.mem_cons.mp awaited with leads | awaited
        · exact reached.link .next found leads.symm
        · exact sound other (.inr (List.mem_cons_of_mem _ awaited))
    · intro position member
      rcases List.mem_cons.mp member with rfl | member
      · exact ⟨node, by rw [here, found]⟩
      · exact inside position member
    · intro position member other branch target otherFound leads
      rcases List.mem_cons.mp member with rfl | member
      · rw [here, found] at otherFound
        cases otherFound
        exact .inr (leadsTo leads)
      · exact still (closed position member other branch target otherFound leads)

/-- A turn keeps what the search knows. -/
theorem Explored.turn {search : Search} (explored : Explored g search) :
    Explored g (g.turn search) := by
  match search with
  | .ended result => exact explored
  | .going [] seen => exact explored.found_of_nil
  | .going (none :: pending) seen => exact explored.drop fun _ leads => by cases leads
  | .going (some id :: pending) seen =>
    cases found : g.node? id with
    | none =>
      rw [turn_of_missing found]
      cases explored with
      | going sound => exact .failed (sound id (.inr List.mem_cons_self)) found
    | some node =>
      by_cases known : id.toNat ∈ seen
      · rw [turn_of_seen found known]
        refine explored.drop ?_
        intro other same
        cases same
        exact ⟨id.toNat, known, (toNat_of_node? found).symm⟩
      · rw [turn_of_new found known]
        exact explored.take found

theorem explored_reachable (g : Graph) : Explored g (.ended g.reachable) := by
  have start : Explored g (.going [g.entry] []) := by
    refine .going ?_ (fun _ none => by cases none) ?_ fun _ none => by cases none
    · rintro id (⟨position, none, -⟩ | pending)
      · cases none
      · exact .entry (List.mem_singleton.mp pending).symm
    · exact fun start isEntry => .inr (List.mem_singleton.mpr isEntry.symm)
  obtain ⟨turns, -, ended⟩ := g.exists_turns [g.entry] []
  rw [reachable, ← ended]
  exact Function.Iterate.rec (Explored g) start (fun _ explored => explored.turn) turns

/-- The search fails at a position outside the graph that can be reached, or finds exactly the
positions that can be reached, all of them in the graph. -/
theorem reachable_cases (g : Graph) :
    (∃ id, g.reachable = .error (.invalidNode id) ∧ g.Reaches id ∧ g.node? id = none) ∨
      ∃ seen, g.reachable = .ok seen ∧
        (∀ id : NodeId, (∃ position ∈ seen, id = position) ↔ g.Reaches id) ∧
        ∀ position ∈ seen, ∃ node, g.node? position = some node := by
  have explored := g.explored_reachable
  generalize g.reachable = result at explored
  cases explored with
  | failed reached missing => exact .inl ⟨_, rfl, reached, missing⟩
  | found exact inside => exact .inr ⟨_, rfl, exact, inside⟩

/-! ## Ascending lists -/

theorem mem_insertAscending {n k : Int} {lines : List Int} :
    k ∈ insertAscending n lines ↔ k = n ∨ k ∈ lines := by
  induction lines with
  | nil => simp [insertAscending]
  | cons m rest ih =>
    rw [insertAscending]
    split
    · rw [List.mem_cons]
    · split
      · rename_i same
        simp [same]
      · rw [List.mem_cons, ih, List.mem_cons]
        exact or_left_comm

theorem pairwise_insertAscending {n : Int} {lines : List Int}
    (ascending : lines.Pairwise (· < ·)) : (insertAscending n lines).Pairwise (· < ·) := by
  induction lines with
  | nil => exact List.pairwise_singleton _ _
  | cons m rest ih =>
    obtain ⟨least, restAscending⟩ := List.pairwise_cons.mp ascending
    rw [insertAscending]
    split
    · rename_i below
      refine List.pairwise_cons.mpr ⟨?_, ascending⟩
      intro k member
      rcases List.mem_cons.mp member with rfl | member
      · exact below
      · exact Int.lt_trans below (least k member)
    · split
      · exact ascending
      · refine List.pairwise_cons.mpr ⟨?_, ih restAscending⟩
        intro k member
        rcases mem_insertAscending.mp member with rfl | member
        · omega
        · exact least k member

theorem mem_foldr_insertAscending {k : Int} {lines : List Int} :
    k ∈ lines.foldr insertAscending [] ↔ k ∈ lines := by
  induction lines with
  | nil => exact Iff.rfl
  | cons n rest ih => rw [List.foldr_cons, mem_insertAscending, ih, List.mem_cons]

theorem pairwise_foldr_insertAscending (lines : List Int) :
    (lines.foldr insertAscending []).Pairwise (· < ·) := by
  induction lines with
  | nil => exact List.Pairwise.nil
  | cons n rest ih => exact pairwise_insertAscending ih

/-! ## Lines -/

theorem lines_of_reachable_error {defect : Defect} (failed : g.reachable = .error defect) :
    g.lines = .error defect := by
  rw [lines, failed]
  rfl

/-- The lines that are found are those of the nodes at the positions seen. -/
theorem lines_of_reachable {seen : List Nat} (searched : g.reachable = .ok seen) :
    ∃ lines, g.lines = .ok lines ∧ lines.Pairwise (· < ·) ∧
      ∀ line, line ∈ lines ↔
        ∃ position ∈ seen, ∃ node, g.node? position = some node ∧ node.line = line := by
  rw [lines, searched]
  refine ⟨_, rfl, pairwise_foldr_insertAscending _, ?_⟩
  intro line
  rw [mem_foldr_insertAscending, List.mem_filterMap]
  simp only [Option.map_eq_some_iff, node?, Int.natCast_nonneg, if_true, Int.toNat_natCast]

end Graph

/-- The lines of a graph are found whatever its entry and its links are.  The search ends after two
turns at most for every node, and two more.  It fails exactly if a position outside the graph can be
reached, and names such a position; otherwise the lines are exactly those of the nodes that can be
reached, ascending and each of them once. -/
theorem lines_are_exact (g : Graph) :
    (∃ turns ≤ 2 * g.size + 2, g.turn^[turns] (.going [g.entry] []) = .ended g.reachable) ∧
      ((∃ defect, g.lines = .error defect) ↔ ∃ id, g.Reaches id ∧ g.isValid id = false) ∧
      (∀ defect, g.lines = .error defect →
        ∃ id, defect = .invalidNode id ∧ g.Reaches id ∧ g.isValid id = false) ∧
      ((∀ id, g.Reaches id → g.isValid id = true) →
        ∃ lines, g.lines = .ok lines ∧ lines.Pairwise (· < ·) ∧
          ∀ line, line ∈ lines ↔
            ∃ id node, g.Reaches id ∧ g.node? id = some node ∧ node.line = line) := by
  refine ⟨?_, ?_⟩
  · obtain ⟨turns, bound, ended⟩ := g.exists_turns [g.entry] []
    refine ⟨turns, ?_, ended⟩
    simpa [Graph.unseen] using bound
  · rcases g.reachable_cases with ⟨id, failed, reached, missing⟩ | ⟨seen, searched, exact, inside⟩
    · have outside : g.isValid id = false := by rw [Graph.isValid, missing, Option.isSome_none]
      have noLines := Graph.lines_of_reachable_error failed
      refine ⟨⟨fun _ => ⟨id, reached, outside⟩, fun _ => ⟨_, noLines⟩⟩, ?_, ?_⟩
      · intro defect named
        rw [noLines] at named
        cases named
        exact ⟨id, rfl, reached, outside⟩
      · intro allInside
        rw [allInside id reached] at outside
        cases outside
    · obtain ⟨lines, found, ascending, mem_lines⟩ := Graph.lines_of_reachable searched
      have noDefect (defect : Defect) : g.lines ≠ .error defect := by
        rw [found]
        simp
      refine ⟨⟨fun ⟨defect, failed⟩ => absurd failed (noDefect defect), ?_⟩,
        fun defect failed => absurd failed (noDefect defect),
        fun _ => ⟨lines, found, ascending, ?_⟩⟩
      · rintro ⟨id, reached, outside⟩
        obtain ⟨position, member, rfl⟩ := (exact id).mpr reached
        rw [Graph.isValid_iff.mpr (inside position member)] at outside
        cases outside
      · intro line
        rw [mem_lines]
        constructor
        · rintro ⟨position, member, node, here, onLine⟩
          exact ⟨position, node, (exact position).mp ⟨position, member, rfl⟩, here, onLine⟩
        · rintro ⟨id, node, reached, here, onLine⟩
          obtain ⟨position, member, rfl⟩ := (exact id).mpr reached
          exact ⟨position, member, node, here, onLine⟩

end StepGraph
