import StepGraph.Graph.Lines
import StepGraph.Graph.Validity
import StepGraph.Proofs.Graph.Relinking

/-!
# Sound graphs

Which faults a statement can fail with depends on the elements it is composed
of.  Elements of known kinds and known operators exclude every defect of the
evaluation, readable literals exclude the errors of unreadable ones as well.  A
graph fits a set of positions when its entry and links stay within them and its
statements are composed of such elements; relinking within them keeps it so.
-/

namespace StepGraph

namespace Element

def IsKnown (e : Element) : Prop := e.kind ∈ ElementKind.known

def IsReadable (e : Element) : Prop :=
  e.IsKnown ∧ (e.kind = .intLiteral → (Integer.ofLiteral? e.text).isSome) ∧
    (e.kind = .realLiteral → (Double.ofLiteral? e.text).isSome)

end Element

/-! ## Statements composed of certain elements -/

section ComposedOf

variable (P : Element → Prop)

/-- The elements satisfy `P`, and the operator has a meaning. -/
def Expr.ComposedOf (e : Expr) : Prop :=
  P e.lhs ∧ ∀ op rhs, e.operation = some (op, rhs) → op ∈ Operator.known ∧ P rhs

def Source.ComposedOf : Source → Prop
  | .expr e => e.ComposedOf P
  | .call _ argument => P argument

def Action.ComposedOf : Action → Prop
  | .assign _ source => source.ComposedOf P
  | .call _ argument => ∀ e ∈ argument, P e
  | .pass => True

def Node.ComposedOf : Node → Prop
  | .step _ action _ => action.ComposedOf P
  | .loop _ condition _ _ => condition.ComposedOf P

end ComposedOf

theorem Node.composedOf_withLinks {P : Element → Prop} (node : Node) (l : Links) :
    (node.withLinks l).ComposedOf P ↔ node.ComposedOf P := by
  cases node <;> exact Iff.rfl

/-! ## The faults of statements -/

/-- The literal of a number could not be read. -/
def Cause.IsUnreadable : Cause → Prop
  | .invalidInt _ | .invalidReal _ => True
  | _ => False

/-- At a line, the faults of elements with `P` are among those with `Q`, and so are the errors that
have nothing to do with literals. -/
structure CoversAt (P : Element → Prop) (line : Int) (Q : Fault → Prop) : Prop where
  element : ∀ {e : Element} {memory : Memory} {fault : Fault},
    P e → e.eval memory line = .error fault → Q fault
  cause : ∀ {cause : Cause}, ¬ cause.IsUnreadable → Q (.error { line, cause })

namespace CoversAt

variable {P : Element → Prop} {line : Int} {Q : Fault → Prop} (covers : CoversAt P line Q)
include covers

theorem failAt {α : Type} {cause : Cause} {fault : Fault}
    (failed : (StepGraph.failAt line cause : Except Fault α) = .error fault)
    (readable : ¬ cause.IsUnreadable) : Q fault := by
  cases failed
  exact covers.cause readable

theorem onInts {op : Operator} {a b : Int64} {fault : Fault}
    (known : op ∈ Operator.known) (failed : op.onInts a b line = .error fault) : Q fault := by
  cases op with
  | unknown code => simp [Operator.known] at known
  | comparison op => cases failed
  | arithmetic op =>
    cases op with
    | add | sub | mul => cases failed
    | div | mod | pow =>
      simp only [Operator.onInts, Arithmetic.onInts] at failed
      split at failed
      · exact covers.failAt failed not_false
      · cases failed

theorem onReals {op : Operator} {a b : Float} {fault : Fault}
    (known : op ∈ Operator.known) (failed : op.onReals a b line = .error fault) : Q fault := by
  cases op with
  | unknown code => simp [Operator.known] at known
  | comparison op => cases failed
  | arithmetic op =>
    cases op with
    | add | sub | mul | pow => cases failed
    | div | mod =>
      simp only [Operator.onReals, Arithmetic.onReals] at failed
      split at failed
      · exact covers.failAt failed not_false
      · cases failed

theorem onStrings {op : Operator} {a b : Text} {fault : Fault}
    (failed : op.onStrings a b line = .error fault) : Q fault := by
  unfold Operator.onStrings at failed
  split at failed
  · cases failed
  · cases failed
  · exact covers.failAt failed not_false

theorem apply {op : Operator} {lhs rhs : Value} {fault : Fault}
    (known : op ∈ Operator.known) (failed : op.apply lhs rhs line = .error fault) : Q fault := by
  unfold Operator.apply at failed
  split at failed
  · exact covers.onInts known failed
  · exact covers.onReals known failed
  · exact covers.onReals known failed
  · exact covers.onReals known failed
  · exact covers.onStrings failed
  · exact covers.failAt failed not_false

theorem expr {e : Expr} {memory : Memory} {fault : Fault} (composed : e.ComposedOf P)
    (failed : e.eval memory line = .error fault) : Q fault := by
  unfold Expr.eval at failed
  split at failed
  · rename_i early left
    cases failed
    exact covers.element composed.1 left
  · split at failed
    · cases failed
    · rename_i op right operation
      obtain ⟨known, rightOk⟩ := composed.2 op right operation
      split at failed
      · rename_i early evaluated
        cases failed
        exact covers.element rightOk evaluated
      · exact covers.apply known failed

theorem stringArgument {m : Machine} {function : Text} {argument : Element} {fault : Fault}
    (failed : m.stringArgument function argument line = .error fault) :
    Q fault := by
  unfold Machine.stringArgument at failed
  split at failed
  · split at failed
    · exact covers.failAt failed not_false
    · cases failed
    · exact covers.failAt failed not_false
  · exact covers.failAt failed not_false

theorem convertInt {s : Text} {fault : Fault}
    (failed : Machine.convertInt s line = .error fault) : Q fault := by
  unfold Machine.convertInt at failed
  split at failed
  · exact covers.failAt failed not_false
  · cases failed

theorem convertFloat {s : Text} {fault : Fault}
    (failed : Machine.convertFloat s line = .error fault) : Q fault := by
  unfold Machine.convertFloat at failed
  split at failed
  · exact covers.failAt failed not_false
  · cases failed

theorem callInput {m : Machine} {argument : Element} {fault : Fault}
    (ok : P argument) (failed : (m.callInput argument line).2 = .error fault) : Q fault := by
  unfold Machine.callInput at failed
  split at failed
  · rename_i early evaluated
    cases failed
    exact covers.element ok evaluated
  · split at failed
    · cases failed
    · exact covers.failAt failed not_false
    · exact covers.failAt failed not_false
  · exact covers.failAt failed not_false

theorem conversion {m : Machine} {function : Text} {argument : Element} {fault : Fault}
    {convert : Text → Except Fault Value}
    (converted : ∀ {s fault}, convert s = .error fault → Q fault)
    (failed : (m.stringArgument function argument line >>= convert) = .error fault) : Q fault := by
  cases argued : m.stringArgument function argument line with
  | error early =>
    rw [argued] at failed
    cases failed
    exact covers.stringArgument argued
  | ok s =>
    rw [argued] at failed
    exact converted failed

theorem callFunction {m : Machine} {function : Text} {argument : Element} {fault : Fault}
    (ok : P argument)
    (failed : (m.callFunction function argument line).2 = .error fault) : Q fault := by
  unfold Machine.callFunction at failed
  split at failed
  · exact covers.callInput ok failed
  · split at failed
    · exact covers.conversion covers.convertInt failed
    · split at failed
      · exact covers.conversion covers.convertFloat failed
      · exact covers.failAt failed not_false

theorem evalSource {m : Machine} {source : Source} {fault : Fault}
    (composed : source.ComposedOf P) (failed : (m.evalSource source line).2 = .error fault) :
    Q fault := by
  cases source with
  | expr e => exact covers.expr composed failed
  | call function argument => exact covers.callFunction composed failed

theorem callStatement {m : Machine} {function : Text} {argument : Option Element}
    {fault : Fault} (composed : ∀ e ∈ argument, P e)
    (failed : (m.callStatement function argument line).2 = .error fault) : Q fault := by
  unfold Machine.callStatement at failed
  split at failed
  · split at failed
    · cases failed
    · rename_i e
      split at failed
      · cases failed
      · rename_i early evaluated
        cases failed
        exact covers.element (composed e rfl) evaluated
  · exact covers.failAt failed not_false

theorem act {m : Machine} {action : Action} {fault : Fault}
    (composed : action.ComposedOf P) (failed : (m.act action line).2 = .error fault) : Q fault := by
  cases action with
  | assign target source =>
    simp only [Machine.act] at failed
    split at failed
    · cases failed
    · rename_i after early evaluated
      cases failed
      exact covers.evalSource composed (congrArg Prod.snd evaluated)
  | call function argument => exact covers.callStatement composed failed
  | pass => cases failed

theorem execute {m : Machine} {node : Node} {fault : Fault} (here : node.line = line)
    (composed : node.ComposedOf P) (failed : (m.execute node).2 = .error fault) : Q fault := by
  subst here
  cases node with
  | step line action next =>
    simp only [Machine.execute] at failed
    split at failed
    · cases failed
    · rename_i after early acted
      cases failed
      exact covers.act composed (congrArg Prod.snd acted)
  | loop line condition body next =>
    simp only [Machine.execute] at failed
    split at failed
    · rename_i early evaluated
      cases failed
      exact covers.expr composed evaluated
    · cases failed
    · cases failed
    · exact covers.failAt failed not_false

end CoversAt

/-- The faults of elements with `P` are among those with `Q`, and so are the errors that have
nothing to do with literals. -/
structure Covers (P : Element → Prop) (Q : Fault → Prop) : Prop where
  element : ∀ {e : Element} {memory : Memory} {line : Int} {fault : Fault},
    P e → e.eval memory line = .error fault → Q fault
  cause : ∀ (line : Int) {cause : Cause}, ¬ cause.IsUnreadable → Q (.error { line, cause })

namespace Covers

variable {P : Element → Prop} {Q : Fault → Prop}

theorem onLine (covers : Covers P Q) (line : Int) : CoversAt P line Q where
  element := covers.element
  cause := covers.cause line

theorem execute (covers : Covers P Q) {m : Machine} {node : Node} {fault : Fault}
    (composed : node.ComposedOf P) (failed : (m.execute node).2 = .error fault) : Q fault :=
  (covers.onLine node.line).execute rfl composed failed

end Covers

/-- An error of the program, not a defect. -/
def Fault.IsError : Fault → Prop
  | .error _ => True
  | .defect _ => False

/-- An error of the program other than an unreadable literal. -/
def Fault.IsOrdinary : Fault → Prop
  | .error e => ¬ e.cause.IsUnreadable
  | .defect _ => False

/-- What an element can fail with: an error at the line, which is that of an unreadable literal for
such literals only, or a defect if its kind has no meaning. -/
theorem Element.fault_cases {e : Element} {memory : Memory} {line : Int} {fault : Fault}
    (failed : e.eval memory line = .error fault) :
    (∃ cause, fault = .error { line, cause } ∧
      (cause.IsUnreadable → e.kind = .intLiteral ∧ Integer.ofLiteral? e.text = none ∨
        e.kind = .realLiteral ∧ Double.ofLiteral? e.text = none)) ∨
      ∃ code defect, e.kind = .unknown code ∧ fault = .defect defect := by
  unfold Element.eval at failed
  split at failed <;> try cases failed
  · split at failed <;> cases failed
    exact .inl ⟨_, rfl, False.elim⟩
  · rename_i kind
    split at failed <;> cases failed
    rename_i unread
    exact .inl ⟨_, rfl, fun _ => .inl ⟨kind, unread⟩⟩
  · rename_i kind
    split at failed <;> cases failed
    rename_i unread
    exact .inl ⟨_, rfl, fun _ => .inr ⟨kind, unread⟩⟩
  · rename_i code kind
    exact .inr ⟨code, _, kind, rfl⟩

theorem Element.IsKnown.kind_ne {e : Element} (known : e.IsKnown) (code : Int) :
    e.kind ≠ .unknown code := by
  intro kind
  simp [Element.IsKnown, ElementKind.known, kind] at known

theorem covers_known : Covers Element.IsKnown Fault.IsError where
  cause _ _ _ := trivial
  element := by
    intro e memory line fault known failed
    rcases Element.fault_cases failed with ⟨cause, rfl, -⟩ | ⟨code, defect, kind, -⟩
    · trivial
    · exact absurd kind (known.kind_ne code)

/-- Readable elements have no defects and no errors of unreadable literals. -/
theorem covers_readable : Covers Element.IsReadable Fault.IsOrdinary where
  cause _ _ readable := readable
  element := by
    intro e memory line fault ok failed
    obtain ⟨known, int, real⟩ := ok
    rcases Element.fault_cases failed with ⟨cause, rfl, unreadable⟩ | ⟨code, defect, kind, -⟩
    · intro isUnreadable
      rcases unreadable isUnreadable with ⟨kind, unread⟩ | ⟨kind, unread⟩
      · simpa [unread] using int kind
      · simpa [unread] using real kind
    · exact absurd kind (known.kind_ne code)

def Fault.IsAt (line : Int) : Fault → Prop
  | .error e => e.line = line
  | .defect _ => True

theorem coversAt_isAt (P : Element → Prop) (line : Int) : CoversAt P line (Fault.IsAt line) where
  cause _ := rfl
  element := by
    intro e memory fault _ failed
    rcases Element.fault_cases failed with ⟨cause, rfl, -⟩ | ⟨code, defect, -, rfl⟩
    · rfl
    · trivial

/-- The error of a statement names the line of the statement. -/
theorem line_of_effect {P : Element → Prop} {m : Machine} {node : Node} {error : ExecutionError}
    (composed : node.ComposedOf P) (failed : (m.effect node).2 = .error (.error error)) :
    error.line = node.line := by
  have executed : (m.execute node).2 = .error (.error error) := by
    rw [m.execute_eq_effect, failed]
    rfl
  exact (coversAt_isAt P node.line).execute rfl composed executed

/-! ## Links within a graph -/

namespace Graph

def InRange (g : Graph) (link : Link) : Prop := ∀ id, link = some id → g.isValid id = true

def LinksInRange (g : Graph) (l : Links) : Prop := g.InRange l.next ∧ g.InRange l.body

/-- The graph has the positions of `base`, its entry and links stay within them, and its
statements are composed of elements with `P`. -/
structure Fits (P : Element → Prop) (base g : Graph) : Prop where
  valid : ∀ id, g.isValid id = base.isValid id
  entry : base.InRange g.entry
  links : ∀ {id node}, g.node? id = some node → base.LinksInRange node.links
  composed : ∀ {id node}, g.node? id = some node → node.ComposedOf P

theorem inRange_none (g : Graph) : g.InRange none := by
  intro id leads
  cases leads

theorem linksInRange_none (g : Graph) : g.LinksInRange .none :=
  ⟨g.inRange_none, g.inRange_none⟩

theorem LinksInRange.along {g : Graph} {l : Links} (inRange : g.LinksInRange l) (branch : Branch) :
    g.InRange (l.along branch) := by
  cases branch with
  | next => exact inRange.1
  | body => exact inRange.2

theorem LinksInRange.withLinks {g : Graph} {l : Links} (inRange : g.LinksInRange l) (node : Node) :
    g.LinksInRange (node.withLinks l).links := by
  cases node with
  | step line action next => exact ⟨inRange.1, g.inRange_none⟩
  | loop line condition body next => exact inRange

namespace Fits

variable {P : Element → Prop} {base g : Graph}

theorem exists_node? (fits : Fits P base g) {id : NodeId} (valid : base.isValid id = true) :
    ∃ node, g.node? id = some node :=
  isValid_iff.mp ((fits.valid id).trans valid)

/-- Links within the positions may be given to any node. -/
theorem relink (fits : Fits P base g) (id : NodeId) {l : Links} (inRange : base.LinksInRange l) :
    Fits P base (g.relink id l) where
  valid other := by rw [isValid_relink, fits.valid]
  entry := by
    rw [entry_relink]
    exact fits.entry
  links := by
    intro other node found
    rw [node?_relink] at found
    split at found
    · obtain ⟨old, -, rfl⟩ := Option.map_eq_some_iff.mp found
      exact inRange.withLinks old
    · exact fits.links found
  composed := by
    intro other node found
    rw [node?_relink] at found
    split at found
    · obtain ⟨old, oldFound, rfl⟩ := Option.map_eq_some_iff.mp found
      exact (Node.composedOf_withLinks old l).mpr (fits.composed oldFound)
    · exact fits.composed found

/-- Nothing outside the graph is reached by links that stay within it. -/
theorem explore_ok (fits : Fits P base g) (pending : List Link) (seen : List Nat)
    (inRange : ∀ link ∈ pending, base.InRange link) :
    ∃ positions, g.explore pending seen = .ok positions := by
  induction pending, seen using explore.induct g with
  | case1 seen => exact ⟨seen, by rw [explore]⟩
  | case2 seen pending ih =>
    rw [explore]
    exact ih fun link member => inRange link (List.mem_cons_of_mem _ member)
  | case3 seen id pending missing =>
    obtain ⟨node, found⟩ := fits.exists_node? (inRange (some id) List.mem_cons_self id rfl)
    rw [missing] at found
    cases found
  | case4 seen id pending node found known ih =>
    obtain ⟨positions, explored⟩ :=
      ih fun link member => inRange link (List.mem_cons_of_mem _ member)
    refine ⟨positions, ?_⟩
    rw [explore]
    split
    · simp_all
    · rw [dif_pos known]
      exact explored
  | case5 seen id pending node found fresh ih =>
    have successors : ∀ link ∈ node.links.body :: node.links.next :: pending,
        base.InRange link := by
      intro link member
      rcases List.mem_cons.mp member with rfl | member
      · exact (fits.links found).2
      rcases List.mem_cons.mp member with rfl | member
      · exact (fits.links found).1
      · exact inRange link (List.mem_cons_of_mem _ member)
    obtain ⟨positions, explored⟩ := ih successors
    refine ⟨positions, ?_⟩
    rw [explore]
    split
    · simp_all
    · rw [dif_neg fresh]
      simp_all

/-- What a run fails with is covered by the elements of the graph. -/
theorem run {Q : Fault → Prop} (covers : Covers P Q) (fits : Fits P base g) {fuel : Nat}
    {link : Link} {m : Machine} {fault : Fault} (inRange : base.InRange link)
    (failed : (g.run fuel link m).2 = .failed fault) : Q fault := by
  induction fuel generalizing link m with
  | zero => cases link <;> cases failed
  | succ fuel ih =>
    cases link with
    | none => cases failed
    | some id =>
      obtain ⟨node, found⟩ := fits.exists_node? (inRange id rfl)
      unfold Graph.run at failed
      rw [execute_of_node? found] at failed
      cases executed : m.execute node with
      | mk after result =>
        rw [executed] at failed
        cases result with
        | error early =>
          cases failed
          exact covers.execute (fits.composed found) (congrArg Prod.snd executed)
        | ok outcome =>
          have leads := Machine.next_of_execute (congrArg Prod.snd executed)
          exact ih (leads ▸ (fits.links found).along outcome.branch) failed

theorem lines_ok (fits : Fits P base g) : ∃ lines, g.lines = .ok lines := by
  obtain ⟨positions, explored⟩ := fits.explore_ok [g.entry] [] (by
    intro link member
    rw [List.mem_singleton.mp member]
    exact fits.entry)
  unfold lines reachable
  rw [explored]
  exact ⟨_, rfl⟩

end Fits

/-! ## Graphs without violations -/

theorem danglingTarget?_eq_none_iff {g : Graph} {link : Link} :
    g.danglingTarget? link = none ↔ g.InRange link := by
  cases link with
  | none => exact ⟨fun _ => g.inRange_none, fun _ => rfl⟩
  | some id => simp [danglingTarget?, InRange]

theorem linksInRange_of_nodeViolation? {g : Graph} {node : Node}
    (accepted : g.nodeViolation? node = none) : g.LinksInRange node.links := by
  unfold nodeViolation? at accepted
  split at accepted
  · cases accepted
  · cases accepted
  · rename_i next body
    exact ⟨danglingTarget?_eq_none_iff.mp next, danglingTarget?_eq_none_iff.mp body⟩

theorem mem_of_node? {g : Graph} {id : NodeId} {node : Node} (found : g.node? id = some node) :
    node ∈ g.nodes.toList := by
  unfold node? at found
  split at found
  · exact Array.mem_toList_iff.mpr (Array.mem_of_getElem? found)
  · cases found

/-- A graph without violations fits itself when its statements are composed as they should. -/
theorem fits_of_violation? {P : Element → Prop} {g : Graph} (accepted : g.violation? = none)
    (composed : ∀ {id node}, g.node? id = some node → node.ComposedOf P) : Fits P g g := by
  unfold violation? at accepted
  split at accepted
  · cases accepted
  · rename_i entry
    exact
      { valid := fun _ => rfl
        entry := danglingTarget?_eq_none_iff.mp entry
        links := fun found =>
          linksInRange_of_nodeViolation?
            (List.findSome?_eq_none_iff.mp accepted _ (mem_of_node? found))
        composed }

/-- A graph without violations whose elements are readable. -/
structure IsRunnable (g : Graph) : Prop where
  accepted : g.violation? = none
  readable : ∀ {id node}, g.node? id = some node → node.ComposedOf Element.IsReadable

theorem IsRunnable.fits {g : Graph} (runnable : g.IsRunnable) : Fits Element.IsReadable g g :=
  fits_of_violation? runnable.accepted runnable.readable

end Graph

end StepGraph
