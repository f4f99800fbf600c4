import StepGraph.Proofs.Build.Terms

/-!
# The grammar of statements

When a statement is well formed on its own, said without the checks, and which
error it has otherwise.  Of several faults the first one counts: the line, the
kind, then the fields that the kind uses.  The check of a statement accepts
exactly the well-formed ones and reports exactly these errors.
-/

namespace StepGraph

namespace StatementDraft

/-- The right side of an assignment is a function with an argument and without an expression, or an
expression without a function. -/
def SourceWellFormed (s : StatementDraft) : Prop :=
  s.function ≠ [] ∧ s.expr = none ∧
      (∃ argument, s.argument = some argument ∧ argument.WellFormed) ∨
    s.function = [] ∧ ∃ expr, s.expr = some expr ∧ expr.WellFormed

/-- The fields that a kind of statement uses are as they should be. -/
def Suits (s : StatementDraft) : StatementKind → Prop
  | .assign => s.target ≠ [] ∧ s.SourceWellFormed
  | .call => s.function ≠ [] ∧ ∀ argument, s.argument = some argument → argument.WellFormed
  | .pass => True
  | .loop => s.body ≠ [] ∧ ∃ condition, s.expr = some condition ∧ condition.WellFormed

/-- A statement is well formed on its own: it has a positive line and a known kind, and its fields
suit the kind. -/
structure WellFormed (s : StatementDraft) : Prop where
  line : 0 < s.line
  suits : ∃ kind : StatementKind, kind.name = s.kind ∧ s.Suits kind

inductive SourceFault (s : StatementDraft) : StatementFault → Prop
  | functionAndExpression (function : s.function ≠ []) (present : s.expr ≠ none) :
      SourceFault s .functionAndExpression
  | functionWithoutArgument (function : s.function ≠ []) (noExpr : s.expr = none)
      (missing : s.argument = none) : SourceFault s (.functionWithoutArgument s.function)
  | argument {argument : ElementDraft} {fault : StatementFault} (function : s.function ≠ [])
      (noExpr : s.expr = none) (present : s.argument = some argument)
      (faulty : argument.HasFault fault) : SourceFault s fault
  | missing (noFunction : s.function = []) (noExpr : s.expr = none) :
      SourceFault s .assignmentWithoutSource
  | expr {expr : ExprDraft} {fault : StatementFault} (noFunction : s.function = [])
      (present : s.expr = some expr) (faulty : expr.HasFault fault) : SourceFault s fault

inductive KindFault (s : StatementDraft) : StatementKind → StatementFault → Prop
  | noTarget (empty : s.target = []) : KindFault s .assign .assignmentWithoutTarget
  | source {fault : StatementFault} (target : s.target ≠ []) (faulty : s.SourceFault fault) :
      KindFault s .assign fault
  | noFunction (empty : s.function = []) : KindFault s .call .callWithoutFunction
  | argument {argument : ElementDraft} {fault : StatementFault} (function : s.function ≠ [])
      (present : s.argument = some argument) (faulty : argument.HasFault fault) :
      KindFault s .call fault
  | noCondition (missing : s.expr = none) : KindFault s .loop .loopWithoutCondition
  | noBody (present : s.expr ≠ none) (empty : s.body = []) : KindFault s .loop .loopWithoutBody
  | condition {condition : ExprDraft} {fault : StatementFault} (body : s.body ≠ [])
      (present : s.expr = some condition) (faulty : condition.HasFault fault) :
      KindFault s .loop fault

/-- The error of a statement: the line comes first, then the kind, then the fields. -/
inductive HasError (s : StatementDraft) : BuildError → Prop
  | missingLine (line : s.line ≤ 0) : HasError s (.missingLine s.kind)
  | unknownKind (line : 0 < s.line) (unknown : ∀ kind : StatementKind, kind.name ≠ s.kind) :
      HasError s (.statement s.line (.unknownStatement s.kind))
  | fields {kind : StatementKind} {fault : StatementFault} (line : 0 < s.line)
      (named : kind.name = s.kind) (faulty : s.KindFault kind fault) :
      HasError s (.statement s.line fault)

theorem decides_checkSource (s : StatementDraft) :
    Decides s.SourceWellFormed s.SourceFault s.checkSource := by
  unfold checkSource
  by_cases noFunction : s.function = []
  · rw [if_pos (List.isEmpty_iff.mpr noFunction)]
    cases present : s.expr with
    | none =>
      refine .error (.missing noFunction present) (by simp [SourceWellFormed, *]) ?_
      intro other also
      cases also <;> simp_all
    | some expr =>
      apply (expr.decides_check.map _).congr (by simp [SourceWellFormed, *])
      intro fault
      refine ⟨fun faulty => .expr noFunction present faulty, ?_⟩
      intro faulty
      cases faulty <;> simp_all
  · rw [if_neg (by simpa using noFunction)]
    cases present : s.expr with
    | some expr =>
      refine .error (.functionAndExpression noFunction (by simp [present]))
        (by simp [SourceWellFormed, *]) ?_
      intro other also
      cases also <;> simp_all
    | none =>
      cases given : s.argument with
      | none =>
        refine .error (.functionWithoutArgument noFunction present given)
          (by simp [SourceWellFormed, *]) ?_
        intro other also
        cases also <;> simp_all
      | some argument =>
        apply (argument.decides_check.map _).congr (by simp [SourceWellFormed, *])
        intro fault
        refine ⟨fun faulty => .argument noFunction present given faulty, ?_⟩
        intro faulty
        cases faulty <;> simp_all

theorem decides_checkAssign (s : StatementDraft) :
    Decides (s.Suits .assign) (s.KindFault .assign) s.checkAssign := by
  unfold checkAssign
  by_cases noTarget : s.target = []
  · rw [if_pos (List.isEmpty_iff.mpr noTarget)]
    refine .error (.noTarget noTarget) (by simp [Suits, noTarget]) ?_
    intro other also
    cases also <;> simp_all
  · rw [if_neg (by simpa using noTarget)]
    apply (s.decides_checkSource.map _).congr (by simp [Suits, noTarget])
    intro fault
    refine ⟨fun faulty => .source noTarget faulty, ?_⟩
    intro faulty
    cases faulty <;> simp_all

theorem decides_checkCall (s : StatementDraft) :
    Decides (s.Suits .call) (s.KindFault .call) s.checkCall := by
  unfold checkCall
  by_cases noFunction : s.function = []
  · rw [if_pos (List.isEmpty_iff.mpr noFunction)]
    refine .error (.noFunction noFunction) (by simp [Suits, noFunction]) ?_
    intro other also
    cases also <;> simp_all
  · rw [if_neg (by simpa using noFunction)]
    cases given : s.argument with
    | none =>
      refine .ok _ (by simp [Suits, *]) ?_
      intro fault faulty
      cases faulty <;> simp_all
    | some argument =>
      apply (argument.decides_check.map _).congr (by simp [Suits, *])
      intro fault
      refine ⟨fun faulty => .argument noFunction given faulty, ?_⟩
      intro faulty
      cases faulty <;> simp_all

theorem decides_checkLoop (s : StatementDraft) :
    Decides (s.Suits .loop) (s.KindFault .loop) s.checkLoop := by
  unfold checkLoop
  cases present : s.expr with
  | none =>
    refine .error (.noCondition present) (by simp [Suits, present]) ?_
    intro other also
    cases also <;> simp_all
  | some condition =>
    by_cases empty : s.body = []
    · simp only [empty, List.isEmpty_nil, if_true]
      refine .error (.noBody (by simp [present]) empty) (by simp [Suits, empty]) ?_
      intro other also
      cases also <;> simp_all
    · simp only [List.isEmpty_iff, if_neg empty]
      apply (condition.decides_check.map _).congr (by simp [Suits, *])
      intro fault
      refine ⟨fun faulty => .condition empty present faulty, ?_⟩
      intro faulty
      cases faulty <;> simp_all

end StatementDraft

theorem StatementKind.ofName?_eq_some_iff {name : Text} {kind : StatementKind} :
    StatementKind.ofName? name = some kind ↔ kind.name = name := by
  constructor
  · intro found
    simpa using List.find?_some found
  · rintro rfl
    cases kind <;> rfl

namespace StatementDraft

theorem decides_checkKind (s : StatementDraft) (kind : StatementKind) :
    Decides (s.Suits kind) (s.KindFault kind)
      (match kind with
        | .assign => s.checkAssign
        | .call => s.checkCall
        | .pass => .ok (.step .pass)
        | .loop => s.checkLoop) := by
  cases kind with
  | assign => exact s.decides_checkAssign
  | call => exact s.decides_checkCall
  | pass =>
    refine .ok _ trivial ?_
    intro fault faulty
    cases faulty
  | loop => exact s.decides_checkLoop

/-- The check accepts the well-formed statements and reports the errors of the others. -/
theorem decides_check (s : StatementDraft) : Decides s.WellFormed s.HasError s.check := by
  unfold check
  by_cases noLine : s.line ≤ 0
  · rw [if_pos noLine]
    refine .error (.missingLine noLine) ?_ ?_
    · rintro ⟨line, -⟩
      omega
    · intro other also
      cases also with
      | missingLine => rfl
      | unknownKind line => omega
      | fields line => omega
  · rw [if_neg noLine]
    have line : 0 < s.line := by omega
    cases found : StatementKind.ofName? s.kind with
    | none =>
      have unknown (kind : StatementKind) : kind.name ≠ s.kind := by
        intro named
        rw [StatementKind.ofName?_eq_some_iff.mpr named] at found
        cases found
      refine .error (.unknownKind line unknown) ?_ ?_
      · rintro ⟨-, kind, named, -⟩
        exact unknown kind named
      · intro other also
        cases also with
        | missingLine noLine => omega
        | unknownKind => rfl
        | fields _ named => exact absurd named (unknown _)
    | some kind =>
      have named : kind.name = s.kind := StatementKind.ofName?_eq_some_iff.mp found
      have same {other : StatementKind} (otherNamed : other.name = s.kind) : other = kind := by
        rw [StatementKind.ofName?_eq_some_iff.mpr otherNamed] at found
        exact Option.some.inj found
      have wellFormed_iff : s.Suits kind ↔ s.WellFormed := by
        constructor
        · exact fun suits => ⟨line, kind, named, suits⟩
        · rintro ⟨-, other, otherNamed, suits⟩
          exact same otherNamed ▸ suits
      have hasError_iff (error : BuildError) :
          (∃ fault, s.KindFault kind fault ∧ error = .statement s.line fault) ↔
            s.HasError error := by
        constructor
        · rintro ⟨fault, faulty, rfl⟩
          exact .fields line named faulty
        · intro hasError
          cases hasError with
          | missingLine noLine => omega
          | unknownKind _ unknown => exact absurd named (unknown kind)
          | fields _ otherNamed faulty => exact ⟨_, same otherNamed ▸ faulty, rfl⟩
      have decided := ((s.decides_checkKind kind).mapError (BuildError.statement s.line)).congr
        wellFormed_iff hasError_iff
      cases kind <;> exact decided

end StatementDraft

end StepGraph
