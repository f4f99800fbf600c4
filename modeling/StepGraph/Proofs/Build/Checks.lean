import StepGraph.Build
import StepGraph.Proofs.Graph.Soundness

/-!
# Checked statements

Whatever passes the checks of a statement has a known kind and is composed of
readable elements and known operators.
-/

namespace StepGraph

theorem exists_of_bind_ok {ε α β : Type} {first : Except ε α} {second : α → Except ε β} {result : β}
    (succeeded : (first >>= second) = .ok result) :
    ∃ value, first = .ok value ∧ second value = .ok result := by
  cases first with
  | error failure => cases succeeded
  | ok value => exact ⟨value, rfl, succeeded⟩

theorem ok_of_mapError_ok {ε ε' α : Type} {computed : Except ε α} {rename : ε → ε'} {result : α}
    (succeeded : computed.mapError rename = .ok result) : computed = .ok result := by
  cases computed with
  | error failure => cases succeeded
  | ok value =>
    cases succeeded
    rfl

theorem ElementDraft.isReadable_of_check {e : ElementDraft} {element : Element}
    (checked : e.check = .ok element) : element.IsReadable := by
  unfold check at checked
  split at checked
  · cases checked
  · rename_i kind named
    have known : kind ∈ ElementKind.known := List.mem_of_find?_eq_some named
    split at checked
    · cases checked
    · rename_i clean
      cases checked
      refine ⟨known, ?_, ?_⟩
      · rintro rfl
        simpa [textFault?, Option.isSome_iff_ne_none] using clean
      · rintro rfl
        simpa [textFault?, Option.isSome_iff_ne_none] using clean

theorem Operator.mem_known_of_ofSymbol? {symbol : Text} {op : Operator}
    (named : Operator.ofSymbol? symbol = some (some op)) : op ∈ Operator.known := by
  unfold Operator.ofSymbol? at named
  split at named
  · cases named
  · obtain ⟨found, search, same⟩ := Option.map_eq_some_iff.mp named
    cases same
    exact List.mem_of_find?_eq_some search

theorem ExprDraft.composedOf_of_check {e : ExprDraft} {expr : Expr} (checked : e.check = .ok expr) :
    expr.ComposedOf Element.IsReadable := by
  obtain ⟨lhs, left, rest⟩ := exists_of_bind_ok checked
  have leftReadable := ElementDraft.isReadable_of_check left
  split at rest
  · cases rest
  · cases rest
    exact ⟨leftReadable, fun _ _ operation => by cases operation⟩
  · cases rest
  · cases rest
  · rename_i op right symbol operand
    obtain ⟨rhs, rightChecked, same⟩ := exists_of_bind_ok rest
    cases same
    refine ⟨leftReadable, ?_⟩
    intro other otherRight operation
    cases operation
    exact ⟨Operator.mem_known_of_ofSymbol? symbol, ElementDraft.isReadable_of_check rightChecked⟩

/-- The elements of a checked statement satisfy `P`. -/
def CheckedStatement.ComposedOf (P : Element → Prop) : CheckedStatement → Prop
  | .step action => action.ComposedOf P
  | .loop condition => condition.ComposedOf P

namespace StatementDraft

theorem composedOf_of_checkSource {s : StatementDraft} {source : Source}
    (checked : s.checkSource = .ok source) : source.ComposedOf Element.IsReadable := by
  unfold checkSource at checked
  split at checked
  · split at checked
    · obtain ⟨expr, exprChecked, same⟩ := exists_of_bind_ok checked
      cases same
      exact ExprDraft.composedOf_of_check exprChecked
    · cases checked
  · split at checked
    · cases checked
    · cases checked
    · obtain ⟨argument, argumentChecked, same⟩ := exists_of_bind_ok checked
      cases same
      exact ElementDraft.isReadable_of_check argumentChecked

theorem checkAssign_ok {s : StatementDraft} {statement : CheckedStatement}
    (checked : s.checkAssign = .ok statement) :
    ∃ source, s.checkSource = .ok source ∧ statement = .step (.assign s.target source) := by
  unfold checkAssign at checked
  split at checked
  · cases checked
  · obtain ⟨source, sourceChecked, same⟩ := exists_of_bind_ok checked
    cases same
    exact ⟨source, sourceChecked, rfl⟩

theorem checkCall_ok {s : StatementDraft} {statement : CheckedStatement}
    (checked : s.checkCall = .ok statement) :
    ∃ argument, (∀ e ∈ argument, e.IsReadable) ∧ statement = .step (.call s.function argument) := by
  unfold checkCall at checked
  split at checked
  · cases checked
  · split at checked
    · cases checked
      exact ⟨none, (fun _ member => by cases member), rfl⟩
    · obtain ⟨argument, argumentChecked, same⟩ := exists_of_bind_ok checked
      cases same
      refine ⟨some argument, ?_, rfl⟩
      intro e member
      cases member
      exact ElementDraft.isReadable_of_check argumentChecked

theorem checkLoop_ok {s : StatementDraft} {statement : CheckedStatement}
    (checked : s.checkLoop = .ok statement) :
    ∃ condition, condition.ComposedOf Element.IsReadable ∧ s.body.isEmpty = false ∧
      statement = .loop condition := by
  unfold checkLoop at checked
  split at checked
  · cases checked
  · split at checked
    · cases checked
    · rename_i filled
      obtain ⟨condition, conditionChecked, same⟩ := exists_of_bind_ok checked
      cases same
      exact ⟨condition, ExprDraft.composedOf_of_check conditionChecked, by simpa using filled, rfl⟩

/-- A statement that passes has a known kind, and passes the check of that kind. -/
theorem exists_kind_of_check {s : StatementDraft} {statement : CheckedStatement}
    (checked : s.check = .ok statement) :
    ∃ kind, StatementKind.ofName? s.kind = some kind ∧
      (match kind with
        | .assign => s.checkAssign
        | .call => s.checkCall
        | .pass => .ok (.step .pass)
        | .loop => s.checkLoop) = .ok statement := by
  unfold check at checked
  split at checked
  · cases checked
  · have passed := ok_of_mapError_ok checked
    cases named : StatementKind.ofName? s.kind with
    | none => rw [named] at passed; cases passed
    | some kind =>
      rw [named] at passed
      refine ⟨kind, rfl, ?_⟩
      cases kind <;> exact passed

theorem composedOf_of_check {s : StatementDraft} {statement : CheckedStatement}
    (checked : s.check = .ok statement) : statement.ComposedOf Element.IsReadable := by
  obtain ⟨kind, -, passed⟩ := exists_kind_of_check checked
  cases kind with
  | assign =>
    obtain ⟨source, sourceChecked, rfl⟩ := checkAssign_ok passed
    exact composedOf_of_checkSource sourceChecked
  | call =>
    obtain ⟨argument, readable, rfl⟩ := checkCall_ok passed
    exact readable
  | pass =>
    cases passed
    exact trivial
  | loop =>
    obtain ⟨condition, composed, -, rfl⟩ := checkLoop_ok passed
    exact composed

def isLoop (s : StatementDraft) : Bool := StatementKind.ofName? s.kind == some .loop

/-- The statements that become loops are those whose kind says so. -/
theorem isLoop_iff_of_check {s : StatementDraft} {statement : CheckedStatement}
    (checked : s.check = .ok statement) :
    s.isLoop = true ↔ ∃ condition, statement = .loop condition := by
  obtain ⟨kind, named, passed⟩ := exists_kind_of_check checked
  unfold isLoop
  rw [named]
  cases kind with
  | assign =>
    obtain ⟨source, -, rfl⟩ := checkAssign_ok passed
    simp
  | call =>
    obtain ⟨argument, -, rfl⟩ := checkCall_ok passed
    simp
  | pass =>
    cases passed
    simp
  | loop =>
    obtain ⟨condition, -, -, rfl⟩ := checkLoop_ok passed
    simp

/-- A loop that passes has a body. -/
theorem body_of_check {s : StatementDraft} {condition : Expr}
    (checked : s.check = .ok (.loop condition)) : s.body.isEmpty = false := by
  obtain ⟨kind, -, passed⟩ := exists_kind_of_check checked
  cases kind with
  | assign =>
    obtain ⟨source, -, same⟩ := checkAssign_ok passed
    cases same
  | call =>
    obtain ⟨argument, -, same⟩ := checkCall_ok passed
    cases same
  | pass => cases passed
  | loop =>
    obtain ⟨condition, -, filled, -⟩ := checkLoop_ok passed
    exact filled

end StatementDraft

end StepGraph
