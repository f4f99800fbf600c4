import StepGraph.Text

/-!
# Drafts

A draft is a program as a file holds it: a tree of statements whose fields are
plain texts, with the body of a loop inside the loop.  Nothing about it has been
checked.
-/

namespace StepGraph

structure ElementDraft where
  kind : Text
  value : Text
  deriving DecidableEq

/-- An expression as written; operator and right side are empty for a single term. -/
structure ExprDraft where
  lhs : ElementDraft
  op : Text
  rhs : Option ElementDraft
  deriving DecidableEq

/-- A statement as written.  Which fields count depends on its kind. -/
structure StatementDraft where
  line : Int
  kind : Text
  target : Text
  function : Text
  argument : Option ElementDraft
  expr : Option ExprDraft
  body : List StatementDraft

namespace ElementDraft

def empty : ElementDraft := { kind := [], value := [] }

end ElementDraft

namespace ExprDraft

def empty : ExprDraft := { lhs := .empty, op := [], rhs := none }

end ExprDraft

namespace StatementDraft

def empty : StatementDraft :=
  { line := 0, kind := [], target := [], function := [], argument := none, expr := none,
    body := [] }

instance : Inhabited StatementDraft := ⟨.empty⟩

mutual

def decEq : (s t : StatementDraft) → Decidable (s = t)
  | ⟨line, kind, target, function, argument, expr, body⟩,
      ⟨line', kind', target', function', argument', expr', body'⟩ =>
    if same : line = line' ∧ kind = kind' ∧ target = target' ∧ function = function' ∧
        argument = argument' ∧ expr = expr' then
      match decEqAll body body' with
      | .isTrue bodies => .isTrue (by simp_all)
      | .isFalse bodies => .isFalse (by simp_all)
    else .isFalse (by simp_all)

def decEqAll : (ss ts : List StatementDraft) → Decidable (ss = ts)
  | [], [] => .isTrue rfl
  | [], _ :: _ => .isFalse nofun
  | _ :: _, [] => .isFalse nofun
  | s :: ss, t :: ts =>
    match decEq s t, decEqAll ss ts with
    | .isTrue first, .isTrue rest => .isTrue (by rw [first, rest])
    | .isFalse first, _ => .isFalse (mt (fun same => (List.cons.inj same).1) first)
    | _, .isFalse rest => .isFalse (mt (fun same => (List.cons.inj same).2) rest)

end

instance : DecidableEq StatementDraft := decEq

end StatementDraft

/-- A program as written; a missing list of statements is not the same as an empty one. -/
structure Draft where
  statements : Option (List StatementDraft)
  deriving DecidableEq

namespace Draft

def empty : Draft := { statements := none }

def toList (d : Draft) : List StatementDraft := d.statements.getD []

end Draft

end StepGraph
