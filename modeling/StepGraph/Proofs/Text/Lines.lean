import StepGraph.Text

/-!
# The lines of a text

Reading a text line by line cuts it into lines that keep their line feeds; only
the last one can lack it.  Any selection of these lines, put together again, is
read as the lines that were selected.
-/

namespace StepGraph

namespace Text

/-- The lines of a text, each with its line feed. -/
def lines : Text → List Text
  | [] => []
  | b :: rest =>
    if b = newline then [b] :: lines rest
    else match lines rest with
      | [] => [[b]]
      | line :: more => (b :: line) :: more

/-- The first line is taken, then those of the rest. -/
theorem lines_of_ne_nil {text : Text} (some : text ≠ []) :
    text.lines = text.takeLine.1 :: text.takeLine.2.lines := by
  induction text with
  | nil => exact absurd rfl some
  | cons b rest ih =>
    by_cases ends : b = newline
    · simp only [lines, takeLine, if_pos ends]
    · simp only [lines, takeLine, if_neg ends]
      cases rest with
      | nil => rfl
      | cons next rest => rw [ih (List.cons_ne_nil next rest)]

theorem flatten_lines (text : Text) : text.lines.flatten = text := by
  induction text with
  | nil => rfl
  | cons b rest ih =>
    simp only [lines]
    split
    · rw [List.flatten_cons, ih]
      rfl
    · split
      · rename_i none
        rw [none] at ih
        rw [← ih]
        rfl
      · rename_i line more cut
        rw [cut] at ih
        rw [← ih]
        rfl

/-! ## Selections of lines -/

/-- Lines as they follow each other in a text: all but the last end with their only line feed. -/
inductive Cut : List Text → Prop
  | none : Cut []
  | last {line : Text} (some : line ≠ []) (unended : newline ∉ line) : Cut [line]
  | more {line : Text} {rest : List Text} (unended : newline ∉ line) (cut : Cut rest) :
      Cut ((line ++ [newline]) :: rest)

theorem cut_lines (text : Text) : Cut text.lines := by
  induction text with
  | nil => exact .none
  | cons b rest ih =>
    by_cases ends : b = newline
    · simp only [lines, if_pos ends]
      subst ends
      exact .more (List.not_mem_nil) ih
    · simp only [lines, if_neg ends]
      have longer {line : Text} (unended : newline ∉ line) : newline ∉ b :: line :=
        List.not_mem_cons_of_ne_of_not_mem (Ne.symm ends) unended
      generalize lines rest = more at ih ⊢
      cases ih with
      | none => exact .last (List.cons_ne_nil b []) (longer List.not_mem_nil)
      | last _ unended => exact .last (List.cons_ne_nil b _) (longer unended)
      | more unended cut => exact .more (longer unended) cut

theorem Cut.sublist {chosen all : List Text} (cut : Cut all) (sublist : chosen.Sublist all) :
    Cut chosen := by
  induction cut generalizing chosen with
  | none =>
    rw [List.sublist_nil.mp sublist]
    exact .none
  | last some unended =>
    cases sublist with
    | cons _ rest =>
      rw [List.sublist_nil.mp rest]
      exact .none
    | cons_cons _ rest =>
      rw [List.sublist_nil.mp rest]
      exact .last some unended
  | more unended _ ih =>
    cases sublist with
    | cons _ rest => exact ih rest
    | cons_cons _ rest => exact .more unended (ih rest)

theorem takeLine_of_unended {line : Text} (unended : newline ∉ line) :
    line.takeLine = (line, []) := by
  induction line with
  | nil => rfl
  | cons b rest ih =>
    rw [List.mem_cons, not_or] at unended
    rw [takeLine, if_neg (Ne.symm unended.1), ih unended.2]

theorem takeLine_of_ended {line : Text} (unended : newline ∉ line) (rest : Text) :
    takeLine (line ++ [newline] ++ rest) = (line ++ [newline], rest) := by
  induction line with
  | nil => rfl
  | cons b more ih =>
    rw [List.mem_cons, not_or] at unended
    have taken := ih unended.2
    simp only [List.cons_append, takeLine, if_neg (Ne.symm unended.1), taken]

/-- The first of the selected lines is read first. -/
theorem Cut.takeLine_flatten {line : Text} {rest : List Text} (cut : Cut (line :: rest)) :
    (line :: rest).flatten ≠ [] ∧
      takeLine (line :: rest).flatten = (line, rest.flatten) := by
  cases cut with
  | last some unended =>
    rw [List.flatten_cons, List.flatten_nil, List.append_nil]
    exact ⟨some, takeLine_of_unended unended⟩
  | more unended _ =>
    rw [List.flatten_cons]
    exact ⟨by simp, takeLine_of_ended unended rest.flatten⟩

end Text

end StepGraph
