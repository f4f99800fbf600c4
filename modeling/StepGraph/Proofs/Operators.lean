import StepGraph.Evaluation
import StepGraph.Proofs.Double.Zero

/-!
# The kinds operators take and give

An operator takes two numbers, or two strings that are joined or compared.  Numbers fail it only by
what they are: a zero divisor, or a negative exponent between integers.  Whatever is left has a
result, and its kind follows from the operator and the kinds of the operands alone.
-/

namespace StepGraph

def Kind.isNumeric : Kind → Bool
  | .int | .real => true
  | _ => false

/-- A zero of either numeric kind; a real one has either sign. -/
def Value.IsZero : Value → Prop
  | .int n => n = 0
  | .real x => ∃ negative, Double.view x = .finite negative 0
  | _ => False

namespace Operator

/-- The operands are of kinds the operator does not take. -/
inductive Mismatched (op : Operator) (lhs rhs : Kind) : Prop where
  | kinds (numbers : ¬ (lhs.isNumeric ∧ rhs.isNumeric)) (strings : ¬ (lhs = .str ∧ rhs = .str))
  | strings (left : lhs = .str) (right : rhs = .str) (notJoined : op ≠ .arithmetic .add)
      (notCompared : op.isComparison = false)

/-- The operands are numbers for which the operator has no result. -/
inductive Undefined (op : Operator) : Value → Value → Prop where
  | divisor {lhs rhs : Value} (left : lhs.kind.isNumeric) (right : rhs.kind.isNumeric)
      (division : op = .arithmetic .div ∨ op = .arithmetic .mod) (zero : rhs.IsZero) :
      Undefined op lhs rhs
  | exponent {a b : Int64} (power : op = .arithmetic .pow) (negative : b < 0) :
      Undefined op (.int a) (.int b)

/-- The kind of the result for operands that the operator takes. -/
def resultKind (op : Operator) (lhs rhs : Kind) : Kind :=
  if op.isComparison then .bool
  else if lhs = .str ∧ rhs = .str then .str
  else if lhs = .int ∧ rhs = .int then .int
  else .real

/-! ## Operands that fail an operator -/

theorem not_mismatched_of_numeric {op : Operator} {lhs rhs : Kind} (left : lhs.isNumeric)
    (right : rhs.isNumeric) : ¬ op.Mismatched lhs rhs := by
  rintro (⟨numbers, -⟩ | ⟨text, -, -, -⟩)
  · exact numbers ⟨left, right⟩
  · rw [text] at left
    cases left

theorem not_undefined_of_mismatched {op : Operator} {lhs rhs : Value}
    (mismatched : op.Mismatched lhs.kind rhs.kind) : ¬ op.Undefined lhs rhs := by
  intro undefined
  cases undefined with
  | divisor left right => exact not_mismatched_of_numeric left right mismatched
  | exponent => exact not_mismatched_of_numeric rfl rfl mismatched

theorem mismatched_strings_iff {op : Operator} :
    op.Mismatched .str .str ↔ op ≠ .arithmetic .add ∧ op.isComparison = false := by
  constructor
  · rintro (⟨-, strings⟩ | ⟨-, -, notJoined, notCompared⟩)
    · exact absurd ⟨rfl, rfl⟩ strings
    · exact ⟨notJoined, notCompared⟩
  · rintro ⟨notJoined, notCompared⟩
    exact .strings rfl rfl notJoined notCompared

theorem undefined_ints_iff {op : Operator} {a b : Int64} :
    op.Undefined (.int a) (.int b) ↔
      (op = .arithmetic .div ∨ op = .arithmetic .mod) ∧ b = 0 ∨ op = .arithmetic .pow ∧ b < 0 := by
  constructor
  · intro undefined
    cases undefined with
    | divisor left right division zero => exact .inl ⟨division, zero⟩
    | exponent power negative => exact .inr ⟨power, negative⟩
  · rintro (⟨division, zero⟩ | ⟨power, negative⟩)
    · exact .divisor rfl rfl division zero
    · exact .exponent power negative

/-- A real among the operands allows negative exponents. -/
theorem undefined_reals_iff {op : Operator} {lhs rhs : Value} (left : lhs.kind.isNumeric)
    (right : rhs.kind.isNumeric) (mixed : ¬ (lhs.kind = .int ∧ rhs.kind = .int)) :
    op.Undefined lhs rhs ↔ (op = .arithmetic .div ∨ op = .arithmetic .mod) ∧ rhs.IsZero := by
  constructor
  · intro undefined
    cases undefined with
    | divisor left right division zero => exact ⟨division, zero⟩
    | exponent => exact absurd ⟨rfl, rfl⟩ mixed
  · rintro ⟨division, zero⟩
    exact .divisor left right division zero

/-! ## How an application ends -/

/-- An application ends with a value of the right kind, or with an error at the line for the reason
that is in the operands. -/
inductive Settles (op : Operator) (lhs rhs : Value) (line : Int) : Except Fault Value → Prop where
  | value {v : Value} (matched : ¬ op.Mismatched lhs.kind rhs.kind)
      (defined : ¬ op.Undefined lhs rhs) (typed : v.kind = op.resultKind lhs.kind rhs.kind) :
      Settles op lhs rhs line (.ok v)
  | semantic {e : ExecutionError} (mismatched : op.Mismatched lhs.kind rhs.kind)
      (blame : e.kind = .semantic) (place : e.line = line) :
      Settles op lhs rhs line (.error (.error e))
  | runtime {e : ExecutionError} (undefined : op.Undefined lhs rhs)
      (blame : e.kind = .runtime) (place : e.line = line) :
      Settles op lhs rhs line (.error (.error e))

section

variable {op : Operator} {lhs rhs : Value} {line : Int}

/-- A result that is guarded by the only thing that may be wrong with the numbers. -/
theorem settles_guarded {failure : Prop} [Decidable failure] {cause : Cause} {v : Value}
    (matched : ¬ op.Mismatched lhs.kind rhs.kind) (guard : op.Undefined lhs rhs ↔ failure)
    (blame : cause.kind = .runtime) (typed : v.kind = op.resultKind lhs.kind rhs.kind) :
    Settles op lhs rhs line (if failure then failAt line cause else .ok v) := by
  split
  · next failed => exact .runtime (guard.mpr failed) blame rfl
  · next passed => exact .value matched (mt guard.mp passed) typed

theorem settles_onInts (known : op ∈ Operator.known) (a b : Int64) :
    Settles op (.int a) (.int b) line (op.onInts a b line) := by
  have matched : ¬ op.Mismatched .int .int := not_mismatched_of_numeric rfl rfl
  cases op with
  | unknown code => simp [Operator.known] at known
  | comparison op => exact .value matched (by simp [undefined_ints_iff]) rfl
  | arithmetic op =>
    cases op with
    | add | sub | mul => exact .value matched (by simp [undefined_ints_iff]) rfl
    | div | mod | pow => exact settles_guarded matched (by simp [undefined_ints_iff]) rfl rfl

theorem settles_onReals (known : op ∈ Operator.known) (left : lhs.kind.isNumeric)
    (right : rhs.kind.isNumeric) (mixed : ¬ (lhs.kind = .int ∧ rhs.kind = .int)) {a b : Float}
    (zero : (b == 0) = true ↔ rhs.IsZero) : Settles op lhs rhs line (op.onReals a b line) := by
  have matched : ¬ op.Mismatched lhs.kind rhs.kind := not_mismatched_of_numeric left right
  have notText : ¬ (lhs.kind = .str ∧ rhs.kind = .str) := by
    rintro ⟨text, -⟩
    rw [text] at left
    cases left
  have undefined_iff : op.Undefined lhs rhs ↔ _ := undefined_reals_iff left right mixed
  cases op with
  | unknown code => simp [Operator.known] at known
  | comparison op => exact .value matched (by simp [undefined_iff]) rfl
  | arithmetic op =>
    have typed : Kind.real = (Operator.arithmetic op).resultKind lhs.kind rhs.kind := by
      simp [resultKind, isComparison, notText, mixed]
    cases op with
    | add | sub | mul | pow => exact .value matched (by simp [undefined_iff]) typed
    | div | mod => exact settles_guarded matched (by simp [undefined_iff, zero]) rfl typed

theorem settles_onStrings (a b : Text) :
    Settles op (.str a) (.str b) line (op.onStrings a b line) := by
  have defined : ¬ op.Undefined (.str a) (.str b) := by
    rintro ⟨left, -⟩
    cases left
  unfold onStrings
  split
  · refine .value ?_ defined rfl
    exact fun mismatched => (mismatched_strings_iff.mp mismatched).1 rfl
  · refine .value ?_ defined rfl
    exact fun mismatched => nomatch (mismatched_strings_iff.mp mismatched).2
  · next notJoined notCompared =>
    refine .semantic (mismatched_strings_iff.mpr ⟨notJoined, ?_⟩) rfl rfl
    unfold isComparison
    split
    · exact absurd rfl (notCompared _)
    · rfl

/-- A pair of operands is of kinds that no operator takes, or is left to one of three functions. -/
theorem settles_apply (known : op ∈ Operator.known) (lhs rhs : Value) (line : Int) :
    Settles op lhs rhs line (op.apply lhs rhs line) := by
  unfold apply
  split
  · exact settles_onInts known _ _
  · exact settles_onReals known rfl rfl (by simp [Value.kind]) (Double.beq_zero_iff _)
  · exact settles_onReals known rfl rfl (by simp [Value.kind]) (Double.beq_zero_iff _)
  · exact settles_onReals known rfl rfl (by simp [Value.kind]) (Double.ofInt_beq_zero_iff _)
  · exact settles_onStrings _ _
  · refine .semantic (.kinds ?_ ?_) rfl rfl
    · cases lhs <;> cases rhs <;> simp_all [Value.kind, Kind.isNumeric]
    · cases lhs <;> cases rhs <;> simp_all [Value.kind]

end

end Operator

/-- An operator fails exactly on operands of kinds it does not take, which is a semantic error, and
on numbers for which it has no result, which is a runtime error; every error carries the given
line.  In all other cases there is a result and its kind is the one for the operands' kinds. -/
theorem operators_keep_to_kinds (op : Operator) (known : op ∈ Operator.known) (lhs rhs : Value)
    (line : Int) :
    ((∃ fault, op.apply lhs rhs line = .error fault) ↔
        op.Mismatched lhs.kind rhs.kind ∨ op.Undefined lhs rhs) ∧
      (∀ fault, op.apply lhs rhs line = .error fault →
        ∃ e, fault = .error e ∧ e.line = line ∧
          (e.kind = .semantic ↔ op.Mismatched lhs.kind rhs.kind) ∧
          (e.kind = .runtime ↔ op.Undefined lhs rhs)) ∧
      ∀ v, op.apply lhs rhs line = .ok v → v.kind = op.resultKind lhs.kind rhs.kind := by
  have settles := Operator.settles_apply known lhs rhs line
  generalize op.apply lhs rhs line = outcome at settles ⊢
  cases settles with
  | value matched defined typed =>
    refine ⟨iff_of_false ?_ ?_, ?_, ?_⟩
    · rintro ⟨fault, failed⟩
      cases failed
    · rintro (mismatched | undefined)
      · exact matched mismatched
      · exact defined undefined
    · intro fault failed
      cases failed
    · intro v same
      cases same
      exact typed
  | semantic mismatched blame place =>
    refine ⟨iff_of_true ⟨_, rfl⟩ (.inl mismatched), ?_, nofun⟩
    intro fault failed
    cases failed
    refine ⟨_, rfl, place, iff_of_true blame mismatched, iff_of_false ?_ ?_⟩
    · rw [blame]
      decide
    · exact Operator.not_undefined_of_mismatched mismatched
  | runtime undefined blame place =>
    refine ⟨iff_of_true ⟨_, rfl⟩ (.inr undefined), ?_, nofun⟩
    intro fault failed
    cases failed
    refine ⟨_, rfl, place, iff_of_false ?_ ?_, iff_of_true blame undefined⟩
    · rw [blame]
      decide
    · exact fun mismatched => Operator.not_undefined_of_mismatched mismatched undefined

/-- An integer is not divided by the negative zero, and a real raised to a negative integer is a
real. -/
theorem negative_zero_divides_nothing :
    (.arithmetic .div ∈ Operator.known ∧
        ∃ e, Operator.apply (.arithmetic .div) (.int 7) (.real (Double.ofBits true 0)) 3 =
          .error (.error e) ∧ e.line = 3 ∧ e.kind = .runtime) ∧
      (.arithmetic .pow ∈ Operator.known ∧
        ∃ v, Operator.apply (.arithmetic .pow) (.real 2) (.int (-1)) 3 = .ok v ∧
          v.kind = .real) := by
  constructor
  · have known : .arithmetic .div ∈ Operator.known := by decide
    obtain ⟨fails, errors, -⟩ :=
      operators_keep_to_kinds _ known (.int 7) (.real (Double.ofBits true 0)) 3
    have undefined : Operator.Undefined (.arithmetic .div) (.int 7)
        (.real (Double.ofBits true 0)) := .divisor rfl rfl (.inl rfl) ⟨true, by decide⟩
    obtain ⟨fault, failed⟩ := fails.mpr (.inr undefined)
    obtain ⟨e, rfl, place, -, blame⟩ := errors fault failed
    exact ⟨known, e, failed, place, blame.mpr undefined⟩
  · have known : .arithmetic .pow ∈ Operator.known := by decide
    obtain ⟨-, -, typed⟩ := operators_keep_to_kinds _ known (.real 2) (.int (-1)) 3
    exact ⟨known, _, rfl, typed _ rfl⟩

end StepGraph
