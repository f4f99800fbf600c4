import Mathlib.Data.List.Induction
import Mathlib.Data.Nat.Digits.Defs
import StepGraph.Proofs.Build.Nodes

/-!
# The grammar of elements and expressions

When an element or an expression is well formed, said without the checks, and
what is wrong with it otherwise; of several faults the one further left counts.
The checks accept exactly the well-formed ones and report exactly these faults.
-/

namespace StepGraph

/-! ## Checks and what they decide -/

/-- A check succeeds and is right to accept, or fails with the only failure there is. -/
inductive Decides {ε α : Type} (accepted : Prop) (refused : ε → Prop) : Except ε α → Prop
  | ok (value : α) (holds : accepted) (noFailure : ∀ failure, ¬ refused failure) :
      Decides accepted refused (.ok value)
  | error {failure : ε} (fails : refused failure) (notAccepted : ¬ accepted)
      (only : ∀ other, refused other → other = failure) : Decides accepted refused (.error failure)

namespace Decides

variable {ε α β : Type} {first : Except ε α}
variable {accepted accepted' : Prop} {refused refused' : ε → Prop}

theorem ok_iff (decides : Decides accepted refused first) :
    (∃ value, first = .ok value) ↔ accepted := by
  cases decides with
  | ok value holds noFailure => exact ⟨fun _ => holds, fun _ => ⟨value, rfl⟩⟩
  | error fails notAccepted only =>
    refine ⟨?_, fun holds => absurd holds notAccepted⟩
    rintro ⟨value, succeeded⟩
    cases succeeded

theorem error_iff (decides : Decides accepted refused first) (failure : ε) :
    first = .error failure ↔ refused failure := by
  cases decides with
  | ok value holds noFailure =>
    refine ⟨?_, fun fails => absurd fails (noFailure failure)⟩
    intro failed
    cases failed
  | error fails notAccepted only =>
    constructor
    · intro failed
      cases failed
      exact fails
    · intro also
      rw [only failure also]

theorem congr (decides : Decides accepted refused first) (same : accepted ↔ accepted')
    (sameFailures : ∀ failure, refused failure ↔ refused' failure) :
    Decides accepted' refused' first := by
  cases decides with
  | ok value holds noFailure =>
    exact .ok value (same.mp holds) fun failure fails =>
      noFailure failure ((sameFailures failure).mpr fails)
  | error fails notAccepted only =>
    exact .error ((sameFailures _).mp fails) (mt same.mpr notAccepted) fun other also =>
      only other ((sameFailures other).mpr also)

/-- Of two checks in a row both have to succeed, and the second one fails only after the first has
succeeded. -/
theorem bind {second : α → Except ε β} (decides : Decides accepted refused first)
    (next : ∀ value, first = .ok value → Decides accepted' refused' (second value)) :
    Decides (accepted ∧ accepted') (fun failure => refused failure ∨ accepted ∧ refused' failure)
      (first >>= second) := by
  cases decides with
  | ok value holds noFailure =>
    apply (next value rfl).congr
    · exact ⟨fun also => ⟨holds, also⟩, And.right⟩
    · intro failure
      constructor
      · exact fun fails => .inr ⟨holds, fails⟩
      · rintro (fails | ⟨-, fails⟩)
        · exact absurd fails (noFailure failure)
        · exact fails
  | error fails notAccepted only =>
    refine .error (.inl fails) (fun both => notAccepted both.1) ?_
    rintro other (also | ⟨holds, -⟩)
    · exact only other also
    · exact absurd holds notAccepted

theorem map (decides : Decides accepted refused first) (make : α → β) :
    Decides accepted refused (first >>= fun value => pure (make value)) := by
  cases decides with
  | ok value holds noFailure => exact .ok (make value) holds noFailure
  | error fails notAccepted only => exact .error fails notAccepted only

theorem mapError {ε' : Type} (decides : Decides accepted refused first) (rename : ε → ε') :
    Decides accepted (fun named => ∃ failure, refused failure ∧ named = rename failure)
      (first.mapError rename) := by
  cases decides with
  | ok value holds noFailure =>
    refine .ok value holds ?_
    rintro named ⟨failure, fails, -⟩
    exact noFailure failure fails
  | error fails notAccepted only =>
    refine .error ⟨_, fails, rfl⟩ notAccepted ?_
    rintro named ⟨other, also, rfl⟩
    rw [only other also]

end Decides

/-! ## Literals of whole numbers -/

/-- The number that decimal digits stand for, the most significant first. -/
def decimalValue (digits : Text) : Nat := Nat.ofDigits 10 (digits.map Text.digitValue).reverse

/-- An optional sign and decimal digits, with a value of sixty-four bits. -/
def IsIntLiteral (t : Text) : Prop :=
  ∃ digits : Text, digits ≠ [] ∧ (∀ b ∈ digits, Text.isDigit b) ∧
    ((t = digits ∨ t = utf8 "+" ++ digits) ∧ (decimalValue digits : Int) ≤ 9223372036854775807 ∨
      t = utf8 "-" ++ digits ∧ -9223372036854775808 ≤ -(decimalValue digits : Int))

theorem digitsValue_eq (digits : Text) : Text.digitsValue digits = decimalValue digits := by
  unfold Text.digitsValue decimalValue
  induction digits using List.reverseRecOn with
  | nil => rfl
  | append_singleton digits last ih =>
    rw [List.foldl_append, ih, List.map_append, List.reverse_append]
    simp [Nat.ofDigits_cons, Nat.add_comm]

theorem isSome_ofLiteral?_of_splitSign {t digits : Text} {negative : Bool}
    (split : Integer.splitSign t = (negative, digits)) :
    (Integer.ofLiteral? t).isSome ↔
      digits ≠ [] ∧ (∀ b ∈ digits, Text.isDigit b) ∧
        -9223372036854775808 ≤ Integer.signedValue negative digits ∧
        Integer.signedValue negative digits ≤ 9223372036854775807 := by
  have inRange (n : Int) : Integer.inRange n = true ↔
      -9223372036854775808 ≤ n ∧ n ≤ 9223372036854775807 := by
    unfold Integer.inRange Integer.least Integer.greatest
    rw [Bool.and_eq_true, decide_eq_true_iff, decide_eq_true_iff]
  unfold Integer.ofLiteral?
  rw [split]
  simp [inRange, and_assoc]

theorem splitSign_cases (t : Text) :
    (∃ digits, Integer.splitSign t = (false, digits) ∧ (t = digits ∨ t = utf8 "+" ++ digits)) ∨
      ∃ digits, Integer.splitSign t = (true, digits) ∧ t = utf8 "-" ++ digits := by
  cases t with
  | nil => exact .inl ⟨[], rfl, .inl rfl⟩
  | cons b rest =>
    rw [Integer.splitSign]
    by_cases plus : b = 43
    · subst plus
      exact .inl ⟨rest, rfl, .inr rfl⟩
    · by_cases minus : b = 45
      · subst minus
        exact .inr ⟨rest, rfl, rfl⟩
      · rw [if_neg plus, if_neg minus]
        exact .inl ⟨b :: rest, rfl, .inl rfl⟩

theorem splitSign_of_digits {digits : Text} (allDigits : ∀ b ∈ digits, Text.isDigit b) :
    Integer.splitSign digits = (false, digits) := by
  cases digits with
  | nil => rfl
  | cons b rest =>
    have isDigit := allDigits b List.mem_cons_self
    have notPlus : b ≠ 43 := by
      rintro rfl
      cases isDigit
    have notMinus : b ≠ 45 := by
      rintro rfl
      cases isDigit
    rw [Integer.splitSign, if_neg notPlus, if_neg notMinus]

theorem isSome_ofLiteral?_iff (t : Text) : (Integer.ofLiteral? t).isSome ↔ IsIntLiteral t := by
  constructor
  · intro literal
    rcases splitSign_cases t with ⟨digits, split, shape⟩ | ⟨digits, split, shape⟩
    · obtain ⟨filled, allDigits, -, fits⟩ := (isSome_ofLiteral?_of_splitSign split).mp literal
      rw [Integer.signedValue, digitsValue_eq] at fits
      exact ⟨digits, filled, allDigits, .inl ⟨shape, fits⟩⟩
    · obtain ⟨filled, allDigits, fits, -⟩ := (isSome_ofLiteral?_of_splitSign split).mp literal
      rw [Integer.signedValue, digitsValue_eq] at fits
      exact ⟨digits, filled, allDigits, .inr ⟨shape, fits⟩⟩
  · rintro ⟨digits, filled, allDigits, ⟨shape, fits⟩ | ⟨rfl, fits⟩⟩
    · have split : Integer.splitSign t = (false, digits) := by
        rcases shape with rfl | rfl
        · exact splitSign_of_digits allDigits
        · rfl
      rw [isSome_ofLiteral?_of_splitSign split, Integer.signedValue, digitsValue_eq]
      exact ⟨filled, allDigits, by simp only [Bool.false_eq_true, if_false]; omega, fits⟩
    · have split : Integer.splitSign (utf8 "-" ++ digits) = (true, digits) := rfl
      rw [isSome_ofLiteral?_of_splitSign split, Integer.signedValue, digitsValue_eq]
      exact ⟨filled, allDigits, fits, by simp only [if_true]; omega⟩

/-! ## Elements -/

namespace ElementDraft

/-- The kind is known, and the text suits it. -/
structure WellFormed (e : ElementDraft) : Prop where
  kind : ∃ kind ∈ ElementKind.known, kind.name = e.kind
  identifier : e.kind = utf8 "identifier" → e.value ≠ []
  int : e.kind = utf8 "int" → IsIntLiteral e.value
  real : e.kind = utf8 "real" → (Double.ofLiteral? e.value).isSome

inductive HasFault (e : ElementDraft) : StatementFault → Prop
  | unknownKind (unknown : ∀ kind ∈ ElementKind.known, kind.name ≠ e.kind) :
      HasFault e (.unknownElement e.kind)
  | emptyIdentifier (kind : e.kind = utf8 "identifier") (empty : e.value = []) :
      HasFault e .emptyIdentifier
  | invalidInt (kind : e.kind = utf8 "int") (invalid : ¬ IsIntLiteral e.value) :
      HasFault e (.invalidInt e.value)
  | invalidReal (kind : e.kind = utf8 "real") (invalid : ¬ (Double.ofLiteral? e.value).isSome) :
      HasFault e (.invalidReal e.value)

end ElementDraft

theorem ElementKind.ofName?_eq_some_iff {name : Text} {kind : ElementKind} :
    ElementKind.ofName? name = some kind ↔ kind ∈ ElementKind.known ∧ kind.name = name := by
  constructor
  · intro found
    exact ⟨List.mem_of_find?_eq_some found, by simpa using List.find?_some found⟩
  · rintro ⟨known, rfl⟩
    simp only [ElementKind.known, List.mem_cons, List.not_mem_nil, or_false] at known
    rcases known with rfl | rfl | rfl | rfl | rfl | rfl | rfl <;> rfl

namespace ElementDraft

section Known

variable {e : ElementDraft} {kind : ElementKind} (found : ElementKind.ofName? e.kind = some kind)
include found

theorem kind_eq_name_iff (other : ElementKind) (known : other ∈ ElementKind.known) :
    e.kind = other.name ↔ kind = other := by
  constructor
  · intro named
    have same := ElementKind.ofName?_eq_some_iff.mpr ⟨known, named.symm⟩
    rw [found] at same
    exact Option.some.inj same
  · rintro rfl
    exact (ElementKind.ofName?_eq_some_iff.mp found).2.symm

theorem wellFormed_iff_textFault? : e.WellFormed ↔ textFault? kind e.value = none := by
  have isIdentifier : e.kind = utf8 "identifier" ↔ kind = .identifier :=
    kind_eq_name_iff found .identifier (by decide)
  have isInt : e.kind = utf8 "int" ↔ kind = .intLiteral :=
    kind_eq_name_iff found .intLiteral (by decide)
  have isReal : e.kind = utf8 "real" ↔ kind = .realLiteral :=
    kind_eq_name_iff found .realLiteral (by decide)
  have isKnown := ElementKind.ofName?_eq_some_iff.mp found
  constructor
  · rintro ⟨-, identifier, int, real⟩
    rw [isIdentifier] at identifier
    rw [isInt, ← isSome_ofLiteral?_iff] at int
    rw [isReal] at real
    cases kind with
    | identifier => simpa [textFault?] using identifier rfl
    | intLiteral => simp [textFault?, int rfl]
    | realLiteral => simp [textFault?, real rfl]
    | _ => rfl
  · intro clean
    refine ⟨⟨kind, isKnown⟩, ?_, ?_, ?_⟩
    · rw [isIdentifier]
      rintro rfl
      simpa [textFault?] using clean
    · rw [isInt, ← isSome_ofLiteral?_iff]
      rintro rfl
      simpa [textFault?, Option.isSome_iff_ne_none] using clean
    · rw [isReal]
      rintro rfl
      simpa [textFault?, Option.isSome_iff_ne_none] using clean

theorem hasFault_iff_textFault? {fault : StatementFault} :
    e.HasFault fault ↔ textFault? kind e.value = some fault := by
  have isKnown := ElementKind.ofName?_eq_some_iff.mp found
  constructor
  · intro hasFault
    cases hasFault with
    | unknownKind unknown => exact absurd isKnown.2 (unknown kind isKnown.1)
    | emptyIdentifier named empty =>
      obtain rfl := (kind_eq_name_iff found .identifier (by decide)).mp named
      simp [textFault?, empty]
    | invalidInt named invalid =>
      obtain rfl := (kind_eq_name_iff found .intLiteral (by decide)).mp named
      rw [← isSome_ofLiteral?_iff] at invalid
      simp only [textFault?, if_neg invalid]
    | invalidReal named invalid =>
      obtain rfl := (kind_eq_name_iff found .realLiteral (by decide)).mp named
      simp only [textFault?, if_neg invalid]
  · intro faulty
    unfold textFault? at faulty
    split at faulty
    · split at faulty
      · rename_i empty
        cases faulty
        exact .emptyIdentifier isKnown.2.symm (by simpa using empty)
      · cases faulty
    · split at faulty
      · cases faulty
      · rename_i invalid
        cases faulty
        rw [isSome_ofLiteral?_iff] at invalid
        exact .invalidInt isKnown.2.symm invalid
    · split at faulty
      · cases faulty
      · rename_i invalid
        cases faulty
        exact .invalidReal isKnown.2.symm invalid
    · cases faulty

end Known

theorem decides_check (e : ElementDraft) : Decides e.WellFormed e.HasFault e.check := by
  unfold check
  cases found : ElementKind.ofName? e.kind with
  | none =>
    have unknown : ∀ kind ∈ ElementKind.known, kind.name ≠ e.kind := by
      intro kind known named
      rw [ElementKind.ofName?_eq_some_iff.mpr ⟨known, named⟩] at found
      cases found
    refine .error (.unknownKind unknown) ?_ ?_
    · rintro ⟨⟨kind, known, named⟩, -⟩
      exact unknown kind known named
    · intro other also
      cases also with
      | unknownKind => rfl
      | emptyIdentifier named | invalidInt named | invalidReal named =>
        rw [named] at found
        cases found
  | some kind =>
    cases faulty : textFault? kind e.value with
    | none =>
      simp only [faulty]
      refine .ok _ ((wellFormed_iff_textFault? found).mpr faulty) ?_
      intro fault hasFault
      rw [hasFault_iff_textFault? found, faulty] at hasFault
      cases hasFault
    | some fault =>
      simp only [faulty]
      refine .error ((hasFault_iff_textFault? found).mpr faulty) ?_ ?_
      · rw [wellFormed_iff_textFault? found, faulty]
        simp
      · intro other also
        rw [hasFault_iff_textFault? found, faulty] at also
        exact (Option.some.inj also).symm

end ElementDraft

/-! ## Expressions -/

namespace Operator

theorem ofSymbol?_eq_some_some_iff {symbol : Text} {op : Operator} :
    ofSymbol? symbol = some (some op) ↔ op ∈ known ∧ op.symbol = symbol := by
  constructor
  · intro found
    unfold ofSymbol? at found
    split at found
    · cases found
    · obtain ⟨other, search, same⟩ := Option.map_eq_some_iff.mp found
      cases same
      exact ⟨List.mem_of_find?_eq_some search, by simpa using List.find?_some search⟩
  · rintro ⟨isKnown, rfl⟩
    simp only [known, List.mem_cons, List.not_mem_nil, or_false] at isKnown
    rcases isKnown with
      rfl | rfl | rfl | rfl | rfl | rfl | rfl | rfl | rfl | rfl | rfl | rfl <;> rfl

theorem ofSymbol?_eq_some_none_iff {symbol : Text} :
    ofSymbol? symbol = some none ↔ symbol = [] := by
  unfold ofSymbol?
  cases symbol with
  | nil => simp
  | cons b rest => simp

theorem ofSymbol?_eq_none_iff {symbol : Text} :
    ofSymbol? symbol = none ↔ symbol ≠ [] ∧ ∀ op ∈ known, op.symbol ≠ symbol := by
  unfold ofSymbol?
  cases symbol with
  | nil => simp
  | cons b rest => simp

end Operator

namespace ExprDraft

/-- There is neither an operator nor a right element, or a known operator with a well-formed right
element. -/
def OperationWellFormed (e : ExprDraft) : Prop :=
  e.op = [] ∧ e.rhs = none ∨
    (∃ op ∈ Operator.known, op.symbol = e.op) ∧ ∃ rhs, e.rhs = some rhs ∧ rhs.WellFormed

def WellFormed (e : ExprDraft) : Prop := e.lhs.WellFormed ∧ e.OperationWellFormed

inductive OperationFault (e : ExprDraft) : StatementFault → Prop
  | unknownOperator (filled : e.op ≠ []) (unknown : ∀ op ∈ Operator.known, op.symbol ≠ e.op) :
      OperationFault e (.unknownOperator e.op)
  | operandWithoutOperator (empty : e.op = []) (present : e.rhs ≠ none) :
      OperationFault e .operandWithoutOperator
  | operatorWithoutOperand {op : Operator} (known : op ∈ Operator.known)
      (symbol : op.symbol = e.op) (missing : e.rhs = none) :
      OperationFault e (.operatorWithoutOperand op)
  | right {op : Operator} {rhs : ElementDraft} {fault : StatementFault}
      (known : op ∈ Operator.known) (symbol : op.symbol = e.op) (present : e.rhs = some rhs)
      (faulty : rhs.HasFault fault) : OperationFault e fault

/-- What is wrong with an expression: the left element comes first. -/
def HasFault (e : ExprDraft) (fault : StatementFault) : Prop :=
  e.lhs.HasFault fault ∨ e.lhs.WellFormed ∧ e.OperationFault fault

theorem decides_check (e : ExprDraft) : Decides e.WellFormed e.HasFault e.check := by
  apply e.lhs.decides_check.bind
  intro lhs _
  cases found : Operator.ofSymbol? e.op with
  | none =>
    obtain ⟨filled, unknown⟩ := Operator.ofSymbol?_eq_none_iff.mp found
    refine .error (.unknownOperator filled unknown) ?_ ?_
    · rintro (⟨empty, -⟩ | ⟨⟨op, known, symbol⟩, -⟩)
      · exact filled empty
      · exact unknown op known symbol
    · intro other also
      cases also with
      | unknownOperator => rfl
      | operandWithoutOperator empty => exact absurd empty filled
      | operatorWithoutOperand known symbol => exact absurd symbol (unknown _ known)
      | right known symbol => exact absurd symbol (unknown _ known)
  | some operator =>
    have unique {op : Operator} (known : op ∈ Operator.known) (symbol : op.symbol = e.op) :
        operator = some op := by
      rw [Operator.ofSymbol?_eq_some_some_iff.mpr ⟨known, symbol⟩] at found
      exact (Option.some.inj found).symm
    have isNone (empty : e.op = []) : operator = none := by
      rw [Operator.ofSymbol?_eq_some_none_iff.mpr empty] at found
      exact (Option.some.inj found).symm
    cases operator with
    | none =>
      have empty : e.op = [] := Operator.ofSymbol?_eq_some_none_iff.mp found
      have noOperator {op : Operator} (known : op ∈ Operator.known) : op.symbol ≠ e.op :=
        fun symbol => by cases unique known symbol
      cases right : e.rhs with
      | none =>
        refine .ok _ (.inl ⟨empty, right⟩) ?_
        intro fault faulty
        cases faulty <;> simp_all
      | some rhs =>
        refine .error (.operandWithoutOperator empty (by simp [right])) ?_ ?_
        · simp_all [OperationWellFormed]
        · intro other also
          cases also <;> simp_all
    | some op =>
      obtain ⟨known, symbol⟩ := Operator.ofSymbol?_eq_some_some_iff.mp found
      have filled : e.op ≠ [] := fun empty => by cases isNone empty
      cases right : e.rhs with
      | none =>
        refine .error (.operatorWithoutOperand known symbol right) ?_ ?_
        · simp_all [OperationWellFormed]
        · intro other also
          cases also with
          | operatorWithoutOperand otherKnown otherSymbol =>
            cases unique otherKnown otherSymbol
            rfl
          | _ => simp_all
      | some rhs =>
        have hasOperator : ∃ op ∈ Operator.known, op.symbol = e.op := ⟨op, known, symbol⟩
        have wellFormed_iff : rhs.WellFormed ↔ e.OperationWellFormed := by
          simp [OperationWellFormed, right, filled, hasOperator]
        apply (rhs.decides_check.map _).congr wellFormed_iff
        intro fault
        refine ⟨fun faulty => .right known symbol right faulty, ?_⟩
        intro faulty
        cases faulty <;> simp_all

end ExprDraft

end StepGraph
