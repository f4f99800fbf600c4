import StepGraph.Proofs.Build.Acceptance
import StepGraph.Proofs.Integer.Conversion

/-!
# Printed integers

An integer is printed as a run of digits, under a sign if it is negative.  The
text is read back in two ways: as a string that is converted, whatever follows
the digits, and as a literal of a program.  Both give the integer that was
printed.
-/

namespace StepGraph

/-! ## Digits in print -/

namespace Text

/-- A printed digit is one byte, the code of its character. -/
theorem toNat_printed {n : Nat} {c : Char} (printed : c ∈ Nat.toDigits 10 n) :
    c.toNat.toUInt8.toNat = c.toNat ∧ 48 ≤ c.toNat ∧ c.toNat ≤ 57 := by
  have digit : c.isDigit = true := Nat.isDigit_of_mem_toDigits (by decide) (by decide) printed
  have bounds : 48 ≤ c.toNat ∧ c.toNat ≤ 57 := by
    simpa [Char.isDigit, UInt32.le_iff_toNat_le] using digit
  refine ⟨?_, bounds⟩
  rw [Nat.toUInt8_eq, UInt8.toNat_ofNat']
  exact Nat.mod_eq_of_lt (by omega)

theorem isDigit_of_mem_ofNat {n : Nat} {b : UInt8} (member : b ∈ ofNat n) :
    isDigit b = true := by
  obtain ⟨c, printed, rfl⟩ := List.mem_map.mp member
  obtain ⟨code, bounds⟩ := toNat_printed printed
  rw [isDigit_iff, code]
  exact bounds

theorem ofNat_ne_nil (n : Nat) : ofNat n ≠ [] :=
  fun empty => Nat.toDigits_ne_nil (List.map_eq_nil_iff.mp empty)

theorem decimalValue_ofNat (n : Nat) : decimalValue (ofNat n) = n := by
  have read : ∀ value : Nat, ∀ c ∈ Nat.toDigits 10 n,
      10 * value + digitValue c.toNat.toUInt8 = 10 * value + (c.toNat - '0'.toNat) := by
    intro value c printed
    rw [digitValue, (toNat_printed printed).1]
    rfl
  calc decimalValue (ofNat n)
      = (Nat.toDigits 10 n).foldl (fun value c => 10 * value + digitValue c.toNat.toUInt8) 0 := by
        rw [← digitsValue_eq, digitsValue, ofNat, List.foldl_map]
    _ = Nat.ofDigitChars 10 (Nat.toDigits 10 n) 0 := List.foldl_ext _ _ _ read
    _ = n := Nat.ofDigitChars_ten_toDigits

end Text

namespace Integer

/-- An integer is printed as digits that stand for it under their sign. -/
structure Prints (n : Int) (sign digits : Text) : Prop where
  text : Text.ofInt n = sign ++ digits
  isSign : IsSign sign
  filled : digits ≠ []
  allDigits : ∀ b ∈ digits, Text.isDigit b = true
  value : number sign digits = n

theorem exists_prints (n : Int) : ∃ sign digits, Prints n sign digits := by
  cases n with
  | ofNat n =>
    refine ⟨[], Text.ofNat n, rfl, .none, Text.ofNat_ne_nil n, ?_, ?_⟩
    · exact fun b member => Text.isDigit_of_mem_ofNat member
    · rw [number, if_neg (by decide), Text.decimalValue_ofNat]
      rfl
  | negSucc n =>
    refine ⟨utf8 "-", Text.ofNat (n + 1), rfl, .minus, Text.ofNat_ne_nil _, ?_, ?_⟩
    · exact fun b member => Text.isDigit_of_mem_ofNat member
    · rw [number, if_pos rfl, Text.decimalValue_ofNat]
      rfl

namespace Prints

variable {n : Int} {sign digits : Text} (prints : Prints n sign digits)
include prints

theorem visible {rest : Text} : ∀ b ∈ (sign ++ (digits ++ rest)).head?, 32 < b.toNat := by
  intro b front
  rw [← List.append_assoc] at front
  have filled : sign ++ digits ≠ [] := by simp [prints.filled]
  rcases List.mem_append.mp (Text.mem_of_front filled b front) with inSign | inDigits
  · exact prints.isSign.visible b inSign
  · have bounds := (Text.isDigit_iff b).mp (prints.allDigits b inDigits)
    omega

theorem opens {rest : Text} (ends : ∀ b ∈ rest.head?, Text.isDigit b = false) :
    Opens (Text.ofInt n ++ rest) sign digits rest where
  indents :=
    { blanks := ⟨[], by simp, by rw [prints.text, List.append_assoc]; rfl⟩
      front := fun b front => Text.not_mem_whiteSpace (prints.visible b front) }
  isSign := prints.isSign
  unsigned _ := unsigned_of_digits prints.filled prints.allDigits
  allDigits := prints.allDigits
  ends := ends

variable (least : -9223372036854775808 ≤ n) (greatest : n ≤ 9223372036854775807)
include least greatest

theorem ofPrefix_eq {rest : Text} (ends : ∀ b ∈ rest.head?, Text.isDigit b = false) :
    ofPrefix (Text.ofInt n ++ rest) = n := by
  rw [(prints.opens ends).ofPrefix_eq]
  have value := prints.value
  subst value
  exact saturated_of_inRange least greatest

theorem ofLiteral?_eq : ofLiteral? (Text.ofInt n) = some n := by
  have unsigned : Unsigned (digits ++ []) := unsigned_of_digits prints.filled prints.allDigits
  have split : splitSign (sign ++ digits) = (decide (sign = utf8 "-"), digits) :=
    splitSign_append prints.isSign fun _ => by rwa [List.append_nil] at unsigned
  have inRange : inRange n = true := by
    simp [inRange, Integer.least, Integer.greatest, least, greatest]
  unfold ofLiteral?
  simp only [prints.text, split, signedValue_eq, prints.value, inRange]
  simpa [prints.filled] using prints.allDigits

end Prints

end Integer

/-! ## Literals that are accepted -/

theorem ElementDraft.not_isIntLiteral_of_hasFault {e : ElementDraft} {text : Text}
    (faulty : e.HasFault (.invalidInt text)) : ¬ IsIntLiteral text := by
  cases faulty with
  | invalidInt _ invalid => exact invalid

theorem ExprDraft.not_isIntLiteral_of_hasFault {e : ExprDraft} {text : Text}
    (faulty : e.HasFault (.invalidInt text)) : ¬ IsIntLiteral text := by
  rcases faulty with left | ⟨-, operation⟩
  · exact ElementDraft.not_isIntLiteral_of_hasFault left
  · cases operation with
    | right _ _ _ faulty => exact ElementDraft.not_isIntLiteral_of_hasFault faulty

namespace StatementDraft

theorem not_isIntLiteral_of_hasError {s : StatementDraft} {line : Int} {text : Text}
    (hasError : s.HasError (.statement line (.invalidInt text))) : ¬ IsIntLiteral text := by
  cases hasError with
  | fields _ _ faulty =>
    cases faulty with
    | source _ faulty =>
      cases faulty with
      | argument _ _ _ faulty => exact ElementDraft.not_isIntLiteral_of_hasFault faulty
      | expr _ _ faulty => exact ExprDraft.not_isIntLiteral_of_hasFault faulty
    | argument _ _ faulty => exact ElementDraft.not_isIntLiteral_of_hasFault faulty
    | condition _ _ faulty => exact ExprDraft.not_isIntLiteral_of_hasFault faulty

end StatementDraft

namespace Draft

/-- No draft is refused for a literal that is one. -/
theorem build_ne_invalidInt {text : Text} (literal : IsIntLiteral text) (d : Draft) (line : Int) :
    d.build ≠ .error (.statement line (.invalidInt text)) := by
  have decides := (StatementDraft.decides_blockNodes 0 none d.toList).map
    fun nodes => ({ nodes := nodes.toArray, entry := if d.toList.isEmpty then none else some 0 } :
      Graph)
  rw [build_eq]
  intro failed
  obtain ⟨-, s, -, -, -, -, hasError⟩ := (decides.error_iff _).mp failed
  exact StatementDraft.not_isIntLiteral_of_hasError hasError literal

end Draft

/-! ## A program that assigns an element -/

def StatementDraft.assigning (line : Int) (target : Text) (e : ElementDraft) : StatementDraft :=
  { line, kind := utf8 "assign", target, function := [], argument := none
    expr := some ⟨e, [], none⟩, body := [] }

def Draft.assigning (line : Int) (target : Text) (e : ElementDraft) : Draft :=
  { statements := some [.assigning line target e] }

def Graph.assigning (line : Int) (target : Text) (element : Element) : Graph :=
  { nodes := #[.step line (.assign target (.expr ⟨element, none⟩)) none], entry := some 0 }

section Assigning

variable {line : Int} {target : Text} {e : ElementDraft} {element : Element}
variable (positive : 0 < line) (named : target ≠ []) (checked : e.check = .ok element)
include positive named checked

theorem StatementDraft.check_assigning :
    (assigning line target e).check = .ok (.step (.assign target (.expr ⟨element, none⟩))) := by
  have kind : StatementKind.ofName? (utf8 "assign") = some .assign := rfl
  have filled : target.isEmpty = false := by simpa using named
  simp only [check, assigning, Int.not_le.mpr positive, if_false, kind, checkAssign, checkSource,
    filled, Bool.false_eq_true, List.isEmpty_nil, if_true, ExprDraft.check, checked]
  rfl

theorem Draft.build_assigning :
    (assigning line target e).build = .ok (.assigning line target element) := by
  rw [build_eq, assigning, toList, Option.getD_some, StatementDraft.blockNodes,
    StatementDraft.nodes_of_check_step (StatementDraft.check_assigning positive named checked)]
  rfl

end Assigning

theorem Graph.run_assigning {element : Element} {m : Machine} {v : Value} (line : Int)
    (target : Text) (evaluates : element.eval m.memory line = .ok v) :
    (assigning line target element).run 1 (some 0) m = (m.assign target v, .finished) := by
  have executed : (assigning line target element).execute 0 m =
      (m.assign target v, .ok { branch := .next, next := none }) := by
    have found : (assigning line target element).node? 0 =
        some (.step line (.assign target (.expr ⟨element, none⟩)) none) := rfl
    rw [Graph.execute_of_node? found]
    simp only [Machine.execute, Machine.act, Machine.evalSource, Expr.eval, evaluates]
  rw [Graph.run, executed]
  rfl

/-! ## Reading back -/

section ReadBack

variable (n : Int64)

theorem ofPrefix_display {rest : Text} (ends : ∀ b ∈ rest.head?, Text.isDigit b = false) :
    Integer.ofPrefix ((Value.int n).display ++ rest) = n.toInt := by
  obtain ⟨sign, digits, prints⟩ := Integer.exists_prints n.toInt
  have greatest := n.toInt_lt
  exact prints.ofPrefix_eq n.le_toInt (by omega) ends

theorem ofLiteral?_display : Integer.ofLiteral? (Value.int n).display = some n.toInt := by
  obtain ⟨sign, digits, prints⟩ := Integer.exists_prints n.toInt
  have greatest := n.toInt_lt
  exact prints.ofLiteral?_eq n.le_toInt (by omega)

/-- The zero is printed with a leading zero, so it is not mistaken for a missing number. -/
theorem convertInt_display {rest : Text} (ends : ∀ b ∈ rest.head?, Text.isDigit b = false)
    (line : Int) :
    Machine.convertInt ((Value.int n).display ++ rest) line = .ok (.int n) := by
  unfold Machine.convertInt
  rw [ofPrefix_display n ends, Int64.ofInt_toInt]
  by_cases zero : n.toInt = 0
  · obtain rfl : n = 0 := Int64.toInt_inj.mp zero
    rfl
  · simp [zero]

theorem eval_display (memory : Memory) (line : Int) :
    Element.eval ⟨.intLiteral, (Value.int n).display⟩ memory line = .ok (.int n) := by
  simp only [Element.eval, ofLiteral?_display, Int64.ofInt_toInt]

theorem check_display :
    ElementDraft.check ⟨utf8 "int", (Value.int n).display⟩ =
      .ok ⟨.intLiteral, (Value.int n).display⟩ := by
  have kind : ElementKind.ofName? (utf8 "int") = some .intLiteral := rfl
  simp only [ElementDraft.check, kind, ElementDraft.textFault?, ofLiteral?_display,
    Option.isSome_some, if_true]

end ReadBack

/-- What is printed for an integer is that integer again.  A string that begins with it, and goes
on with anything but a digit, is converted to it.  As a literal it is accepted: no draft is refused
for it, it evaluates to the integer, and a program that assigns it is built and stores it. -/
theorem printed_integers_read_back (n : Int64) :
    (∀ rest : Text, (∀ b ∈ rest.head?, Text.isDigit b = false) →
      ∀ (m : Machine) (name : Text) (line : Int),
        m.memory.read? name = some (.str ((Value.int n).display ++ rest)) →
          m.callFunction (utf8 "int") ⟨.identifier, name⟩ line = (m, .ok (.int n))) ∧
      ElementDraft.check ⟨utf8 "int", (Value.int n).display⟩ =
        .ok ⟨.intLiteral, (Value.int n).display⟩ ∧
      (∀ (d : Draft) (line : Int),
        d.build ≠ .error (.statement line (.invalidInt (Value.int n).display))) ∧
      (∀ (memory : Memory) (line : Int),
        Element.eval ⟨.intLiteral, (Value.int n).display⟩ memory line = .ok (.int n)) ∧
      ∀ (line : Int) (target : Text), 0 < line → target ≠ [] →
        ∃ g, (Draft.assigning line target ⟨utf8 "int", (Value.int n).display⟩).build = .ok g ∧
          ∀ m, g.run 1 g.entry m = (m.assign target (.int n), .finished) := by
  refine ⟨?_, check_display n, ?_, eval_display n, ?_⟩
  · intro rest ends m name line held
    rw [Machine.callFunction_int line held, convertInt_display n ends line]
  · apply Draft.build_ne_invalidInt
    rw [← isSome_ofLiteral?_iff, ofLiteral?_display]
    rfl
  · intro line target positive named
    refine ⟨_, Draft.build_assigning positive named (check_display n), ?_⟩
    intro m
    exact Graph.run_assigning line target (eval_display n m.memory line)

/-- The least integer, whose digits alone are beyond the range, and the zero before a sign. -/
theorem extreme_integers_read_back :
    ((Machine.holding (utf8 "x") (utf8 "-9223372036854775808e5")).callFunction (utf8 "int")
        ⟨.identifier, utf8 "x"⟩ 1).2 = .ok (.int (-9223372036854775808)) ∧
      ((Machine.holding (utf8 "x") (utf8 "0-")).callFunction (utf8 "int")
        ⟨.identifier, utf8 "x"⟩ 1).2 = .ok (.int 0) ∧
      ∃ g, (Draft.assigning 1 (utf8 "x") ⟨utf8 "int", utf8 "-9223372036854775808"⟩).build = .ok g ∧
        g.run 1 g.entry .idle =
          (Machine.idle.assign (utf8 "x") (.int (-9223372036854775808)), .finished) := by
  obtain ⟨converts, -, -, -, assigns⟩ := printed_integers_read_back (-9223372036854775808)
  obtain ⟨convertsZero, -⟩ := printed_integers_read_back 0
  have least : utf8 "-9223372036854775808" = (Value.int (-9223372036854775808)).display := by
    decide
  have longer : utf8 "-9223372036854775808e5" =
      (Value.int (-9223372036854775808)).display ++ utf8 "e5" := by decide
  have zero : utf8 "0-" = (Value.int 0).display ++ utf8 "-" := by decide
  refine ⟨?_, ?_, ?_⟩
  · rw [longer, converts (utf8 "e5") (by decide +kernel) _ _ _ (Machine.read?_holding _ _)]
  · rw [zero, convertsZero (utf8 "-") (by decide +kernel) _ _ _ (Machine.read?_holding _ _)]
  · obtain ⟨g, built, runs⟩ := assigns 1 (utf8 "x") (by decide) (by decide)
    rw [least]
    exact ⟨g, built, runs .idle⟩

end StepGraph
