import StepGraph.Machine
import StepGraph.Proofs.Build.Terms
import StepGraph.Proofs.Memory.Stability
import StepGraph.Proofs.Text.Opening

/-!
# Texts converted to integers

A text opens with white space, a sign and a run of digits, and nothing after
them counts.  The digits may be any number; one that sixty-four bits cannot hold
becomes the end of the range on its side.
-/

namespace StepGraph

namespace Integer

/-- A text opens with white space, a sign and digits, each part as long as it can be, and goes on
with `rest`. -/
structure Opens (t sign digits rest : Text) : Prop where
  indents : t.Indents (sign ++ (digits ++ rest))
  isSign : IsSign sign
  unsigned : sign = [] → Unsigned (digits ++ rest)
  allDigits : ∀ b ∈ digits, Text.isDigit b = true
  ends : ∀ b ∈ rest.head?, Text.isDigit b = false

/-- The number that digits stand for under a sign. -/
def number (sign digits : Text) : Int :=
  if sign = utf8 "-" then -decimalValue digits else decimalValue digits

/-- The number of digits under a sign, or the end of the range on its side if it lies beyond. -/
def saturated (sign digits : Text) : Int :=
  max (-9223372036854775808) (min (number sign digits) 9223372036854775807)

theorem exists_opens (t : Text) : ∃ sign digits rest, Opens t sign digits rest := by
  obtain ⟨sign, rest, split, isSign, unsigned⟩ := exists_sign (t.dropWhile isSpace)
  have whole : rest.takeWhile Text.isDigit ++ rest.dropWhile Text.isDigit = rest :=
    List.takeWhile_append_dropWhile
  refine ⟨sign, rest.takeWhile Text.isDigit, rest.dropWhile Text.isDigit, ?_, isSign, ?_, ?_, ?_⟩
  · rw [whole, ← split]
    exact t.indents_dropWhile
  · rwa [whole]
  · exact fun b member => List.mem_takeWhile_imp member
  · exact Text.head?_dropWhile Text.isDigit rest

theorem least_le_saturated (sign digits : Text) :
    -9223372036854775808 ≤ saturated sign digits :=
  Int.le_max_left _ _

theorem saturated_le_greatest (sign digits : Text) :
    saturated sign digits ≤ 9223372036854775807 :=
  Int.max_le.mpr ⟨by decide, Int.min_le_right _ _⟩

theorem toInt_ofInt_saturated (sign digits : Text) :
    (Int64.ofInt (saturated sign digits)).toInt = saturated sign digits := by
  have least := least_le_saturated sign digits
  have greatest := saturated_le_greatest sign digits
  exact Int64.toInt_ofInt_of_le least (by omega)

theorem saturated_nil (sign : Text) : saturated sign [] = 0 := by
  unfold saturated number
  split <;> rfl

theorem saturated_of_inRange {sign digits : Text}
    (least : -9223372036854775808 ≤ number sign digits)
    (greatest : number sign digits ≤ 9223372036854775807) :
    saturated sign digits = number sign digits := by
  unfold saturated
  omega

/-- The reader of digits takes the sign as a truth value. -/
theorem signedValue_eq (sign digits : Text) :
    signedValue (decide (sign = utf8 "-")) digits = number sign digits := by
  unfold signedValue number
  simp only [decide_eq_true_eq, digitsValue_eq]

theorem Opens.ofPrefix_eq {t sign digits rest : Text} (opens : Opens t sign digits rest) :
    ofPrefix t = saturated sign digits := by
  unfold ofPrefix
  rw [opens.indents.dropWhile_eq, splitSign_append opens.isSign opens.unsigned]
  simp only [Text.takeWhile_run opens.allDigits opens.ends]
  rw [signedValue_eq]
  rfl

end Integer

namespace Machine

theorem callFunction_int {m : Machine} {name s : Text} (line : Int)
    (held : m.memory.read? name = some (.str s)) :
    m.callFunction (utf8 "int") ⟨.identifier, name⟩ line = (m, convertInt s line) := by
  have argument : m.stringArgument (utf8 "int") ⟨.identifier, name⟩ line = .ok s := by
    simp only [stringArgument, held]
  unfold callFunction
  rw [if_neg (by decide), if_pos rfl, argument]
  rfl

def holding (name s : Text) : Machine := idle.assign name (.str s)

theorem read?_holding (name s : Text) : (holding name s).memory.read? name = some (.str s) :=
  Memory.read?_write_self _ _ _

theorem startsWithZero_iff (s : Text) : startsWithZero s = true ↔ s.head? = some 48 := by
  unfold startsWithZero
  exact beq_iff_eq

end Machine

/-- A text is converted to the number of its leading digits under its sign, kept within the range,
or to zero if there is no digit; the bytes after the digits do not matter.  A conversion fails
exactly on a zero without a leading zero digit. -/
theorem int_reads_saturated_digits (s : Text) :
    (∃ sign digits rest, Integer.Opens s sign digits rest) ∧
      ∀ sign digits rest, Integer.Opens s sign digits rest →
        ∃ n : Int64, n.toInt = (if digits = [] then 0 else Integer.saturated sign digits) ∧
          Integer.ofPrefix s = n.toInt ∧
          ∀ (m : Machine) (name : Text) (line : Int), m.memory.read? name = some (.str s) →
            m.callFunction (utf8 "int") ⟨.identifier, name⟩ line =
              (m, if n = 0 ∧ s.head? ≠ some 48 then failAt line (.notNumber (utf8 "int"))
                else .ok (.int n)) := by
  refine ⟨Integer.exists_opens s, ?_⟩
  intro sign digits rest opens
  have reads := opens.ofPrefix_eq
  have back := Integer.toInt_ofInt_saturated sign digits
  refine ⟨Int64.ofInt (Integer.saturated sign digits), ?_, reads.trans back.symm, ?_⟩
  · rw [back]
    split
    · next empty => rw [empty, Integer.saturated_nil]
    · rfl
  · intro m name line held
    have zero_iff : Int64.ofInt (Integer.saturated sign digits) = 0 ↔
        Integer.saturated sign digits = 0 := by
      rw [← Int64.toInt_inj, back]
      rfl
    rw [Machine.callFunction_int line held]
    unfold Machine.convertInt
    simp only [reads, zero_iff, Bool.and_eq_true, decide_eq_true_eq, Bool.not_eq_true',
      ← Bool.not_eq_true, Machine.startsWithZero_iff, ne_eq]

/-- A number below the range becomes the least one, and a zero with a sign is refused. -/
theorem texts_are_saturated_or_refused :
    (Integer.Opens (utf8 "\t -9223372036854775809x") (utf8 "-") (utf8 "9223372036854775809")
        (utf8 "x") ∧
      ((Machine.holding (utf8 "s") (utf8 "\t -9223372036854775809x")).callFunction (utf8 "int")
        ⟨.identifier, utf8 "s"⟩ 7).2 = .ok (.int (-9223372036854775808))) ∧
    (Integer.Opens (utf8 "-0") (utf8 "-") (utf8 "0") [] ∧
      ((Machine.holding (utf8 "s") (utf8 "-0")).callFunction (utf8 "int")
        ⟨.identifier, utf8 "s"⟩ 7).2 = failAt 7 (.notNumber (utf8 "int"))) := by
  constructor
  · have opens : Integer.Opens (utf8 "\t -9223372036854775809x") (utf8 "-")
        (utf8 "9223372036854775809") (utf8 "x") :=
      { indents := ⟨⟨utf8 "\t ", by decide +kernel, rfl⟩, by decide +kernel⟩
        isSign := .minus, unsigned := nofun
        allDigits := by decide +kernel, ends := by decide +kernel }
    obtain ⟨n, value, -, converts⟩ := (int_reads_saturated_digits _).2 _ _ _ opens
    have least : n = -9223372036854775808 := by
      rw [← Int64.toInt_inj, value]
      decide
    refine ⟨opens, ?_⟩
    rw [converts _ _ 7 (Machine.read?_holding _ _), least]
    rfl
  · have opens : Integer.Opens (utf8 "-0") (utf8 "-") (utf8 "0") [] :=
      { indents := ⟨⟨[], by decide +kernel, rfl⟩, by decide +kernel⟩
        isSign := .minus, unsigned := nofun
        allDigits := by decide +kernel, ends := by decide +kernel }
    obtain ⟨n, value, -, converts⟩ := (int_reads_saturated_digits _).2 _ _ _ opens
    have zero : n = 0 := by
      rw [← Int64.toInt_inj, value]
      decide
    refine ⟨opens, ?_⟩
    rw [converts _ _ 7 (Machine.read?_holding _ _), zero]
    rfl

end StepGraph
