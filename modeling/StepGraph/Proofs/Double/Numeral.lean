import StepGraph.Double.Literal
import StepGraph.Proofs.Text.Opening

/-!
# Decimal numbers

The grammar of decimal numbers without a sign: digits with a point among them,
at least one digit, and an exponent with at least one digit or none at all.  The
reader of prefixes finds the longest such number at the front of a text, and the
reader of whole texts refuses none of them.
-/

namespace StepGraph

theorem Text.toNat_lowerByte (b : UInt8) :
    (lowerByte b).toNat = if 65 ≤ b.toNat ∧ b.toNat ≤ 90 then b.toNat + 32 else b.toNat := by
  simp only [lowerByte, Bool.and_eq_true, decide_eq_true_eq, UInt8.le_iff_toNat_le,
    UInt8.toNat_ofNat]
  split
  · have bounded : b.toNat + 32 < 256 := by omega
    simpa [UInt8.toNat_add] using Nat.mod_eq_of_lt bounded
  · rfl

namespace Double

inductive IsFraction : Text → Prop
  | none : IsFraction []
  | point {digits : Text} (allDigits : ∀ b ∈ digits, Text.isDigit b = true) :
      IsFraction (46 :: digits)

/-- Digits with an optional point among them, and at least one digit. -/
inductive IsMantissa : Text → Prop
  | mk {whole fraction : Text} (allDigits : ∀ b ∈ whole, Text.isDigit b = true)
      (isFraction : IsFraction fraction) (some : ∃ b ∈ whole ++ fraction, Text.isDigit b = true) :
      IsMantissa (whole ++ fraction)

inductive IsExponent : Text → Prop
  | none : IsExponent []
  | some {mark : UInt8} {sign digits : Text} (isMark : mark = 101 ∨ mark = 69)
      (isSign : Integer.IsSign sign) (filled : digits ≠ [])
      (allDigits : ∀ b ∈ digits, Text.isDigit b = true) : IsExponent (mark :: (sign ++ digits))

inductive IsDecimal : Text → Prop
  | mk {mantissa exponent : Text} (isMantissa : IsMantissa mantissa)
      (isExponent : IsExponent exponent) : IsDecimal (mantissa ++ exponent)

/-- A byte that ends a mantissa. -/
def EndsMantissa (b : UInt8) : Prop := Text.isDigit b = false ∧ b ≠ 46

theorem lowerByte_eq_mark_iff (b : UInt8) : Text.lowerByte b = 101 ↔ b = 101 ∨ b = 69 := by
  simp only [← UInt8.toNat_inj, Text.toNat_lowerByte, UInt8.toNat_ofNat]
  split <;> omega

theorem endsMantissa_of_mark {b : UInt8} (isMark : b = 101 ∨ b = 69) : EndsMantissa b := by
  rcases isMark with rfl | rfl <;> exact ⟨rfl, by decide⟩

theorem IsExponent.front {exponent : Text} (isExponent : IsExponent exponent) :
    ∀ b ∈ exponent.head?, EndsMantissa b := by
  cases isExponent with
  | none => nofun
  | some isMark =>
    rintro _ ⟨⟩
    exact endsMantissa_of_mark isMark

/-! ## The mantissa at the front of a text -/

theorem isFraction_fractionPrefix (t : Text) : IsFraction (fractionPrefix t) := by
  unfold fractionPrefix
  split
  · exact .point fun b member => List.mem_takeWhile_imp member
  · exact .none

theorem fractionPrefix_front (t : Text) : fractionPrefix t <+: t := by
  unfold fractionPrefix
  split
  · next rest => exact ⟨rest.dropWhile Text.isDigit, by simp⟩
  · exact List.nil_prefix

theorem mantissaPrefix_front (t : Text) : mantissaPrefix t <+: t := by
  obtain ⟨rest, split⟩ := fractionPrefix_front (t.dropWhile Text.isDigit)
  refine ⟨rest, ?_⟩
  rw [mantissaPrefix, List.append_assoc, split, List.takeWhile_append_dropWhile]

theorem isMantissa_mantissaPrefix {t : Text}
    (some : ∃ b ∈ mantissaPrefix t, Text.isDigit b = true) : IsMantissa (mantissaPrefix t) :=
  .mk (fun _ member => List.mem_takeWhile_imp member) (isFraction_fractionPrefix _) some

/-- A fraction begins with its point. -/
theorem IsFraction.front {fraction rest : Text} (isFraction : IsFraction fraction)
    (ends : ∀ b ∈ rest.head?, EndsMantissa b) :
    ∀ b ∈ (fraction ++ rest).head?, Text.isDigit b = false := by
  cases isFraction with
  | none => exact fun b front => (ends b front).1
  | point =>
    rintro _ ⟨⟩
    rfl

theorem fractionPrefix_append {fraction rest : Text} (isFraction : IsFraction fraction)
    (ends : ∀ b ∈ rest.head?, EndsMantissa b) : fractionPrefix (fraction ++ rest) = fraction := by
  cases isFraction with
  | none =>
    cases rest with
    | nil => rfl
    | cons b rest =>
      have noPoint := (ends b rfl).2
      unfold fractionPrefix
      split
      · next same =>
        cases same
        exact absurd rfl noPoint
      · rfl
  | point allDigits =>
    rw [List.cons_append, fractionPrefix,
      Text.takeWhile_run allDigits fun b front => (ends b front).1]

/-- A mantissa is found whole where something else follows it. -/
theorem mantissaPrefix_append {mantissa rest : Text} (isMantissa : IsMantissa mantissa)
    (ends : ∀ b ∈ rest.head?, EndsMantissa b) : mantissaPrefix (mantissa ++ rest) = mantissa := by
  obtain ⟨allDigits, isFraction, -⟩ := isMantissa
  have outside := isFraction.front ends
  rw [mantissaPrefix, List.append_assoc, Text.takeWhile_run allDigits outside,
    Text.dropWhile_run allDigits outside, fractionPrefix_append isFraction ends]

/-- A mantissa is part of what is found, whatever follows it. -/
theorem mantissa_front {mantissa : Text} (isMantissa : IsMantissa mantissa) (rest : Text) :
    mantissa <+: mantissaPrefix (mantissa ++ rest) := by
  obtain ⟨allDigits, isFraction, -⟩ := isMantissa
  rw [mantissaPrefix, List.append_assoc]
  cases isFraction with
  | none =>
    rw [List.nil_append, List.append_nil, List.takeWhile_append_of_pos allDigits,
      List.append_assoc]
    exact List.prefix_append _ _
  | @point fraction fractionDigits =>
    have outside : ∀ b ∈ (46 :: fraction ++ rest).head?, Text.isDigit b = false := by
      rintro _ ⟨⟩
      rfl
    rw [Text.takeWhile_run allDigits outside, Text.dropWhile_run allDigits outside,
      List.cons_append, fractionPrefix, List.takeWhile_append_of_pos fractionDigits]
    exact (List.prefix_append_right_inj _).mpr (List.prefix_append (46 :: fraction) _)

/-! ## The exponent at the front of a text -/

theorem exponentPrefix_cons (mark : UInt8) {sign rest : Text} (isSign : Integer.IsSign sign)
    (unsigned : sign = [] → Integer.Unsigned rest) :
    exponentPrefix (mark :: (sign ++ rest)) =
      if (mark = 101 ∨ mark = 69) ∧ rest.takeWhile Text.isDigit ≠ [] then
        mark :: (sign ++ rest.takeWhile Text.isDigit)
      else [] := by
  simp only [exponentPrefix, Integer.splitSign_append isSign unsigned,
    Integer.leadingSign_append isSign unsigned, lowerByte_eq_mark_iff, Bool.and_eq_true,
    decide_eq_true_eq, Bool.not_eq_true', List.isEmpty_eq_false_iff]

theorem isExponent_exponentPrefix (t : Text) : IsExponent (exponentPrefix t) := by
  cases t with
  | nil => exact .none
  | cons mark rest =>
    obtain ⟨sign, rest, rfl, isSign, unsigned⟩ := Integer.exists_sign rest
    rw [exponentPrefix_cons mark isSign unsigned]
    split
    · next found =>
      exact .some found.1 isSign found.2 fun b member => List.mem_takeWhile_imp member
    · exact .none

theorem exponentPrefix_front (t : Text) : exponentPrefix t <+: t := by
  cases t with
  | nil => exact List.prefix_rfl
  | cons mark rest =>
    obtain ⟨sign, rest, rfl, isSign, unsigned⟩ := Integer.exists_sign rest
    rw [exponentPrefix_cons mark isSign unsigned]
    split
    · exact ⟨rest.dropWhile Text.isDigit, by simp⟩
    · exact List.nil_prefix

/-- An exponent is part of what is found, whatever follows it. -/
theorem exponent_front {exponent : Text} (isExponent : IsExponent exponent) (rest : Text) :
    exponent <+: exponentPrefix (exponent ++ rest) := by
  cases isExponent with
  | none => exact List.nil_prefix
  | @some mark sign digits isMark isSign filled allDigits =>
    have unsigned : Integer.Unsigned (digits ++ rest) :=
      Integer.unsigned_of_digits filled allDigits
    have found : (digits ++ rest).takeWhile Text.isDigit ≠ [] := by
      rw [List.takeWhile_append_of_pos allDigits]
      simp [filled]
    rw [List.cons_append, List.append_assoc, exponentPrefix_cons mark isSign fun _ => unsigned,
      if_pos ⟨isMark, found⟩, List.takeWhile_append_of_pos allDigits, ← List.append_assoc]
    exact List.prefix_append (mark :: (sign ++ digits)) _

/-! ## The decimal number at the front of a text -/

theorem decimalPrefix_front (t : Text) : decimalPrefix t <+: t := by
  unfold decimalPrefix
  split
  · obtain ⟨rest, split⟩ := mantissaPrefix_front t
    generalize mantissaPrefix t = mantissa at split ⊢
    subst split
    rw [List.drop_left]
    exact (List.prefix_append_right_inj _).mpr (exponentPrefix_front rest)
  · exact List.nil_prefix

theorem isDecimal_decimalPrefix {t : Text} (filled : decimalPrefix t ≠ []) :
    IsDecimal (decimalPrefix t) := by
  unfold decimalPrefix at filled ⊢
  split at filled
  · next some =>
    rw [if_pos some]
    exact .mk (isMantissa_mantissaPrefix (List.any_eq_true.mp some)) (isExponent_exponentPrefix _)
  · exact absurd rfl filled

theorem IsMantissa.exists_digit {mantissa : Text} (isMantissa : IsMantissa mantissa) :
    ∃ b ∈ mantissa, Text.isDigit b = true := by
  obtain ⟨-, -, some⟩ := isMantissa
  exact some

/-- A decimal number is part of what is found, so what is found is the longest one. -/
theorem decimal_front {number : Text} (isDecimal : IsDecimal number) (rest : Text) :
    number <+: decimalPrefix (number ++ rest) := by
  obtain @⟨mantissa, exponent, isMantissa, isExponent⟩ := isDecimal
  obtain ⟨b, member, digit⟩ := isMantissa.exists_digit
  rw [List.append_assoc]
  -- The mark of an exponent ends the mantissa; without one, more digits may follow.
  by_cases plain : exponent = []
  · subst plain
    have found := mantissa_front isMantissa rest
    have some : (mantissaPrefix (mantissa ++ rest)).any Text.isDigit = true :=
      List.any_eq_true.mpr ⟨b, found.subset member, digit⟩
    rw [List.append_nil, List.nil_append, decimalPrefix, if_pos some]
    exact found.trans (List.prefix_append _ _)
  · have ends : ∀ b ∈ (exponent ++ rest).head?, EndsMantissa b := by
      rw [Text.head?_append plain]
      exact isExponent.front
    have found := mantissaPrefix_append isMantissa ends
    have some : (mantissaPrefix (mantissa ++ (exponent ++ rest))).any Text.isDigit = true := by
      rw [found]
      exact List.any_eq_true.mpr ⟨b, member, digit⟩
    rw [decimalPrefix, if_pos some, found, List.drop_left]
    exact (List.prefix_append_right_inj _).mpr (exponent_front isExponent rest)

/-! ## Reading -/

theorem scaled_ne_malformed (negative : Bool) (mantissa base : Nat) (exponent : Int) :
    scaled negative mantissa base exponent ≠ .malformed := by
  unfold scaled
  dsimp only
  split <;> nofun

theorem splitMantissa_append {mantissa exponent : Text} (isMantissa : IsMantissa mantissa)
    (isExponent : IsExponent exponent) :
    ∃ digits places,
      splitMantissa Text.isDigit (mantissa ++ exponent) = (digits, places, exponent) ∧
        digits ≠ [] := by
  obtain @⟨whole, fraction, allDigits, isFraction, b, member, digit⟩ := isMantissa
  have outside := isFraction.front isExponent.front
  unfold splitMantissa
  rw [List.append_assoc, Text.takeWhile_run allDigits outside,
    Text.dropWhile_run allDigits outside]
  cases isFraction with
  | none =>
    refine ⟨whole, 0, ?_, ?_⟩
    · rw [List.nil_append]
      split
      · exact absurd rfl (isExponent.front 46 rfl).2
      · rfl
    · rintro rfl
      cases member
  | @point digits fractionDigits =>
    have ends : ∀ b ∈ exponent.head?, Text.isDigit b = false :=
      fun b front => (isExponent.front b front).1
    refine ⟨whole ++ digits, digits.length, ?_, ?_⟩
    · simp only [List.cons_append, Text.takeWhile_run fractionDigits ends,
        Text.dropWhile_run fractionDigits ends]
    · intro empty
      obtain ⟨rfl, rfl⟩ := List.append_eq_nil_iff.mp empty
      obtain rfl : b = 46 := by simpa using member
      cases digit

theorem exists_exponent? {sign digits : Text} (isSign : Integer.IsSign sign) (filled : digits ≠ [])
    (allDigits : ∀ b ∈ digits, Text.isDigit b = true) :
    ∃ exponent, exponent? (sign ++ digits) = some exponent := by
  have unsigned : Integer.Unsigned (digits ++ []) := Integer.unsigned_of_digits filled allDigits
  rw [List.append_nil] at unsigned
  have accepted : (!digits.isEmpty && digits.all Text.isDigit) = true := by
    simpa [filled] using allDigits
  unfold exponent?
  rw [Integer.splitSign_append isSign fun _ => unsigned]
  exact ⟨_, if_pos accepted⟩

theorem readDecimal_ne_malformed {number : Text} (isDecimal : IsDecimal number) (negative : Bool) :
    readDecimal negative number ≠ .malformed := by
  obtain @⟨mantissa, exponent, isMantissa, isExponent⟩ := isDecimal
  obtain ⟨digits, places, split, filled⟩ := splitMantissa_append isMantissa isExponent
  have found : digits.isEmpty = false := by simpa using filled
  simp only [readDecimal, split, found]
  cases isExponent with
  | none => exact scaled_ne_malformed _ _ _ _
  | some isMark isSign filled allDigits =>
    obtain ⟨exponent, read⟩ := exists_exponent? isSign filled allDigits
    simp only [(lowerByte_eq_mark_iff _).mpr isMark, read]
    exact scaled_ne_malformed _ _ _ _

/-! ## Bytes of decimal numbers -/

theorem IsMantissa.front {mantissa : Text} (isMantissa : IsMantissa mantissa) :
    ∃ b ∈ mantissa.head?, Text.isDigit b = true ∨ b = 46 := by
  obtain @⟨whole, fraction, allDigits, isFraction, b, member, -⟩ := isMantissa
  cases whole with
  | cons first whole => exact ⟨first, rfl, .inl (allDigits first List.mem_cons_self)⟩
  | nil =>
    cases isFraction with
    | none => cases member
    | point => exact ⟨46, rfl, .inr rfl⟩

/-- A decimal number begins with a digit or a point. -/
theorem IsDecimal.front {number : Text} (isDecimal : IsDecimal number) :
    ∃ b ∈ number.head?, Text.isDigit b = true ∨ b = 46 := by
  obtain @⟨mantissa, exponent, isMantissa, isExponent⟩ := isDecimal
  obtain ⟨b, first, front⟩ := isMantissa.front
  refine ⟨b, ?_, front⟩
  rw [Text.head?_append]
  · exact first
  · rintro rfl
    cases first

theorem IsDecimal.ne_nil {number : Text} (isDecimal : IsDecimal number) : number ≠ [] := by
  rintro rfl
  obtain ⟨b, first, -⟩ := isDecimal.front
  cases first

theorem IsDecimal.bytes {number : Text} (isDecimal : IsDecimal number) :
    ∀ b ∈ number, Text.isDigit b = true ∨ b ∈ utf8 ".+-eE" := by
  obtain @⟨mantissa, exponent, isMantissa, isExponent⟩ := isDecimal
  intro b member
  rcases List.mem_append.mp member with inMantissa | inExponent
  · obtain @⟨whole, fraction, allDigits, isFraction, -⟩ := isMantissa
    rcases List.mem_append.mp inMantissa with inWhole | inFraction
    · exact .inl (allDigits b inWhole)
    · cases isFraction with
      | none => cases inFraction
      | point fractionDigits =>
        rcases List.mem_cons.mp inFraction with rfl | inDigits
        · exact .inr (by decide)
        · exact .inl (fractionDigits b inDigits)
  · cases isExponent with
    | none => cases inExponent
    | some isMark isSign _ allDigits =>
      rcases List.mem_cons.mp inExponent with rfl | inRest
      · rcases isMark with rfl | rfl <;> exact .inr (by decide)
      · rcases List.mem_append.mp inRest with inSign | inDigits
        · cases isSign with
          | none => cases inSign
          | plus | minus =>
            obtain rfl := List.mem_singleton.mp inSign
            exact .inr (by decide)
        · exact .inl (allDigits b inDigits)

/-- Neither an underscore nor the mark of a hexadecimal number is among the bytes. -/
theorem IsDecimal.plain {number : Text} (isDecimal : IsDecimal number) :
    ∀ b ∈ number, b ≠ 95 ∧ Text.lowerByte b ≠ 120 := by
  intro b member
  rcases isDecimal.bytes b member with digit | other
  · have bounds := (Text.isDigit_iff b).mp digit
    simp only [ne_eq, ← UInt8.toNat_inj, Text.toNat_lowerByte, UInt8.toNat_ofNat]
    split <;> omega
  · have others : ∀ b ∈ utf8 ".+-eE", b ≠ 95 ∧ Text.lowerByte b ≠ 120 := by decide +kernel
    exact others b other

/-! ## Texts without underscores -/

theorem underscoresFrom_of_plain {isDigit : UInt8 → Bool} {seen : Seen} {t : Text}
    (start : seen ≠ .underscore) (plain : 95 ∉ t) : underscoresFrom isDigit seen t = true := by
  induction t generalizing seen with
  | nil => simpa [underscoresFrom] using start
  | cons b rest ih =>
    rw [List.mem_cons, not_or] at plain
    unfold underscoresFrom
    split
    · exact ih (by decide) plain.2
    · rw [if_neg (Ne.symm plain.1), ih (by decide) plain.2]
      simpa using start

theorem underscoresSeparate_of_plain {sign rest : Text} (isSign : Integer.IsSign sign)
    (unsigned : sign = [] → Integer.Unsigned rest) (plain : 95 ∉ rest) :
    underscoresSeparate (sign ++ rest) = true := by
  unfold underscoresSeparate
  rw [Integer.splitSign_append isSign unsigned]
  dsimp only
  split
  · next mark rest =>
    have plainRest : 95 ∉ rest := fun member => plain (by simp [member])
    split
    · exact underscoresFrom_of_plain (by decide) plainRest
    · split
      · exact underscoresFrom_of_plain (by decide) plainRest
      · exact underscoresFrom_of_plain (by decide) plain
  · exact underscoresFrom_of_plain (by decide) plain

/-! ## Decimal numbers are read -/

theorem IsDecimal.unsigned {number : Text} (isDecimal : IsDecimal number) :
    Integer.Unsigned number := by
  obtain ⟨b, first, front⟩ := isDecimal.front
  intro other same
  obtain rfl : b = other := Option.some.inj (first.symm.trans same)
  rcases front with digit | rfl
  · have bounds := (Text.isDigit_iff b).mp digit
    constructor <;> rintro rfl <;> simp at bounds
  · decide

theorem readNumber_ne_malformed {number : Text} (isDecimal : IsDecimal number) (negative : Bool) :
    readNumber negative number ≠ .malformed := by
  unfold readNumber
  split
  · next mark rest =>
    have decimal : Text.lowerByte mark ≠ 120 := (isDecimal.plain mark (by simp)).2
    rw [if_neg decimal]
    exact readDecimal_ne_malformed isDecimal negative
  · exact readDecimal_ne_malformed isDecimal negative

/-- A decimal number with a sign is read, though its value may be too large. -/
theorem read_decimal {sign number : Text} (isSign : Integer.IsSign sign)
    (isDecimal : IsDecimal number) : read (sign ++ number) ≠ .malformed := by
  have unsigned : sign = [] → Integer.Unsigned number := fun _ => isDecimal.unsigned
  have plain : 95 ∉ number := fun member => (isDecimal.plain 95 member).1 rfl
  have kept : number.filter (· != 95) = number := by
    rw [List.filter_eq_self]
    intro b member
    simpa using (isDecimal.plain b member).1
  unfold read
  rw [Integer.splitSign_append isSign unsigned]
  dsimp only
  split
  · nofun
  · split
    · nofun
    · rw [if_pos (underscoresSeparate_of_plain isSign unsigned plain), kept]
      exact readNumber_ne_malformed isDecimal _

end Double

end StepGraph
