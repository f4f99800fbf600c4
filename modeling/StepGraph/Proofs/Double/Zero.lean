import StepGraph.Double

/-!
# Zero doubles

A double is zero when both its fields below the sign are empty.  There are two such doubles, one of
each sign, and both equal zero.  The double nearest to an integer is one of them only for the
integer zero, although most integers of sixty-four bits have no double of their own.
-/

namespace StepGraph.Double

open Float.Model (Format UnpackedFloat)
open Float.Model.UnpackedFloat

/-! ## The two fields -/

def IsBlank (bits : BitVec Format.binary64.numBits) : Prop :=
  unpackExponent bits = 0#_ ∧ unpackMantissa bits = 0#_

theorem toNat_unpackExponent (bits : UInt64) :
    (@unpackExponent Format.binary64 bits.toBitVec).toNat =
      bits.toNat / Nat.pow 2 52 % 2048 := by
  simp [unpackExponent, BitVec.extractLsb, Nat.shiftRight_eq_div_pow]

theorem toNat_unpackMantissa (bits : UInt64) :
    (@unpackMantissa Format.binary64 bits.toBitVec).toNat = bits.toNat % Nat.pow 2 52 := by
  simp [unpackMantissa, BitVec.extractLsb]

theorem isBlank_iff (bits : UInt64) :
    IsBlank bits.toBitVec ↔ bits.toNat % Nat.pow 2 63 = 0 := by
  unfold IsBlank
  rw [← BitVec.toNat_inj, ← BitVec.toNat_inj, toNat_unpackExponent, toNat_unpackMantissa]
  simp only [BitVec.toNat_ofNat, Nat.zero_mod, Nat.pow_eq]
  omega

theorem isBlank_packComponents_iff {sign : Sign} {exponent : BitVec 11} {mantissa : BitVec 52} :
    IsBlank (packComponents Format.binary64 sign exponent mantissa) ↔
      exponent = 0#11 ∧ mantissa = 0#52 := by
  unfold IsBlank
  rw [unpackExponent_packComponents, unpackMantissa_packComponents]

/-! ## What bits are read as -/

/-- What bits may be read as: a zero exactly when they are blank, and a number with a mantissa of
at most fifty-three bits and an exponent no less than that of the least double. -/
inductive IsRead (bits : BitVec Format.binary64.numBits) : UnpackedFloat → Prop where
  | notANumber (filled : ¬ IsBlank bits) : IsRead bits .notANumber
  | infinity (sign : Sign) (filled : ¬ IsBlank bits) : IsRead bits (.infinity sign)
  | zero (sign : Sign) (blank : IsBlank bits) : IsRead bits (.zero sign)
  | finite (sign : Sign) (m : Nat) (e : Int) (pos : 0 < m) (filled : ¬ IsBlank bits)
      (short : m < Nat.pow 2 53) (high : -1074 ≤ e) : IsRead bits (.finite sign m e pos)

theorem isRead_unpack (bits : BitVec Format.binary64.numBits) :
    IsRead bits (unpack Format.binary64 bits) := by
  have bias : (Format.binary64.exponentBias : Int) +
      (Format.binary64.mantissaBitsWithoutImplicit : Int) = 1075 := by decide
  have bound : (unpackMantissa bits).toNat < Nat.pow 2 52 := (unpackMantissa bits).isLt
  unfold unpack
  by_cases special : unpackExponent bits = -1#_
  · have filled : ¬ IsBlank bits := fun blank => absurd (special.symm.trans blank.1) (by decide)
    rw [if_pos special]
    by_cases mantissa : unpackMantissa bits = 0#_
    · rw [if_pos mantissa]
      exact .infinity _ filled
    · rw [if_neg mantissa]
      exact .notANumber filled
  rw [if_neg special]
  by_cases exponent : unpackExponent bits = 0#_
  · rw [if_pos exponent]
    by_cases mantissa : unpackMantissa bits = 0#_
    · rw [dif_pos mantissa]
      exact .zero _ ⟨exponent, mantissa⟩
    · rw [dif_neg mantissa, bias]
      refine .finite _ _ _ _ (fun blank => mantissa blank.2) ?_ (by omega)
      exact Nat.lt_trans bound (by decide)
  · have pos : (unpackExponent bits).toNat ≠ 0 := fun none =>
      exponent (BitVec.toNat_inj.mp (by simpa using none))
    rw [if_neg exponent, bias]
    exact .finite _ _ _ _ (fun blank => exponent blank.1) (BitVec.isLt _) (by omega)

/-- A number that bits were read as is never written as a zero. -/
theorem not_isBlank_pack_finite {sign : Sign} {m : Nat} {e : Int} {pos : 0 < m}
    (short : m < Nat.pow 2 53) (high : -1074 ≤ e) :
    ¬ IsBlank (pack Format.binary64 (.finite sign m e pos)) := by
  have bias : Format.binary64.exponentBias = 1023 := by decide
  unfold pack
  dsimp only
  rw [bias]
  split
  · intro blank
    exact absurd (isBlank_packComponents_iff.mp blank).1 (by decide)
  · next fits =>
    split
    · intro blank
      have empty := congrArg BitVec.toNat (isBlank_packComponents_iff.mp blank).1
      simp only [BitVec.toNat_ofNat] at empty
      omega
    · next subnormal =>
      intro blank
      have empty := congrArg BitVec.toNat (isBlank_packComponents_iff.mp blank).2
      have width : m.log2 < 53 := (Nat.log2_lt (by omega)).mpr short
      have narrow : m < Nat.pow 2 52 := (Nat.log2_lt (by omega)).mp (by
        have := (show Format.binary64.mantissaBits = 53 from rfl)
        omega)
      simp only [BitVec.toNat_ofNat, Nat.mod_eq_of_lt narrow] at empty
      omega

/-- Bits that are read and written again are blank only if they were. -/
theorem isBlank_pack_unpack_iff (bits : BitVec Format.binary64.numBits) :
    IsBlank (pack Format.binary64 (unpack Format.binary64 bits)) ↔ IsBlank bits := by
  have read := isRead_unpack bits
  generalize unpack Format.binary64 bits = number at read ⊢
  cases read with
  | notANumber filled =>
    refine iff_of_false (fun blank => ?_) filled
    exact absurd (isBlank_packComponents_iff.mp blank).1 (by decide)
  | infinity sign filled =>
    refine iff_of_false (fun blank => ?_) filled
    exact absurd (isBlank_packComponents_iff.mp blank).1 (by decide)
  | zero sign blank => exact iff_of_true (isBlank_packComponents_iff.mpr ⟨rfl, rfl⟩) blank
  | finite sign m e pos filled short high =>
    exact iff_of_false (not_isBlank_pack_finite short high) filled

/-! ## Doubles equal to zero -/

theorem beq_zero_iff_isBlank (x : Float) : (x == 0) = true ↔ IsBlank x.toBits.toBitVec := by
  have read := isRead_unpack x.toBits.toBitVec
  have unfolded : (x == 0) =
      (UnpackedFloat.compare (unpack Format.binary64 x.toBits.toBitVec) (.zero .positive) ==
        some .eq) := rfl
  rw [unfolded]
  generalize unpack Format.binary64 x.toBits.toBitVec = number at read ⊢
  cases read with
  | notANumber filled => exact iff_of_false (by decide) filled
  | infinity sign filled => exact iff_of_false (by cases sign <;> decide) filled
  | zero sign blank => exact iff_of_true (by cases sign <;> decide) blank
  | finite sign m e pos filled =>
    exact iff_of_false (by cases sign <;> exact Bool.false_ne_true) filled

/-- The doubles equal to zero are the two zeros. -/
theorem beq_zero_iff (x : Float) :
    (x == 0) = true ↔ ∃ negative, view x = .finite negative 0 := by
  have bound := x.toBits.toNat_lt
  rw [beq_zero_iff_isBlank, isBlank_iff]
  unfold view
  simp only [Nat.pow_eq]
  split
  · refine iff_of_false (by omega) ?_
    rintro ⟨negative, same⟩
    split at same <;> cases same
  · split
    · simp only [View.finite.injEq, exists_eq_left']
      omega
    · refine iff_of_false (by omega) ?_
      rintro ⟨negative, same⟩
      exact absurd (View.finite.inj same).2
        (Nat.ne_of_gt (Nat.mul_pos (Nat.add_pos_left (Nat.two_pow_pos 52) _) (Nat.two_pow_pos _)))

theorem ofBits_beq_zero_iff {negative : Bool} {bits : Nat} (below : bits < Nat.pow 2 63) :
    (ofBits negative bits == 0) = true ↔ bits = 0 := by
  have written : (ofBits negative bits).toBits.toBitVec =
      pack Format.binary64 (unpack Format.binary64
        (UInt64.ofNat (if negative then Nat.pow 2 63 + bits else bits)).toBitVec) := rfl
  rw [beq_zero_iff_isBlank, written, isBlank_pack_unpack_iff, isBlank_iff]
  simp only [Nat.pow_eq] at below ⊢
  cases negative <;> simp <;> omega

/-! ## The double nearest to an integer -/

theorem roundQuotient_bounds (num den : Nat) :
    num / den ≤ roundQuotient num den ∧ roundQuotient num den ≤ num / den + 1 := by
  unfold roundQuotient
  dsimp only
  split <;> omega

theorem nearestBits_one (num : Nat) :
    nearestBits num 1 = (num.log2 - 52) * Nat.pow 2 52 +
      roundQuotient num (Nat.pow 2 (num.log2 - 52)) := by
  unfold nearestBits
  rw [Nat.div_one]
  dsimp only
  rw [Nat.one_mul]

theorem nearestBits_pos {num : Nat} (pos : 0 < num) : 0 < nearestBits num 1 := by
  rw [nearestBits_one]
  cases num.log2 - 52 with
  | zero =>
    have lower := (roundQuotient_bounds num (Nat.pow 2 0)).1
    rw [Nat.pow_eq, Nat.pow_zero, Nat.div_one] at lower
    exact Nat.add_pos_right _ (Nat.lt_of_lt_of_le pos lower)
  | succ shift => exact Nat.add_pos_left (Nat.mul_pos (Nat.succ_pos _) (Nat.two_pow_pos 52)) _

/-- Rounding a whole number of units may carry into the next exponent and no further. -/
theorem nearestBits_le (num : Nat) :
    nearestBits num 1 ≤ (num.log2 - 52 + 2) * Nat.pow 2 52 := by
  have upper := (roundQuotient_bounds num (Nat.pow 2 (num.log2 - 52))).2
  have width : num / Nat.pow 2 (num.log2 - 52) < Nat.pow 2 53 := by
    simp only [Nat.pow_eq]
    rw [Nat.div_lt_iff_lt_mul (Nat.two_pow_pos _), ← Nat.pow_add]
    refine Nat.lt_of_lt_of_le Nat.lt_log2_self (Nat.pow_le_pow_right (by decide) ?_)
    omega
  rw [nearestBits_one]
  simp only [Nat.pow_eq] at *
  omega

theorem unitsPerOne_pos : 0 < unitsPerOne := by decide +kernel

theorem log2_unitsPerOne : unitsPerOne.log2 = 1074 := by decide +kernel

theorem log2_mul_lt {m k width : Nat} (posM : 0 < m) (posK : 0 < k) (short : m < Nat.pow 2 width) :
    (m * k).log2 < width + (k.log2 + 1) := by
  rw [Nat.log2_lt (Nat.ne_of_gt (Nat.mul_pos posM posK)), Nat.pow_add]
  exact Nat.mul_lt_mul_of_lt_of_lt short Nat.lt_log2_self

/-- An integer other than zero has a nearest double other than zero. -/
theorem ofInt_beq_zero_iff (n : Int64) : (ofInt n == 0) = true ↔ n = 0 := by
  by_cases zero : n = 0
  · subst zero
    exact iff_of_true (by decide +kernel) rfl
  · have lower := n.le_toInt
    have upper := n.toInt_lt
    have pos : 0 < n.toInt.natAbs :=
      Int.natAbs_pos.mpr fun none => zero (Int64.toInt_inj.mp none)
    have short : n.toInt.natAbs < Nat.pow 2 64 := by
      simp only [Nat.pow_eq]
      omega
    have filled : 0 < nearestBits (n.toInt.natAbs * unitsPerOne) 1 :=
      nearestBits_pos (Nat.mul_pos pos unitsPerOne_pos)
    have below : nearestBits (n.toInt.natAbs * unitsPerOne) 1 < Nat.pow 2 63 := by
      have size := log2_mul_lt pos unitsPerOne_pos short
      have carried := nearestBits_le (n.toInt.natAbs * unitsPerOne)
      rw [log2_unitsPerOne] at size
      simp only [Nat.pow_eq] at carried ⊢
      omega
    unfold ofInt
    rw [ofBits_beq_zero_iff below]
    exact iff_of_false (Nat.ne_of_gt filled) zero

end StepGraph.Double
