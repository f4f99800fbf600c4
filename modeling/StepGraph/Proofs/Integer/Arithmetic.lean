import Mathlib.Algebra.Group.Int.Defs
import Mathlib.Algebra.Group.Nat.Defs
import StepGraph.Evaluation

/-!
# Integer arithmetic

Products, powers and quotients are those of the whole numbers, wrapped into
sixty-four bits.  Wrapping respects sums and products, so laws that relate
several operations hold in wrapped arithmetic without exception, although one
quotient overflows and nearly all powers do.
-/

namespace StepGraph

namespace Integer

/-! ## Powers -/

/-- One squaring leaves the product of the result so far and the power that is still due. -/
theorem squaring_step (result base : Int) (exponent : Nat) :
    (if exponent % 2 = 1 then result * base else result) * (base * base) ^ (exponent / 2) =
      result * base ^ exponent := by
  have halves : base ^ exponent = (base * base) ^ (exponent / 2) * base ^ (exponent % 2) := by
    calc base ^ exponent = base ^ (2 * (exponent / 2) + exponent % 2) := by
          rw [Nat.div_add_mod]
      _ = (base ^ 2) ^ (exponent / 2) * base ^ (exponent % 2) := by
          rw [pow_add, pow_mul]
      _ = (base * base) ^ (exponent / 2) * base ^ (exponent % 2) := by
          rw [pow_two]
  rw [halves]
  split
  · next odd => rw [odd, pow_one, mul_assoc, mul_comm base]
  · next even =>
    have rest : exponent % 2 = 0 := by omega
    rw [rest, pow_zero, mul_one]

/-- The loop may as well run over the whole numbers and wrap once at its end. -/
theorem timesPower_ofInt (result base : Int) (exponent : Nat) :
    timesPower (.ofInt result) (.ofInt base) exponent = .ofInt (result * base ^ exponent) := by
  induction exponent using Nat.strongRecOn generalizing result base with
  | ind exponent ih =>
    rw [timesPower]
    split
    · next none => rw [none, pow_zero, mul_one]
    · next some =>
      have step : (if exponent % 2 = 1 then Int64.ofInt result * .ofInt base else .ofInt result) =
          .ofInt (if exponent % 2 = 1 then result * base else result) := by
        split
        · rw [Int64.ofInt_mul]
        · rfl
      rw [step, ← Int64.ofInt_mul, ih (exponent / 2) (by omega), squaring_step]

theorem power_eq (base : Int64) (exponent : Nat) :
    power base exponent = .ofInt (base.toInt ^ exponent) := by
  have run := timesPower_ofInt 1 base.toInt exponent
  rwa [Int64.ofInt_toInt, one_mul] at run

theorem power_add (base : Int64) (m n : Nat) :
    power base (m + n) = power base m * power base n := by
  rw [power_eq, power_eq, power_eq, pow_add, Int64.ofInt_mul]

/-! ## Quotients and remainders -/

theorem ofInt_tdiv (a b : Int64) : Int64.ofInt (a.toInt.tdiv b.toInt) = a / b :=
  (Int64.ofInt_eq_iff_bmod_eq_toInt _ _).mpr (Int64.toInt_div a b).symm

theorem ofInt_tmod (a b : Int64) : Int64.ofInt (a.toInt.tmod b.toInt) = a % b := by
  rw [← Int64.toInt_mod, Int64.ofInt_toInt]

/-- The identity of the whole numbers, wrapped. -/
theorem div_mul_add_mod (a b : Int64) : a / b * b + a % b = a := by
  calc a / b * b + a % b
      = .ofInt (a.toInt.tdiv b.toInt) * .ofInt b.toInt + .ofInt (a.toInt.tmod b.toInt) := by
        rw [ofInt_tdiv, ofInt_tmod, Int64.ofInt_toInt]
    _ = .ofInt (b.toInt * a.toInt.tdiv b.toInt + a.toInt.tmod b.toInt) := by
        rw [← Int64.ofInt_mul, ← Int64.ofInt_add, mul_comm]
    _ = a := by rw [Int.mul_tdiv_add_tmod, Int64.ofInt_toInt]

theorem natAbs_tmod_lt (a : Int) {b : Int} (nonzero : b ≠ 0) : (a.tmod b).natAbs < b.natAbs := by
  rw [Int.natAbs_tmod]
  exact Nat.mod_lt _ (by omega)

theorem tmod_eq_zero_or_sign (a b : Int) : a.tmod b = 0 ∨ (a.tmod b).sign = a.sign := by
  have sign := Int.sign_tmod a b
  split at sign
  · exact .inl (Int.sign_eq_zero_iff_zero.mp sign)
  · exact .inr sign

end Integer

namespace Operator

theorem apply_pow (a : Int64) {b : Int64} (natural : 0 ≤ b) (line : Int) :
    apply (.arithmetic .pow) (.int a) (.int b) line =
      .ok (.int (Integer.power a b.toInt.toNat)) := by
  have notNegative : ¬ b < 0 := Int64.not_lt.mpr natural
  exact if_neg notNegative

theorem apply_div (a : Int64) {b : Int64} (nonzero : b ≠ 0) (line : Int) :
    apply (.arithmetic .div) (.int a) (.int b) line = .ok (.int (a / b)) :=
  if_neg nonzero

theorem apply_mod (a : Int64) {b : Int64} (nonzero : b ≠ 0) (line : Int) :
    apply (.arithmetic .mod) (.int a) (.int b) line = .ok (.int (a % b)) :=
  if_neg nonzero

end Operator

/-- A power with an exponent that is not negative is the power of the whole numbers, brought into
the signed range modulo two to the sixty-fourth.  So exponents add up where powers are multiplied,
as long as their sum is not too large for an exponent. -/
theorem powers_wrap (a b : Int64) (natural : 0 ≤ b) (line : Int) :
    ∃ p : Int64, Operator.apply (.arithmetic .pow) (.int a) (.int b) line = .ok (.int p) ∧
      p = Integer.power a b.toInt.toNat ∧
      p.toInt = (a.toInt ^ b.toInt.toNat).bmod (2 ^ 64) ∧
      (Integer.least ≤ a.toInt ^ b.toInt.toNat → a.toInt ^ b.toInt.toNat ≤ Integer.greatest →
        p.toInt = a.toInt ^ b.toInt.toNat) ∧
      (b = 0 → p = 1) ∧
      ∀ c : Int64, 0 ≤ c → b.toInt + c.toInt < 2 ^ 63 →
        ∃ q s : Int64, Operator.apply (.arithmetic .pow) (.int a) (.int c) line = .ok (.int q) ∧
          Operator.apply (.arithmetic .add) (.int b) (.int c) line = .ok (.int s) ∧
          s.toInt = b.toInt + c.toInt ∧
          Operator.apply (.arithmetic .pow) (.int a) (.int s) line =
            Operator.apply (.arithmetic .mul) (.int p) (.int q) line := by
  have wraps : (Integer.power a b.toInt.toNat).toInt =
      (a.toInt ^ b.toInt.toNat).bmod (2 ^ 64) := by
    rw [Integer.power_eq]
    exact Int64.toInt_ofInt
  refine ⟨_, Operator.apply_pow a natural line, rfl, wraps, ?_, ?_, ?_⟩
  · intro least greatest
    rw [Integer.power_eq]
    exact Int64.toInt_ofInt_of_le least (Int.lt_of_le_of_lt greatest (by decide))
  · rintro rfl
    rw [Integer.power_eq, Int64.toInt_zero, Int.toNat_zero, pow_zero]
    rfl
  · intro c naturalToo small
    have left : 0 ≤ b.toInt := Int64.le_iff_toInt_le.mp natural
    have right : 0 ≤ c.toInt := Int64.le_iff_toInt_le.mp naturalToo
    have sum : (b + c).toInt = b.toInt + c.toInt := by
      rw [Int64.toInt_add]
      exact Int.bmod_eq_of_le (by omega) (by omega)
    have naturalSum : 0 ≤ b + c := by
      rw [Int64.le_iff_toInt_le, sum]
      exact Int.add_nonneg left right
    refine ⟨_, _, Operator.apply_pow a naturalToo line, rfl, sum, ?_⟩
    rw [Operator.apply_pow a naturalSum line, sum, Int.toNat_add left right, Integer.power_add]
    rfl

/-- The power of the whole numbers takes sixty-five bits. -/
theorem overflowing_power_wraps :
    (0 : Int64) ≤ 41 ∧
      Operator.apply (.arithmetic .pow) (.int 3) (.int 41) 7 =
        .ok (.int (-420491770248316829)) := by
  obtain ⟨p, applied, -, wraps, -⟩ := powers_wrap 3 41 (by decide) 7
  have value : p = -420491770248316829 := by
    rw [← Int64.toInt_inj, wraps]
    decide
  exact ⟨by decide, applied.trans (by rw [value])⟩

/-- Integers are divided by any integer but zero.  The remainder is smaller than the divisor and not
on the other side of zero than the dividend; the quotient is the one toward zero, except for the
only one that overflows.  Both together give the dividend back, without an exception. -/
theorem division_and_remainder_agree (a b : Int64) (nonzero : b ≠ 0) (line : Int) :
    ∃ q r : Int64, Operator.apply (.arithmetic .div) (.int a) (.int b) line = .ok (.int q) ∧
      Operator.apply (.arithmetic .mod) (.int a) (.int b) line = .ok (.int r) ∧
      r.toInt = a.toInt.tmod b.toInt ∧ r.toInt.natAbs < b.toInt.natAbs ∧
      (r.toInt = 0 ∨ r.toInt.sign = a.toInt.sign) ∧
      (¬ (a.toInt = -2 ^ 63 ∧ b = -1) → q.toInt = a.toInt.tdiv b.toInt) ∧
      (a.toInt = -2 ^ 63 ∧ b = -1 → q.toInt = -2 ^ 63 ∧ r = 0) ∧
      ∃ s : Int64, Operator.apply (.arithmetic .mul) (.int q) (.int b) line = .ok (.int s) ∧
        Operator.apply (.arithmetic .add) (.int s) (.int r) line = .ok (.int a) := by
  have divisor : b.toInt ≠ 0 := fun zero => nonzero (Int64.toInt_inj.mp zero)
  refine ⟨_, _, Operator.apply_div a nonzero line, Operator.apply_mod a nonzero line,
    Int64.toInt_mod a b, ?_, ?_, ?_, ?_, _, rfl, ?_⟩
  · rw [Int64.toInt_mod]
    exact Integer.natAbs_tmod_lt _ divisor
  · rw [Int64.toInt_mod]
    exact Integer.tmod_eq_zero_or_sign _ _
  · intro fits
    by_cases least : a = Int64.minValue
    · refine Int64.toInt_div_of_ne_right a b fun minus => fits ⟨?_, minus⟩
      rw [least]
      rfl
    · exact Int64.toInt_div_of_ne_left a b least
  · rintro ⟨least, rfl⟩
    have dividend : a = Int64.minValue := Int64.toInt_inj.mp least
    rw [dividend]
    decide
  · change Except.ok (Value.int (a / b * b + a % b)) = .ok (.int a)
    rw [Integer.div_mul_add_mod]

/-- The quotient that overflows, and a negative dividend. -/
theorem extreme_quotients_agree :
    ((-1 : Int64) ≠ 0 ∧ ∃ q r : Int64,
        Operator.apply (.arithmetic .div) (.int Int64.minValue) (.int (-1)) 3 = .ok (.int q) ∧
        Operator.apply (.arithmetic .mod) (.int Int64.minValue) (.int (-1)) 3 = .ok (.int r) ∧
        q.toInt = -2 ^ 63 ∧ r = 0) ∧
      ((2 : Int64) ≠ 0 ∧ ∃ q r : Int64,
        Operator.apply (.arithmetic .div) (.int (-7)) (.int 2) 3 = .ok (.int q) ∧
        Operator.apply (.arithmetic .mod) (.int (-7)) (.int 2) 3 = .ok (.int r) ∧
        q.toInt = -3 ∧ r.toInt = -1) := by
  constructor
  · obtain ⟨q, r, divided, left, -, -, -, -, overflow, -⟩ :=
      division_and_remainder_agree Int64.minValue (-1) (by decide) 3
    exact ⟨by decide, q, r, divided, left, overflow ⟨rfl, rfl⟩⟩
  · obtain ⟨q, r, divided, left, rest, -, -, quotient, -, -⟩ :=
      division_and_remainder_agree (-7) 2 (by decide) 3
    exact ⟨by decide, q, r, divided, left, (quotient (by decide)).trans (by decide),
      rest.trans (by decide)⟩

end StepGraph
