import StepGraph.Evaluation

/-!
# Comparisons

Integers are compared by their values and strings byte by byte.  Each pair has
one of three ranks, and the six comparisons are read off the rank, so that they
fit together as those of a total order.
-/

namespace StepGraph

/-- How two things stand in an order. -/
inductive Ranked {α : Type} (less : α → α → Prop) (a b : α) : Ordering → Prop where
  | lt (before : less a b) : Ranked less a b .lt
  | eq (same : a = b) : Ranked less a b .eq
  | gt (after : less b a) : Ranked less a b .gt

/-- Nothing comes before itself, and what comes before comes before all that follows. -/
structure StrictOrder {α : Type} (less : α → α → Prop) : Prop where
  irrefl : ∀ a, ¬ less a a
  trans : ∀ {a b c}, less a b → less b c → less a c

namespace Comparison

/-- What a comparison asks of two things in an order. -/
def Asks {α : Type} (less : α → α → Prop) : Comparison → α → α → Prop
  | .eq, a, b => a = b
  | .ne, a, b => a ≠ b
  | .lt, a, b => less a b
  | .le, a, b => less a b ∨ a = b
  | .gt, a, b => less b a
  | .ge, a, b => less b a ∨ a = b

/-- The answers to the six comparisons fit together: of any two things exactly one comes first, or
they are equal. -/
structure TotalOrder {α : Type} (answer : Comparison → α → α → Bool) : Prop where
  exactlyOne : ∀ a b,
    (answer .lt a b).toNat + (answer .eq a b).toNat + (answer .gt a b).toNat = 1
  le_eq : ∀ a b, answer .le a b = !answer .gt a b
  ge_eq : ∀ a b, answer .ge a b = !answer .lt a b
  ne_eq : ∀ a b, answer .ne a b = !answer .eq a b
  lt_trans : ∀ a b c, answer .lt a b = true → answer .lt b c = true → answer .lt a c = true
  le_trans : ∀ a b c, answer .le a b = true → answer .le b c = true → answer .le a c = true

section

variable {α : Type} {less : α → α → Prop} (strict : StrictOrder less)
include strict

/-- The ranks exclude each other, so a rank answers every question. -/
theorem holds_iff_asks {a b : α} {rank : Ordering} (ranked : Ranked less a b rank)
    (op : Comparison) : op.holds rank = true ↔ op.Asks less a b := by
  cases ranked with
  | lt before =>
    have apart : a ≠ b := by
      rintro rfl
      exact strict.irrefl a before
    have notAfter : ¬ less b a := fun after => strict.irrefl a (strict.trans before after)
    cases op <;> simp [holds, Asks, before, apart, notAfter]
  | eq same =>
    subst same
    cases op <;> simp [holds, Asks, strict.irrefl a]
  | gt after =>
    have apart : a ≠ b := by
      rintro rfl
      exact strict.irrefl a after
    have notBefore : ¬ less a b := fun before => strict.irrefl a (strict.trans before after)
    cases op <;> simp [holds, Asks, after, apart, notBefore]

theorem totalOrder_of_ranked {rank : α → α → Ordering}
    (ranked : ∀ a b, Ranked less a b (rank a b)) :
    TotalOrder fun op a b => op.holds (rank a b) where
  exactlyOne a b := by cases rank a b <;> rfl
  le_eq a b := by cases rank a b <;> rfl
  ge_eq a b := by cases rank a b <;> rfl
  ne_eq a b := by cases rank a b <;> rfl
  lt_trans a b c left right := by
    have first := (holds_iff_asks strict (ranked a b) .lt).mp left
    have second := (holds_iff_asks strict (ranked b c) .lt).mp right
    exact (holds_iff_asks strict (ranked a c) .lt).mpr (strict.trans first second)
  le_trans a b c left right := by
    refine (holds_iff_asks strict (ranked a c) .le).mpr ?_
    obtain first | rfl := (holds_iff_asks strict (ranked a b) .le).mp left
    · obtain second | rfl := (holds_iff_asks strict (ranked b c) .le).mp right
      · exact .inl (strict.trans first second)
      · exact .inl first
    · exact (holds_iff_asks strict (ranked a c) .le).mp right

end

/-! ## Integers by value -/

theorem strict_value : StrictOrder fun a b : Int64 => a.toInt < b.toInt where
  irrefl _ := Int.lt_irrefl _
  trans := Int.lt_trans

theorem ranked_orderInts (a b : Int64) :
    Ranked (fun a b : Int64 => a.toInt < b.toInt) a b (orderInts a b) := by
  unfold orderInts
  split
  · next before => exact .lt (Int64.lt_iff_toInt_lt.mp before)
  · next notBefore =>
    split
    · next after => exact .gt (Int64.lt_iff_toInt_lt.mp after)
    · next notAfter =>
      exact .eq (Int64.le_antisymm (Int64.not_lt.mp notAfter) (Int64.not_lt.mp notBefore))

end Comparison

/-! ## Strings byte by byte -/

namespace Text

/-- Dictionary order of bytes by their values; a proper initial part comes first. -/
def Precedes : Text → Text → Prop := List.Lex fun a b : UInt8 => a.toNat < b.toNat

theorem strict_precedes : StrictOrder Precedes where
  irrefl := List.lex_irrefl fun _ => Nat.lt_irrefl _
  trans := List.lex_trans Nat.lt_trans

theorem precedes_append (common : Text) {s t : Text} (before : s.Precedes t) :
    Precedes (common ++ s) (common ++ t) := by
  induction common with
  | nil => exact before
  | cons b rest ih => exact .cons ih

theorem ranked_cons (b : UInt8) {s t : Text} {rank : Ordering} (ranked : Ranked Precedes s t rank) :
    Ranked Precedes (b :: s) (b :: t) rank := by
  cases ranked with
  | lt before => exact .lt (.cons before)
  | eq same => exact .eq (congrArg _ same)
  | gt after => exact .gt (.cons after)

/-- The first bytes that differ decide, or the end of one text. -/
theorem ranked_compare (s t : Text) : Ranked Precedes s t (s.compare t) := by
  fun_induction compare s t with
  | case1 => exact .eq rfl
  | case2 => exact .lt .nil
  | case3 => exact .gt .nil
  | case4 a s b t before => exact .lt (.rel (UInt8.lt_iff_toNat_lt.mp before))
  | case5 a s b t _ after => exact .gt (.rel (UInt8.lt_iff_toNat_lt.mp after))
  | case6 a s b t notBefore notAfter ih =>
    have same : a = b := UInt8.le_antisymm (UInt8.not_lt.mp notAfter) (UInt8.not_lt.mp notBefore)
    rw [same]
    exact ranked_cons b ih

end Text

/-- Two integers are always compared, and as their values; two strings are always compared, and as
their bytes in dictionary order.  The answers are those of a total order in both cases, and the
order of two strings does not change when the same string is put before them. -/
theorem comparisons_are_total_orders :
    ∃ (ints : Comparison → Int64 → Int64 → Bool) (strings : Comparison → Text → Text → Bool),
      (∀ op a b line,
        Operator.apply (.comparison op) (.int a) (.int b) line = .ok (.bool (ints op a b))) ∧
      (∀ op a b, ints op a b = true ↔ op.Asks (fun a b => a.toInt < b.toInt) a b) ∧
      Comparison.TotalOrder ints ∧
      (∀ op s t line,
        Operator.apply (.comparison op) (.str s) (.str t) line = .ok (.bool (strings op s t))) ∧
      (∀ op s t, strings op s t = true ↔ op.Asks Text.Precedes s t) ∧
      Comparison.TotalOrder strings ∧
      ∀ c s t line, strings .lt s t = true →
        ∃ u v, Operator.apply (.arithmetic .add) (.str c) (.str s) line = .ok (.str u) ∧
          Operator.apply (.arithmetic .add) (.str c) (.str t) line = .ok (.str v) ∧
          strings .lt u v = true := by
  have asked (op : Comparison) (s t : Text) :
      op.holds (s.compare t) = true ↔ op.Asks Text.Precedes s t :=
    Comparison.holds_iff_asks Text.strict_precedes (Text.ranked_compare s t) op
  refine ⟨fun op a b => op.holds (Comparison.orderInts a b), fun op s t => op.holds (s.compare t),
    fun _ _ _ _ => rfl, ?_, ?_, fun _ _ _ _ => rfl, asked, ?_, ?_⟩
  · intro op a b
    exact Comparison.holds_iff_asks Comparison.strict_value (Comparison.ranked_orderInts a b) op
  · exact Comparison.totalOrder_of_ranked Comparison.strict_value Comparison.ranked_orderInts
  · exact Comparison.totalOrder_of_ranked Text.strict_precedes Text.ranked_compare
  · intro c s t line before
    refine ⟨c ++ s, c ++ t, rfl, rfl, ?_⟩
    exact (asked .lt _ _).mpr (Text.precedes_append c ((asked .lt s t).mp before))

end StepGraph
