import Mathlib.Data.List.TakeWhile
import StepGraph.Integer

/-!
# How numbers open

White space stands in front of a number, then a sign, then digits.  Each of
these parts ends where the text ends or a byte of another class follows, and
the readers take exactly that much.
-/

namespace StepGraph

namespace Text

/-! ## Runs of a class of bytes -/

section Runs

variable {isMember : UInt8 → Bool} {run rest : Text} (members : ∀ b ∈ run, isMember b = true)
include members

theorem takeWhile_run (ends : ∀ b ∈ rest.head?, isMember b = false) :
    (run ++ rest).takeWhile isMember = run := by
  rw [List.takeWhile_append_of_pos members]
  cases rest with
  | nil => rw [List.takeWhile_nil, List.append_nil]
  | cons b rest =>
    rw [List.takeWhile_cons_of_neg (by simpa using ends b rfl), List.append_nil]

theorem dropWhile_run (ends : ∀ b ∈ rest.head?, isMember b = false) :
    (run ++ rest).dropWhile isMember = rest := by
  rw [List.dropWhile_append_of_pos members]
  cases rest with
  | nil => rfl
  | cons b rest => exact List.dropWhile_cons_of_neg (by simpa using ends b rfl)

end Runs

theorem head?_append {run : Text} (filled : run ≠ []) (rest : Text) :
    (run ++ rest).head? = run.head? := by
  cases run with
  | nil => exact absurd rfl filled
  | cons first run => rfl

theorem mem_of_front {run rest : Text} (filled : run ≠ []) :
    ∀ b ∈ (run ++ rest).head?, b ∈ run := by
  intro b front
  rw [head?_append filled] at front
  exact List.mem_of_mem_head? front

theorem head?_dropWhile (isMember : UInt8 → Bool) (t : Text) :
    ∀ b ∈ (t.dropWhile isMember).head?, isMember b = false := by
  intro b front
  have stops := List.head?_dropWhile_not isMember t
  rw [Option.mem_def.mp front] at stops
  exact stops

/-! ## White space -/

/-- Space, tab, line feed, vertical tab, form feed and carriage return. -/
def whiteSpace : Text := [32, 9, 10, 11, 12, 13]

/-- A text is `rest` after white space, and `rest` has none in front. -/
structure Indents (t rest : Text) : Prop where
  blanks : ∃ blanks : Text, (∀ b ∈ blanks, b ∈ whiteSpace) ∧ t = blanks ++ rest
  front : ∀ b ∈ rest.head?, b ∉ whiteSpace

theorem isSpace_iff (b : UInt8) : Integer.isSpace b = true ↔ b ∈ whiteSpace := by
  simp only [Integer.isSpace, whiteSpace, List.mem_cons, List.not_mem_nil, or_false,
    Bool.or_eq_true, Bool.and_eq_true, beq_iff_eq, decide_eq_true_eq, UInt8.le_iff_toNat_le,
    ← UInt8.toNat_inj, UInt8.toNat_ofNat]
  omega

theorem indents_dropWhile (t : Text) : Indents t (t.dropWhile Integer.isSpace) where
  blanks := by
    refine ⟨t.takeWhile Integer.isSpace, ?_, List.takeWhile_append_dropWhile.symm⟩
    intro b member
    exact (isSpace_iff b).mp (List.mem_takeWhile_imp member)
  front := by
    intro b front blank
    have outside := head?_dropWhile Integer.isSpace t b front
    rw [(isSpace_iff b).mpr blank] at outside
    cases outside

theorem Indents.dropWhile_eq {t rest : Text} (indents : Indents t rest) :
    t.dropWhile Integer.isSpace = rest := by
  obtain ⟨⟨blanks, allBlank, rfl⟩, front⟩ := indents
  apply dropWhile_run
  · exact fun b member => (isSpace_iff b).mpr (allBlank b member)
  · intro b first
    exact Bool.eq_false_iff.mpr (mt (isSpace_iff b).mp (front b first))

theorem isDigit_iff (b : UInt8) : isDigit b = true ↔ 48 ≤ b.toNat ∧ b.toNat ≤ 57 := by
  simp [isDigit, UInt8.le_iff_toNat_le]

theorem not_mem_whiteSpace {b : UInt8} (visible : 32 < b.toNat) : b ∉ whiteSpace := by
  simp only [whiteSpace, List.mem_cons, List.not_mem_nil, or_false, ← UInt8.toNat_inj,
    UInt8.toNat_ofNat]
  omega

end Text

/-! ## Signs -/

namespace Integer

inductive IsSign : Text → Prop
  | none : IsSign []
  | plus : IsSign (utf8 "+")
  | minus : IsSign (utf8 "-")

/-- The text begins with neither of the two signs. -/
def Unsigned (t : Text) : Prop := ∀ b ∈ t.head?, b ≠ 43 ∧ b ≠ 45

theorem splitSign_of_unsigned {t : Text} (unsigned : Unsigned t) : splitSign t = (false, t) := by
  cases t with
  | nil => rfl
  | cons b rest =>
    obtain ⟨notPlus, notMinus⟩ := unsigned b rfl
    rw [splitSign, if_neg notPlus, if_neg notMinus]

theorem leadingSign_of_unsigned {t : Text} (unsigned : Unsigned t) : leadingSign t = [] := by
  cases t with
  | nil => rfl
  | cons b rest =>
    obtain ⟨notPlus, notMinus⟩ := unsigned b rfl
    simp [leadingSign, notPlus, notMinus]

/-- A sign is taken whole, also in front of another sign. -/
theorem splitSign_append {sign rest : Text} (isSign : IsSign sign)
    (unsigned : sign = [] → Unsigned rest) :
    splitSign (sign ++ rest) = (decide (sign = utf8 "-"), rest) := by
  cases isSign with
  | none => exact splitSign_of_unsigned (unsigned rfl)
  | plus => rfl
  | minus => rfl

theorem leadingSign_append {sign rest : Text} (isSign : IsSign sign)
    (unsigned : sign = [] → Unsigned rest) : leadingSign (sign ++ rest) = sign := by
  cases isSign with
  | none => exact leadingSign_of_unsigned (unsigned rfl)
  | plus => rfl
  | minus => rfl

theorem IsSign.visible {sign : Text} (isSign : IsSign sign) : ∀ b ∈ sign, 32 < b.toNat := by
  cases isSign <;> decide +kernel

/-- Digits in front are not taken for a sign. -/
theorem unsigned_of_digits {digits rest : Text} (filled : digits ≠ [])
    (allDigits : ∀ b ∈ digits, Text.isDigit b = true) : Unsigned (digits ++ rest) := by
  intro b front
  have bounds := (Text.isDigit_iff b).mp (allDigits b (Text.mem_of_front filled b front))
  constructor <;> rintro rfl <;> simp at bounds

/-- Every text is a sign and a rest, with no sign left in the rest unless one was taken. -/
theorem exists_sign (t : Text) :
    ∃ sign rest, t = sign ++ rest ∧ IsSign sign ∧ (sign = [] → Unsigned rest) := by
  cases t with
  | nil => exact ⟨[], [], rfl, .none, by simp [Unsigned]⟩
  | cons b rest =>
    by_cases plus : b = 43
    · subst plus
      exact ⟨utf8 "+", rest, rfl, .plus, nofun⟩
    · by_cases minus : b = 45
      · subst minus
        exact ⟨utf8 "-", rest, rfl, .minus, nofun⟩
      · refine ⟨[], b :: rest, rfl, .none, ?_⟩
        rintro - first ⟨⟩
        exact ⟨plus, minus⟩

end Integer

end StepGraph
