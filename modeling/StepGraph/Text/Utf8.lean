import StepGraph.Text

/-!
# Reading texts as UTF-8

A text is cut into well-formed characters and bytes that start none.  Over-long
forms, surrogates and numbers above the last character are not well formed.
-/

namespace StepGraph

namespace Text

def isContinuation (b : UInt8) : Bool := 0x80 ≤ b && b ≤ 0xBF

def lowBits (b : UInt8) : Nat := b.toNat % 64

def code₃ (a b c : UInt8) : Nat := a.toNat % 16 * 4096 + lowBits b * 64 + lowBits c

def code₄ (a b c d : UInt8) : Nat :=
  a.toNat % 8 * 262144 + lowBits b * 4096 + lowBits c * 64 + lowBits d

/-- The well-formed character at the start of a text, and what follows it. -/
def char? : Text → Option (Char × Text)
  | [] => none
  | a :: rest =>
    if a < 0x80 then some (Char.ofNat a.toNat, rest)
    else match rest with
      | [] => none
      | b :: rest =>
        if !isContinuation b || a < 0xC2 then none
        else if a < 0xE0 then
          some (Char.ofNat (a.toNat % 32 * 64 + lowBits b), rest)
        else match rest with
          | [] => none
          | c :: rest =>
            if !isContinuation c then none
            else if a < 0xF0 then
              if 0x800 ≤ code₃ a b c && !(0xD800 ≤ code₃ a b c && code₃ a b c ≤ 0xDFFF) then
                some (Char.ofNat (code₃ a b c), rest)
              else none
            else match rest with
              | [] => none
              | d :: rest =>
                if isContinuation d && a < 0xF5 && 0x10000 ≤ code₄ a b c d
                    && code₄ a b c d ≤ 0x10FFFF then
                  some (Char.ofNat (code₄ a b c d), rest)
                else none

theorem length_lt_of_char? {t rest : Text} {c : Char} (found : char? t = some (c, rest)) :
    rest.length < t.length := by
  unfold char? at found
  repeat' split at found
  all_goals
    simp only [Option.some.injEq, Prod.mk.injEq, reduceCtorEq] at found
  all_goals
    obtain ⟨_, rfl⟩ := found
    simp only [List.length_cons]
    omega

/-- A character, or a byte that does not belong to one. -/
inductive Piece where
  | char (c : Char)
  | stray (b : UInt8)

/-- A text cut into characters and stray bytes. -/
def pieces (t : Text) : List Piece :=
  match t with
  | [] => []
  | b :: rest =>
    match _ : char? (b :: rest) with
    | some (c, after) => .char c :: pieces after
    | none => .stray b :: pieces rest
termination_by t.length
decreasing_by
  · exact length_lt_of_char? (by assumption)
  · simp

def chars? (t : Text) : Option (List Char) :=
  t.pieces.mapM fun
    | .char c => some c
    | .stray _ => none

def isUtf8 (t : Text) : Bool := t.chars?.isSome

def ofChars (cs : List Char) : Text := cs.flatMap String.utf8EncodeChar

end Text

end StepGraph
