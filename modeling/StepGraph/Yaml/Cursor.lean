import StepGraph.Text.Utf8
import StepGraph.Yaml.Character

/-!
# A place in a document

A cursor holds the characters that are still to be read and says where they
start: how many characters came before, on which line, at which column.
-/

namespace StepGraph

namespace Yaml

/-! ## The characters of a document -/

def unit (bigEndian : Bool) (a b : UInt8) : Nat :=
  if bigEndian then a.toNat * 256 + b.toNat else b.toNat * 256 + a.toNat

def units? (bigEndian : Bool) : Text → Option (List Nat)
  | [] => some []
  | [_] => none
  | a :: b :: rest => (units? bigEndian rest).map (unit bigEndian a b :: ·)

/-- The characters of sixteen-bit units, where two surrogates stand for one. -/
def ofUnits? : List Nat → Option (List Char)
  | [] => some []
  | [u] => if 0xD800 ≤ u && u ≤ 0xDFFF then none else some [Char.ofNat u]
  | u :: v :: rest =>
    if 0xD800 ≤ u && u ≤ 0xDBFF then
      if 0xDC00 ≤ v && v ≤ 0xDFFF then
        (ofUnits? rest).map (Char.ofNat (0x10000 + (u - 0xD800) * 1024 + (v - 0xDC00)) :: ·)
      else none
    else if 0xDC00 ≤ u && u ≤ 0xDFFF then none
    else (ofUnits? (v :: rest)).map (Char.ofNat u :: ·)

/-- The characters of bytes, by the byte order mark in front or else as UTF-8. -/
def decoded? : Text → Option (List Char)
  | 0xFF :: 0xFE :: rest => (units? false rest).bind ofUnits?
  | 0xFE :: 0xFF :: rest => (units? true rest).bind ofUnits?
  | 0xEF :: 0xBB :: 0xBF :: rest => Text.chars? rest
  | t => t.chars?

/-- The characters of a document, all of which must be readable. -/
def characters? (t : Text) : Option (List Char) := do
  let cs ← decoded? t
  if cs.all isReadable then some cs else none

structure Cursor where
  rest : List Char
  index : Nat
  line : Nat
  column : Nat

namespace Cursor

def start (cs : List Char) : Cursor := { rest := cs, index := 0, line := 0, column := 0 }

def skip (c : Cursor) (count : Nat) : Cursor :=
  { c with rest := c.rest.drop count, index := c.index + count, column := c.column + count }

def span (c : Cursor) (belongs : Char → Bool) : List Char × Cursor :=
  (c.rest.takeWhile belongs, c.skip (c.rest.takeWhile belongs).length)

def skipWhile (c : Cursor) (belongs : Char → Bool) : Cursor := (c.span belongs).2

def newLine (c : Cursor) (count : Nat) : Cursor :=
  { rest := c.rest.drop count, index := c.index + count, line := c.line + 1, column := 0 }

/-- A line end as it counts in a text, and the place after it.  Every line end is a line feed but
the two separators. -/
def takeBreak (c : Cursor) : List Char × Cursor :=
  match c.rest with
  | '\r' :: '\n' :: _ => (['\n'], c.newLine 2)
  | d :: _ =>
    if d = '\u2028' || d = '\u2029' then ([d], c.newLine 1)
    else if isBreak d then (['\n'], c.newLine 1)
    else ([], c)
  | [] => ([], c)

def at? (c : Cursor) : Option Char := c.rest.head?

def sees (c : Cursor) (belongs : Char → Bool) : Bool := c.at?.any belongs

/-- Whether a blank, a line end or nothing stands `count` characters further on. -/
def blankAfter (c : Cursor) (count : Nat) : Bool :=
  match (c.rest.drop count).head? with
  | some d => isBlankOrBreak d
  | none => true

/-- Whether a document ends or starts here. -/
def atDocumentMark (c : Cursor) : Bool :=
  c.column == 0 && c.blankAfter 3
    && (['-', '-', '-'].isPrefixOf c.rest || ['.', '.', '.'].isPrefixOf c.rest)

def lineEnd (c : Cursor) : Cursor := c.skipWhile fun d => !isBreak d

end Cursor

end Yaml

end StepGraph
