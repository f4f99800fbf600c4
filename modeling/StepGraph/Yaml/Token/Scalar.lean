import StepGraph.Text.CharCode
import StepGraph.Yaml.Cursor

/-!
# The text of a scalar

Quoted, plain and block scalars are read from a cursor.  A line end inside a
quoted or plain scalar is a space, further line ends stand for themselves.  Each
reader has a bound on its steps; the number of characters left is enough.
-/

namespace StepGraph

namespace Yaml

/-! ## White space inside a scalar -/

/-- White space between two words of a scalar. -/
structure Gap where
  blanks : List Char
  /-- The first line end. -/
  first : List Char
  /-- The line ends after it. -/
  more : List Char
  crossed : Bool

namespace Gap

def empty : Gap := { blanks := [], first := [], more := [], crossed := false }

def text (g : Gap) : List Char :=
  if !g.crossed then g.blanks
  else if g.first.head? = some '\n' then if g.more.isEmpty then [' '] else g.more
  else g.first ++ g.more

def withBreak (g : Gap) (lineEnd : List Char) : Gap :=
  if g.crossed then { g with more := g.more ++ lineEnd }
  else { g with blanks := [], first := lineEnd, crossed := true }

/-- The white space at a cursor.  At the start of a line, tabs left of the column `least` are
refused. -/
def read? (least : Nat) : (fuel : Nat) → Gap → Cursor → Option (Gap × Cursor)
  | 0, g, c => some (g, c)
  | fuel + 1, g, c =>
    match c.at? with
    | none => some (g, c)
    | some d =>
      if isBlank d then
        if g.crossed && d = '\t' && c.column < least then none
        else if g.crossed then read? least fuel g (c.skip 1)
        else read? least fuel { g with blanks := g.blanks ++ [d] } (c.skip 1)
      else if isBreak d then read? least fuel (g.withBreak c.takeBreak.1) c.takeBreak.2
      else some (g, c)

end Gap

/-! ## Quoted scalars -/

def escapes : List (Char × Char) :=
  [('0', '\x00'), ('a', '\x07'), ('b', '\x08'), ('t', '\t'), ('\t', '\t'), ('n', '\n'),
    ('v', '\x0b'), ('f', '\x0c'), ('r', '\r'), ('e', '\x1b'), (' ', ' '), ('"', '"'),
    ('\'', '\''), ('\\', '\\'), ('N', '\u0085'), ('_', '\u00a0'), ('L', '\u2028'),
    ('P', '\u2029')]

def singleRun : (fuel : Nat) → Array Char → Cursor → Array Char × Cursor
  | 0, out, c => (out, c)
  | fuel + 1, out, c =>
    match c.rest with
    | '\'' :: '\'' :: _ => singleRun fuel (out.push '\'') (c.skip 2)
    | d :: _ =>
      if d = '\'' || isBlankOrBreak d then (out, c) else singleRun fuel (out.push d) (c.skip 1)
    | [] => (out, c)

/-- Text in double quotes up to white space, an escaped line end or the closing quote; tells
whether a line end was escaped. -/
def doubleRun? : (fuel : Nat) → Array Char → Cursor → Option (Array Char × Bool × Cursor)
  | 0, out, c => some (out, false, c)
  | fuel + 1, out, c =>
    match c.rest with
    | '\\' :: rest =>
      if rest.head?.any isBreak then some (out, true, (c.skip 1).takeBreak.2)
      else match CharCode.escape? escapes rest with
        | some (d, length) => doubleRun? fuel (out.push d) (c.skip (1 + length))
        | none => none
    | d :: _ =>
      if d = '"' || isBlankOrBreak d then some (out, false, c)
      else doubleRun? fuel (out.push d) (c.skip 1)
    | [] => some (out, false, c)

def quotedFrom? (single : Bool) : (fuel : Nat) → Array Char → Cursor → Option (Array Char × Cursor)
  | 0, _, _ => none
  | fuel + 1, out, c =>
    if c.atDocumentMark || c.rest.isEmpty then none
    else do
      let (out, crossed, c) ←
        if single then
          some ((singleRun c.rest.length out c).1, false, (singleRun c.rest.length out c).2)
        else doubleRun? c.rest.length out c
      if c.at? == some (if single then '\'' else '"') then some (out, c.skip 1)
      else
        let (gap, c) ← Gap.read? 0 c.rest.length { Gap.empty with crossed } c
        quotedFrom? single fuel (out ++ gap.text.toArray) c

def quoted? (single : Bool) (c : Cursor) : Option (List Char × Cursor) :=
  (quotedFrom? single (c.rest.length + 1) #[] (c.skip 1)).map fun (out, c) => (out.toList, c)

/-! ## Plain scalars -/

def flowIndicators : List Char := [',', '?', '[', ']', '\x7b', '\x7d']

def plainRun (flow : Bool) : List Char → List Char
  | [] => []
  | d :: rest =>
    if isBlankOrBreak d || (d = ':' && (rest.isEmpty || rest.head?.any isBlankOrBreak))
        || (flow && flowIndicators.contains d) then []
    else d :: plainRun flow rest

def plainFrom? (flow : Bool) (least : Nat) :
    (fuel : Nat) → Array Char → Gap → Cursor → Option (Array Char × Bool × Cursor)
  | 0, out, gap, c => some (out, gap.crossed, c)
  | fuel + 1, out, gap, c =>
    if c.atDocumentMark || c.at? == some '#' then some (out, gap.crossed, c)
    else
      let run := plainRun flow c.rest
      let out := if run.isEmpty then out else out ++ gap.text.toArray ++ run.toArray
      let gap := if run.isEmpty then gap else Gap.empty
      let c := c.skip run.length
      if !c.sees isBlankOrBreak then some (out, gap.crossed, c)
      else
        match Gap.read? least c.rest.length gap c with
        | none => none
        | some (gap, c) =>
          if !flow && c.column < least then some (out, gap.crossed, c)
          else plainFrom? flow least fuel out gap c

/-- A plain scalar.  Outside brackets its further lines start at the column `least` or after it. -/
def plain? (flow : Bool) (least : Nat) (c : Cursor) : Option (List Char × Bool × Cursor) :=
  (plainFrom? flow least (c.rest.length + 1) #[] Gap.empty c).map fun (out, crossed, c) =>
    (out.toList, crossed, c)

/-! ## Block scalars -/

/-- What happens to the line ends at the end of a block. -/
inductive Chomping where
  | strip
  | clip
  | keep
  deriving DecidableEq

/-- The first line of a block: its chomping and the columns it is set in, zero when not said. -/
def blockHeader? (c : Cursor) : Option (Chomping × Nat × Cursor) :=
  match c.rest with
  | d :: e :: _ =>
    if d = '+' || d = '-' then
      if e = '0' then none
      else if e.isDigit then some (chomping d, e.toNat - 48, c.skip 2)
      else some (chomping d, 0, c.skip 1)
    else if d = '0' then none
    else if d.isDigit then
      if e = '+' || e = '-' then some (chomping e, d.toNat - 48, c.skip 2)
      else some (.clip, d.toNat - 48, c.skip 1)
    else some (.clip, 0, c)
  | [d] =>
    if d = '+' || d = '-' then some (chomping d, 0, c.skip 1)
    else if d = '0' then none
    else if d.isDigit then some (.clip, d.toNat - 48, c.skip 1)
    else some (.clip, 0, c)
  | [] => some (.clip, 0, c)
where
  chomping (d : Char) : Chomping := if d = '+' then .keep else .strip

/-- Spaces up to the column `indent`, or all of them when it is zero. -/
def skipIndent (indent : Nat) (c : Cursor) : Cursor :=
  let count := (c.rest.takeWhile (· == ' ')).length
  c.skip (if indent = 0 then count else min count (indent - c.column))

/-- Empty lines at a cursor: their line ends, the greatest column reached, and the place after
them.  A tab in the indentation is refused. -/
def emptyLines? (indent : Nat) :
    (fuel : Nat) → (ends : List Char) → (reached : Nat) → Cursor →
      Option (List Char × Nat × Cursor)
  | 0, _, _, _ => none
  | fuel + 1, ends, reached, c =>
    let c := skipIndent indent c
    let reached := max reached c.column
    if (indent = 0 || c.column < indent) && c.at? = some '\t' then none
    else if c.sees isBreak then
      emptyLines? indent fuel (ends ++ c.takeBreak.1) reached c.takeBreak.2
    else some (ends, reached, c)

structure Block where
  text : Array Char
  last : List Char
  /-- The ends of the empty lines after it. -/
  empty : List Char
  /-- Whether the last line started with a blank. -/
  blank : Bool

/-- A block after one more line.  In a folded block a line end between two lines that start without
a blank is a space, or nothing when empty lines follow it. -/
def Block.withLine (folded : Bool) (b : Block) (line : List Char) : Block :=
  let blank := line.head?.any isBlank
  let joint :=
    if folded && !b.blank && !blank && b.last.head? = some '\n' then
      if b.empty.isEmpty then [' '] else []
    else b.last
  { text := b.text ++ (joint ++ b.empty ++ line).toArray, last := [], empty := [], blank }

def blockLines? (folded : Bool) (indent : Nat) :
    (fuel : Nat) → Block → Cursor → Option (Block × Cursor)
  | 0, _, _ => none
  | fuel + 1, b, c =>
    if c.column != indent || c.rest.isEmpty then some (b, c)
    else
      let (line, c) := c.span fun d => !isBreak d
      let b := b.withLine folded line
      let (last, c) := c.takeBreak
      match emptyLines? indent (c.rest.length + 1) [] 0 c with
      | none => none
      | some (empty, _, c) => blockLines? folded indent fuel { b with last, empty } c

/-- A block scalar whose mark is at the cursor, inside a structure at the column `outer`. -/
def block? (folded : Bool) (outer : Int) (c : Cursor) : Option (List Char × Cursor) := do
  let (chomping, said, c) ← blockHeader? (c.skip 1)
  let c := c.skipWhile isBlank
  let c := if c.at? = some '#' then c.lineEnd else c
  if !c.rest.isEmpty && !c.sees isBreak then none
  else
    let c := c.takeBreak.2
    let indent := if said = 0 then 0 else if 0 ≤ outer then outer.toNat + said else said
    let (empty, reached, c) ← emptyLines? indent (c.rest.length + 1) [] 0 c
    let indent := if indent = 0 then max reached (max (outer + 1).toNat 1) else indent
    let (b, c) ← blockLines? folded indent (c.rest.length + 1)
      { text := #[], last := [], empty, blank := false } c
    let tail := match chomping with
      | .strip => []
      | .clip => b.last
      | .keep => b.last ++ b.empty
    some (b.text.toList ++ tail, c)

end Yaml

end StepGraph
