import StepGraph.Yaml.Token
import StepGraph.Yaml.Token.Scalar

/-!
# Cutting a document into tokens

Whether a scalar is a key shows only at the colon behind it.  So a place where
a key may start is remembered, and when the colon comes the token at that place
is marked; the marks become tokens of their own in the end.  Indentation opens
and closes blocks; inside brackets it does not count.
-/

namespace StepGraph

namespace Yaml

/-- What comes before a token. -/
inductive Mark where
  | nothing
  | key
  | mappingKey

structure Entry where
  token : Token
  mark : Mark

def Entry.tokens (e : Entry) : List Token :=
  match e.mark with
  | .nothing => [e.token]
  | .key => [.key, e.token]
  | .mappingKey => [.blockMappingStart, .key, e.token]

structure Candidate where
  /-- Nothing but a key can stand there. -/
  required : Bool
  position : Nat
  place : Cursor

structure Lexer where
  cursor : Cursor
  /-- The column of the innermost block, -1 outside of all. -/
  indent : Int
  outer : List Int
  keyAllowed : Bool
  /-- The candidate of each level of brackets, innermost first. -/
  candidates : List (Option Candidate)
  entries : Array Entry

namespace Lexer

def start (cs : List Char) : Lexer :=
  { cursor := .start cs, indent := -1, outer := [], keyAllowed := true, candidates := [none]
    entries := #[] }

def inFlow (l : Lexer) : Bool := 1 < l.candidates.length

def push (l : Lexer) (token : Token) : Lexer :=
  { l with entries := l.entries.push { token, mark := .nothing } }

def shift (l : Lexer) (count : Nat) (token : Token) : Lexer :=
  { l.push token with cursor := l.cursor.skip count }

/-- Gives up the candidate of this level; one that is required is an error. -/
def dropCandidate? (l : Lexer) : Option Lexer :=
  match l.candidates with
  | some candidate :: rest =>
    if candidate.required then none else some { l with candidates := none :: rest }
  | _ => some l

/-- Remembers the place when a key may start here. -/
def saveCandidate? (l : Lexer) : Option Lexer :=
  if l.keyAllowed then do
    let l ← l.dropCandidate?
    let candidate :=
      { required := !l.inFlow && l.indent == l.cursor.column
        position := l.entries.size
        place := l.cursor }
    return { l with candidates := some candidate :: l.candidates.tail }
  else some l

/-- A key stands on one line and has at most 1024 characters. -/
def reaches (l : Lexer) (candidate : Candidate) : Bool :=
  candidate.place.line == l.cursor.line && l.cursor.index ≤ candidate.place.index + 1024

/-- Opens a block at a column right of the innermost one. -/
def isDeeper (l : Lexer) (column : Nat) : Bool := !l.inFlow && l.indent < column

def enter (l : Lexer) (column : Nat) : Lexer :=
  { l with indent := column, outer := l.indent :: l.outer }

/-- Opens a block at the cursor unless one is open there. -/
def roll (l : Lexer) (token : Token) : Lexer :=
  if l.isDeeper l.cursor.column then (l.enter l.cursor.column).push token else l

/-- Closes the blocks right of a column. -/
def unrollFrom (column : Int) : List Int → Lexer → Lexer
  | [], l => l
  | indent :: outer, l =>
    if column < l.indent then unrollFrom column outer { l.push .blockEnd with indent, outer } else l

def unroll (l : Lexer) (column : Int) : Lexer :=
  if l.inFlow then l else unrollFrom column l.outer l

/-! ## Between tokens -/

def skipWhite : (fuel : Nat) → Cursor → Cursor
  | 0, c => c
  | fuel + 1, c =>
    if c.sees isBlank then skipWhite fuel (c.skipWhile isBlank)
    else if c.sees isBreak then skipWhite fuel c.takeBreak.2
    else c

/-- The end of the last of the comments that start at the cursor. -/
def skipComments : (fuel : Nat) → Cursor → Cursor
  | 0, c => c
  | fuel + 1, c =>
    let ended := c.lineEnd
    let next := skipWhite ended.rest.length ended
    if next.at? = some '#' then skipComments fuel next else ended

/-- Blanks before a token.  Tabs count as blanks where no key may start. -/
def isPadding (l : Lexer) (c : Char) : Bool :=
  c == ' ' || (c == '\t' && (l.inFlow || !l.keyAllowed))

def skipToToken : (fuel : Nat) → Lexer → Lexer
  | 0, l => l
  | fuel + 1, l =>
    let c :=
      if l.cursor.column = 0 && l.cursor.at? = some '\ufeff' then l.cursor.skip 1 else l.cursor
    let c := c.skipWhile l.isPadding
    let c := if c.at? = some '#' then skipComments c.rest.length c else c
    if c.sees isBreak then
      skipToToken fuel { l with cursor := c.takeBreak.2, keyAllowed := l.keyAllowed || !l.inFlow }
    else { l with cursor := c }

def skipLineComment (l : Lexer) : Lexer :=
  let c := l.cursor.skipWhile isBlank
  if c.at? = some '#' then { l with cursor := c.lineEnd } else l

/-! ## Tags and directives -/

def tagCharacters : List Char :=
  [';', '/', '?', ':', '@', '&', '=', '+', '$', '.', ',', '!', '~', '*', '\'', '(', ')', '[', ']',
    '%']

/-- A tag without a percent sign, up to the first character that cannot belong to it.  A percent
sign and two digits stand for a byte. -/
def tagBytes? : (fuel : Nat) → Text → Cursor → Option (Text × Cursor)
  | 0, out, c => some (out, c)
  | fuel + 1, out, c =>
    match c.rest with
    | '%' :: rest =>
      match rest.take 2 with
      | [a, b] =>
        match CharCode.hexValue? a, CharCode.hexValue? b with
        | some high, some low => tagBytes? fuel (out ++ [(high * 16 + low).toUInt8]) (c.skip 3)
        | _, _ => none
      | _ => none
    | d :: _ =>
      if isWord d || tagCharacters.contains d then
        tagBytes? fuel (out ++ Text.ofChars [d]) (c.skip 1)
      else some (out, c)
    | [] => some (out, c)

def tagRest? (before : List Char) (c : Cursor) : Option (List Char × Cursor) := do
  let (bytes, c) ← tagBytes? c.rest.length [] c
  return (before ++ (← bytes.chars?), c)

/-- A handle: an exclamation mark, and a name with another one when there is one. -/
def tagHandle (c : Cursor) : List Char × Cursor :=
  let (name, after) := (c.skip 1).span isWord
  if after.at? = some '!' then (['!'] ++ name ++ ['!'], after.skip 1) else (['!'] ++ name, after)

def tag? (c : Cursor) : Option (List Char × List Char × Cursor) :=
  if (c.rest.drop 1).head? = some '<' then do
    let (suffix, c) ← tagRest? [] (c.skip 2)
    if suffix.isEmpty || c.at? != some '>' then none else some ([], suffix, c.skip 1)
  else do
    let (handle, c) := tagHandle c
    if 1 < handle.length && handle.getLast? = some '!' then
      let (suffix, c) ← tagRest? [] c
      if suffix.isEmpty then none else some (handle, suffix, c)
    else
      let (suffix, c) ← tagRest? handle.tail c
      some (if suffix.isEmpty then ([], ['!'], c) else (['!'], suffix, c))

def versionNumber? (c : Cursor) : Option (Nat × Cursor) :=
  let (digits, c) := c.span Char.isDigit
  if digits.isEmpty || 2 < digits.length then none
  else some (digits.foldl (fun n d => n * 10 + (d.toNat - 48)) 0, c)

def directive? (c : Cursor) : Option (Token × Cursor) := do
  let (name, c) := c.span isWord
  if !c.blankAfter 0 then none
  else if name = ['Y', 'A', 'M', 'L'] then
    let (major, c) ← versionNumber? (c.skipWhile isBlank)
    if c.at? != some '.' then none
    else
      let (minor, c) ← versionNumber? (c.skip 1)
      return (.version major minor, c)
  else if name = ['T', 'A', 'G'] then
    let c := c.skipWhile isBlank
    if c.at? != some '!' then none
    else
      let (handle, c) := tagHandle c
      if (1 < handle.length && handle.getLast? != some '!') || !c.sees isBlank then none
      else
        let (replacement, c) ← tagRest? [] (c.skipWhile isBlank)
        if replacement.isEmpty || !c.blankAfter 0 then none
        else return (.tagDirective handle replacement, c)
  else none

/-! ## Tokens -/

def directiveToken? (l : Lexer) : Option Lexer := do
  let l ← (l.unroll (-1)).dropCandidate?
  let (token, c) ← directive? (l.cursor.skip 1)
  let c := c.skipWhile isBlank
  let c := if c.at? = some '#' then c.lineEnd else c
  if !c.rest.isEmpty && !c.sees isBreak then none
  else return { l.push token with cursor := c.takeBreak.2, keyAllowed := false }

def documentToken? (l : Lexer) (token : Token) : Option Lexer := do
  let l ← (l.unroll (-1)).dropCandidate?
  return { l.shift 3 token with keyAllowed := false }

def endToken? (l : Lexer) : Option Lexer := do
  let l ← (l.unroll (-1)).dropCandidate?
  return { l.push .streamEnd with keyAllowed := false }

def openToken? (l : Lexer) (token : Token) : Option Lexer := do
  let l ← l.saveCandidate?
  return { l.shift 1 token with candidates := none :: l.candidates, keyAllowed := true }

def closeToken? (l : Lexer) (token : Token) : Option Lexer := do
  let l ← l.dropCandidate?
  let candidates := if l.inFlow then l.candidates.tail else l.candidates
  return { l.shift 1 token with candidates, keyAllowed := false }

def flowEntryToken? (l : Lexer) : Option Lexer := do
  let l ← l.dropCandidate?
  return { l.shift 1 .flowEntry with keyAllowed := true }

def blockEntryToken? (l : Lexer) : Option Lexer := do
  if !l.inFlow && !l.keyAllowed then none
  else
    let l ← (l.roll .blockSequenceStart).dropCandidate?
    return { l.shift 1 .blockEntry with keyAllowed := true }

def keyToken? (l : Lexer) : Option Lexer := do
  if !l.inFlow && !l.keyAllowed then none
  else
    let l ← (l.roll .blockMappingStart).dropCandidate?
    return { l.shift 1 .key with keyAllowed := !l.inFlow }

def confirm (l : Lexer) (candidate : Candidate) : Lexer :=
  let starts := l.isDeeper candidate.place.column
  let mark := if starts then Mark.mappingKey else .key
  let l := if starts then l.enter candidate.place.column else l
  { l with
    entries := l.entries.modify candidate.position fun e => { e with mark }
    candidates := none :: l.candidates.tail
    keyAllowed := false }

/-- A colon: it confirms the candidate, or else belongs to a key that was marked as such. -/
def valueToken? (l : Lexer) : Option Lexer :=
  match l.candidates.head? with
  | some (some candidate) =>
    if l.reaches candidate then some ((l.confirm candidate).shift 1 .value)
    else if candidate.required then none
    else unmarked { l with candidates := none :: l.candidates.tail }
  | _ => unmarked l
where
  unmarked (l : Lexer) : Option Lexer :=
    if !l.inFlow && !l.keyAllowed then none
    else
      let l := l.roll .blockMappingStart
      some { l.shift 1 .value with keyAllowed := !l.inFlow }

def nameEnds : List Char := ['?', ':', ',', ']', '\x7d', '%', '@', '\x60']

def nameToken? (l : Lexer) (token : List Char → Token) : Option Lexer := do
  let l ← l.saveCandidate?
  let (name, c) := (l.cursor.skip 1).span isWord
  if name.isEmpty || !(c.blankAfter 0 || c.sees nameEnds.contains) then none
  else return { l.push (token name) with cursor := c, keyAllowed := false }

def tagToken? (l : Lexer) : Option Lexer := do
  let l ← l.saveCandidate?
  let (handle, suffix, c) ← tag? l.cursor
  if !c.blankAfter 0 then none
  else return { l.push (.tag handle suffix) with cursor := c, keyAllowed := false }

def blockToken? (l : Lexer) (folded : Bool) : Option Lexer := do
  let l ← l.dropCandidate?
  let (text, c) ← block? folded l.indent l.cursor
  return { l.push (.scalar false text) with cursor := c, keyAllowed := true }

def quotedToken? (l : Lexer) (single : Bool) : Option Lexer := do
  let l ← l.saveCandidate?
  let (text, c) ← quoted? single l.cursor
  return { l.push (.scalar false text) with cursor := c, keyAllowed := false }

def plainToken? (l : Lexer) : Option Lexer := do
  let l ← l.saveCandidate?
  let (text, crossed, c) ← plain? l.inFlow (l.indent + 1).toNat l.cursor
  return { l.push (.scalar true text) with cursor := c, keyAllowed := crossed }

/-- Whether a plain scalar may start with `c`, given whether white space comes next. -/
def startsPlain (l : Lexer) (c : Char) : Bool :=
  !(isBlankOrBreak c || c == '-' || c == '?' || c == ':' || indicators.contains c)
    || (c == '-' && !((l.cursor.rest.drop 1).head?.any isBlank))
    || (!l.inFlow && (c == '?' || c == ':') && !l.cursor.blankAfter 1)
where
  indicators : List Char :=
    [',', '[', ']', '\x7b', '\x7d', '#', '&', '*', '!', '|', '>', '\'', '"', '%', '@', '\x60']

/-- The token that starts with `c` at the cursor. -/
def tokenAt? (l : Lexer) (c : Char) : Option Lexer :=
  let spaced := l.cursor.blankAfter 1
  if c = '[' then l.openToken? .flowSequenceStart
  else if c = '\x7b' then l.openToken? .flowMappingStart
  else if c = ']' then l.closeToken? .flowSequenceEnd
  else if c = '\x7d' then l.closeToken? .flowMappingEnd
  else if c = ',' then l.flowEntryToken?
  else if c = '-' && spaced then l.blockEntryToken?
  else if c = '?' && (l.inFlow || spaced) then l.keyToken?
  else if c = ':' && (l.inFlow || spaced) then l.valueToken?
  else if c = '*' then l.nameToken? .aliasOf
  else if c = '&' then l.nameToken? .anchor
  else if c = '!' then l.tagToken?
  else if c = '|' && !l.inFlow then l.blockToken? false
  else if c = '>' && !l.inFlow then l.blockToken? true
  else if c = '\'' then l.quotedToken? true
  else if c = '"' then l.quotedToken? false
  else if l.startsPlain c then l.plainToken?
  else none

/-- Whether a comment may follow the token that starts with `c` on its line. -/
def takesComment (l : Lexer) (c : Char) : Bool :=
  !(c == '-' && l.cursor.blankAfter 1) && (l.inFlow || (c != '|' && c != '>'))

/-- The next token with the blocks that end before it. -/
def next? (l : Lexer) : Option Lexer :=
  let l := skipToToken (l.cursor.rest.length + 1) l
  let l := l.unroll l.cursor.column
  match l.cursor.rest with
  | [] => l.endToken?
  | c :: _ =>
    if l.cursor.column = 0 && c = '%' then l.directiveToken?
    else if l.cursor.atDocumentMark then
      l.documentToken? (if c = '-' then .documentStart else .documentEnd)
    else (l.tokenAt? c).map fun after => if l.takesComment c then after.skipLineComment else after

/-- The tokens up to the end, or up to the first place that is no token. -/
def run : (fuel : Nat) → Lexer → Lexer
  | 0, l => l.push .broken
  | fuel + 1, l =>
    match l.next? with
    | none => l.push .broken
    | some after =>
      if after.entries.back?.any (·.token == .streamEnd) then after else run fuel after

end Lexer

def tokens (cs : List Char) : List Token :=
  (Lexer.run (cs.length + 2) (.start cs)).entries.toList.flatMap Entry.tokens

end Yaml

end StepGraph
