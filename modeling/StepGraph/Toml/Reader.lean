import StepGraph.Text.Utf8
import StepGraph.Toml.Number

/-!
# Reading settings

The lines of a settings file from its characters.  A reader takes what it reads
from the front and returns the rest; those that repeat have a bound on their
steps, for which the number of characters is enough.
-/

namespace StepGraph

namespace Toml

def isBlank (c : Char) : Bool := c == ' ' || c == '\t'

/-- Line feeds, and the carriage returns before them. -/
def isNewline (c : Char) : Bool := c == '\n' || c == '\r'

def skipBlanks (cs : List Char) : List Char := cs.dropWhile isBlank

def skipLines : (fuel : Nat) → List Char → List Char
  | 0, cs => cs
  | fuel + 1, cs =>
    match cs.dropWhile fun c => isBlank c || isNewline c with
    | '#' :: rest => skipLines fuel (rest.dropWhile fun c => !isNewline c)
    | rest => rest

/-! ## Strings -/

def escapes : List (Char × Char) :=
  [('b', '\x08'), ('t', '\t'), ('n', '\n'), ('f', '\x0c'), ('r', '\r'), ('e', '\x1b'),
    ('"', '"'), ('\\', '\\')]

/-- A string on one line, after its opening quote. -/
def basicString? : (fuel : Nat) → Array Char → List Char → Option (Text × List Char)
  | 0, _, _ => none
  | fuel + 1, out, cs =>
    match cs with
    | '"' :: rest => some (.ofChars out.toList, rest)
    | '\\' :: rest => do
      let (c, length) ← CharCode.escape? escapes rest
      basicString? fuel (out.push c) (rest.drop length)
    | c :: rest => if isNewline c then none else basicString? fuel (out.push c) rest
    | [] => none

def rawString? (cs : List Char) : Option (Text × List Char) :=
  let text := cs.takeWhile fun c => c != '\'' && !isNewline c
  match cs.drop text.length with
  | '\'' :: rest => some (.ofChars text, rest)
  | _ => none

def dropNewline : List Char → List Char
  | '\n' :: rest => rest
  | '\r' :: '\n' :: rest => rest
  | cs => cs

/-- A string over several lines, after its opening quotes.  Up to two quotes may stand before the
closing three.  `seen` holds the characters as written, the latest first. -/
def basicBlock? : (fuel : Nat) → (seen : List Char) → Array Char → List Char →
    Option (Text × List Char)
  | 0, _, _, _ => none
  | fuel + 1, seen, out, cs =>
    match cs with
    | '"' :: '"' :: '"' :: rest =>
      if rest.head? = some '"' then
        if tooMany seen then none
        else basicBlock? fuel ('"' :: seen) (out.push '"') ('"' :: '"' :: rest)
      else some (.ofChars out.toList, rest)
    | '\\' :: rest =>
      let white := rest.takeWhile fun c => isBlank c || isNewline c
      if white.isEmpty then do
        let (c, length) ← CharCode.escape? escapes rest
        basicBlock? fuel ((rest.take length).reverse ++ '\\' :: seen) (out.push c)
          (rest.drop length)
      else if white.contains '\n' then basicBlock? fuel (' ' :: seen) out (rest.drop white.length)
      else none
    | c :: rest => basicBlock? fuel (c :: seen) (out.push c) rest
    | [] => none
where
  /-- Two quotes have been read already, the first of them without a backslash. -/
  tooMany : List Char → Bool
    | '"' :: '"' :: before => before.head? != some '\\'
    | _ => false

def rawBlock? : (fuel : Nat) → (seen : List Char) → Array Char → List Char →
    Option (Text × List Char)
  | 0, _, _, _ => none
  | fuel + 1, seen, out, cs =>
    match cs with
    | '\'' :: '\'' :: '\'' :: rest =>
      if rest.head? = some '\'' then
        if ['\'', '\''].isPrefixOf seen then none
        else rawBlock? fuel ('\'' :: seen) (out.push '\'') ('\'' :: '\'' :: rest)
      else some (.ofChars out.toList, rest)
    | c :: rest => rawBlock? fuel (c :: seen) (out.push c) rest
    | [] => none

/-! ## Keys -/

def isBareChar (c : Char) : Bool := c.isAlphanum || c == '_' || c == '-'

def name? (cs : List Char) : Option (Text × List Char) :=
  match cs with
  | '"' :: rest => basicString? (rest.length + 1) #[] rest
  | '\'' :: rest => rawString? rest
  | cs =>
    let bare := cs.takeWhile isBareChar
    if bare.isEmpty then none else some (.ofChars bare, cs.drop bare.length)

/-- The names of a key, with points between them. -/
def key? : (fuel : Nat) → List Char → Option (Key × List Char)
  | 0, _ => none
  | fuel + 1, cs => do
    let (name, cs) ← name? (skipBlanks cs)
    match skipBlanks cs with
    | '.' :: rest =>
      let (names, rest) ← key? fuel rest
      return (name :: names, rest)
    | rest => return ([name], rest)

/-! ## Values -/

def boolean? (cs : List Char) : Option (Term × List Char) :=
  if "true".toList.isPrefixOf cs then some (.boolean true, cs.drop 4)
  else if "false".toList.isPrefixOf cs then some (.boolean false, cs.drop 5)
  else none

def asString (r : Option (Text × List Char)) : Option (Term × List Char) :=
  r.map fun (t, rest) => (.string t, rest)

def simple? (cs : List Char) : Option (Term × List Char) :=
  match cs with
  | '"' :: '"' :: '"' :: rest =>
    asString (basicBlock? (rest.length + 1) [] #[] (dropNewline rest))
  | '"' :: rest => asString (basicString? (rest.length + 1) #[] rest)
  | '\'' :: '\'' :: '\'' :: rest =>
    asString (rawBlock? (rest.length + 1) [] #[] (dropNewline rest))
  | '\'' :: rest => asString (rawString? rest)
  | 'i' :: 'n' :: 'f' :: rest => some (.float, rest)
  | 'n' :: 'a' :: 'n' :: rest => some (.float, rest)
  | cs => number? cs <|> boolean? cs

mutual

def value? : (fuel : Nat) → List Char → Option (Term × List Char)
  | 0, _ => none
  | fuel + 1, cs =>
    match skipBlanks cs with
    | '[' :: rest => do
      let (items, rest) ← items? fuel rest
      return (.array items, rest)
    | '\x7b' :: rest => do
      let (pairs, rest) ← pairs? fuel rest
      return (.inline pairs, rest)
    | rest => simple? rest

def items? : (fuel : Nat) → List Char → Option (List Term × List Char)
  | 0, _ => none
  | fuel + 1, cs =>
    match skipLines cs.length cs with
    | ']' :: rest => some ([], rest)
    | cs => do
      let (item, cs) ← value? fuel cs
      match skipLines cs.length cs with
      | ',' :: rest =>
        let (items, rest) ← items? fuel rest
        return (item :: items, rest)
      | ']' :: rest => return ([item], rest)
      | _ => none

def pairs? : (fuel : Nat) → List Char → Option (List (Key × Term) × List Char)
  | 0, _ => none
  | fuel + 1, cs =>
    match skipLines cs.length cs with
    | '\x7d' :: rest => some ([], rest)
    | cs => do
      let (pair, cs) ← pair? fuel cs
      match skipLines cs.length cs with
      | ',' :: rest =>
        let (pairs, rest) ← pairs? fuel rest
        return (pair :: pairs, rest)
      | '\x7d' :: rest => return ([pair], rest)
      | _ => none

def pair? : (fuel : Nat) → List Char → Option ((Key × Term) × List Char)
  | 0, _ => none
  | fuel + 1, cs => do
    let (key, cs) ← key? (cs.length + 1) cs
    match cs with
    | '=' :: rest =>
      let (value, rest) ← value? fuel rest
      return ((key, value), rest)
    | _ => none

end

/-! ## Lines -/

def header? (cs : List Char) : Option (Line × List Char) :=
  match cs with
  | '[' :: rest => do
    let (key, rest) ← key? (rest.length + 1) rest
    match rest with
    | ']' :: ']' :: rest => return (.listTable key, rest)
    | _ => none
  | cs => do
    let (key, rest) ← key? (cs.length + 1) cs
    match rest with
    | ']' :: rest => return (.table key, rest)
    | _ => none

def line? (cs : List Char) : Option (Line × List Char) :=
  match cs with
  | '[' :: rest => header? rest
  | cs => do
    let ((key, value), rest) ← pair? (2 * cs.length + 4) cs
    return (.pair key value, rest)

/-- Whether nothing but a comment follows on the line. -/
def lineEnds (cs : List Char) : Bool :=
  match skipBlanks cs with
  | [] => true
  | c :: _ => c == '#' || isNewline c

def lines? : (fuel : Nat) → List Char → Option (List Line)
  | 0, _ => none
  | fuel + 1, cs =>
    match skipLines cs.length cs with
    | [] => some []
    | cs => do
      let (line, rest) ← line? cs
      if lineEnds rest then return line :: (← lines? fuel rest) else none

/-! ## Characters -/

/-- Whether no control character stands in a file; a carriage return needs a line feed. -/
def controlsFit : List Char → Bool
  | [] => true
  | c :: rest =>
    (if c = '\r' then rest.head? == some '\n'
      else c == '\t' || c == '\n' || (' ' ≤ c && c != '\x7f'))
      && controlsFit rest

def dropMark : Text → Text
  | 0xFF :: 0xFE :: rest => rest
  | 0xFE :: 0xFF :: rest => rest
  | 0xEF :: 0xBB :: 0xBF :: rest => rest
  | t => t

def read? (t : Text) : Option (List Line) := do
  let cs ← (dropMark t).chars?
  if controlsFit cs then lines? (cs.length + 1) cs else none

end Toml

end StepGraph
