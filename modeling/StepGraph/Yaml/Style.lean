import StepGraph.Text.Base64
import StepGraph.Text.Utf8
import StepGraph.Yaml.Character
import StepGraph.Yaml.Scalar

/-!
# How a text is written

A text of one line is written plain when it would be read back as that text,
in single quotes when only its characters stand in the way, and in double quotes
when it would be read as something else or has characters to escape.  A text of
several lines is a literal block.  Bytes that are no UTF-8 are written in base
sixty-four.
-/

namespace StepGraph

namespace Yaml

inductive Style where
  | plain
  | single
  | double
  | literal
  deriving DecidableEq

/-! ## What stands in the way of a style -/

/-- The words that older readers take for truth values. -/
def oldBoolWords : List Text :=
  ["y", "Y", "yes", "Yes", "YES", "on", "On", "ON", "n", "N", "no", "No", "NO", "off", "Off",
    "OFF"].map utf8

/-- One or two digits below sixty, after a colon, and again; then an optional fraction. -/
def isSixtieths : Text → Bool
  | 58 :: a :: b :: rest =>
    (Text.isDigit a && a ≤ 53 && Text.isDigit b
        && (rest.isEmpty || isFraction rest || isSixtieths rest))
      || (Text.isDigit a && (isFraction (b :: rest) || isSixtieths (b :: rest)))
  | [58, a] => Text.isDigit a
  | _ => false
where
  /-- A point, digits and underscores. -/
  isFraction : Text → Bool
    | 46 :: rest => rest.all fun b => Text.isDigit b || b == 95
    | _ => false

def isBaseSixty (t : Text) : Bool :=
  match (Integer.splitSign t).2 with
  | b :: rest => Text.isDigit b && isSixtieths (rest.dropWhile fun b => Text.isDigit b || b == 95)
  | [] => false

/-- Whether a text without quotes is read as that text. -/
def meansItself (t : Text) : Bool :=
  match Scalar.ofPlain t with
  | .text => !isBaseSixty t && !oldBoolWords.contains t
  | _ => false

def endsWord : List Char → Bool
  | [] => true
  | c :: _ => isBlank c

def indicators : List Char :=
  ['#', ',', '[', ']', '\x7b', '\x7d', '&', '*', '!', '|', '>', '\'', '"', '%', '@', '\x60']

/-- Whether a mapping or a comment would start after the character `before`. -/
def interruptedAfter (before : Char) : List Char → Bool
  | [] => false
  | c :: rest =>
    (c == ':' && endsWord rest) || (c == '#' && isBlankOrBreak before) || interruptedAfter c rest

/-- Whether a text starts like something else or is interrupted by it. -/
def hasIndicator : List Char → Bool
  | [] => false
  | c :: rest =>
    indicators.contains c || ((c == '?' || c == ':' || c == '-') && endsWord rest)
      || ['-', '-', '-'].isPrefixOf (c :: rest) || ['.', '.', '.'].isPrefixOf (c :: rest)
      || interruptedAfter c rest

def hasNeighbours (related : Char → Char → Bool) (cs : List Char) : Bool :=
  (cs.zip cs.tail).any fun (c, d) => related c d

def spaceThenBreak (cs : List Char) : Bool := hasNeighbours (fun c d => c == ' ' && isBreak d) cs

def breakThenSpace (cs : List Char) : Bool := hasNeighbours (fun c d => isBreak c && d == ' ') cs

def allShown (cs : List Char) : Bool := cs.all fun c => c == '\t' || isShown c

def plainFits (cs : List Char) : Bool :=
  allShown cs && !cs.any (fun c => c == '\t' || isBreak c) && cs.head? != some ' '
    && cs.getLast? != some ' ' && !hasIndicator cs

def singleFits (cs : List Char) : Bool :=
  allShown cs && !cs.contains '\t' && !spaceThenBreak cs && !breakThenSpace cs

def literalFits (cs : List Char) : Bool :=
  allShown cs && cs.getLast? != some ' ' && !spaceThenBreak cs

def styleOf (unquoted : Bool) (cs : List Char) : Style :=
  if cs.contains '\n' then if literalFits cs then .literal else .double
  else if !unquoted then .double
  else if plainFits cs then .plain
  else if singleFits cs then .single
  else .double

/-! ## The styles -/

def spaces (count : Nat) : List Char := List.replicate count ' '

/-- Single quotes, where a quote inside is doubled and a new line is indented. -/
def singleQuoted (indent : Nat) (cs : List Char) : List Char := ['\''] ++ go false cs ++ ['\'']
where
  go (fresh : Bool) : List Char → List Char
    | [] => []
    | c :: rest =>
      if isBreak c then c :: go true rest
      else (if fresh then spaces indent else []) ++ (if c = '\'' then ['\'', '\''] else [c])
        ++ go false rest

def escapeLetter? (c : Char) : Option Char :=
  [('\x00', '0'), ('\x07', 'a'), ('\x08', 'b'), ('\t', 't'), ('\n', 'n'), ('\x0b', 'v'),
    ('\x0c', 'f'), ('\r', 'r'), ('\x1b', 'e'), ('"', '"'), ('\\', '\\'), ('\u0085', 'N'),
    ('\u00a0', '_'), ('\u2028', 'L'), ('\u2029', 'P')].lookup c

def capitalHexDigits (width n : Nat) : List Char :=
  (Text.hexDigits width n).map fun b => (Char.ofNat b.toNat).toUpper

def escaped (c : Char) : List Char :=
  match escapeLetter? c with
  | some letter => ['\\', letter]
  | none =>
    if c.toNat ≤ 0xFF then ['\\', 'x'] ++ capitalHexDigits 2 c.toNat
    else if c.toNat ≤ 0xFFFF then ['\\', 'u'] ++ capitalHexDigits 4 c.toNat
    else ['\\', 'U'] ++ capitalHexDigits 8 c.toNat

def doubleQuoted (cs : List Char) : List Char :=
  ['"'] ++ cs.flatMap (fun c =>
    if !isShown c || isBreak c || c == '"' || c == '\\' then escaped c else [c]) ++ ['"']

def step : Nat := 4

/-- The indentation mark, needed before a text that starts with white space. -/
def indentationMark : List Char → List Char
  | [] => []
  | c :: _ => if c = ' ' || isBreak c then [Char.ofNat (48 + step)] else []

/-- What a reader does with the line ends at the end: drop them, keep one, keep all. -/
def endMark (cs : List Char) : List Char :=
  match cs.reverse with
  | last :: before =>
    if !isBreak last then ['-']
    else match before with
      | [] => ['+']
      | c :: _ => if isBreak c then ['+'] else []
  | [] => ['-']

/-- The lines of a literal block, each set in; `fresh` says that a line has just been started. -/
def blockLines (indent : Nat) : (atStart fresh : Bool) → List Char → List Char
  | _, _, [] => []
  | atStart, fresh, c :: rest =>
    if isBreak c then c :: blockLines indent true true rest
    else (if atStart then (if fresh then [] else ['\n']) ++ spaces indent else [])
      ++ c :: blockLines indent false false rest

def literalBlock (indent : Nat) (cs : List Char) : List Char :=
  ['|'] ++ indentationMark cs ++ endMark cs ++ blockLines indent true false cs

/-- A text in a style with the end of its last line. -/
def written (indent : Nat) (unquoted : Bool) (cs : List Char) : List Char :=
  match styleOf unquoted cs with
  | .plain => cs ++ ['\n']
  | .single => singleQuoted indent cs ++ ['\n']
  | .double => doubleQuoted cs ++ ['\n']
  | .literal => literalBlock indent cs ++ if cs.getLast?.any isBreak then [] else ['\n']

/-! ## Bytes -/

def base64Lines (fuel : Nat) (letters : Text) : Text :=
  match fuel with
  | 0 => []
  | fuel + 1 =>
    if letters.isEmpty then [] else letters.take 70 ++ [10] ++ base64Lines fuel (letters.drop 70)

/-- Letters in lines when they do not fit on one. -/
def base64Text (t : Text) : Text :=
  let letters := t.toBase64
  if letters.length < 70 then letters else base64Lines letters.length letters

/-- A text as the value of a field, with the end of its last line; further lines are set in to the
column `indent`. -/
def scalarText (indent : Nat) (t : Text) : Text :=
  match t.chars? with
  | some cs => .ofChars (written indent (meansItself t) cs)
  | none =>
    utf8 "!!binary " ++
      .ofChars (written indent true ((base64Text t).map fun b => Char.ofNat b.toNat))

end Yaml

end StepGraph
