import StepGraph.Text.Utf8
import StepGraph.Yaml.Token.Lexer

/-!
# The structure of a document

A document is a scalar, a sequence or a mapping of nodes.  An alias stands for a
node that was given a name before it, and may stand inside that node.
-/

namespace StepGraph

namespace Yaml

inductive Node where
  /-- A scalar with its tag; `plain` when it stands without quotes. -/
  | scalar (tag : Option Text) (plain : Bool) (text : Text)
  | sequence (tag : Option Text) (items : List Node)
  | mapping (tag : Option Text) (pairs : List (Node × Node))
  /-- The alias with a number of its own for the node with the number `target`. -/
  | aliasOf (number target : Nat) (name : Text)

namespace Node

instance : Inhabited Node := ⟨.scalar none true []⟩

/-- The node that stands where nothing is written. -/
def blank : Node := .scalar none true []

end Node

structure Document where
  root : Node
  named : List (Nat × Node)

structure Reading where
  tokens : List Token
  handles : List (List Char × List Char)
  /-- The number of the node with each name, the latest first. -/
  names : List (List Char × Nat)
  named : List (Nat × Node)
  /-- How many names and aliases have been given numbers. -/
  count : Nat

abbrev Reader := StateT Reading Option

namespace Reader

def fail {α : Type} : Reader α := fun _ => none

def peek : Reader Token := fun r =>
  match r.tokens with
  | [] => none
  | .broken :: _ => none
  | t :: _ => some (t, r)

def drop : Reader Unit := modify fun r => { r with tokens := r.tokens.tail }

def take : Reader Token := do
  let t ← peek
  drop
  return t

def number : Reader Nat := do
  let r ← get
  set { r with count := r.count + 1 }
  return r.count

def name (label : List Char) (number : Nat) : Reader Unit :=
  modify fun r => { r with names := (label, number) :: r.names }

def keep (number : Option Nat) (node : Node) : Reader Node := do
  match number with
  | some n => modify fun r => { r with named := (n, node) :: r.named }
  | none => pure ()
  return node

def aliasNode (label : List Char) : Reader Node := do
  match (← get).names.lookup label with
  | some target => return .aliasOf (← number) target (.ofChars label)
  | none => fail

def standardTags : List Char := "tag:yaml.org,2002:".toList

/-- A tag without its abbreviation; standard tags are shortened, and a lone exclamation mark says
nothing. -/
def shortTag (tag : List Char) : Option Text :=
  if tag = ['!'] then none
  else if standardTags.isPrefixOf tag then
    some (utf8 "!!" ++ .ofChars (tag.drop standardTags.length))
  else some (.ofChars tag)

def fullTag (handle suffix : List Char) : Reader (List Char) := do
  if handle.isEmpty then return suffix
  else match (← get).handles.lookup handle with
    | some replacement => return replacement ++ suffix
    | none => fail

structure Properties where
  anchor : Option (List Char)
  tag : Option (List Char × List Char)

/-- An anchor and a tag in either order. -/
def properties : Reader Properties := do
  match ← peek with
  | .anchor label =>
    drop
    match ← peek with
    | .tag handle suffix =>
      drop
      return { anchor := some label, tag := some (handle, suffix) }
    | _ => return { anchor := some label, tag := none }
  | .tag handle suffix =>
    drop
    match ← peek with
    | .anchor label =>
      drop
      return { anchor := some label, tag := some (handle, suffix) }
    | _ => return { anchor := none, tag := some (handle, suffix) }
  | _ => return { anchor := none, tag := none }

def numbered (anchor : Option (List Char)) : Reader (Option Nat) := do
  match anchor with
  | some label =>
    let n ← number
    name label n
    return some n
  | none => return none

/-- The token that ends a block mapping, or one of its entries. -/
def endsEntry (t : Token) : Bool := t == .key || t == .value || t == .blockEnd

mutual

/-- A node; `block` allows blocks, and `indentless` a sequence at the column of its key. -/
def node (block indentless : Bool) : (fuel : Nat) → Reader Node
  | 0 => fail
  | fuel + 1 => do
    match ← peek with
    | .aliasOf label =>
      drop
      aliasNode label
    | _ =>
      let { anchor, tag } ← properties
      let full ← match tag with
        | some (handle, suffix) => some <$> fullTag handle suffix
        | none => pure none
      let short := full.bind shortTag
      match ← peek with
      | .scalar plain text =>
        drop
        keep (← numbered anchor) (.scalar short plain (.ofChars text))
      | .flowSequenceStart =>
        drop
        let n ← numbered anchor
        keep n (.sequence short (← flowItems true fuel))
      | .flowMappingStart =>
        drop
        let n ← numbered anchor
        keep n (.mapping short (← flowPairs true fuel))
      | t =>
        if indentless && t == .blockEntry then
          let n ← numbered anchor
          keep n (.sequence short (← indentlessItems fuel))
        else if block && t == .blockSequenceStart then
          drop
          let n ← numbered anchor
          keep n (.sequence short (← blockItems fuel))
        else if block && t == .blockMappingStart then
          drop
          let n ← numbered anchor
          keep n (.mapping short (← blockPairs fuel))
        else if anchor.isSome || full.isSome then
          keep (← numbered anchor) (.scalar short true [])
        else fail

def blockItems : (fuel : Nat) → Reader (List Node)
  | 0 => fail
  | fuel + 1 => do
    match ← take with
    | .blockEntry =>
      let t ← peek
      let item ← if t == .blockEntry || t == .blockEnd then pure .blank else node true false fuel
      return item :: (← blockItems fuel)
    | .blockEnd => return []
    | _ => fail

def indentlessItems : (fuel : Nat) → Reader (List Node)
  | 0 => fail
  | fuel + 1 => do
    match ← peek with
    | .blockEntry =>
      drop
      let t ← peek
      let item ← if t == .blockEntry || endsEntry t then pure .blank else node true false fuel
      return item :: (← indentlessItems fuel)
    | _ => return []

def blockPairs : (fuel : Nat) → Reader (List (Node × Node))
  | 0 => fail
  | fuel + 1 => do
    match ← take with
    | .key =>
      let t ← peek
      let key ← if endsEntry t then pure .blank else node true true fuel
      let value ← blockValue fuel
      return (key, value) :: (← blockPairs fuel)
    | .blockEnd => return []
    | _ => fail

def blockValue : (fuel : Nat) → Reader Node
  | 0 => fail
  | fuel + 1 => do
    match ← peek with
    | .value =>
      drop
      let t ← peek
      if endsEntry t then return .blank else node true true fuel
    | _ => return .blank

/-- The items of a sequence in brackets; all but the first follow a comma. -/
def flowItems (first : Bool) : (fuel : Nat) → Reader (List Node)
  | 0 => fail
  | fuel + 1 => do
    let t ← peek
    if t == .flowSequenceEnd then
      drop
      return []
    else
      if !first then
        if t == .flowEntry then drop else fail
      match ← peek with
      | .key =>
        drop
        let pair ← flowPair fuel
        return .mapping none [pair] :: (← flowItems false fuel)
      | .flowSequenceEnd =>
        drop
        return []
      | _ =>
        let item ← node false false fuel
        return item :: (← flowItems false fuel)

/-- The pair of a mapping without braces in a sequence in brackets.  A missing key takes the token
in its place with it. -/
def flowPair : (fuel : Nat) → Reader (Node × Node)
  | 0 => fail
  | fuel + 1 => do
    let t ← peek
    let missing := t == .value || t == .flowEntry || t == .flowSequenceEnd
    if missing then drop
    let key ← if missing then pure .blank else node false false fuel
    let value ← flowValue .flowSequenceEnd fuel
    return (key, value)

def flowValue (closing : Token) : (fuel : Nat) → Reader Node
  | 0 => fail
  | fuel + 1 => do
    match ← peek with
    | .value =>
      drop
      let t ← peek
      if t == .flowEntry || t == closing then return .blank else node false false fuel
    | _ => return .blank

def flowPairs (first : Bool) : (fuel : Nat) → Reader (List (Node × Node))
  | 0 => fail
  | fuel + 1 => do
    let t ← peek
    if t == .flowMappingEnd then
      drop
      return []
    else
      if !first then
        if t == .flowEntry then drop else fail
      match ← peek with
      | .key =>
        drop
        let t ← peek
        let missing := t == .value || t == .flowEntry || t == .flowMappingEnd
        let key ← if missing then pure .blank else node false false fuel
        let value ← flowValue .flowMappingEnd fuel
        return (key, value) :: (← flowPairs false fuel)
      | .flowMappingEnd =>
        drop
        return []
      | _ =>
        let key ← node false false fuel
        return (key, .blank) :: (← flowPairs false fuel)

end

def standardHandles : List (List Char × List Char) := [(['!'], ['!']), (['!', '!'], standardTags)]

/-- The directives in front of a document: at most one version, which must be 1.1, and
abbreviations with different handles. -/
def directives (seen : Bool) : (fuel : Nat) → Reader Unit
  | 0 => fail
  | fuel + 1 => do
    match ← peek with
    | .version major minor =>
      if seen || major != 1 || minor != 1 then fail
      else
        drop
        directives true fuel
    | .tagDirective handle replacement =>
      let r ← get
      if (r.handles.lookup handle).isSome then fail
      else
        set { r with handles := (handle, replacement) :: r.handles }
        drop
        directives seen fuel
    | _ => return

def isOutside : Token → Bool
  | .version _ _ => true
  | .tagDirective _ _ => true
  | .documentStart => true
  | .documentEnd => true
  | .streamEnd => true
  | _ => false

/-- The first document, if there is one. -/
def document (fuel : Nat) : Reader (Option Node) := do
  let t ← peek
  if t == .streamEnd then return none
  else if isOutside t && t != .documentEnd then
    directives false fuel
    modify fun r => { r with handles := r.handles ++ standardHandles }
    match ← take with
    | .documentStart =>
      if isOutside (← peek) then return some .blank else return some (← node true false fuel)
    | _ => fail
  else
    modify fun r => { r with handles := standardHandles }
    return some (← node true false fuel)

/-- How many tokens are looked at after a document. -/
def lookahead : Nat := 3

end Reader

/-- The first of the documents in a sequence of tokens, nothing when there is none.  A place that is
no token makes the document unreadable when it comes soon after it. -/
def firstDocument? (tokens : List Token) : Option (Option Document) := do
  let (root, r) ← (Reader.document (4 * tokens.length + 8)).run
    { tokens, handles := [], names := [], named := [], count := 0 }
  if (r.tokens.take Reader.lookahead).contains .broken then none
  else return root.map fun root => { root, named := r.named }

end Yaml

end StepGraph
