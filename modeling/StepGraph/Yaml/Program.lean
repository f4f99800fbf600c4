import StepGraph.Draft
import StepGraph.Text.Base64
import StepGraph.Yaml.Node
import StepGraph.Yaml.Scalar

/-!
# Drafts from readable form

A mapping gives the fields of a structure by their names; unknown names are
passed over, and the same name twice is an error.  Null leaves a field empty and
is no item of a list.  Under the name `<<` stand mappings whose fields are taken
over where the mapping itself has none.
-/

namespace StepGraph

namespace Yaml

/-! ## Scalars -/

def textTag : Text := utf8 "!!str"

def binaryTag : Text := utf8 "!!binary"

def nullTag : Text := utf8 "!!null"

def mergeName : Text := utf8 "<<"

namespace Scalar

def tag : Scalar → Text
  | null => nullTag
  | bool => utf8 "!!bool"
  | int _ => utf8 "!!int"
  | float _ => utf8 "!!float"
  | timestamp => utf8 "!!timestamp"
  | text => textTag

/-- The meaning of a text under a tag.  Tags without a meaning of their own leave the text as it
is; the others must agree with the text, where a whole number may be tagged as a real one. -/
def ofTagged? (tag : Text) (t : Text) : Option Scalar :=
  let meaning := match ofPlain t with
    | timestamp => if tag = utf8 "!!timestamp" then timestamp else ofNumber (t.filter (· != 95))
    | other => other
  if tag = textTag then some .text
  else if [null.tag, bool.tag, (int 0).tag, (float 0).tag, timestamp.tag].contains tag then
    if meaning.tag = tag then some meaning
    else if tag = utf8 "!!float" then
      match meaning with
      | int n => if Integer.inRange n then some (float (nearest n)) else none
      | _ => none
    else none
  else some .text

def ofNode? (tag : Option Text) (plain : Bool) (t : Text) : Option Scalar :=
  match tag with
  | some tag => ofTagged? tag t
  | none => some (if plain then ofPlain t else .text)

end Scalar

/-! ## Nodes -/

/-- The nodes with names, and the aliases that are being followed. -/
structure Scope where
  named : List (Nat × Node)
  followed : List Nat

structure Located where
  scope : Scope
  node : Node

namespace Located

/-- The node that an alias stands for, or the node itself; an alias inside the node it stands for is
an error. -/
def target? (l : Located) : Option Located :=
  match l.node with
  | .aliasOf number target _ =>
    if l.scope.followed.contains number then none
    else (l.scope.named.lookup target).map fun node =>
      { scope := { l.scope with followed := number :: l.scope.followed }, node }
  | _ => some l

def inside (l : Located) (node : Node) : Located := { l with node }

def isNull (l : Located) : Bool :=
  match l.node with
  | .scalar tag plain t => match Scalar.ofNode? tag plain t with
    | some .null => true
    | _ => false
  | _ => false

def text? (l : Located) : Option (Option Text) := do
  let l ← l.target?
  match l.node with
  | .scalar tag plain t =>
    if tag = some binaryTag then (Text.ofBase64? t).map some
    else match ← Scalar.ofNode? tag plain t with
      | .null => return none
      | _ => return some t
  | _ => none

/-- A whole number, zero for null.  The fraction of a real number is dropped. -/
def int? (l : Located) : Option Int := do
  let l ← l.target?
  match l.node with
  | .scalar tag plain t =>
    match ← Scalar.ofNode? tag plain t with
    | .null => return 0
    | .int n => if n ≤ Integer.greatest then some n else none
    | .float x => Scalar.truncated? x
    | _ => none
  | _ => none

def items? (l : Located) : Option (Option (List Located)) := do
  let l ← l.target?
  match l.node with
  | .sequence _ items => return some (items.map l.inside)
  | _ => if l.isNull then some none else none

end Located

namespace Node

/-- What must differ between the keys of a mapping. -/
def keyText : Node → Nat × Text
  | scalar _ _ t => (0, t)
  | sequence _ _ => (1, [])
  | mapping _ _ => (2, [])
  | aliasOf _ _ name => (3, name)

/-- Whether a key stands for the mappings to take over. -/
def isMerge : Node → Bool
  | scalar tag plain t => t == mergeName && (tag == some (utf8 "!!merge") || (tag == none && plain))
  | _ => false

end Node

abbrev Field := Text × Located

def allDifferent {α : Type} [BEq α] : List α → Bool
  | [] => true
  | a :: rest => !rest.contains a && allDifferent rest

def ownFields? (l : Located) (pairs : List (Node × Node)) : Option (List Field) :=
  if !allDifferent (pairs.map fun (key, _) => key.keyText) then none
  else do
    let named ← (pairs.filter fun (key, _) => !key.isMerge).mapM fun (key, value) => do
      return (← (l.inside key).text?).map fun name => (name, l.inside value)
    return named.filterMap id

def mergedNodes (l : Located) (pairs : List (Node × Node)) : List Located :=
  match pairs.find? fun (key, _) => key.isMerge with
  | some (_, .sequence _ items) => items.map l.inside
  | some (_, value) => [l.inside value]
  | none => []

def takenFields? : (fuel : Nat) → Located → Option (List Field)
  | 0, _ => none
  | fuel + 1, l => do
    let l ← l.target?
    match l.node with
    | .mapping _ pairs =>
      return (← ownFields? l pairs) ++ (← (mergedNodes l pairs).mapM (takenFields? fuel)).flatten
    | _ => none

namespace Located

/-- The fields of a structure, nothing for null.  Those in `known` may be given only once. -/
def fields? (fuel : Nat) (known : List Text) (l : Located) : Option (Option (List Field)) := do
  let l ← l.target?
  match l.node with
  | .mapping _ pairs =>
    let own ← ownFields? l pairs
    if !allDifferent ((own.map (·.1)).filter known.contains) then none
    else return some (own ++ (← (mergedNodes l pairs).mapM (takenFields? fuel)).flatten)
  | _ => if l.isNull then some none else none

/-- The fields of a structure that may be missing; nothing when it is null. -/
def optionalFields? (fuel : Nat) (known : List Text) (l : Located) :
    Option (Option (List Field)) := do
  match (← l.target?).node with
  | .mapping tag _ => if tag = some nullTag then none else l.fields? fuel known
  | _ => l.fields? fuel known

end Located

def fieldOr {α : Type} (fields : List Field) (name : String) (default : α)
    (read : Located → Option α) : Option α :=
  match fields.lookup (utf8 name) with
  | some l => read l
  | none => some default

def textOf (fields : List Field) (name : String) : Option Text :=
  fieldOr fields name [] fun l => l.text?.map (·.getD [])

/-- How a structure is read: the names of its fields and what they make. -/
structure Shape (α : Type) where
  known : List Text
  read : List Field → Option α

def recordOr {α : Type} (fuel : Nat) (default : α) (shape : Shape α) (l : Located) : Option α := do
  match ← l.fields? fuel shape.known with
  | some fields => shape.read fields
  | none => return default

def optionalOf {α : Type} (fuel : Nat) (fields : List Field) (name : String) (shape : Shape α) :
    Option (Option α) :=
  fieldOr fields name none fun l => do
    match ← l.optionalFields? fuel shape.known with
    | some fields => return some (← shape.read fields)
    | none => return none

def elementShape : Shape ElementDraft where
  known := ["kind", "value"].map utf8
  read fields := do
    return { kind := ← textOf fields "kind", value := ← textOf fields "value" }

def exprShape (fuel : Nat) : Shape ExprDraft where
  known := ["lhs", "op", "rhs"].map utf8
  read fields := do
    return { lhs := ← fieldOr fields "lhs" .empty (recordOr fuel .empty elementShape)
             op := ← textOf fields "op"
             rhs := ← optionalOf fuel fields "rhs" elementShape }

/-- A list of records; null items are left out. -/
def records? {α : Type} (fuel : Nat) (shape : Shape α) (items : List Located) :
    Option (List α) := do
  let members ← items.mapM fun item => do
    match ← item.fields? fuel shape.known with
    | some fields => return some (← shape.read fields)
    | none => return none
  return members.filterMap id

def statementNames : List Text :=
  ["line", "kind", "target", "func", "arg", "expr", "body"].map utf8

def statement? : (fuel : Nat) → List Field → Option StatementDraft
  | 0, _ => none
  | fuel + 1, fields => do
    return { line := ← fieldOr fields "line" 0 Located.int?
             kind := ← textOf fields "kind"
             target := ← textOf fields "target"
             function := ← textOf fields "func"
             argument := ← optionalOf fuel fields "arg" elementShape
             expr := ← optionalOf fuel fields "expr" (exprShape fuel)
             body := ← fieldOr fields "body" [] fun l => do
               records? fuel { known := statementNames, read := statement? fuel }
                 ((← l.items?).getD []) }

def draftShape (fuel : Nat) : Shape Draft where
  known := [utf8 "statements"]
  read fields := do
    let statements ← fieldOr fields "statements" none fun l => do
      match ← l.items? with
      | some items =>
        return some (← records? fuel { known := statementNames, read := statement? fuel } items)
      | none => return none
    return { statements }

def read? (t : Text) : Option Draft := do
  let tokens := tokens (← characters? t)
  let fuel := (tokens.length + 2) * (tokens.length + 2)
  match ← firstDocument? tokens with
  | none => return .empty
  | some { root, named } =>
    recordOr fuel .empty (draftShape fuel) { scope := { named, followed := [] }, node := root }

end Yaml

end StepGraph
