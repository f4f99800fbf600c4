import StepGraph.Cbor.Reader
import StepGraph.Draft
import StepGraph.Integer
import StepGraph.Text.Utf8

/-!
# Drafts in binary form

A statement is a map from field names to values.  Names stand in canonical
order, the shorter before the longer; empty fields are left out.  On reading,
the case of names is ignored, the first of repeated names counts, unknown names
and numbers as names are passed over, and a null stands for an empty field.
-/

namespace StepGraph

namespace Cbor

/-! ## Writing -/

def field (name : String) (value : Item) : List (Item × Item) := [(.ofText (utf8 name), value)]

/-- A text field that is left out when it is empty. -/
def textField (name : String) (value : Text) : List (Item × Item) :=
  if value.isEmpty then [] else field name (.ofText value)

def optionalField {α : Type} (name : String) (toItem : α → Item) : Option α → List (Item × Item)
  | some value => field name (toItem value)
  | none => []

def ofElement (e : ElementDraft) : Item :=
  .map (field "kind" (.ofText e.kind) ++ textField "value" e.value)

def ofExpr (e : ExprDraft) : Item :=
  .map (textField "op" e.op ++ field "lhs" (ofElement e.lhs) ++ optionalField "rhs" ofElement e.rhs)

mutual

def ofStatement : StatementDraft → Item
  | { line, kind, target, function, argument, expr, body } =>
    .map (optionalField "arg" ofElement argument ++ bodyField body
      ++ optionalField "expr" ofExpr expr ++ textField "func" function
      ++ field "kind" (.ofText kind) ++ field "line" (.ofInt line) ++ textField "target" target)

def bodyField : List StatementDraft → List (Item × Item)
  | [] => []
  | s :: rest => field "body" (.array (ofStatement s :: ofStatements rest))

def ofStatements : List StatementDraft → List Item
  | [] => []
  | s :: rest => ofStatement s :: ofStatements rest

end

def ofDraft (d : Draft) : Item :=
  .map (field "statements" (match d.statements with
    | some statements => .array (ofStatements statements)
    | none => .null))

def write (d : Draft) : Text := encode (ofDraft d)

/-! ## Reading -/

def selfDescribedTag : Nat := 55799

namespace Item

/-- Whether a tag admits its content: times are texts or numbers, large numbers are bytes. -/
def tagAdmits (number : Nat) (content : Item) : Bool :=
  match number, content with
  | 0, .text _ => true
  | 0, _ => false
  | 1, .unsigned _ => true
  | 1, .negative _ => true
  | 1, .float _ _ => true
  | 1, _ => false
  | 2, .bytes _ => true
  | 2, _ => false
  | 3, .bytes _ => true
  | 3, _ => false
  | _, _ => true

/-- The item inside its tags, where the tag of a large number stays; `none` when a tag does not
admit its content. -/
def untagged? : Item → Option Item
  | .tag number content =>
    if number = selfDescribedTag then untagged? content
    else if !tagAdmits number content then none
    else if number = 2 || number = 3 then some (.tag number content)
    else untagged? content
  | item => some item

def isNull : Item → Bool
  | .simple n => n == 22 || n == 23
  | _ => false

def bytesValue (content : Text) : Nat := content.foldl (fun n b => 256 * n + b.toNat) 0

/-- The whole number an untagged item stands for; false and true are no numbers. -/
def number? : Item → Option Int
  | .unsigned n => some n
  | .negative n => some (-1 - n)
  | .tag 2 (.bytes content) => some (bytesValue content)
  | .tag 3 (.bytes content) => some (-1 - bytesValue content)
  | .simple n => if n = 20 || n = 21 then none else some n
  | _ => none

/-- A whole number in range, zero for null. -/
def toInt? (item : Item) : Option Int := do
  let item ← item.untagged?
  if item.isNull then return 0
  else
    let n ← item.number?
    if Integer.inRange n then return n else none

/-- A text string, empty for null; every piece must be UTF-8. -/
def toText? (item : Item) : Option Text := do
  let item ← item.untagged?
  match item with
  | .text pieces => if pieces.all Text.isUtf8 then return pieces.flatten else none
  | item => if item.isNull then return [] else none

/-- The name of a field: a text, or nothing when the key is a number; other keys are refused. -/
def fieldName? : Item → Option (Option Text)
  | .text pieces => if pieces.all Text.isUtf8 then some (some pieces.flatten) else none
  | .unsigned _ => some none
  | .negative _ => some none
  | _ => none

def namedFields? : List (Item × Item) → Option (List (Text × Item))
  | [] => some []
  | (key, value) :: rest => do
    let name ← fieldName? key
    let fields ← namedFields? rest
    match name with
    | some name => return (name, value) :: fields
    | none => return fields

def fields? (item : Item) : Option (List (Text × Item)) := do
  let item ← item.untagged?
  match item with
  | .map pairs => namedFields? pairs
  | item => if item.isNull then return [] else none

def members? (item : Item) : Option (Option (List Item)) := do
  let item ← item.untagged?
  match item with
  | .array items => return some items
  | item => if item.isNull then return none else none

end Item

def find? (fields : List (Text × Item)) (name : String) : Option Item :=
  (fields.find? fun (key, _) => key.lower == utf8 name).map (·.2)

def fieldOr {α : Type} (fields : List (Text × Item)) (name : String) (default : α)
    (read : Item → Option α) : Option α :=
  match find? fields name with
  | some item => read item
  | none => some default

def optionalOf {α : Type} (fields : List (Text × Item)) (name : String) (read : Item → Option α) :
    Option (Option α) :=
  match find? fields name with
  | some item => if item.isNull then some none else (read item).map some
  | none => some none

def toElement? (item : Item) : Option ElementDraft := do
  let fields ← item.fields?
  return { kind := ← fieldOr fields "kind" [] Item.toText?
           value := ← fieldOr fields "value" [] Item.toText? }

def toExpr? (item : Item) : Option ExprDraft := do
  let fields ← item.fields?
  return { lhs := ← fieldOr fields "lhs" .empty toElement?
           op := ← fieldOr fields "op" [] Item.toText?
           rhs := ← optionalOf fields "rhs" toElement? }

/-- A statement with at most `levels` statements inside each other. -/
def toStatement? : (levels : Nat) → Item → Option StatementDraft
  | 0, _ => none
  | levels + 1, item => do
    let fields ← item.fields?
    return { line := ← fieldOr fields "line" 0 Item.toInt?
             kind := ← fieldOr fields "kind" [] Item.toText?
             target := ← fieldOr fields "target" [] Item.toText?
             function := ← fieldOr fields "func" [] Item.toText?
             argument := ← optionalOf fields "arg" toElement?
             expr := ← optionalOf fields "expr" toExpr?
             body := ← fieldOr fields "body" [] fun item => do
               let items ← item.members?
               (items.getD []).mapM (toStatement? levels) }

def toDraft? (item : Item) : Option Draft := do
  let fields ← item.fields?
  let statements ← fieldOr fields "statements" none fun item => do
    match ← item.members? with
    | some items => return some (← items.mapM (toStatement? maxDepth))
    | none => return none
  return { statements }

def read? (t : Text) : Option Draft := (decode? t).bind toDraft?

end Cbor

end StepGraph
