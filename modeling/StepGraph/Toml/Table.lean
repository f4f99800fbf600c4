import StepGraph.Toml.Reader

/-!
# Tables

Lines are taken together into one table.  A key with several names opens the
tables on its way; a table that was only opened on the way may be given later.
Apart from that no key is given twice, where an array may be replaced.
-/

namespace StepGraph

namespace Toml

/-- What the lines so far say. -/
structure Contents where
  table : Table
  /-- The keys as they were given, in any order. -/
  keys : List Key
  /-- The tables that were only opened on the way to others. -/
  implied : List Key
  /-- The keys whose latest value is an array. -/
  arrays : List Key

namespace Contents

def empty : Contents := { table := [], keys := [], implied := [], arrays := [] }

def imply (c : Contents) (key : Key) : Contents := { c with implied := key :: c.implied }

def settle (c : Contents) (key : Key) : Contents :=
  { c with implied := c.implied.filter (· != key) }

def record (c : Contents) (key : Key) : Contents := { c with keys := key :: c.keys }

end Contents

def Table.put (t : Table) (name : Text) (value : Value) : Table :=
  if t.any (·.1 == name) then t.map fun (n, v) => if n == name then (n, value) else (n, v)
  else t ++ [(name, value)]

def Table.update? : Key → (Table → Option Table) → Table → Option Table
  | [], change, t => change t
  | name :: rest, change, t =>
    match t.lookup name with
    | some (.table inner) => do return t.put name (.table (← update? rest change inner))
    | some (.tables (latest :: before)) => do
      return t.put name (.tables ((← update? rest change latest) :: before))
    | _ => none

def Table.find? : Key → Text → Table → Option Value
  | [], name, t => t.lookup name
  | step :: rest, name, t =>
    match t.lookup step with
    | some (.table inner) => find? rest name inner
    | some (.tables (latest :: _)) => find? rest name latest
    | _ => none

def Value.isArray : Value → Bool
  | .array _ => true
  | _ => false

namespace Contents

def put? (c : Contents) (key : Key) (name : Text) (value : Value) : Option Contents := do
  return { c with table := ← c.table.update? key fun t => some (t.put name value) }

/-- Gives a value to a name in the table at a key.  An array may be replaced, and a table that was
only implied stays. -/
def give? (c : Contents) (key : Key) (name : Text) (value : Value) : Option Contents :=
  match c.table.find? key name with
  | none => c.put? key name value
  | some _ =>
    if c.arrays.contains (key ++ [name]) then (c.settle (key ++ [name])).put? key name value
    else if c.implied.contains (key ++ [name]) then some (c.settle (key ++ [name]))
    else none

/-- Opens the tables on the way from `outer`. -/
def openWay? (c : Contents) (outer : Key) : Key → Option Contents
  | [] => some c
  | name :: rest =>
    match c.table.find? outer name with
    | none => do
      openWay? (← (c.imply (outer ++ [name])).put? outer name (.table [])) (outer ++ [name]) rest
    | some (.table _) => openWay? c (outer ++ [name]) rest
    | some (.tables _) => openWay? c (outer ++ [name]) rest
    | some _ => none

def openTable? (c : Contents) (key : Key) : Option Contents :=
  match key.getLast? with
  | none => some c
  | some name => do (← c.openWay? [] key.dropLast).give? key.dropLast name (.table [])

/-- Opens one more table in the list at a key. -/
def openNext? (c : Contents) (key : Key) : Option Contents :=
  match key.getLast? with
  | none => some c
  | some name => do
    let c ← c.openWay? [] key.dropLast
    match c.table.find? key.dropLast name with
    | none => c.put? key.dropLast name (.tables [[]])
    | some (.tables tables) => c.put? key.dropLast name (.tables ([] :: tables))
    | some _ => none

/-- Opens the tables named by a key inside `outer`, each of which may be open already. -/
def openImplied? (c : Contents) (outer : Key) : Key → Option Contents
  | [] => some c
  | name :: rest => do
    openImplied? (← (c.imply (outer ++ [name])).openTable? (outer ++ [name])) (outer ++ [name]) rest

def noteArray (c : Contents) (key : Key) (isArray : Bool) : Contents :=
  { c with arrays := if isArray then key :: c.arrays else c.arrays.filter (· != key) }

/-- Opens the tables of a key inside `outer` and records the key. -/
def beginPair? (c : Contents) (outer key : Key) : Option Contents :=
  (c.openImplied? outer key.dropLast).map (·.record (outer ++ key))

def endPair? (c : Contents) (outer key : Key) (value : Value) : Option Contents :=
  match key.getLast? with
  | none => some c
  | some name =>
    (c.give? (outer ++ key.dropLast) name value).map (·.noteArray (outer ++ key) value.isArray)

def tableAt (c : Contents) (key : Key) : Value :=
  match key.getLast? with
  | none => .table c.table
  | some name => match c.table.find? key.dropLast name with
    | some (.table t) => .table t
    | some (.tables (latest :: _)) => .table latest
    | _ => .table []

mutual

/-- The value of a term that is given to a key.  Tables in it are opened at that key, one more for
each that stands in an array. -/
def evaluate? (c : Contents) (key : Key) (inArray : Bool) : Term → Option (Value × Contents)
  | .string t => some (.string t, c)
  | .integer n => some (.integer n, c)
  | .float => some (.float, c)
  | .boolean b => some (.boolean b, c)
  | .moment => some (.moment, c)
  | .array items => do
    let (values, c) ← evaluateItems? (c.noteArray key true) key items
    return (.array values, c)
  | .inline pairs => do
    let c ← if inArray then (c.imply key).openNext? key else (c.imply key).openTable? key
    let c ← evaluatePairs? c key pairs
    return (c.tableAt key, c)

def evaluateItems? (c : Contents) (key : Key) : List Term → Option (List Value × Contents)
  | [] => some ([], c)
  | item :: rest => do
    let (value, c) ← evaluate? c key true item
    let (values, c) ← evaluateItems? c key rest
    return (value :: values, c)

def evaluatePairs? (c : Contents) (outer : Key) : List (Key × Term) → Option Contents
  | [] => some c
  | (key, term) :: rest => do
    let c ← c.beginPair? outer key
    let (value, c) ← evaluate? c (outer ++ key) false term
    evaluatePairs? (← c.endPair? outer key value) outer rest

end

/-- Takes lines in, where `current` is the table that was opened last. -/
def extend? (c : Contents) (current : Key) : List Line → Option Contents
  | [] => some c
  | .table key :: rest => do
    extend? (((← c.openTable? key).noteArray key false).record key) key rest
  | .listTable key :: rest => do
    extend? (((← c.openNext? key).noteArray key false).record key) key rest
  | .pair key term :: rest => do extend? (← c.evaluatePairs? current [(key, term)]) current rest

end Contents

def contents? (t : Text) : Option Contents := do Contents.empty.extend? [] (← read? t)

end Toml

end StepGraph
