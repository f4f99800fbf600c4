import StepGraph.Proofs.Cbor.Records

/-!
# Drafts are read back

A draft whose texts are UTF-8 and whose lists are not too long is read back from
its binary form exactly if its arrays and maps do not nest too deep.  Without
these conditions it may be unreadable, but it is still written unlike every
other draft.
-/

namespace StepGraph

/-! ## Trees of statements -/

namespace StatementDraft

/-- What holds of a statement if it holds of those in its body holds of all. -/
@[elab_as_elim]
theorem induction {P : StatementDraft → Prop} (step : ∀ s, (∀ t ∈ s.body, P t) → P s)
    (s : StatementDraft) : P s := by
  refine @StatementDraft.rec P (fun statements => ∀ t ∈ statements, P t) ?_ ?_ ?_ s
  · intro line kind target function argument expr body inside
    exact step _ inside
  · intro t none
    cases none
  · intro first rest firstHolds restHold t member
    rcases List.mem_cons.mp member with rfl | further
    · exact firstHolds
    · exact restHold t further

mutual

def all : StatementDraft → List StatementDraft
  | { line, kind, target, function, argument, expr, body } =>
    { line, kind, target, function, argument, expr, body } :: allOf body

def allOf : List StatementDraft → List StatementDraft
  | [] => []
  | s :: rest => all s ++ allOf rest

end

theorem allOf_eq (statements : List StatementDraft) :
    allOf statements = statements.flatMap all := by
  induction statements with
  | nil => rfl
  | cons s rest ih => rw [allOf, ih, List.flatMap_cons]

theorem all_eq (s : StatementDraft) : s.all = s :: s.body.flatMap all := by
  obtain ⟨line, kind, target, function, argument, expr, body⟩ := s
  rw [all, allOf_eq]

end StatementDraft

def ElementDraft.texts (e : ElementDraft) : List Text := [e.kind, e.value]

def ExprDraft.texts (e : ExprDraft) : List Text :=
  e.lhs.texts ++ [e.op] ++ e.rhs.toList.flatMap ElementDraft.texts

def StatementDraft.texts (s : StatementDraft) : List Text :=
  [s.kind, s.target, s.function] ++ s.argument.toList.flatMap ElementDraft.texts ++
    s.expr.toList.flatMap ExprDraft.texts

namespace Draft

def all (d : Draft) : List StatementDraft := StatementDraft.allOf d.toList

def texts (d : Draft) : List Text := d.all.flatMap StatementDraft.texts

/-- The lists of statements: the draft itself and the bodies. -/
def lists (d : Draft) : List (List StatementDraft) := d.toList :: d.all.map StatementDraft.body

/-- The lines and the lengths of texts and lists are numbers of sixty-four bits. -/
structure InRange (d : Draft) : Prop where
  lines : ∀ s ∈ d.all, Integer.inRange s.line = true
  texts : ∀ t ∈ d.texts, Integer.inRange t.length = true
  lists : ∀ statements ∈ d.lists, Integer.inRange statements.length = true

/-- All texts are UTF-8. -/
def IsUtf8 (d : Draft) : Prop := ∀ t ∈ d.texts, t.isUtf8 = true

/-- No list of statements has more than `limit` of them. -/
def ListsWithin (limit : Nat) (d : Draft) : Prop :=
  ∀ statements ∈ d.lists, statements.length ≤ limit

end Draft

namespace Cbor

/-! ## Drafts as records -/

/-- A text as the value of a field; there is none when it is empty. -/
def textValue (t : Text) : Option Item := if t.isEmpty then none else some (.ofText t)

def bodyValue (body : List StatementDraft) : Option Item :=
  if body.isEmpty then none else some (.array (body.map ofStatement))

def elementRow (e : ElementDraft) : Row :=
  [("kind", some (.ofText e.kind)), ("value", textValue e.value)]

def exprRow (e : ExprDraft) : Row :=
  [("op", textValue e.op), ("lhs", some (ofElement e.lhs)), ("rhs", e.rhs.map ofElement)]

def statementRow (s : StatementDraft) : Row :=
  [("arg", s.argument.map ofElement), ("body", bodyValue s.body), ("expr", s.expr.map ofExpr),
    ("func", textValue s.function), ("kind", some (.ofText s.kind)), ("line", some (.ofInt s.line)),
    ("target", textValue s.target)]

/-- The statements of a draft as the value of a field; null when there is no list. -/
def statementsValue : Option (List StatementDraft) → Item
  | some statements => .array (statements.map ofStatement)
  | none => .null

def draftRow (d : Draft) : Row := [("statements", some (statementsValue d.statements))]

theorem isNamed_elementRow (e : ElementDraft) : (elementRow e).IsNamed :=
  .of_names ["kind", "value"] rfl (by decide +kernel) (by decide) (by decide) (by decide)

theorem isNamed_exprRow (e : ExprDraft) : (exprRow e).IsNamed :=
  .of_names ["op", "lhs", "rhs"] rfl (by decide +kernel) (by decide) (by decide) (by decide)

theorem isNamed_statementRow (s : StatementDraft) : (statementRow s).IsNamed :=
  .of_names ["arg", "body", "expr", "func", "kind", "line", "target"] rfl (by decide +kernel)
    (by decide) (by decide) (by decide)

theorem isNamed_draftRow (d : Draft) : (draftRow d).IsNamed :=
  .of_names ["statements"] rfl (by decide +kernel) (by decide) (by decide) (by decide)

theorem textField_eq (name : String) (t : Text) :
    textField name t = optionalField name id (textValue t) := by
  unfold textField textValue
  split <;> rfl

theorem optionalField_map {α : Type} (name : String) (toItem : α → Item) (value : Option α) :
    optionalField name id (value.map toItem) = optionalField name toItem value := by
  cases value <;> rfl

theorem ofStatements_eq (statements : List StatementDraft) :
    ofStatements statements = statements.map ofStatement := by
  induction statements with
  | nil => rfl
  | cons s rest ih => rw [ofStatements, ih, List.map_cons]

theorem bodyField_eq (body : List StatementDraft) :
    bodyField body = optionalField "body" id (bodyValue body) := by
  cases body with
  | nil => rfl
  | cons s rest =>
    rw [bodyField, ofStatements_eq]
    rfl

theorem ofElement_eq (e : ElementDraft) : ofElement e = .map (elementRow e).pairs := by
  simp only [ofElement, textField_eq, elementRow, Row.pairs, List.append_nil]
  rfl

theorem ofExpr_eq (e : ExprDraft) : ofExpr e = .map (exprRow e).pairs := by
  simp only [ofExpr, textField_eq, exprRow, Row.pairs, optionalField_map, List.append_nil,
    List.append_assoc]
  rfl

theorem ofStatement_eq (s : StatementDraft) : ofStatement s = .map (statementRow s).pairs := by
  obtain ⟨line, kind, target, function, argument, expr, body⟩ := s
  simp only [ofStatement, textField_eq, bodyField_eq, statementRow, Row.pairs, optionalField_map,
    List.append_nil, List.append_assoc]
  rfl

theorem ofDraft_eq (d : Draft) : ofDraft d = .map (draftRow d).pairs := by
  obtain ⟨_ | statements⟩ := d
  · rfl
  · simp only [ofDraft, ofStatements_eq]
    rfl

/-! ## Drafts in range are plain -/

theorem inRange_iff (n : Int) :
    Integer.inRange n = true ↔ -9223372036854775808 ≤ n ∧ n ≤ 9223372036854775807 := by
  unfold Integer.inRange Integer.least Integer.greatest
  rw [Bool.and_eq_true, decide_eq_true_iff, decide_eq_true_iff]

/-- The lines and the lengths of texts are numbers of sixty-four bits, and the body has at most
`limit` statements. -/
structure Sized (limit : Nat) (s : StatementDraft) : Prop where
  line : Integer.inRange s.line = true
  texts : ∀ t ∈ s.texts, Integer.inRange t.length = true
  body : s.body.length ≤ limit

theorem plain_text {limit : Nat} {t : Text} (inRange : Integer.inRange t.length = true) :
    (Item.ofText t).Plain limit := by
  have bounds := (inRange_iff _).mp inRange
  exact .text (by omega)

theorem plain_ofInt {limit : Nat} {n : Int} (inRange : Integer.inRange n = true) :
    (Item.ofInt n).Plain limit := by
  have bounds := (inRange_iff n).mp inRange
  cases n with
  | ofNat n =>
    rw [Int.ofNat_eq_natCast] at bounds
    exact .unsigned (by omega)
  | negSucc n => exact .negative (by omega)

theorem plain_textValue {limit : Nat} {t : Text} {item : Item}
    (inRange : Integer.inRange t.length = true) (written : textValue t = some item) :
    item.Plain limit := by
  unfold textValue at written
  split at written
  · cases written
  · cases written
    exact plain_text inRange

section Plain

variable {limit : Nat} (large : 7 ≤ limit)
include large

theorem plain_ofElement {e : ElementDraft}
    (inRange : ∀ t ∈ e.texts, Integer.inRange t.length = true) : (ofElement e).Plain limit := by
  rw [ofElement_eq]
  refine Row.plain_map (isNamed_elementRow e) (Nat.le_trans (by decide : 2 ≤ 7) large) ?_
  intro name value member
  simp only [elementRow, List.mem_cons, Prod.mk.injEq, List.not_mem_nil, or_false] at member
  rcases member with ⟨-, same⟩ | ⟨-, same⟩
  · cases same
    exact plain_text (inRange _ (by simp [ElementDraft.texts]))
  · exact plain_textValue (inRange e.value (by simp [ElementDraft.texts])) same.symm

theorem plain_ofExpr {e : ExprDraft} (inRange : ∀ t ∈ e.texts, Integer.inRange t.length = true) :
    (ofExpr e).Plain limit := by
  rw [ofExpr_eq]
  refine Row.plain_map (isNamed_exprRow e) (Nat.le_trans (by decide : 3 ≤ 7) large) ?_
  intro name value member
  simp only [exprRow, List.mem_cons, Prod.mk.injEq, List.not_mem_nil, or_false] at member
  rcases member with ⟨-, same⟩ | ⟨-, same⟩ | ⟨-, same⟩
  · exact plain_textValue (inRange e.op (by simp [ExprDraft.texts])) same.symm
  · cases same
    exact plain_ofElement large fun t inside => inRange t (by simp [ExprDraft.texts, inside])
  · obtain ⟨rhs, found, rfl⟩ := Option.map_eq_some_iff.mp same.symm
    exact plain_ofElement large fun t inside => inRange t (by simp [ExprDraft.texts, found, inside])

theorem plain_ofStatement {s : StatementDraft} (sized : ∀ t ∈ s.all, Sized limit t) :
    (ofStatement s).Plain limit := by
  induction s using StatementDraft.induction with
  | step s ih =>
    rw [StatementDraft.all_eq] at sized
    have own := sized s List.mem_cons_self
    rw [ofStatement_eq]
    refine Row.plain_map (isNamed_statementRow s) large ?_
    intro name value member
    simp only [statementRow, List.mem_cons, Prod.mk.injEq, List.not_mem_nil, or_false] at member
    rcases member with ⟨-, same⟩ | ⟨-, same⟩ | ⟨-, same⟩ | ⟨-, same⟩ | ⟨-, same⟩ | ⟨-, same⟩ |
      ⟨-, same⟩
    · obtain ⟨argument, found, rfl⟩ := Option.map_eq_some_iff.mp same.symm
      exact plain_ofElement large fun t inside =>
        own.texts t (by simp [StatementDraft.texts, found, inside])
    · unfold bodyValue at same
      split at same
      · cases same
      · cases same
        refine .array (by simpa using own.body) ?_
        intro item inBody
        obtain ⟨inner, innerMember, rfl⟩ := List.mem_map.mp inBody
        exact ih inner innerMember fun t inside =>
          sized t (List.mem_cons_of_mem _ (List.mem_flatMap.mpr ⟨inner, innerMember, inside⟩))
    · obtain ⟨expr, found, rfl⟩ := Option.map_eq_some_iff.mp same.symm
      exact plain_ofExpr large fun t inside =>
        own.texts t (by simp [StatementDraft.texts, found, inside])
    · exact plain_textValue (own.texts s.function (by simp [StatementDraft.texts])) same.symm
    · cases same
      exact plain_text (own.texts _ (by simp [StatementDraft.texts]))
    · cases same
      exact plain_ofInt own.line
    · exact plain_textValue (own.texts s.target (by simp [StatementDraft.texts])) same.symm

theorem plain_ofDraft {d : Draft} (inRange : d.InRange) (short : d.ListsWithin limit) :
    (ofDraft d).Plain limit := by
  have sized : ∀ s ∈ d.all, Sized limit s := by
    intro s member
    exact
      { line := inRange.lines s member
        texts := fun t inside => inRange.texts t (List.mem_flatMap.mpr ⟨s, member, inside⟩)
        body := short _ (List.mem_cons_of_mem _ (List.mem_map_of_mem member)) }
  rw [ofDraft_eq]
  refine Row.plain_map (isNamed_draftRow d) (Nat.le_trans (by decide : 1 ≤ 7) large) ?_
  intro name value member
  simp only [draftRow, List.mem_singleton, Prod.mk.injEq, Option.some.injEq] at member
  obtain ⟨-, rfl⟩ := member
  obtain ⟨_ | statements⟩ := d
  · exact .null
  · refine .array (by simpa using short statements List.mem_cons_self) ?_
    intro item inList
    obtain ⟨s, member, rfl⟩ := List.mem_map.mp inList
    refine plain_ofStatement large fun t inside => sized t ?_
    rw [Draft.all, StatementDraft.allOf_eq]
    exact List.mem_flatMap.mpr ⟨s, member, inside⟩

end Plain

/-! ## Values that are read back -/

theorem toText?_ofText {t : Text} (isUtf8 : t.isUtf8 = true) :
    (Item.ofText t).toText? = some t := by
  simp [Item.toText?, Item.ofText, Item.untagged?, isUtf8]

theorem toInt?_ofInt {n : Int} (inRange : Integer.inRange n = true) :
    (Item.ofInt n).toInt? = some n := by
  have number : (Item.ofInt n).number? = some n := by
    cases n with
    | ofNat n => rfl
    | negSucc n =>
      simp only [Item.ofInt, Item.number?, Option.some.injEq]
      omega
  have untagged : (Item.ofInt n).untagged? = some (.ofInt n) := by cases n <;> rfl
  have notNull : (Item.ofInt n).isNull = false := by cases n <;> rfl
  simp [Item.toInt?, untagged, notNull, number, inRange]

theorem fieldOr_textValue {fields : List (Text × Item)} {name : String} {t : Text}
    (found : find? fields name = textValue t) (isUtf8 : t.isUtf8 = true) :
    fieldOr fields name [] Item.toText? = some t := by
  unfold fieldOr textValue at *
  rw [found]
  cases t with
  | nil => rfl
  | cons b rest => exact toText?_ofText isUtf8

theorem fieldOr_some {α : Type} {fields : List (Text × Item)} {name : String} {default value : α}
    {item : Item} {read : Item → Option α} (found : find? fields name = some item)
    (readsAs : read item = some value) : fieldOr fields name default read = some value := by
  unfold fieldOr
  rw [found]
  exact readsAs

theorem optionalOf_map {α : Type} {fields : List (Text × Item)} {name : String} {value : Option α}
    {toItem : α → Item} {read : Item → Option α} (found : find? fields name = value.map toItem)
    (notNull : ∀ v, (toItem v).isNull = false)
    (readsAs : ∀ v, value = some v → read (toItem v) = some v) :
    optionalOf fields name read = some value := by
  unfold optionalOf
  rw [found]
  cases value with
  | none => rfl
  | some v => simp [notNull v, readsAs v rfl]

theorem mapM_map_of_reads {α β : Type} {write : α → β} {read : β → Option α} {values : List α}
    (readsAs : ∀ v ∈ values, read (write v) = some v) :
    (values.map write).mapM read = some values := by
  induction values with
  | nil => rfl
  | cons v rest ih =>
    rw [List.map_cons, List.mapM_cons, readsAs v List.mem_cons_self,
      ih fun other member => readsAs other (List.mem_cons_of_mem _ member)]
    rfl

/-! ## Drafts that are read back -/

theorem toElement?_ofElement {e : ElementDraft} (isUtf8 : ∀ t ∈ e.texts, t.isUtf8 = true) :
    toElement? (ofElement e) = some e := by
  have named := isNamed_elementRow e
  have kind : fieldOr (elementRow e).fields "kind" [] Item.toText? = some e.kind :=
    fieldOr_some (Row.find?_fields named (by simp [elementRow]))
      (toText?_ofText (isUtf8 _ (by simp [ElementDraft.texts])))
  have value : fieldOr (elementRow e).fields "value" [] Item.toText? = some e.value :=
    fieldOr_textValue (Row.find?_fields named (by simp [elementRow]))
      (isUtf8 _ (by simp [ElementDraft.texts]))
  rw [ofElement_eq, toElement?, Row.fields?_map named]
  simp only [Option.bind_eq_bind, Option.bind_some, kind, value]
  rfl

theorem isNull_ofElement (e : ElementDraft) : (ofElement e).isNull = false := rfl

theorem isNull_ofExpr (e : ExprDraft) : (ofExpr e).isNull = false := rfl

theorem toExpr?_ofExpr {e : ExprDraft} (isUtf8 : ∀ t ∈ e.texts, t.isUtf8 = true) :
    toExpr? (ofExpr e) = some e := by
  have named := isNamed_exprRow e
  have lhs : fieldOr (exprRow e).fields "lhs" .empty toElement? = some e.lhs :=
    fieldOr_some (Row.find?_fields named (by simp [exprRow]))
      (toElement?_ofElement fun t inside => isUtf8 t (by simp [ExprDraft.texts, inside]))
  have op : fieldOr (exprRow e).fields "op" [] Item.toText? = some e.op :=
    fieldOr_textValue (Row.find?_fields named (by simp [exprRow]))
      (isUtf8 _ (by simp [ExprDraft.texts]))
  have rhs : optionalOf (exprRow e).fields "rhs" toElement? = some e.rhs :=
    optionalOf_map (Row.find?_fields named (by simp [exprRow])) isNull_ofElement
      fun v found => toElement?_ofElement fun t inside =>
        isUtf8 t (by simp [ExprDraft.texts, found, inside])
  rw [ofExpr_eq, toExpr?, Row.fields?_map named]
  simp only [Option.bind_eq_bind, Option.bind_some, lhs, op, rhs]
  rfl

theorem fieldOr_bodyValue {fields : List (Text × Item)} {body : List StatementDraft}
    {read : Item → Option StatementDraft} (found : find? fields "body" = bodyValue body)
    (readsAs : ∀ s ∈ body, read (ofStatement s) = some s) :
    (fieldOr fields "body" [] fun item => do
      let items ← item.members?
      (items.getD []).mapM read) = some body := by
  unfold fieldOr bodyValue at *
  rw [found]
  cases body with
  | nil => rfl
  | cons s rest => exact mapM_map_of_reads readsAs

theorem toStatement?_of_body {s : StatementDraft} {levels : Nat}
    (inRange : Integer.inRange s.line = true) (isUtf8 : ∀ t ∈ s.texts, t.isUtf8 = true)
    (inside : ∀ inner ∈ s.body, toStatement? levels (ofStatement inner) = some inner) :
    toStatement? (levels + 1) (ofStatement s) = some s := by
  have named := isNamed_statementRow s
  have line : fieldOr (statementRow s).fields "line" 0 Item.toInt? = some s.line :=
    fieldOr_some (Row.find?_fields named (by simp [statementRow])) (toInt?_ofInt inRange)
  have kind : fieldOr (statementRow s).fields "kind" [] Item.toText? = some s.kind :=
    fieldOr_some (Row.find?_fields named (by simp [statementRow]))
      (toText?_ofText (isUtf8 _ (by simp [StatementDraft.texts])))
  have target : fieldOr (statementRow s).fields "target" [] Item.toText? = some s.target :=
    fieldOr_textValue (Row.find?_fields named (by simp [statementRow]))
      (isUtf8 _ (by simp [StatementDraft.texts]))
  have function : fieldOr (statementRow s).fields "func" [] Item.toText? = some s.function :=
    fieldOr_textValue (Row.find?_fields named (by simp [statementRow]))
      (isUtf8 _ (by simp [StatementDraft.texts]))
  have argument : optionalOf (statementRow s).fields "arg" toElement? = some s.argument :=
    optionalOf_map (Row.find?_fields named (by simp [statementRow])) isNull_ofElement
      fun v found => toElement?_ofElement fun t member =>
        isUtf8 t (by simp [StatementDraft.texts, found, member])
  have expr : optionalOf (statementRow s).fields "expr" toExpr? = some s.expr :=
    optionalOf_map (Row.find?_fields named (by simp [statementRow])) isNull_ofExpr
      fun v found => toExpr?_ofExpr fun t member =>
        isUtf8 t (by simp [StatementDraft.texts, found, member])
  have body := fieldOr_bodyValue
    (Row.find?_fields named (show ("body", bodyValue s.body) ∈ _ by simp [statementRow])) inside
  rw [ofStatement_eq, toStatement?, Row.fields?_map named]
  simp only [Option.bind_eq_bind, Option.bind_some] at body ⊢
  simp only [Option.bind_some, line, kind, target, function, argument, expr, body]
  cases s
  rfl

theorem nesting_ofStatement_pos (s : StatementDraft) : 0 < (ofStatement s).nesting := by
  rw [ofStatement_eq, Item.nesting]
  omega

/-- A body takes two levels, one for its list and one for each statement. -/
theorem nesting_of_mem_body {s inner : StatementDraft} (member : inner ∈ s.body) :
    (ofStatement inner).nesting + 2 ≤ (ofStatement s).nesting := by
  have filled : s.body.isEmpty = false := by
    cases body : s.body with
    | nil => rw [body] at member; cases member
    | cons => rfl
  have inRow : ("body", some (.array (s.body.map ofStatement))) ∈ statementRow s := by
    simp [statementRow, bodyValue, filled]
  have array := Row.nesting_lt_map inRow
  have statement := nesting_lt_array (List.mem_map_of_mem member : ofStatement inner ∈ _)
  rw [ofStatement_eq s]
  omega

/-- A statement is read back when there are enough levels for what is inside it. -/
theorem toStatement?_ofStatement {s : StatementDraft} {levels : Nat}
    (inRange : ∀ t ∈ s.all, Integer.inRange t.line = true)
    (isUtf8 : ∀ t ∈ s.all, ∀ text ∈ t.texts, text.isUtf8 = true)
    (shallow : (ofStatement s).nesting ≤ levels) :
    toStatement? levels (ofStatement s) = some s := by
  induction s using StatementDraft.induction generalizing levels with
  | step s ih =>
    rw [StatementDraft.all_eq] at inRange isUtf8
    -- A statement inside is two levels less deep, and one level less is left for it.
    have positive := nesting_ofStatement_pos s
    obtain ⟨levels, rfl⟩ : ∃ less, levels = less + 1 := ⟨levels - 1, by omega⟩
    refine toStatement?_of_body (inRange s List.mem_cons_self) (isUtf8 s List.mem_cons_self) ?_
    intro inner member
    have within : ∀ t ∈ inner.all, t ∈ s :: s.body.flatMap StatementDraft.all := fun t inside =>
      List.mem_cons_of_mem _ (List.mem_flatMap.mpr ⟨inner, member, inside⟩)
    have deeper := nesting_of_mem_body member
    exact ih inner member (fun t inside => inRange t (within t inside))
      (fun t inside => isUtf8 t (within t inside)) (by omega)

/-- A draft is read back from its items when they do not nest too deep. -/
theorem toDraft?_ofDraft {d : Draft} (inRange : ∀ s ∈ d.all, Integer.inRange s.line = true)
    (isUtf8 : d.IsUtf8) (shallow : (ofDraft d).nesting ≤ maxDepth) :
    toDraft? (ofDraft d) = some d := by
  have named := isNamed_draftRow d
  have inRow : ("statements", some (statementsValue d.statements)) ∈ draftRow d := by
    simp [draftRow]
  have outer := Row.nesting_lt_map inRow
  rw [← ofDraft_eq] at outer
  have found := Row.find?_fields named inRow
  rw [ofDraft_eq, toDraft?, Row.fields?_map named]
  simp only [Option.bind_eq_bind, Option.bind_some, fieldOr, found]
  obtain ⟨_ | statements⟩ := d
  · rfl
  · have read : (statements.map ofStatement).mapM (toStatement? maxDepth) = some statements := by
      apply mapM_map_of_reads
      intro s member
      have within : ∀ t ∈ s.all, t ∈ Draft.all ⟨some statements⟩ := by
        intro t inside
        rw [Draft.all, StatementDraft.allOf_eq]
        exact List.mem_flatMap.mpr ⟨s, member, inside⟩
      refine toStatement?_ofStatement (fun t inside => inRange t (within t inside))
        (fun t inside text textIn =>
          isUtf8 text (List.mem_flatMap.mpr ⟨t, within t inside, textIn⟩)) ?_
      have inner := nesting_lt_array (List.mem_map_of_mem member : ofStatement s ∈ _)
      rw [statementsValue] at outer
      omega
    simp only [statementsValue, Item.members?, Item.untagged?, Option.bind_eq_bind,
      Option.bind_some, Option.pure_def, read]

/-- What is written is read back exactly if it does not nest too deep. -/
theorem read?_write {d : Draft} (inRange : d.InRange) (isUtf8 : d.IsUtf8)
    (short : d.ListsWithin maxMembers) :
    read? (write d) = if (ofDraft d).nesting ≤ maxDepth then some d else none := by
  have plain := plain_ofDraft (by decide) inRange short
  unfold read? write
  rw [plain.decode?_encode]
  by_cases shallow : (ofDraft d).nesting ≤ maxDepth
  · rw [if_pos shallow, if_pos shallow]
    exact toDraft?_ofDraft inRange.lines isUtf8 shallow
  · rw [if_neg shallow, if_neg shallow]
    rfl

/-! ## Drafts that differ are written differently -/

theorem textValue_inj {t u : Text} (same : textValue t = textValue u) : t = u := by
  cases t with
  | nil =>
    cases u with
    | nil => rfl
    | cons => cases same
  | cons =>
    cases u with
    | nil => cases same
    | cons => cases same; rfl

theorem ofInt_inj {m n : Int} (same : Item.ofInt m = Item.ofInt n) : m = n := by
  cases m <;> cases n <;> cases same <;> rfl

/-- Lists are equal when what a function makes of their members tells these apart. -/
theorem eq_of_map_eq {α β : Type} {write : α → β} {values others : List α}
    (apart : ∀ v ∈ values, ∀ other, write v = write other → v = other)
    (same : values.map write = others.map write) : values = others := by
  induction values generalizing others with
  | nil => exact (List.map_eq_nil_iff.mp same.symm).symm
  | cons v rest ih =>
    cases others with
    | nil => cases same
    | cons other others =>
      obtain ⟨first, further⟩ := List.cons.inj same
      rw [apart v List.mem_cons_self other first,
        ih (fun v member => apart v (List.mem_cons_of_mem _ member)) further]

theorem ofElement_inj {e f : ElementDraft} (same : ofElement e = ofElement f) : e = f := by
  rw [ofElement_eq, ofElement_eq] at same
  have fieldSame := Row.value_eq (isNamed_elementRow e) (isNamed_elementRow f) same
  have kind : some (Item.ofText e.kind) = some (.ofText f.kind) :=
    fieldSame "kind" (by simp [elementRow]) (by simp [elementRow])
  have value : textValue e.value = textValue f.value :=
    fieldSame "value" (by simp [elementRow]) (by simp [elementRow])
  obtain ⟨eKind, eValue⟩ := e
  cases kind
  cases textValue_inj value
  rfl

theorem ofExpr_inj {e f : ExprDraft} (same : ofExpr e = ofExpr f) : e = f := by
  rw [ofExpr_eq, ofExpr_eq] at same
  have fieldSame := Row.value_eq (isNamed_exprRow e) (isNamed_exprRow f) same
  have op : textValue e.op = textValue f.op :=
    fieldSame "op" (by simp [exprRow]) (by simp [exprRow])
  have lhs : some (ofElement e.lhs) = some (ofElement f.lhs) :=
    fieldSame "lhs" (by simp [exprRow]) (by simp [exprRow])
  have rhs : e.rhs.map ofElement = f.rhs.map ofElement :=
    fieldSame "rhs" (by simp [exprRow]) (by simp [exprRow])
  obtain ⟨eLhs, eOp, eRhs⟩ := e
  cases ofElement_inj (Option.some.inj lhs)
  cases textValue_inj op
  cases (Option.map_inj_right fun _ _ => ofElement_inj).mp rhs
  rfl

theorem bodyValue_inj {body other : List StatementDraft}
    (apart : ∀ s ∈ body, ∀ t, ofStatement s = ofStatement t → s = t)
    (same : bodyValue body = bodyValue other) : body = other := by
  apply eq_of_map_eq apart
  cases body with
  | nil =>
    cases other with
    | nil => rfl
    | cons => cases same
  | cons =>
    cases other with
    | nil => cases same
    | cons => exact Item.array.inj (Option.some.inj same)

theorem ofStatement_inj {s t : StatementDraft} (same : ofStatement s = ofStatement t) : s = t := by
  induction s using StatementDraft.induction generalizing t with
  | step s ih =>
    rw [ofStatement_eq, ofStatement_eq] at same
    have fieldSame := Row.value_eq (isNamed_statementRow s) (isNamed_statementRow t) same
    have argument : s.argument.map ofElement = t.argument.map ofElement :=
      fieldSame "arg" (by simp [statementRow]) (by simp [statementRow])
    have body : bodyValue s.body = bodyValue t.body :=
      fieldSame "body" (by simp [statementRow]) (by simp [statementRow])
    have expr : s.expr.map ofExpr = t.expr.map ofExpr :=
      fieldSame "expr" (by simp [statementRow]) (by simp [statementRow])
    have function : textValue s.function = textValue t.function :=
      fieldSame "func" (by simp [statementRow]) (by simp [statementRow])
    have kind : some (Item.ofText s.kind) = some (.ofText t.kind) :=
      fieldSame "kind" (by simp [statementRow]) (by simp [statementRow])
    have line : some (Item.ofInt s.line) = some (.ofInt t.line) :=
      fieldSame "line" (by simp [statementRow]) (by simp [statementRow])
    have target : textValue s.target = textValue t.target :=
      fieldSame "target" (by simp [statementRow]) (by simp [statementRow])
    have bodySame := bodyValue_inj (fun inner member other => ih inner member) body
    obtain ⟨sLine, sKind, sTarget, sFunction, sArgument, sExpr, sBody⟩ := s
    cases (Option.map_inj_right fun _ _ => ofElement_inj).mp argument
    cases (Option.map_inj_right fun _ _ => ofExpr_inj).mp expr
    cases textValue_inj function
    cases textValue_inj target
    cases kind
    cases ofInt_inj (Option.some.inj line)
    cases bodySame
    cases t
    rfl

theorem ofDraft_inj {d other : Draft} (same : ofDraft d = ofDraft other) : d = other := by
  rw [ofDraft_eq, ofDraft_eq] at same
  have statements : some (statementsValue d.statements) = some (statementsValue other.statements) :=
    Row.value_eq (isNamed_draftRow d) (isNamed_draftRow other) same "statements"
      (by simp [draftRow]) (by simp [draftRow])
  obtain ⟨_ | statements⟩ := d <;> obtain ⟨_ | others⟩ := other
  · rfl
  · cases statements
  · cases statements
  · cases eq_of_map_eq (fun _ _ _ => ofStatement_inj) (Item.array.inj (Option.some.inj statements))
    rfl

/-- No reader is involved, and none of its limits. -/
theorem write_inj {d other : Draft} (inRange : d.InRange) (otherInRange : other.InRange)
    (same : write d = write other) : d = other := by
  have within : ∀ {e : Draft}, e.InRange → e.ListsWithin 9223372036854775807 := by
    intro e inRange statements member
    have bounds := (inRange_iff _).mp (inRange.lists statements member)
    omega
  -- Encodings are told apart up to the largest length of a list, not up to the limit of the reader.
  have plain := plain_ofDraft (by decide) inRange (within inRange)
  have otherPlain := plain_ofDraft (by decide) otherInRange (within otherInRange)
  exact ofDraft_inj (Item.Plain.eq_of_encode (by decide) plain otherPlain same)

end Cbor

/-- A draft of UTF-8 texts within the limits of the reader is read back from its binary form as it
was, and no two drafts have the same binary form, whether it can be read or not. -/
theorem Draft.binary_form_reads_back :
    (∀ d : Draft, d.InRange → d.IsUtf8 → d.ListsWithin 131072 → (Cbor.ofDraft d).nesting ≤ 32 →
      Cbor.read? (Cbor.write d) = some d) ∧
    ∀ d other : Draft, d.InRange → other.InRange → Cbor.write d = Cbor.write other → d = other := by
  constructor
  · intro d inRange isUtf8 short shallow
    rw [Cbor.read?_write inRange isUtf8 short]
    exact if_pos shallow
  · intro d other inRange otherInRange same
    exact Cbor.write_inj inRange otherInRange same

/-- A loop with the least line and with a term that is there but empty, around a statement that has
no term and the greatest line. -/
def Draft.sparse (argument : Option ElementDraft) : Draft :=
  { statements := some
      [{ StatementDraft.empty with
          line := Integer.least, kind := utf8 "while", argument, expr := some .empty
          body := [{ StatementDraft.empty with line := Integer.greatest, kind := utf8 "pass" }] }] }

theorem Draft.sparse_reads_back :
    Cbor.read? (Cbor.write (.sparse (some .empty))) = some (.sparse (some .empty)) ∧
      Cbor.write (.sparse (some .empty)) ≠ Cbor.write (.sparse none) := by
  have inRange : ∀ argument ∈ [none, some ElementDraft.empty], (Draft.sparse argument).InRange := by
    intro argument member
    exact
      { lines := by revert argument; decide
        texts := by revert argument; decide
        lists := by revert argument; decide }
  have isUtf8 : (Draft.sparse (some .empty)).IsUtf8 := fun t member =>
    Text.isUtf8_of_ascii (by revert t; decide +kernel)
  constructor
  · exact binary_form_reads_back.1 _ (inRange _ (by simp)) isUtf8 (by unfold ListsWithin; decide)
      (by decide)
  · intro same
    cases binary_form_reads_back.2 _ _ (inRange _ (by simp)) (inRange _ (by simp)) same

end StepGraph
