import StepGraph.Cbor.Program
import StepGraph.Proofs.Cbor.Items

/-!
# Records in binary form

A record is written as a row of named fields, of which those without a value are
left out.  The names of a record are small letters and all different, so each
value is found again under its name, wherever it stands in the row, and two
records with the same names and the same item have the same values.
-/

namespace StepGraph

namespace Text

/-! ## Texts of ASCII characters -/

theorem pieces_cons_of_ascii {b : UInt8} (ascii : b < 0x80) (rest : Text) :
    pieces (b :: rest) = .char (Char.ofNat b.toNat) :: pieces rest := by
  have first : char? (b :: rest) = some (Char.ofNat b.toNat, rest) := by
    unfold char?
    exact if_pos ascii
  rw [pieces]
  split
  · rename_i c after found
    rw [first] at found
    cases found
    rfl
  · rename_i missing
    rw [first] at missing
    cases missing

theorem chars?_of_ascii {t : Text} (ascii : ∀ b ∈ t, b < 0x80) :
    t.chars? = some (t.map fun b => Char.ofNat b.toNat) := by
  unfold chars?
  induction t with
  | nil => rw [pieces]; rfl
  | cons b rest ih =>
    rw [pieces_cons_of_ascii (ascii b List.mem_cons_self), List.mapM_cons,
      ih fun c member => ascii c (List.mem_cons_of_mem _ member)]
    rfl

theorem isUtf8_of_ascii {t : Text} (ascii : ∀ b ∈ t, b < 0x80) : t.isUtf8 = true := by
  rw [isUtf8, chars?_of_ascii ascii]
  rfl

end Text

namespace Cbor

/-! ## Rows of fields -/

/-- The names of a record and their values, in the order in which they are written. -/
abbrev Row := List (String × Option Item)

namespace Row

def pairs : Row → List (Item × Item)
  | [] => []
  | (name, value) :: row => optionalField name id value ++ pairs row

def fields : Row → List (Text × Item)
  | [] => []
  | (name, some value) :: row => (utf8 name, value) :: fields row
  | (_, none) :: row => fields row

/-- Names of few small ASCII letters, no two of them alike. -/
structure IsNamed (row : Row) : Prop where
  ascii : ∀ entry ∈ row, ∀ b ∈ utf8 entry.1, b < 0x80
  small : ∀ entry ∈ row, (utf8 entry.1).lower = utf8 entry.1
  short : ∀ entry ∈ row, (utf8 entry.1).length < 24
  distinct : (row.map fun entry => utf8 entry.1).Nodup

theorem IsNamed.of_names {row : Row} (names : List String) (same : row.map Prod.fst = names)
    (ascii : ∀ name ∈ names, ∀ b ∈ utf8 name, b < 0x80)
    (small : ∀ name ∈ names, (utf8 name).lower = utf8 name)
    (short : ∀ name ∈ names, (utf8 name).length < 24) (distinct : (names.map utf8).Nodup) :
    IsNamed row := by
  subst same
  exact
    { ascii := fun entry member => ascii _ (List.mem_map_of_mem member)
      small := fun entry member => small _ (List.mem_map_of_mem member)
      short := fun entry member => short _ (List.mem_map_of_mem member)
      distinct := by simpa [Function.comp_def] using distinct }

theorem IsNamed.tail {entry : String × Option Item} {row : Row} (named : IsNamed (entry :: row)) :
    IsNamed row where
  ascii other member := named.ascii other (List.mem_cons_of_mem _ member)
  small other member := named.small other (List.mem_cons_of_mem _ member)
  short other member := named.short other (List.mem_cons_of_mem _ member)
  distinct := (List.nodup_cons.mp named.distinct).2

theorem namedFields?_pairs {row : Row} (named : row.IsNamed) :
    Item.namedFields? row.pairs = some row.fields := by
  induction row with
  | nil => rfl
  | cons entry row ih =>
    obtain ⟨name, value⟩ := entry
    have rest := ih named.tail
    cases value with
    | none => exact rest
    | some value =>
      have isUtf8 := Text.isUtf8_of_ascii (named.ascii _ List.mem_cons_self)
      simp [pairs, fields, optionalField, field, Item.namedFields?, Item.fieldName?, Item.ofText,
        isUtf8, rest]

theorem find?_cons (name key : String) (value : Item) (fields : List (Text × Item)) :
    find? ((utf8 key, value) :: fields) name =
      if (utf8 key).lower = utf8 name then some value else find? fields name := by
  unfold find?
  by_cases same : (utf8 key).lower = utf8 name
  · simp [same]
  · simp [same]

theorem find?_eq_none {row : Row} {name : String} (named : row.IsNamed)
    (absent : utf8 name ∉ row.map fun entry => utf8 entry.1) : find? row.fields name = none := by
  induction row with
  | nil => rfl
  | cons entry row ih =>
    obtain ⟨key, value⟩ := entry
    obtain ⟨other, further⟩ := not_or.mp (mt List.mem_cons.mpr absent)
    have rest := ih named.tail further
    cases value with
    | none => exact rest
    | some value =>
      rw [fields, find?_cons, if_neg, rest]
      rw [named.small _ List.mem_cons_self]
      exact fun same => other same.symm

/-- Every value is found under its name. -/
theorem find?_fields {row : Row} (named : row.IsNamed) {name : String} {value : Option Item}
    (member : (name, value) ∈ row) : find? row.fields name = value := by
  induction row with
  | nil => cases member
  | cons entry row ih =>
    obtain ⟨key, first⟩ := entry
    have keySmall := named.small _ List.mem_cons_self
    obtain ⟨unrepeated, -⟩ := List.nodup_cons.mp named.distinct
    rcases List.mem_cons.mp member with same | further
    · cases same
      cases value with
      | none =>
        rw [fields]
        exact find?_eq_none named.tail unrepeated
      | some value => rw [fields, find?_cons, if_pos keySmall]
    · have rest := ih named.tail further
      cases first with
      | none => exact rest
      | some first =>
        rw [fields, find?_cons, if_neg, rest]
        rw [keySmall]
        intro same
        have repeated : utf8 name ∈ row.map fun entry => utf8 entry.1 := List.mem_map_of_mem further
        rw [← same] at repeated
        exact unrepeated repeated

theorem fields?_map {row : Row} (named : row.IsNamed) :
    (Item.map row.pairs).fields? = some row.fields := by
  simp [Item.fields?, Item.untagged?, namedFields?_pairs named]

/-- Rows that are written alike have the same value under a name. -/
theorem value_eq {row other : Row} (named : row.IsNamed) (otherNamed : other.IsNamed)
    (same : Item.map row.pairs = Item.map other.pairs) (name : String) {value value' : Option Item}
    (member : (name, value) ∈ row) (member' : (name, value') ∈ other) : value = value' := by
  have sameFields := fields?_map named
  rw [same, fields?_map otherNamed, Option.some.injEq] at sameFields
  rw [← find?_fields named member, ← find?_fields otherNamed member', sameFields]

theorem length_pairs_le (row : Row) : row.pairs.length ≤ row.length := by
  induction row with
  | nil => exact Nat.le_refl _
  | cons entry row ih =>
    obtain ⟨name, value⟩ := entry
    cases value with
    | none => exact Nat.le_succ_of_le ih
    | some value => exact Nat.succ_le_succ ih

theorem mem_pairs_iff {row : Row} {pair : Item × Item} :
    pair ∈ row.pairs ↔
      ∃ name value, (name, some value) ∈ row ∧ pair = (.ofText (utf8 name), value) := by
  induction row with
  | nil => simp [pairs]
  | cons entry row ih =>
    obtain ⟨key, value⟩ := entry
    rw [pairs, List.mem_append, ih]
    cases value with
    | none => simp [optionalField]
    | some first =>
      have alone : pair ∈ optionalField key id (some first) ↔
          pair = (.ofText (utf8 key), first) := by
        simp [optionalField, field]
      rw [alone]
      constructor
      · rintro (rfl | ⟨name, value, member, rfl⟩)
        · exact ⟨key, first, List.mem_cons_self, rfl⟩
        · exact ⟨name, value, List.mem_cons_of_mem _ member, rfl⟩
      · rintro ⟨name, value, member, rfl⟩
        rcases List.mem_cons.mp member with same | further
        · cases same
          exact .inl rfl
        · exact .inr ⟨name, value, further, rfl⟩

theorem plain_map {limit : Nat} {row : Row} (named : row.IsNamed) (few : row.length ≤ limit)
    (values : ∀ name value, (name, some value) ∈ row → value.Plain limit) :
    (Item.map row.pairs).Plain limit := by
  refine .map (Nat.le_trans row.length_pairs_le few) ?_ ?_
  · intro pair member
    obtain ⟨name, value, inRow, rfl⟩ := mem_pairs_iff.mp member
    exact .text (Nat.lt_trans (named.short _ inRow) (by decide))
  · intro pair member
    obtain ⟨name, value, inRow, rfl⟩ := mem_pairs_iff.mp member
    exact values name value inRow

end Row

/-! ## Depth -/

theorem nesting_lt_array {items : List Item} {item : Item} (member : item ∈ items) :
    item.nesting < (Item.array items).nesting := by
  have within : item.nesting ≤ nestingOfItems items := by
    induction items with
    | nil => cases member
    | cons first items ih =>
      rw [nestingOfItems]
      rcases List.mem_cons.mp member with rfl | further
      · exact Nat.le_max_left _ _
      · exact Nat.le_trans (ih further) (Nat.le_max_right _ _)
  rw [Item.nesting]
  omega

theorem Row.nesting_lt_map {row : Row} {name : String} {value : Item}
    (member : (name, some value) ∈ row) : value.nesting < (Item.map row.pairs).nesting := by
  have within : value ∈ unpaired row.pairs :=
    List.mem_flatMap.mpr ⟨_, Row.mem_pairs_iff.mpr ⟨name, value, member, rfl⟩, by simp⟩
  have shallower := nesting_lt_array within
  rw [Item.nesting, nestingOfPairs_eq]
  rwa [Item.nesting] at shallower

end Cbor

end StepGraph
