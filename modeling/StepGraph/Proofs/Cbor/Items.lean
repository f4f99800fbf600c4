import StepGraph.Cbor.Reader

/-!
# Reading back what was encoded

An item that is written in its shortest form is found again by the reader, with
everything that follows it left in place, unless its arrays and maps nest too
deep; then nothing is read at all.  No encoding is the start of another one, so
two items are never written alike, however deep they are.
-/

namespace StepGraph

namespace Cbor

/-! ## Numbers and heads -/

@[simp] theorem length_bigEndian (width n : Nat) : (bigEndian width n).length = width := by
  induction width generalizing n with
  | zero => rfl
  | succ width ih => simp [bigEndian, ih]

/-- The bytes of a number are its digits to the base 256. -/
theorem foldl_bigEndian (width n : Nat) (small : n < Nat.pow 256 width) :
    (bigEndian width n).foldl (fun value b => 256 * value + b.toNat) 0 = n := by
  induction width generalizing n with
  | zero =>
    have zero : n = 0 := Nat.lt_one_iff.mp small
    rw [zero]
    rfl
  | succ width ih =>
    have grows : Nat.pow 256 (width + 1) = Nat.pow 256 width * 256 := rfl
    have digit : (n % 256).toUInt8.toNat = n % 256 := by simp
    rw [bigEndian, List.foldl_append, ih (n / 256) (by omega), List.foldl_cons, List.foldl_nil,
      digit]
    omega

theorem readBigEndian?_bigEndian {width n : Nat} (small : n < Nat.pow 256 width) (rest : Text) :
    readBigEndian? width (bigEndian width n ++ rest) = some (n, rest) := by
  have taken : (bigEndian width n ++ rest).take width = bigEndian width n := by simp
  have dropped : (bigEndian width n ++ rest).drop width = rest := by simp
  unfold readBigEndian?
  rw [if_neg (by simp), taken, dropped, foldl_bigEndian width n small]

def headInfo (argument : Nat) : Nat :=
  if argument < 24 then argument
  else if argument < 256 then 24
  else if argument < 65536 then 25
  else if argument < 4294967296 then 26
  else 27

theorem headInfo_lt (argument : Nat) : headInfo argument < 28 := by
  unfold headInfo
  repeat' split
  all_goals omega

theorem toNat_initialByte {type info : Nat} (typeSmall : type < 8) (infoSmall : info < 32) :
    (initialByte type info).toNat = type * 32 + info := by
  unfold initialByte
  rw [Nat.toUInt8_eq, UInt8.toNat_ofNat']
  omega

theorem readHead?_narrow {type argument : Nat} (typeSmall : type < 8) (small : argument < 24)
    (rest : Text) :
    readHead? (initialByte type argument :: rest) =
      some ({ type, info := argument, argument }, rest) := by
  have first := toNat_initialByte typeSmall (show argument < 32 by omega)
  have typeIs : (initialByte type argument).toNat / 32 = type := by omega
  have infoIs : (initialByte type argument).toNat % 32 = argument := by omega
  simp only [readHead?, typeIs, infoIs, if_pos small]

theorem readHead?_wide {type info width argument : Nat} (typeSmall : type < 7)
    (wide : argumentWidth? info = some width) (infoLarge : 24 ≤ info) (infoSmall : info < 31)
    (small : argument < Nat.pow 256 width) (rest : Text) :
    readHead? (initialByte type info :: (bigEndian width argument ++ rest)) =
      some ({ type, info, argument }, rest) := by
  have first := toNat_initialByte (show type < 8 by omega) (show info < 32 by omega)
  have typeIs : (initialByte type info).toNat / 32 = type := by omega
  have infoIs : (initialByte type info).toNat % 32 = info := by omega
  have noSimple : (type = 7) = False := by
    rw [eq_iff_iff, iff_false]
    omega
  simp only [readHead?, typeIs, infoIs, if_neg (Nat.not_lt.mpr infoLarge),
    if_neg (Nat.ne_of_lt infoSmall), wide, readBigEndian?_bigEndian small, noSimple, decide_false,
    Bool.false_and, Bool.false_eq_true, if_false]

/-- The bounds within which a head can be read: the simple values are the short ones. -/
structure IsHead (type argument : Nat) : Prop where
  typeSmall : type < 8
  small : argument < 18446744073709551616
  short : type = 7 → argument < 24

/-- A head is read as it was written. -/
theorem readHead?_head {type argument : Nat} (isHead : IsHead type argument) (rest : Text) :
    readHead? (head type argument ++ rest) =
      some ({ type, info := headInfo argument, argument }, rest) := by
  unfold head headInfo
  split
  · exact readHead?_narrow isHead.typeSmall ‹_› rest
  · have typeOther : type < 7 := by
      have bound := isHead.typeSmall
      have short := isHead.short
      omega
    split
    · exact readHead?_wide typeOther rfl (by decide) (by decide) ‹_› rest
    · split
      · exact readHead?_wide typeOther rfl (by decide) (by decide) ‹_› rest
      · split
        · exact readHead?_wide typeOther rfl (by decide) (by decide) ‹_› rest
        · exact readHead?_wide typeOther rfl (by decide) (by decide) isHead.small rest

theorem head_ne_nil (type argument : Nat) : head type argument ≠ [] := by
  unfold head
  repeat' split
  all_goals simp

/-- Heads are told apart by what they say, whatever follows them. -/
theorem head_append_inj {type type' argument argument' : Nat} {rest rest' : Text}
    (isHead : IsHead type argument) (isHead' : IsHead type' argument')
    (same : head type argument ++ rest = head type' argument' ++ rest') :
    type = type' ∧ argument = argument' ∧ rest = rest' := by
  have read := readHead?_head isHead rest
  rw [same, readHead?_head isHead' rest'] at read
  simp only [Option.some.injEq, Prod.mk.injEq, Head.mk.injEq] at read
  exact ⟨read.1.1.symm, read.1.2.2.symm, read.2.symm⟩

/-! ## Plain items -/

mutual

def Item.nesting : Item → Nat
  | .array items => 1 + nestingOfItems items
  | .map pairs => 1 + nestingOfPairs pairs
  | .tag _ content => content.nesting
  | _ => 0

def nestingOfItems : List Item → Nat
  | [] => 0
  | item :: rest => max item.nesting (nestingOfItems rest)

def nestingOfPairs : List (Item × Item) → Nat
  | [] => 0
  | (key, value) :: rest => max (max key.nesting value.nesting) (nestingOfPairs rest)

end

/-- An item without tags, bytes and floats whose numbers and lengths fit into heads, and whose
arrays and maps have at most `limit` members. -/
inductive Item.Plain (limit : Nat) : Item → Prop
  | unsigned {n : Nat} (small : n < 18446744073709551616) : Plain limit (.unsigned n)
  | negative {n : Nat} (small : n < 18446744073709551616) : Plain limit (.negative n)
  | text {content : Text} (small : content.length < 18446744073709551616) :
      Plain limit (.ofText content)
  | null : Plain limit .null
  | array {items : List Item} (few : items.length ≤ limit)
      (members : ∀ item ∈ items, Plain limit item) : Plain limit (.array items)
  | map {pairs : List (Item × Item)} (few : pairs.length ≤ limit)
      (keys : ∀ pair ∈ pairs, Plain limit pair.1)
      (values : ∀ pair ∈ pairs, Plain limit pair.2) : Plain limit (.map pairs)

theorem encode_ofText (content : Text) :
    encode (.ofText content) = head 3 content.length ++ content := by
  simp [Item.ofText, encode]

theorem length_encode_pos (item : Item) : 0 < (encode item).length := by
  apply List.length_pos_iff.mpr
  cases item <;> simp [encode, head_ne_nil]

def unpaired (pairs : List (Item × Item)) : List Item := pairs.flatMap fun pair => [pair.1, pair.2]

@[simp] theorem length_unpaired (pairs : List (Item × Item)) :
    (unpaired pairs).length = 2 * pairs.length := by
  unfold unpaired
  induction pairs with
  | nil => rfl
  | cons pair rest ih =>
    simp [ih]
    omega

theorem pairUp_unpaired (pairs : List (Item × Item)) : pairUp (unpaired pairs) = some pairs := by
  unfold unpaired
  induction pairs with
  | nil => rfl
  | cons pair rest ih => simp [pairUp, ih]

theorem encodePairs_eq (pairs : List (Item × Item)) :
    encodePairs pairs = encodeItems (unpaired pairs) := by
  unfold unpaired
  induction pairs with
  | nil => rfl
  | cons pair rest ih => simp [encodePairs, encodeItems, ih]

theorem nestingOfPairs_eq (pairs : List (Item × Item)) :
    nestingOfPairs pairs = nestingOfItems (unpaired pairs) := by
  unfold unpaired
  induction pairs with
  | nil => rfl
  | cons pair rest ih => simp [nestingOfPairs, nestingOfItems, ih, Nat.max_assoc]

theorem forall_mem_unpaired {P : Item → Prop} {pairs : List (Item × Item)}
    (keys : ∀ pair ∈ pairs, P pair.1) (values : ∀ pair ∈ pairs, P pair.2) :
    ∀ item ∈ unpaired pairs, P item := by
  intro item member
  obtain ⟨pair, inside, either⟩ := List.mem_flatMap.mp member
  rcases List.mem_cons.mp either with rfl | second
  · exact keys pair inside
  · rw [List.mem_singleton.mp second]
    exact values pair inside

/-! ## Reading -/

/-- With three steps a byte the item is read, and the rest is left, unless it nests too deep. -/
def ReadsBack (item : Item) : Prop :=
  ∀ (fuel depth : Nat) (rest : Text), depth ≤ maxDepth → 3 * (encode item).length ≤ fuel →
    readItem? fuel depth (encode item ++ rest) =
      if depth + item.nesting ≤ maxDepth then some (item, rest) else none

theorem readItems?_encodeItems {items : List Item} (readsBack : ∀ item ∈ items, ReadsBack item)
    {fuel depth : Nat} (rest : Text) (inside : depth ≤ maxDepth)
    (enough : 3 * (encodeItems items).length + 1 ≤ fuel) :
    readItems? fuel depth items.length (encodeItems items ++ rest) =
      if depth + nestingOfItems items ≤ maxDepth then some (items, rest) else none := by
  induction items generalizing fuel with
  | nil =>
    obtain ⟨fuel, rfl⟩ : ∃ less, fuel = less + 1 := ⟨fuel - 1, by omega⟩
    rw [nestingOfItems, if_pos (show depth + 0 ≤ maxDepth from inside), encodeItems,
      List.nil_append, List.length_nil, readItems?]
  | cons item items ih =>
    obtain ⟨fuel, rfl⟩ : ∃ less, fuel = less + 1 := ⟨fuel - 1, by omega⟩
    have positive := length_encode_pos item
    rw [encodeItems, List.length_append] at enough
    have first := readsBack item List.mem_cons_self fuel depth (encodeItems items ++ rest) inside
      (by omega)
    have others : readItems? fuel depth items.length (encodeItems items ++ rest) =
        if depth + nestingOfItems items ≤ maxDepth then some (items, rest) else none :=
      ih (fun other member => readsBack other (List.mem_cons_of_mem _ member)) (by omega)
    rw [encodeItems, List.append_assoc, List.length_cons, readItems?, first, nestingOfItems]
    by_cases firstFits : depth + item.nesting ≤ maxDepth
    · rw [if_pos firstFits]
      by_cases othersFit : depth + nestingOfItems items ≤ maxDepth
      · rw [if_pos (by omega)]
        simp [others, othersFit]
      · rw [if_neg (by omega)]
        simp [others, othersFit]
    · rw [if_neg firstFits, if_neg (by omega)]
      rfl

theorem readMembers?_of_head {type argument : Nat} (few : argument ≤ maxMembers)
    (fuel depth count : Nat) (t : Text) :
    readMembers? (fuel + 1) depth { type, info := headInfo argument, argument } count t =
      if depth ≤ maxDepth then readItems? fuel depth count t else none := by
  have definite : ({ type, info := headInfo argument, argument } : Head).isIndefinite = false := by
    have small := headInfo_lt argument
    simp only [Head.isIndefinite, beq_eq_false_iff_ne]
    omega
  rw [readMembers?, definite]
  by_cases inside : depth ≤ maxDepth
  · simp [inside, Nat.not_lt.mpr few, Nat.not_lt.mpr inside]
  · simp [inside, Nat.lt_of_not_le inside]

/-- Members are read back one level deeper. -/
theorem readMembers?_encodeItems {items : List Item} (readsBack : ∀ item ∈ items, ReadsBack item)
    {type argument : Nat} (few : argument ≤ maxMembers) {fuel depth : Nat} (rest : Text)
    (enough : 3 * (encodeItems items).length + 2 ≤ fuel) :
    readMembers? fuel (depth + 1) { type, info := headInfo argument, argument } items.length
        (encodeItems items ++ rest) =
      if depth + (1 + nestingOfItems items) ≤ maxDepth then some (items, rest) else none := by
  obtain ⟨fuel, rfl⟩ : ∃ less, fuel = less + 1 := ⟨fuel - 1, by omega⟩
  rw [readMembers?_of_head few, ← Nat.add_assoc]
  by_cases deeper : depth + 1 ≤ maxDepth
  · rw [if_pos deeper, readItems?_encodeItems readsBack rest deeper (by omega)]
  · rw [if_neg deeper, if_neg (by omega)]

theorem readString?_of_head {type : Nat} (content rest : Text) :
    readString? { type, info := headInfo content.length, argument := content.length }
      (content ++ rest) = some ([content], rest) := by
  have definite : ({ type, info := headInfo content.length, argument := content.length } :
      Head).isIndefinite = false := by
    have small := headInfo_lt content.length
    simp only [Head.isIndefinite, beq_eq_false_iff_ne]
    omega
  simp [readString?, definite, readContent?]

/-- An item without members takes one step. -/
theorem readsBack_of_leaf {item : Item} (flat : item.nesting = 0)
    (read : ∀ (fuel depth : Nat) (rest : Text),
      readItem? (fuel + 1) depth (encode item ++ rest) = some (item, rest)) : ReadsBack item := by
  intro fuel depth rest inside enough
  have positive := length_encode_pos item
  obtain ⟨fuel, rfl⟩ : ∃ less, fuel = less + 1 := ⟨fuel - 1, by omega⟩
  rw [if_pos (by omega), read]

theorem readsBack_unsigned {n : Nat} (small : n < 18446744073709551616) :
    ReadsBack (.unsigned n) := by
  refine readsBack_of_leaf rfl fun fuel depth rest => ?_
  rw [encode, readItem?, readHead?_head ⟨by decide, small, by simp⟩]
  rfl

theorem readsBack_negative {n : Nat} (small : n < 18446744073709551616) :
    ReadsBack (.negative n) := by
  refine readsBack_of_leaf rfl fun fuel depth rest => ?_
  rw [encode, readItem?, readHead?_head ⟨by decide, small, by simp⟩]
  rfl

theorem readsBack_ofText {content : Text} (small : content.length < 18446744073709551616) :
    ReadsBack (.ofText content) := by
  refine readsBack_of_leaf rfl fun fuel depth rest => ?_
  rw [encode_ofText, List.append_assoc, readItem?, readHead?_head ⟨by decide, small, by simp⟩]
  simp only [Option.bind_eq_bind, Option.bind_some, readString?_of_head]
  rfl

theorem readsBack_null : ReadsBack .null := by
  refine readsBack_of_leaf rfl fun fuel depth rest => ?_
  rw [Item.null, encode, readItem?, readHead?_head ⟨by decide, by decide, by decide⟩]
  rfl

theorem readsBack_array {items : List Item} (few : items.length ≤ maxMembers)
    (readsBack : ∀ item ∈ items, ReadsBack item) : ReadsBack (.array items) := by
  intro fuel depth rest inside enough
  have positive := List.length_pos_iff.mpr (head_ne_nil 4 items.length)
  rw [encode, List.length_append] at enough
  obtain ⟨fuel, rfl⟩ : ∃ less, fuel = less + 1 := ⟨fuel - 1, by omega⟩
  have isHead : IsHead 4 items.length :=
    ⟨by decide, Nat.lt_of_le_of_lt few (by decide), by simp⟩
  rw [encode, List.append_assoc, readItem?, readHead?_head isHead, Item.nesting]
  simp only [Option.bind_eq_bind, Option.bind_some]
  rw [readMembers?_encodeItems readsBack few rest (by omega)]
  split <;> rfl

theorem readsBack_map {pairs : List (Item × Item)} (few : pairs.length ≤ maxMembers)
    (readsBack : ∀ item ∈ unpaired pairs, ReadsBack item) : ReadsBack (.map pairs) := by
  intro fuel depth rest inside enough
  have positive := List.length_pos_iff.mpr (head_ne_nil 5 pairs.length)
  rw [encode, List.length_append, encodePairs_eq] at enough
  obtain ⟨fuel, rfl⟩ : ∃ less, fuel = less + 1 := ⟨fuel - 1, by omega⟩
  have isHead : IsHead 5 pairs.length :=
    ⟨by decide, Nat.lt_of_le_of_lt few (by decide), by simp⟩
  rw [encode, List.append_assoc, readItem?, readHead?_head isHead, Item.nesting, encodePairs_eq,
    nestingOfPairs_eq]
  simp only [Option.bind_eq_bind, Option.bind_some]
  rw [← length_unpaired, readMembers?_encodeItems readsBack few rest (by omega)]
  split
  · simp only [Option.bind_some, pairUp_unpaired]
    rfl
  · rfl

theorem Item.Plain.readsBack {item : Item} (plain : item.Plain maxMembers) : ReadsBack item := by
  induction plain with
  | unsigned small => exact readsBack_unsigned small
  | negative small => exact readsBack_negative small
  | text small => exact readsBack_ofText small
  | null => exact readsBack_null
  | array few members ih => exact readsBack_array few ih
  | map few keys values keysIh valuesIh =>
    exact readsBack_map few (forall_mem_unpaired keysIh valuesIh)

/-- The only item of a text is found exactly if it does not nest too deep. -/
theorem Item.Plain.decode?_encode {item : Item} (plain : item.Plain maxMembers) :
    decode? (encode item) = if item.nesting ≤ maxDepth then some item else none := by
  have read := plain.readsBack (3 * (encode item).length + 3) 0 [] (Nat.zero_le _) (by omega)
  rw [List.append_nil, Nat.zero_add] at read
  unfold decode?
  rw [read]
  by_cases fits : item.nesting ≤ maxDepth
  · rw [if_pos fits, if_pos fits]
  · rw [if_neg fits, if_neg fits]

/-! ## Telling items apart -/

/-- Where the encoding of the item ends can be seen from its bytes, and another plain item is
written otherwise. -/
def IsSeparate (limit : Nat) (item : Item) : Prop :=
  ∀ {other : Item} {rest rest' : Text}, other.Plain limit →
    encode item ++ rest = encode other ++ rest' → item = other ∧ rest = rest'

theorem encodeItems_append_inj {limit : Nat} {items others : List Item} {rest rest' : Text}
    (separate : ∀ item ∈ items, IsSeparate limit item) (plain : ∀ item ∈ others, item.Plain limit)
    (sameLength : items.length = others.length)
    (same : encodeItems items ++ rest = encodeItems others ++ rest') :
    items = others ∧ rest = rest' := by
  induction items generalizing others with
  | nil =>
    obtain rfl : others = [] := List.eq_nil_of_length_eq_zero sameLength.symm
    exact ⟨rfl, same⟩
  | cons item items ih =>
    cases others with
    | nil => simp at sameLength
    | cons other others =>
      rw [encodeItems, encodeItems, List.append_assoc, List.append_assoc] at same
      obtain ⟨rfl, sameRest⟩ :=
        separate item List.mem_cons_self (plain other List.mem_cons_self) same
      obtain ⟨rfl, rfl⟩ := ih (fun inner member => separate inner (List.mem_cons_of_mem _ member))
        (fun inner member => plain inner (List.mem_cons_of_mem _ member))
        (Nat.succ.inj sameLength) sameRest
      exact ⟨rfl, rfl⟩

def Item.summary : Item → Nat × Nat
  | .unsigned n => (0, n)
  | .negative n => (1, n)
  | .bytes content => (2, content.length)
  | .text pieces => (3, pieces.flatten.length)
  | .array items => (4, items.length)
  | .map pairs => (5, pairs.length)
  | .tag number _ => (6, number)
  | .simple n => (7, n)
  | .float _ bits => (7, bits)

def Item.payload : Item → Text
  | .text pieces => pieces.flatten
  | .array items => encodeItems items
  | .map pairs => encodePairs pairs
  | _ => []

theorem Item.Plain.encode_eq {limit : Nat} {item : Item} (plain : item.Plain limit) :
    encode item = head item.summary.1 item.summary.2 ++ item.payload := by
  cases plain <;> simp [Item.summary, Item.payload, encode, Item.ofText, Item.null]

section Separate

variable {limit : Nat} (limitSmall : limit < 18446744073709551616)
include limitSmall

theorem Item.Plain.isHead {item : Item} (plain : item.Plain limit) :
    IsHead item.summary.1 item.summary.2 := by
  have long {type argument : Nat} (typeSmall : type < 7)
      (small : argument < 18446744073709551616) : IsHead type argument :=
    ⟨by omega, small, by omega⟩
  cases plain with
  | unsigned small => exact (long (by decide) small : IsHead 0 _)
  | negative small => exact (long (by decide) small : IsHead 1 _)
  | text small =>
    refine (long (by decide) ?_ : IsHead 3 _)
    simpa [Item.ofText, Item.summary] using small
  | null => exact ⟨by decide, by decide, by decide⟩
  | array few members =>
    exact (long (by decide) (Nat.lt_of_le_of_lt few limitSmall) : IsHead 4 _)
  | map few keys values =>
    exact (long (by decide) (Nat.lt_of_le_of_lt few limitSmall) : IsHead 5 _)

/-- Items that are written alike have the same head, and the same bytes come after it. -/
theorem Item.Plain.summary_eq {item other : Item} {rest rest' : Text} (plain : item.Plain limit)
    (otherPlain : other.Plain limit) (same : encode item ++ rest = encode other ++ rest') :
    item.summary = other.summary ∧ item.payload ++ rest = other.payload ++ rest' := by
  rw [plain.encode_eq, otherPlain.encode_eq, List.append_assoc, List.append_assoc] at same
  obtain ⟨type, argument, following⟩ :=
    head_append_inj (plain.isHead limitSmall) (otherPlain.isHead limitSmall) same
  exact ⟨Prod.ext type argument, following⟩

/-- It is enough to tell apart what has the same head. -/
theorem isSeparate_of_summary {item : Item} (plain : item.Plain limit)
    (apart : ∀ {other : Item} {rest rest' : Text}, other.Plain limit →
      item.summary = other.summary → item.payload ++ rest = other.payload ++ rest' →
      item = other ∧ rest = rest') : IsSeparate limit item := by
  intro other rest rest' otherPlain same
  obtain ⟨summary, following⟩ := plain.summary_eq limitSmall otherPlain same
  exact apart otherPlain summary following

/-- Plain items are told apart by their bytes. -/
theorem Item.Plain.isSeparate {item : Item} (plain : item.Plain limit) : IsSeparate limit item := by
  induction plain with
  | unsigned small =>
    refine isSeparate_of_summary limitSmall (.unsigned small) fun otherPlain summary following => ?_
    cases otherPlain with
    | unsigned =>
      cases summary
      exact ⟨rfl, following⟩
    | _ => cases summary
  | negative small =>
    refine isSeparate_of_summary limitSmall (.negative small) fun otherPlain summary following => ?_
    cases otherPlain with
    | negative =>
      cases summary
      exact ⟨rfl, following⟩
    | _ => cases summary
  | text small =>
    refine isSeparate_of_summary limitSmall (.text small) fun otherPlain summary following => ?_
    cases otherPlain with
    | text =>
      have sameLength := congrArg Prod.snd summary
      simp only [Item.ofText, Item.summary, Item.payload, List.flatten_cons, List.flatten_nil,
        List.append_nil] at sameLength following
      obtain ⟨rfl, rfl⟩ := List.append_inj following sameLength
      exact ⟨rfl, rfl⟩
    | _ => cases summary
  | null =>
    refine isSeparate_of_summary limitSmall .null fun otherPlain summary following => ?_
    cases otherPlain with
    | null => exact ⟨rfl, following⟩
    | _ => cases summary
  | array few members ih =>
    refine isSeparate_of_summary limitSmall (.array few members)
      fun otherPlain summary following => ?_
    cases otherPlain with
    | array _ otherMembers =>
      obtain ⟨rfl, rfl⟩ :=
        encodeItems_append_inj ih otherMembers (congrArg Prod.snd summary) following
      exact ⟨rfl, rfl⟩
    | _ => cases summary
  | map few keys values keysIh valuesIh =>
    refine isSeparate_of_summary limitSmall (.map few keys values)
      fun otherPlain summary following => ?_
    cases otherPlain with
    | map _ otherKeys otherValues =>
      have sameLength := congrArg Prod.snd summary
      simp only [Item.summary, Item.payload, encodePairs_eq] at sameLength following
      obtain ⟨unpairedSame, rfl⟩ :=
        encodeItems_append_inj (forall_mem_unpaired keysIh valuesIh)
          (forall_mem_unpaired otherKeys otherValues) (by simp [sameLength]) following
      have paired := congrArg pairUp unpairedSame
      rw [pairUp_unpaired, pairUp_unpaired] at paired
      cases paired
      exact ⟨rfl, rfl⟩
    | _ => cases summary

/-- Plain items that are written alike are equal. -/
theorem Item.Plain.eq_of_encode {item other : Item} (plain : item.Plain limit)
    (otherPlain : other.Plain limit) (same : encode item = encode other) : item = other :=
  (plain.isSeparate limitSmall otherPlain (congrArg (· ++ ([] : Text)) same)).1

end Separate

end Cbor

end StepGraph
