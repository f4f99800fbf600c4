import StepGraph.Memory

/-!
# Memory as a map in order of first writes

What a memory holds is told by the operations made on it.  Its names are the names
written, each once and in the order in which they were first written.  The value of
a name is the last one stored under it, by its name or by its address.
-/

namespace StepGraph

namespace Memory

/-! ## The cells -/

theorem cell?_natCast (m : Memory) (address : Nat) : m.cell? address = m.cells[address]? := by
  rw [cell?, getElem?_cells, Int.toNat_natCast]
  by_cases inUse : address < m.used
  · rw [if_pos inUse, if_pos (by omega)]
  · rw [if_neg inUse, if_neg (by omega)]

theorem cell?_eq_none_iff {m : Memory} {address : Int} :
    m.cell? address = none ↔ address < 0 ∨ m.size ≤ address := by
  cases address with
  | ofNat address =>
    rw [Int.ofNat_eq_natCast, cell?_natCast, Array.getElem?_eq_none_iff, size_cells]
    omega
  | negSucc address =>
    have negative := Int.negSucc_lt_zero address
    rw [cell?, if_neg fun inside => Int.not_le.mpr negative inside.1]
    exact iff_of_true rfl (.inl negative)

theorem valueAt?_eq_none_iff {m : Memory} {address : Int} :
    m.valueAt? address = none ↔ address < 0 ∨ m.size ≤ address := by
  rw [valueAt?, Option.map_eq_none_iff, cell?_eq_none_iff]

theorem writeAt?_eq_none_iff {m : Memory} {address : Int} {value : Value} :
    m.writeAt? address value = none ↔ address < 0 ∨ m.size ≤ address := by
  rw [← cell?_eq_none_iff, writeAt?]
  cases m.cell? address <;> simp

/-- A new memory has slots but no cells. -/
theorem cells_withCapacity (request : Int) : (withCapacity request).cells = #[] :=
  Array.eq_empty_of_size_eq_zero (size_cells _)

theorem cells_setAt (m : Memory) (address : Nat) (value : Value) :
    (m.setAt address value).cells = m.cells.modify address (·.withValue value) := by
  apply Array.ext_getElem?
  intro other
  have sameUsed : (m.setAt address value).used = m.used := rfl
  rw [getElem?_cells, sameUsed, setAt, Array.getElem?_modify, Array.getElem?_modify,
    getElem?_cells]
  split <;> split <;> rfl

/-- Growth moves the cells to another array, where they have the same addresses. -/
theorem cells_grow (m : Memory) : m.grow.cells = m.cells := by
  apply Array.ext_getElem?
  intro address
  have sameUsed : m.grow.used = m.used := rfl
  rw [getElem?_cells, sameUsed]
  split
  · rename_i inUse
    exact Array.getElem?_append_left (m.size_cells.symm ▸ inUse)
  · rename_i outside
    rw [getElem?_cells, if_neg outside]

theorem cells_withFreeSlot (m : Memory) : m.withFreeSlot.cells = m.cells := by
  unfold withFreeSlot
  split
  · exact m.cells_grow
  · rfl

theorem cells_allocate (m : Memory) (name : Text) (value : Value)
    (new : m.address? name = none) :
    (m.allocate name value new).cells = m.cells.push { name, value } := by
  apply Array.ext_getElem?
  intro address
  have used : (m.allocate name value new).used = m.withFreeSlot.used + 1 := rfl
  rw [getElem?_cells, used, Array.getElem?_push, size_cells, ← m.cells_withFreeSlot,
    getElem?_cells, allocate, Array.getElem?_set, used_withFreeSlot, size]
  rcases Nat.lt_trichotomy address m.used with inUse | last | outside
  · rw [if_pos (by omega), if_neg (by omega), if_neg (by omega), if_pos inUse]
  · rw [if_pos (by omega), if_pos last.symm, if_pos last]
  · rw [if_neg (by omega), if_neg (by omega), if_neg (by omega)]

theorem capacity_setAt (m : Memory) (address : Nat) (value : Value) :
    (m.setAt address value).capacity = m.capacity :=
  Array.size_modify

theorem size_allocate (m : Memory) (name : Text) (value : Value)
    (new : m.address? name = none) : (m.allocate name value new).size = m.size + 1 :=
  congrArg (· + 1) m.used_withFreeSlot

theorem capacity_allocate (m : Memory) (name : Text) (value : Value)
    (new : m.address? name = none) :
    (m.allocate name value new).capacity =
      if m.size = m.capacity then 2 * m.capacity else m.capacity := by
  rw [← capacity_withFreeSlot, capacity, allocate, Array.size_set, capacity]

/-! ## Names and addresses -/

/-- The names of the cells in the order of their addresses. -/
def names (m : Memory) : List Text := m.cells.toList.map (·.name)

theorem getElem?_names (m : Memory) (address : Nat) :
    m.names[address]? = m.cells[address]?.map (·.name) := by
  rw [names, List.getElem?_map, Array.getElem?_toList]

theorem length_names (m : Memory) : m.names.length = m.size := by
  rw [names, List.length_map, Array.length_toList, size_cells]

theorem address?_eq_some_iff {m : Memory} {name : Text} {address : Nat} :
    m.address? name = some address ↔ m.names[address]? = some name := by
  rw [address?, m.indexed name address, getElem?_names, getElem?_cells]
  by_cases inUse : address < m.used
  · rw [if_pos inUse, and_iff_right inUse]
  · rw [if_neg inUse]
    exact iff_of_false (fun stands => inUse stands.1) nofun

/-- The index has one address for a name, so the name stands nowhere else. -/
theorem nodup_names (m : Memory) : m.names.Nodup := by
  rw [List.Nodup, List.pairwise_iff_getElem]
  intro first second firstInside secondInside before same
  have firstFound := address?_eq_some_iff.mpr (List.getElem?_eq_getElem firstInside)
  have secondFound := address?_eq_some_iff.mpr (List.getElem?_eq_getElem secondInside)
  rw [same, secondFound] at firstFound
  exact Nat.ne_of_gt before (Option.some.inj firstFound)

theorem address?_eq_none_iff {m : Memory} {name : Text} :
    m.address? name = none ↔ name ∉ m.names := by
  rw [Option.eq_none_iff_forall_ne_some, List.mem_iff_getElem?, not_exists]
  exact forall_congr' fun address => not_congr address?_eq_some_iff

/-- The cells determine the addresses. -/
theorem address?_congr {m other : Memory} {name : Text}
    (same : ∀ address : Nat, other.names[address]? = some name ↔ m.names[address]? = some name) :
    other.address? name = m.address? name := by
  apply Option.ext
  intro address
  rw [address?_eq_some_iff, address?_eq_some_iff, same]

/-! ## What is read -/

theorem read?_eq (m : Memory) (name : Text) :
    m.read? name = (m.address? name).bind fun address => m.cells[address]?.map (·.value) := by
  unfold read?
  cases found : m.address? name with
  | none => rfl
  | some address =>
    have inUse := ((m.indexed name address).mp found).1
    rw [Option.bind_some, getElem?_cells, if_pos inUse]

theorem read?_eq_some_iff {m : Memory} {name : Text} {value : Value} :
    m.read? name = some value ↔ { name, value } ∈ m.cells.toList := by
  rw [read?_eq, Option.bind_eq_some_iff, List.mem_iff_getElem?]
  refine exists_congr fun address => ?_
  rw [address?_eq_some_iff, getElem?_names, Array.getElem?_toList]
  cases m.cells[address]? with
  | none => simp
  | some cell =>
    obtain ⟨cellName, cellValue⟩ := cell
    simp

theorem read?_eq_none_iff {m : Memory} {name : Text} : m.read? name = none ↔ name ∉ m.names := by
  rw [← address?_eq_none_iff, read?_eq]
  cases found : m.address? name with
  | none => simp
  | some address =>
    have stands := address?_eq_some_iff.mp found
    rw [getElem?_names] at stands
    obtain ⟨cell, inside, -⟩ := Option.map_eq_some_iff.mp stands
    simp [inside]

/-! ## What is written -/

theorem names_setAt (m : Memory) (address : Nat) (value : Value) :
    (m.setAt address value).names = m.names := by
  apply List.ext_getElem?
  intro i
  rw [getElem?_names, getElem?_names, cells_setAt, Array.getElem?_modify]
  split
  · rw [Option.map_map]
    rfl
  · rfl

theorem names_allocate (m : Memory) (name : Text) (value : Value)
    (new : m.address? name = none) :
    (m.allocate name value new).names = m.names ++ [name] := by
  rw [names, cells_allocate, Array.toList_push, List.map_append]
  rfl

theorem write_of_address? {m : Memory} {name : Text} {address : Nat}
    (found : m.address? name = some address) (value : Value) :
    m.write name value = m.setAt address value := by
  unfold write
  split
  · rename_i other foundOther
    rw [found] at foundOther
    cases foundOther
    rfl
  · rename_i absent
    cases found.symm.trans absent

theorem write_of_new {m : Memory} {name : Text} (new : m.address? name = none) (value : Value) :
    m.write name value = m.allocate name value new := by
  unfold write
  split
  · rename_i other found
    cases new.symm.trans found
  · rfl

inductive Operation where
  | write (name : Text) (value : Value)
  | writeAt (address : Int) (value : Value)

namespace Operation

def name? : Operation → Option Text
  | write name _ => some name
  | writeAt _ _ => none

/-- The value stored under a name that has the address. -/
def storedIn? (name : Text) (address : Nat) : Operation → Option Value
  | write other value => if other = name then some value else none
  | writeAt place value => if place = address then some value else none

end Operation

/-- A value for an address without a cell is not stored. -/
def perform (m : Memory) : Operation → Memory
  | .write name value => m.write name value
  | .writeAt address value => (m.writeAt? address value).getD m

/-- The names written, each where it comes first. -/
def firstWritten (operations : List Operation) : List Text :=
  (operations.filterMap Operation.name?).eraseDups

/-- The last value that was to be stored under a name or at its address. -/
def lastStored? (name : Text) (address : Nat) (operations : List Operation) : Option Value :=
  (operations.filterMap (Operation.storedIn? name address)).getLast?

theorem mem_firstWritten {operations : List Operation} {name : Text} :
    name ∈ firstWritten operations ↔ ∃ value, .write name value ∈ operations := by
  rw [firstWritten, List.mem_eraseDups, List.mem_filterMap]
  constructor
  · rintro ⟨operation, member, same⟩
    cases operation with
    | write other value =>
      cases same
      exact ⟨value, member⟩
    | writeAt => cases same
  · rintro ⟨value, member⟩
    exact ⟨_, member, rfl⟩

theorem firstWritten_snoc_write (past : List Operation) (name : Text) (value : Value) :
    firstWritten (past ++ [.write name value]) =
      if name ∈ firstWritten past then firstWritten past else firstWritten past ++ [name] := by
  have last : [Operation.write name value].filterMap Operation.name? = [name] := rfl
  rw [firstWritten, firstWritten, List.filterMap_append, last, List.eraseDups_append]
  generalize past.filterMap Operation.name? = written
  by_cases known : name ∈ written
  · rw [if_pos (List.mem_eraseDups.mpr known)]
    simp [List.removeAll, known]
  · rw [if_neg (mt List.mem_eraseDups.mp known)]
    simp [List.removeAll, known, List.eraseDups_cons]

theorem firstWritten_snoc_writeAt (past : List Operation) (address : Int) (value : Value) :
    firstWritten (past ++ [.writeAt address value]) = firstWritten past := by
  rw [firstWritten, List.filterMap_append]
  exact congrArg List.eraseDups (List.append_nil _)

theorem lastStored?_snoc (name : Text) (address : Nat) (past : List Operation)
    (operation : Operation) :
    lastStored? name address (past ++ [operation]) =
      (operation.storedIn? name address).or (lastStored? name address past) := by
  rw [lastStored?, List.filterMap_append, List.getLast?_append]
  cases stored : operation.storedIn? name address <;> simp [stored, lastStored?]

/-- The memory is as the operations made on it say. -/
structure Reflects (m : Memory) (operations : List Operation) : Prop where
  names : m.names = firstWritten operations
  values : ∀ (address : Nat) (cell : Cell), m.cells[address]? = some cell →
    lastStored? cell.name address operations = some cell.value

namespace Reflects

variable {m : Memory} {past : List Operation}

theorem withCapacity (request : Int) : (Memory.withCapacity request).Reflects [] where
  names := by rw [Memory.names, cells_withCapacity]; rfl
  values address cell found := by
    rw [cells_withCapacity] at found
    cases found

/-- An operation that stores a value in one cell and no other. -/
theorem setAt (reflects : m.Reflects past) {operation : Operation} {address : Nat} {value : Value}
    (known : firstWritten (past ++ [operation]) = firstWritten past)
    (own : ∀ cell, m.cells[address]? = some cell →
      operation.storedIn? cell.name address = some value)
    (others : ∀ (other : Nat) (cell : Cell), m.cells[other]? = some cell → other ≠ address →
      operation.storedIn? cell.name other = none) :
    (m.setAt address value).Reflects (past ++ [operation]) where
  names := by rw [names_setAt, known, reflects.names]
  values other cell found := by
    rw [cells_setAt, Array.getElem?_modify] at found
    rw [lastStored?_snoc]
    split at found
    · rename_i same
      subst same
      obtain ⟨old, foundOld, rfl⟩ := Option.map_eq_some_iff.mp found
      change (operation.storedIn? old.name address).or _ = some value
      rw [own old foundOld]
      rfl
    · rename_i apart
      rw [others other cell found (Ne.symm apart), Option.none_or]
      exact reflects.values other cell found

theorem write (reflects : m.Reflects past) (name : Text) (value : Value) :
    (m.write name value).Reflects (past ++ [.write name value]) := by
  have recorded := firstWritten_snoc_write past name value
  rw [← reflects.names] at recorded
  cases found : m.address? name with
  | some address =>
    have stands := address?_eq_some_iff.mp found
    rw [if_pos (List.mem_of_getElem? stands), reflects.names] at recorded
    rw [write_of_address? found]
    refine reflects.setAt recorded ?_ ?_
    · intro cell inside
      rw [getElem?_names, inside] at stands
      exact if_pos (Option.some.inj stands).symm
    · intro other cell inside apart
      refine if_neg fun same => apart ?_
      have otherStands : m.names[other]? = some name := by rw [getElem?_names, inside, same]; rfl
      rw [← address?_eq_some_iff, found] at otherStands
      exact (Option.some.inj otherStands).symm
  | none =>
    have absent := address?_eq_none_iff.mp found
    rw [if_neg absent] at recorded
    rw [write_of_new found]
    refine { names := ?_, values := ?_ }
    · rw [names_allocate, recorded]
    · intro address cell inside
      rw [cells_allocate, Array.getElem?_push] at inside
      rw [lastStored?_snoc]
      split at inside
      · cases inside
        rw [Operation.storedIn?, if_pos rfl]
        rfl
      · have apart : name ≠ cell.name := by
          rintro rfl
          exact absent (List.mem_map.mpr ⟨cell, Array.mem_toList_iff.mpr
            (Array.mem_of_getElem? inside), rfl⟩)
        rw [Operation.storedIn?, if_neg apart, Option.none_or]
        exact reflects.values address cell inside

theorem writeAt (reflects : m.Reflects past) (address : Int) (value : Value) :
    (m.perform (.writeAt address value)).Reflects (past ++ [.writeAt address value]) := by
  have known := firstWritten_snoc_writeAt past address value
  rw [perform]
  cases refused : m.writeAt? address value with
  | none =>
    -- The operation counts as a store at its address, but there is no cell with this address.
    change m.Reflects _
    refine { names := known ▸ reflects.names, values := ?_ }
    intro other cell inside
    have outside := writeAt?_eq_none_iff.mp refused
    have apart : address ≠ other := by
      have bound := (Array.getElem?_eq_some_iff.mp inside).1
      rw [size_cells] at bound
      omega
    rw [lastStored?_snoc, Operation.storedIn?, if_neg apart, Option.none_or]
    exact reflects.values other cell inside
  | some after =>
    have inside : ¬(address < 0 ∨ m.size ≤ address) := by
      rw [← writeAt?_eq_none_iff, refused]
      simp
    obtain ⟨place, rfl⟩ := Int.eq_ofNat_of_zero_le (show 0 ≤ address by omega)
    have stored : after = m.setAt place value := by
      unfold writeAt? at refused
      split at refused
      · exact (Option.some.inj refused).symm
      · cases refused
    subst stored
    refine reflects.setAt known ?_ ?_
    · intro cell _
      exact if_pos rfl
    · intro other cell _ apart
      exact if_neg fun same => apart (Int.ofNat.inj same).symm

/-- What one operation preserves. -/
theorem perform (reflects : m.Reflects past) (operation : Operation) :
    (m.perform operation).Reflects (past ++ [operation]) := by
  cases operation with
  | write name value => exact reflects.write name value
  | writeAt address value => exact reflects.writeAt address value

theorem run (reflects : m.Reflects past) (operations : List Operation) :
    (operations.foldl Memory.perform m).Reflects (past ++ operations) := by
  induction operations generalizing m past with
  | nil => rwa [List.append_nil]
  | cons operation rest ih =>
    rw [List.foldl_cons, List.append_cons]
    exact ih (reflects.perform operation)

end Reflects

/-- After any operations on an empty memory of any capacity, the cells are the names written, in
the order of their first writes, each with the value last stored by its name or its address.  Names
and addresses lead to these cells and no others. -/
theorem cells_follow_operations (request : Int) (operations : List Operation) :
    let m := operations.foldl perform (withCapacity request)
    m.names = firstWritten operations ∧ m.names.Nodup ∧ m.size = (firstWritten operations).length ∧
    (∀ (address : Nat) (cell : Cell), m.cells[address]? = some cell →
      lastStored? cell.name address operations = some cell.value) ∧
    (∀ (name : Text) (address : Nat),
      m.address? name = some address ↔ (firstWritten operations)[address]? = some name) ∧
    (∀ (name : Text) (value : Value),
      m.read? name = some value ↔ { name, value } ∈ m.cells.toList) ∧
    (∀ name : Text, (m.address? name = none ↔ ∀ value, .write name value ∉ operations) ∧
      (m.read? name = none ↔ ∀ value, .write name value ∉ operations)) ∧
    (∀ address : Nat, m.valueAt? address = m.cells[address]?.map (·.value)) ∧
    ∀ (address : Int) (value : Value),
      (m.valueAt? address = none ↔ address < 0 ∨ m.size ≤ address) ∧
      (m.writeAt? address value = none ↔ address < 0 ∨ m.size ≤ address) ∧
      (m.writeAt? address value = none → m.perform (.writeAt address value) = m) := by
  intro m
  have reflects : m.Reflects operations := (Reflects.withCapacity request).run operations
  have unwritten : ∀ name, name ∉ m.names ↔ ∀ value, .write name value ∉ operations := by
    intro name
    rw [reflects.names, mem_firstWritten, not_exists]
  refine ⟨reflects.names, m.nodup_names, ?_, reflects.values, ?_, ?_, ?_, ?_, ?_⟩
  · rw [← reflects.names, length_names]
  · intro name address
    rw [address?_eq_some_iff, reflects.names]
  · intro name value
    exact read?_eq_some_iff
  · intro name
    exact ⟨address?_eq_none_iff.trans (unwritten name), read?_eq_none_iff.trans (unwritten name)⟩
  · intro address
    rw [valueAt?, cell?_natCast]
  · intro address value
    refine ⟨valueAt?_eq_none_iff, writeAt?_eq_none_iff, fun refused => ?_⟩
    rw [perform, refused]
    rfl

end Memory

end StepGraph
