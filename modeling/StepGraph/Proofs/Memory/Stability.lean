import Mathlib.Algebra.Group.Nat.Defs
import StepGraph.Proofs.Memory

/-!
# What a memory keeps

A write touches the cell of one name and nothing else.  Names are only ever added
after the others, so a name keeps the address it got when it was first written.
The capacity is the initial one, doubled as often as the number of names requires
and never more.
-/

namespace StepGraph

namespace Memory

variable {m : Memory} {name : Text}

/-! ## The frame of a write -/

/-- The address of a name leads to a cell with this name. -/
theorem exists_cell_of_address? {address : Nat} (found : m.address? name = some address) :
    ∃ cell, m.cells[address]? = some cell ∧ cell.name = name := by
  have stands := address?_eq_some_iff.mp found
  rw [getElem?_names] at stands
  exact Option.map_eq_some_iff.mp stands

/-- The memory `after` comes from `m` by a change of the cell of one name, which is a new cell after
the others if there was none. -/
structure ChangesOnly (name : Text) (m after : Memory) : Prop where
  known : name ∈ m.names → after.names = m.names ∧ after.capacity = m.capacity
  new : name ∉ m.names → after.names = m.names ++ [name]
  others : ∀ (address : Nat) (cell : Cell), cell.name ≠ name →
    (after.cells[address]? = some cell ↔ m.cells[address]? = some cell)

theorem changesOnly_setAt {address : Nat} (found : m.address? name = some address)
    (value : Value) : ChangesOnly name m (m.setAt address value) where
  known _ := ⟨names_setAt m address value, capacity_setAt m address value⟩
  new absent := absurd (List.mem_of_getElem? (address?_eq_some_iff.mp found)) absent
  others other cell apart := by
    rw [cells_setAt, Array.getElem?_modify]
    split
    · rename_i same
      subst same
      obtain ⟨old, foundOld, rfl⟩ := exists_cell_of_address? found
      rw [foundOld, Option.map_some]
      refine iff_of_false ?_ ?_ <;> rintro ⟨⟩ <;> exact apart rfl
    · rfl

theorem changesOnly_allocate (new : m.address? name = none) (value : Value) :
    ChangesOnly name m (m.allocate name value new) where
  known known := absurd known (address?_eq_none_iff.mp new)
  new _ := names_allocate m name value new
  others address cell apart := by
    rw [cells_allocate, Array.getElem?_push]
    split
    · rename_i last
      rw [last, Array.getElem?_eq_none (Nat.le_refl _)]
      refine iff_of_false ?_ ?_ <;> rintro ⟨⟩
      exact apart rfl
    · rfl

theorem changesOnly_write (m : Memory) (name : Text) (value : Value) :
    ChangesOnly name m (m.write name value) := by
  cases found : m.address? name with
  | some address =>
    rw [write_of_address? found]
    exact changesOnly_setAt found value
  | none =>
    rw [write_of_new found]
    exact changesOnly_allocate found value

namespace ChangesOnly

variable {after : Memory} (changes : ChangesOnly name m after)
include changes

theorem names_kept : m.names <+: after.names := by
  by_cases known : name ∈ m.names
  · exact (changes.known known).1.symm ▸ List.prefix_rfl
  · rw [changes.new known]
    exact List.prefix_append m.names [name]

theorem address?_eq {other : Text} (apart : other ≠ name) :
    after.address? other = m.address? other := by
  apply address?_congr
  intro address
  rw [getElem?_names, getElem?_names, Option.map_eq_some_iff, Option.map_eq_some_iff]
  refine exists_congr fun cell => and_congr_left ?_
  rintro rfl
  exact changes.others address cell apart

theorem read?_eq {other : Text} (apart : other ≠ name) : after.read? other = m.read? other := by
  rw [Memory.read?_eq, Memory.read?_eq, changes.address?_eq apart]
  cases found : m.address? other with
  | none => rfl
  | some address =>
    obtain ⟨cell, inside, rfl⟩ := exists_cell_of_address? found
    rw [Option.bind_some, Option.bind_some, inside, (changes.others address cell apart).mpr inside]

end ChangesOnly

/-! ## What a write gives -/

theorem address?_of_kept {later : Memory} {address : Nat} (kept : m.names <+: later.names)
    (found : m.address? name = some address) : later.address? name = some address := by
  obtain ⟨more, names⟩ := kept
  rw [address?_eq_some_iff] at found ⊢
  rw [← names, List.getElem?_append_left (List.getElem?_eq_some_iff.mp found).1, found]

theorem address?_write_of_new (new : name ∉ m.names) (value : Value) :
    (m.write name value).address? name = some m.names.length := by
  rw [address?_eq_some_iff, (changesOnly_write m name value).new new, List.getElem?_concat_length]

theorem read?_write_self (m : Memory) (name : Text) (value : Value) :
    (m.write name value).read? name = some value := by
  cases found : m.address? name with
  | some address =>
    have stays := address?_of_kept (changesOnly_setAt found value).names_kept found
    obtain ⟨cell, inside, -⟩ := exists_cell_of_address? found
    rw [write_of_address? found, read?_eq, stays, Option.bind_some, cells_setAt,
      Array.getElem?_modify, if_pos rfl, inside]
    rfl
  | none =>
    have address := address?_write_of_new (address?_eq_none_iff.mp found) value
    rw [read?_eq, address, Option.bind_some, write_of_new found, cells_allocate, length_names,
      ← size_cells, Array.getElem?_push_size]
    rfl

/-! ## Many writes -/

/-- Values are written under their names, one after the other. -/
def writes (m : Memory) (cells : List Cell) : Memory :=
  cells.foldl (fun m cell => m.write cell.name cell.value) m

theorem writes_append (m : Memory) (first second : List Cell) :
    m.writes (first ++ second) = (m.writes first).writes second :=
  List.foldl_append

/-- A name that is not written keeps its address and its value. -/
theorem writes_of_not_mem (m : Memory) {cells : List Cell}
    (unwritten : name ∉ cells.map (·.name)) :
    (m.writes cells).address? name = m.address? name ∧
      (m.writes cells).read? name = m.read? name := by
  induction cells generalizing m with
  | nil => exact ⟨rfl, rfl⟩
  | cons cell rest ih =>
    obtain ⟨apart, notInRest⟩ := not_or.mp (mt List.mem_cons.mpr unwritten)
    obtain ⟨address, value⟩ := ih (m.write cell.name cell.value) notInRest
    have changes := changesOnly_write m cell.name cell.value
    exact ⟨address.trans (changes.address?_eq apart), value.trans (changes.read?_eq apart)⟩

/-- After the same writes two memories agree on the names written, and where they agreed before. -/
theorem read?_writes_congr {m other : Memory} {cells : List Cell}
    (agree : other.read? name = m.read? name ∨ name ∈ cells.map (·.name)) :
    (other.writes cells).read? name = (m.writes cells).read? name := by
  induction cells generalizing m other with
  | nil => exact agree.resolve_right List.not_mem_nil
  | cons cell rest ih =>
    refine ih ?_
    by_cases same : name = cell.name
    · subst same
      left
      rw [read?_write_self, read?_write_self]
    · refine agree.imp (fun agree => ?_) fun member => (List.mem_cons.mp member).resolve_left same
      rw [(changesOnly_write other _ _).read?_eq same, (changesOnly_write m _ _).read?_eq same,
        agree]

theorem address?_eq_of_cells {m other : Memory} (same : other.cells = m.cells) (name : Text) :
    other.address? name = m.address? name :=
  address?_congr fun address => by rw [getElem?_names, getElem?_names, same]

/-- What is written where depends on the cells, and not on the slots that are free: one memory may
have to grow for the new cell and the other not. -/
theorem cells_write_congr {m other : Memory} (same : other.cells = m.cells) (name : Text)
    (value : Value) : (other.write name value).cells = (m.write name value).cells := by
  have sameAddress := address?_eq_of_cells same name
  cases found : m.address? name with
  | some address =>
    rw [write_of_address? found, write_of_address? (sameAddress.trans found), cells_setAt,
      cells_setAt, same]
  | none =>
    rw [write_of_new found, write_of_new (sameAddress.trans found), cells_allocate,
      cells_allocate, same]

theorem cells_writes_congr {m other : Memory} (same : other.cells = m.cells) (cells : List Cell) :
    (other.writes cells).cells = (m.writes cells).cells := by
  induction cells generalizing m other with
  | nil => exact same
  | cons cell rest ih => exact ih (cells_write_congr same cell.name cell.value)

theorem read?_congr {m other : Memory} (same : other.cells = m.cells) (name : Text) :
    other.read? name = m.read? name := by
  rw [read?_eq, read?_eq, address?_eq_of_cells same, same]

/-! ## Addresses over time -/

/-- One operation adds no names but after the others. -/
theorem names_kept_perform (m : Memory) (operation : Operation) :
    m.names <+: (m.perform operation).names := by
  cases operation with
  | write name value => exact (changesOnly_write m name value).names_kept
  | writeAt address value =>
    rw [perform, writeAt?]
    split
    · exact (names_setAt m address.toNat value).symm ▸ List.prefix_rfl
    · exact List.prefix_rfl

theorem names_kept_run (m : Memory) (operations : List Operation) :
    m.names <+: (operations.foldl perform m).names := by
  induction operations generalizing m with
  | nil => exact List.prefix_rfl
  | cons operation rest ih => exact (names_kept_perform m operation).trans (ih _)

/-! ## Capacity -/

/-- The capacity is the initial one doubled `times` times, which is enough for the variables, while
no smaller number of doublings is. -/
structure Doubled (initial times : Nat) (m : Memory) : Prop where
  capacity : m.capacity = initial * 2 ^ times
  enough : m.size ≤ initial * 2 ^ times
  least : ∀ fewer < times, initial * 2 ^ fewer < m.size

namespace Doubled

variable {initial times : Nat}

theorem setAt (doubled : Doubled initial times m) (address : Nat) (value : Value) :
    Doubled initial times (m.setAt address value) := by
  exact
    { capacity := (capacity_setAt m address value).trans doubled.capacity
      enough := doubled.enough
      least := doubled.least }

theorem allocate (doubled : Doubled initial times m) (positive : 0 < initial)
    (new : m.address? name = none) (value : Value) :
    ∃ times, Doubled initial times (m.allocate name value new) := by
  have grown := m.size_allocate name value new
  have capacity := m.capacity_allocate name value new
  rw [doubled.capacity] at capacity
  by_cases full : m.size = initial * 2 ^ times
  · -- The old capacity is full, so it and all smaller ones are too small for one more cell.
    rw [if_pos full] at capacity
    have atLeastOne : 0 < initial * 2 ^ times := Nat.mul_pos positive (Nat.two_pow_pos times)
    have twice : initial * 2 ^ (times + 1) = 2 * (initial * 2 ^ times) := by
      rw [Nat.pow_succ, ← Nat.mul_assoc, Nat.mul_comm]
    refine ⟨times + 1, capacity.trans twice.symm, by omega, ?_⟩
    intro fewer le
    have smaller : initial * 2 ^ fewer ≤ initial * 2 ^ times :=
      Nat.mul_le_mul_left initial (Nat.pow_le_pow_right (by decide) (Nat.le_of_lt_succ le))
    omega
  · rw [if_neg full] at capacity
    have enough := doubled.enough
    refine ⟨times, capacity, by omega, ?_⟩
    intro fewer less
    have tooSmall := doubled.least fewer less
    omega

/-- What one operation preserves. -/
theorem perform (doubled : Doubled initial times m) (positive : 0 < initial)
    (operation : Operation) : ∃ times, Doubled initial times (m.perform operation) := by
  cases operation with
  | write name value =>
    change ∃ times, Doubled initial times (m.write name value)
    cases found : m.address? name with
    | some address =>
      rw [write_of_address? found]
      exact ⟨times, doubled.setAt address value⟩
    | none =>
      rw [write_of_new found]
      exact doubled.allocate positive found value
  | writeAt address value =>
    rw [Memory.perform, writeAt?]
    split
    · exact ⟨times, doubled.setAt _ value⟩
    · exact ⟨times, doubled⟩

theorem run (doubled : Doubled initial times m) (positive : 0 < initial)
    (operations : List Operation) :
    ∃ times, Doubled initial times (operations.foldl Memory.perform m) := by
  induction operations generalizing m times with
  | nil => exact ⟨times, doubled⟩
  | cons operation rest ih =>
    obtain ⟨more, after⟩ := doubled.perform positive operation
    exact ih after

end Doubled

theorem capacity_withCapacity (request : Int) :
    (withCapacity request).capacity = if 0 < request then request.toNat else 4 :=
  Array.size_replicate

/-- The address of a name is the number of names written before its first write, and no later
operation changes it.  The capacity is always enough; it is the initial one, four if none was asked
for, doubled the least number of times for which it is. -/
theorem addresses_stay_and_capacity_doubles (request : Int) :
    (∀ (past later : List Operation) (name : Text) (value : Value),
      (∀ earlier, .write name earlier ∉ past) →
        ((past ++ .write name value :: later).foldl perform (withCapacity request)).address? name =
          some (firstWritten past).length) ∧
    ∀ operations : List Operation,
      let initial := if 0 < request then request.toNat else 4
      let m := operations.foldl perform (withCapacity request)
      (∀ (name : Text) (address : Nat), m.address? name = some address →
        ∀ later : List Operation, (later.foldl perform m).address? name = some address) ∧
      m.size ≤ m.capacity ∧
      ∃ times, m.capacity = initial * 2 ^ times ∧ m.size ≤ initial * 2 ^ times ∧
        ∀ fewer < times, initial * 2 ^ fewer < m.size := by
  refine ⟨?_, ?_⟩
  · intro past later name value unwritten
    rw [List.foldl_append, List.foldl_cons]
    have reflects := (Reflects.withCapacity request).run past
    generalize past.foldl perform (withCapacity request) = m at reflects
    have new : name ∉ m.names := by
      rw [reflects.names, List.nil_append, mem_firstWritten]
      rintro ⟨earlier, member⟩
      exact unwritten earlier member
    have first := address?_write_of_new new value
    rw [reflects.names, List.nil_append] at first
    exact address?_of_kept (names_kept_run (m.write name value) later) first
  · intro operations initial m
    have capacity : (withCapacity request).capacity = initial := capacity_withCapacity request
    have positive : 0 < initial := capacity ▸ (withCapacity request).nonempty
    have start : Doubled initial 0 (withCapacity request) :=
      { capacity := capacity.trans (Nat.mul_one initial).symm
        enough := Nat.zero_le _
        least := fun _ less => absurd less (Nat.not_lt_zero _) }
    obtain ⟨times, doubled⟩ := start.run positive operations
    refine ⟨?_, doubled.capacity ▸ doubled.enough, times, doubled.capacity, doubled.enough,
      doubled.least⟩
    intro name address found later
    exact address?_of_kept (names_kept_run m later) found

end Memory

end StepGraph
