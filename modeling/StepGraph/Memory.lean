import StepGraph.Value

/-!
# Memory

The store of variables.  Its cells stand in the front of an array of slots, a
counter tells how many of the slots are in use, and an index leads from a name to
its address.  A variable gets its address when it is first written and keeps it;
cells are never removed.  When a new variable finds no free slot, the cells move
to an array of twice the size.
-/

namespace StepGraph

structure Cell where
  name : Text
  value : Value
  deriving DecidableEq

namespace Cell

def blank : Cell := { name := [], value := .none }

def withValue (cell : Cell) (value : Value) : Cell := { cell with value }

end Cell

/-- The index knows the names in the slots in use, each with its address, and no others. -/
def Indexes (index : List (Text × Nat)) (slots : Array Cell) (used : Nat) : Prop :=
  ∀ name address, index.lookup name = some address ↔
    address < used ∧ slots[address]?.map (·.name) = some name

namespace Indexes

variable {index : List (Text × Nat)} {slots : Array Cell} {used : Nat}

theorem of_names {other : Array Cell} (indexes : Indexes index slots used)
    (same : ∀ address < used, other[address]?.map (·.name) = slots[address]?.map (·.name)) :
    Indexes index other used := by
  intro name address
  rw [indexes name address]
  exact and_congr_right fun inUse => by rw [same address inUse]

theorem set (indexes : Indexes index slots used) (free : used < slots.size) (cell : Cell)
    (new : index.lookup cell.name = none) :
    Indexes ((cell.name, used) :: index) (slots.set used cell free) (used + 1) := by
  intro name address
  rw [List.lookup_cons, Array.getElem?_set free]
  by_cases own : name = cell.name
  · subst own
    have absent := indexes cell.name address
    rw [new] at absent
    simp only [beq_self_eq_true, Option.some.injEq]
    split
    · rename_i last
      exact iff_of_true last ⟨by omega, rfl⟩
    · rename_i apart
      refine iff_of_false apart fun ⟨inUse, stands⟩ => ?_
      exact nomatch absent.mpr ⟨by omega, stands⟩
  · rw [beq_eq_false_iff_ne.mpr own, indexes name address]
    split
    · rename_i last
      refine iff_of_false (by omega) fun ⟨_, stands⟩ => own ?_
      exact (Option.some.inj stands).symm
    · rename_i apart
      exact and_congr_left fun _ => by omega

end Indexes

structure Memory where
  slots : Array Cell
  used : Nat
  index : List (Text × Nat)
  /-- Without a slot there would be nothing to double. -/
  nonempty : 0 < slots.size
  fits : used ≤ slots.size
  indexed : Indexes index slots used
  deriving DecidableEq

namespace Memory

def defaultCapacity : Nat := 4

/-- An empty memory; a request that is not positive gives the default capacity. -/
def withCapacity (request : Int) : Memory where
  slots := .replicate (if 0 < request then request.toNat else defaultCapacity) .blank
  used := 0
  index := []
  nonempty := by
    rw [Array.size_replicate]
    split
    · omega
    · decide
  fits := Nat.zero_le _
  indexed := fun _ _ => iff_of_false nofun fun inside => absurd inside.1 (Nat.not_lt_zero _)

def empty : Memory := withCapacity defaultCapacity

def capacity (m : Memory) : Nat := m.slots.size

def size (m : Memory) : Nat := m.used

def cells (m : Memory) : Array Cell := m.slots.take m.used

theorem size_cells (m : Memory) : m.cells.size = m.size := by
  have fits := m.fits
  rw [cells, size, Array.take_eq_extract, Array.size_extract]
  omega

theorem getElem?_cells (m : Memory) (address : Nat) :
    m.cells[address]? = if address < m.used then m.slots[address]? else none := by
  have fits := m.fits
  rw [cells, Array.take_eq_extract, Array.getElem?_extract, Nat.zero_add, Nat.sub_zero,
    Nat.min_eq_left fits]

def address? (m : Memory) (name : Text) : Option Nat := m.index.lookup name

def cell? (m : Memory) (address : Int) : Option Cell :=
  if 0 ≤ address ∧ address < m.used then m.slots[address.toNat]? else none

def valueAt? (m : Memory) (address : Int) : Option Value := (m.cell? address).map (·.value)

def read? (m : Memory) (name : Text) : Option Value :=
  match m.address? name with
  | some address => (m.slots[address]?).map (·.value)
  | none => none

/-- The value of an existing cell is replaced. -/
def setAt (m : Memory) (address : Nat) (value : Value) : Memory :=
  { m with
    slots := m.slots.modify address (·.withValue value)
    nonempty := by
      rw [Array.size_modify]
      exact m.nonempty
    fits := by
      rw [Array.size_modify]
      exact m.fits
    indexed := m.indexed.of_names fun other _ => by
      rw [Array.getElem?_modify]
      split
      · rw [Option.map_map]
        rfl
      · rfl }

def writeAt? (m : Memory) (address : Int) (value : Value) : Option Memory :=
  match m.cell? address with
  | some _ => some (m.setAt address.toNat value)
  | none => none

/-- The cells in use stand in the front of an array of twice the size. -/
def grow (m : Memory) : Memory :=
  { m with
    slots := m.cells ++ Array.replicate (2 * m.capacity - m.used) .blank
    nonempty := by
      have nonempty := m.nonempty
      have fits := m.fits
      rw [Array.size_append, size_cells, Array.size_replicate, size, capacity]
      omega
    fits := by
      rw [Array.size_append, size_cells]
      exact Nat.le_add_right _ _
    indexed := m.indexed.of_names fun address inUse => by
      have inside : address < m.cells.size := m.size_cells.symm ▸ inUse
      rw [Array.getElem?_append_left inside, getElem?_cells, if_pos inUse] }

theorem capacity_grow (m : Memory) : m.grow.capacity = 2 * m.capacity := by
  have fits := m.fits
  rw [capacity, grow, Array.size_append, size_cells, Array.size_replicate, size, capacity]
  omega

/-- The memory has grown if all its slots were in use. -/
def withFreeSlot (m : Memory) : Memory := if m.used = m.capacity then m.grow else m

theorem used_withFreeSlot (m : Memory) : m.withFreeSlot.used = m.used := by
  unfold withFreeSlot
  split <;> rfl

theorem index_withFreeSlot (m : Memory) : m.withFreeSlot.index = m.index := by
  unfold withFreeSlot
  split <;> rfl

theorem capacity_withFreeSlot (m : Memory) :
    m.withFreeSlot.capacity = if m.size = m.capacity then 2 * m.capacity else m.capacity := by
  unfold withFreeSlot size
  split
  · exact m.capacity_grow
  · rfl

theorem used_lt_withFreeSlot (m : Memory) : m.withFreeSlot.used < m.withFreeSlot.slots.size := by
  have nonempty : 0 < m.capacity := m.nonempty
  have fits : m.used ≤ m.capacity := m.fits
  change m.withFreeSlot.used < m.withFreeSlot.capacity
  rw [used_withFreeSlot, capacity_withFreeSlot]
  unfold size
  split <;> omega

/-- A cell for a new name in the first slot that is free. -/
def allocate (m : Memory) (name : Text) (value : Value) (new : m.address? name = none) :
    Memory where
  slots := m.withFreeSlot.slots.set m.withFreeSlot.used { name, value } m.used_lt_withFreeSlot
  used := m.withFreeSlot.used + 1
  index := (name, m.withFreeSlot.used) :: m.withFreeSlot.index
  nonempty := by
    rw [Array.size_set]
    exact m.withFreeSlot.nonempty
  fits := by
    rw [Array.size_set]
    exact m.used_lt_withFreeSlot
  indexed := by
    have unknown : m.withFreeSlot.index.lookup name = none := m.index_withFreeSlot.symm ▸ new
    exact m.withFreeSlot.indexed.set m.used_lt_withFreeSlot { name, value } unknown

/-- The value of a variable is replaced; a new variable gets a new cell. -/
def write (m : Memory) (name : Text) (value : Value) : Memory :=
  match found : m.address? name with
  | some address => m.setAt address value
  | none => m.allocate name value found

def dumpValue : Value → Text
  | .none => utf8 "none, None"
  | .int n => utf8 "int, " ++ Text.ofInt n.toInt
  | .real x => utf8 "real, " ++ Double.fixed 6 x
  | .str s => utf8 "str, '" ++ s ++ utf8 "'"
  | .ptr address => utf8 "ptr, " ++ Text.ofInt address.toInt
  | .bool b => utf8 "boolean, " ++ (Value.bool b).display

def dumpCell (address : Nat) (cell : Cell) : Text :=
  utf8 " " ++ Text.ofNat address ++ utf8 ": " ++ cell.name ++ utf8 ", " ++ dumpValue cell.value
    ++ utf8 "\n"

/-- All cells in the order of their addresses, for reading. -/
def dump (m : Memory) : Text :=
  utf8 "**MEMORY PRINT**\nCapacity: " ++ Text.ofNat m.capacity
    ++ utf8 "\nNum values: " ++ Text.ofNat m.size ++ utf8 "\nContents:\n"
    ++ (m.cells.toList.zipIdx.flatMap fun (cell, address) => dumpCell address cell)
    ++ utf8 "**END PRINT**\n"

end Memory

end StepGraph
