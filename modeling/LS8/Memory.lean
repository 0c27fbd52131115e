import LS8.Access

/-!
# Memory

A flat space of 256 byte cells. Every access is checked; nothing wraps around at the end. Programs
are installed from address zero and the cells behind them are cleared (`Memory.loadImage`); a
snapshot's image has to cover the memory exactly (`Memory.ofImage`).
-/

namespace LS8

/-- The main memory: 256 cells of one byte. -/
structure Memory where
  /-- The cells in address order. -/
  cells : Vector UInt8 256
  deriving DecidableEq

namespace Memory

/-- The number of cells. -/
def capacity : Nat := 256

/-- All cells zero. -/
def zero : Memory := ⟨Vector.replicate 256 0⟩

instance : Inhabited Memory := ⟨zero⟩

/-- The byte at an address, or nothing past the end. -/
def get? (memory : Memory) (address : Nat) : Option UInt8 :=
  memory.cells[address]?

/-- The byte at an address; past the end this is a fault. -/
def read (memory : Memory) (address : Nat) : Except Fault UInt8 :=
  match memory.get? address with
  | some byte => .ok byte
  | none => .error (.addressOutOfRange .memory address)

/-- The memory with one cell replaced. -/
def write (memory : Memory) (address : Nat) (byte : UInt8) : Except Fault Memory :=
  if h : address < 256 then .ok ⟨memory.cells.set address byte h⟩
  else .error (.addressOutOfRange .memory address)

/-- Writes a value that may be too wide for a cell. A bad address is reported before a bad value. -/
def writeValue (memory : Memory) (address value : Nat) : Except Fault Memory := do
  let address ← checkAddress .memory address capacity
  memory.write address (← byteOperand value)

/-- The cells in address order. -/
def toList (memory : Memory) : List UInt8 :=
  memory.cells.toList

/-- The memory that holds an image from address zero and zeros behind it. -/
def ofProgram (image : List UInt8) : Memory :=
  ⟨Vector.ofFn fun address => image.getD address 0⟩

/-- Installs a program image, provided that it fits. The result does not depend on what the memory
held before. -/
def loadImage (image : List UInt8) : Except Fault Memory :=
  if image.length ≤ capacity then .ok (ofProgram image)
  else .error (.programTooLarge image.length capacity)

/-- The memory with exactly the given cells, as snapshots store it. -/
def ofImage (image : List UInt8) : Except Fault Memory :=
  if h : image.length = 256 then .ok ⟨⟨image.toArray, by simp [h]⟩⟩
  else .error (.snapshotLayout
    ("memory image is " ++ decimal image.length ++ " bytes, expected " ++ decimal capacity))

@[simp] theorem length_toList (memory : Memory) : memory.toList.length = 256 := by
  simp [toList]

/-- Nothing lies at address 256 or behind it. -/
theorem get?_eq_none_iff {memory : Memory} {address : Nat} :
    memory.get? address = none ↔ 256 ≤ address := by
  simp [get?]

theorem get?_of_lt {memory : Memory} {address : Nat} (h : address < 256) :
    memory.get? address = some memory.cells[address] := by
  simp [get?, h]

theorem get?_isSome_iff {memory : Memory} {address : Nat} :
    (memory.get? address).isSome ↔ address < 256 := by
  simp [get?]

theorem lt_of_get? {memory : Memory} {address : Nat} {byte : UInt8}
    (h : memory.get? address = some byte) : address < 256 :=
  get?_isSome_iff.mp (by rw [h]; rfl)

/-- Reading gives the byte of the cell, and it fails where there is no cell. -/
theorem read_eq_ok_iff {memory : Memory} {address : Nat} {byte : UInt8} :
    memory.read address = .ok byte ↔ memory.get? address = some byte := by
  unfold read
  split <;> simp_all

/-- A byte that was read lies inside the memory. -/
theorem lt_of_read {memory : Memory} {address : Nat} {byte : UInt8}
    (h : memory.read address = .ok byte) : address < 256 :=
  lt_of_get? (read_eq_ok_iff.mp h)

/-- A read behind the last cell names the address and the space. -/
theorem read_of_le {memory : Memory} {address : Nat} (h : 256 ≤ address) :
    memory.read address = .error (.addressOutOfRange .memory address) := by
  simp [read, get?_eq_none_iff.mpr h]

/-- An image stands at the front of the memory, with zeros behind it. -/
theorem get?_ofProgram {image : List UInt8} {address : Nat} (h : address < 256) :
    (ofProgram image).get? address = some (image.getD address 0) := by
  simp [ofProgram, get?, h]

/-- Two memories with the same cells are equal. -/
theorem ext_get? {a b : Memory} (h : ∀ address < 256, a.get? address = b.get? address) : a = b := by
  have hcells : ∀ i (hi : i < 256), a.cells[i] = b.cells[i] := fun i hi =>
    Option.some.inj (by rw [← get?_of_lt hi, ← get?_of_lt hi, h i hi])
  cases a; cases b
  exact congrArg Memory.mk (Vector.ext hcells)

/-- A memory is taken back from its own cells. -/
theorem ofImage_toList (memory : Memory) : ofImage memory.toList = .ok memory := by
  rw [ofImage, dif_pos memory.length_toList]
  rfl

/-- An image that was accepted holds every cell of the memory. -/
theorem toList_of_ofImage {image : List UInt8} {memory : Memory} (h : ofImage image = .ok memory) :
    memory.toList = image := by
  unfold ofImage at h
  split at h
  · cases h
    simp [toList]
  · simp at h

end Memory

end LS8
