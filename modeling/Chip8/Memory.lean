import Chip8.HostNumber
import Chip8.Text.Hex
import Chip8.Word

/-!
# Memory

A memory is a row of byte cells. Single-byte access takes any integer as address and reduces it
modulo 4096, so that a run past the top continues at the bottom. A bulk load does not wrap: it
fits as a whole or changes nothing.

The machine's own memory has exactly 4096 cells, one for each address, and its accesses cannot
fail. A smaller memory lacks the cell of some addresses. The cells that a larger one has above
the last address are never read, so only their number is kept.
-/

namespace Chip8

/-- Why a memory request was refused. -/
inductive MemoryError
  | noCell
  -- A bulk load of `length` bytes at `start` leaves the memory.
  | segment (length : Nat) (start : Int)
  | negativeSize
  -- The wanted size is no size at all.
  | noSize
  -- There is no storage for the wanted size.
  | noStorage
deriving DecidableEq, Repr

/-- The wording of a refusal. -/
def MemoryError.message : MemoryError → String
  | .noCell => "bytearray index out of range"
  | .segment length start =>
    s!"Segment of {length} bytes at 0x" ++ Text.hex 3 start ++ " exceeds memory"
  | .negativeSize => "negative count"
  | .noSize => HostNumber.misfit
  | .noStorage => ""

/-- A row of `size` byte cells, of which those with an address are kept. -/
structure Memory (size : Nat) where
  cells : Vector UInt8 (min size 4096)
deriving DecidableEq, Repr

/-- The memory of the machine: one cell for every address. -/
abbrev Ram := Memory 4096

/-- Where programs are loaded. -/
def programStart : Nat := 0x200

/-- The largest program that fits above `programStart`. -/
def programLimit : Nat := 4096 - programStart

namespace Memory

variable {size : Nat}

/-- A memory of zeros. -/
def blank (size : Nat) : Memory size :=
  ⟨Vector.replicate (min size 4096) 0⟩

/-- A blank memory of a requested size. -/
def ofSize? (size : Int) : Except MemoryError ((n : Nat) × Memory n) :=
  if !HostNumber.fits size then .error .noSize
  else if size < 0 then .error .negativeSize
  else if HostNumber.storageLimit ≤ size then .error .noStorage
  else .ok ⟨size.toNat, blank size.toNat⟩

/-- The byte at an address modulo 4096, if the memory has that cell. -/
def get? (m : Memory size) (address : Int) : Except MemoryError UInt8 :=
  match m.cells[(Address.ofInt address).val]? with
  | some byte => .ok byte
  | none => .error .noCell

/-- Stores a byte at an address modulo 4096, if the memory has that cell. -/
def set? (m : Memory size) (address : Int) (byte : UInt8) : Except MemoryError (Memory size) :=
  if h : (Address.ofInt address).val < min size 4096 then
    .ok ⟨m.cells.set (Address.ofInt address).val byte h⟩
  else
    .error .noCell

/-- The big-endian word at an address; its second byte is at the next address modulo 4096. -/
def word? (m : Memory size) (address : Int) : Except MemoryError Word := do
  let high ← m.get? address
  let low ← m.get? (address + 1)
  return Word.ofBytes high low

/-- Consecutive bytes from an address on, wrapping modulo 4096; no bytes for a negative count.
The bytes are read in order and the first missing cell ends the reading, however many bytes
are asked for. -/
def block? (m : Memory size) (address count : Int) : Except MemoryError (List UInt8) :=
  List.ofFnM fun (i : Fin count.toNat) => m.get? (address + i.val)

/-- Lays bytes over consecutive cells from position `start` on; bytes past the last cell are
dropped. -/
def overlay {count : Nat} (cells : Vector UInt8 count) (start : Nat) :
    List UInt8 → Vector UInt8 count
  | [] => cells
  | byte :: rest => overlay (cells.setIfInBounds start byte) (start + 1) rest

/-- Copies bytes to consecutive cells from an absolute address on. Nothing wraps: a load that
does not fit is refused. -/
def load? (m : Memory size) (start : Int) (bytes : List UInt8) :
    Except MemoryError (Memory size) :=
  if start < 0 ∨ size < start + bytes.length then
    .error (.segment bytes.length start)
  else
    .ok ⟨overlay m.cells start.toNat bytes⟩

/-! ### The machine's memory -/

/-- The byte at an address. -/
def read (m : Ram) (a : Address) : UInt8 :=
  m.cells[a]

/-- Stores a byte at an address. -/
def write (m : Ram) (a : Address) (byte : UInt8) : Ram :=
  ⟨m.cells.set a.val byte⟩

/-- The big-endian word at an address. -/
def word (m : Ram) (a : Address) : Word :=
  Word.ofBytes (m.read a) (m.read (a + 1))

/-- `count` consecutive bytes from an address on. -/
def block (m : Ram) (a : Address) (count : Nat) : List UInt8 :=
  (List.range count).map fun i => m.read (a + Fin.ofNat 4096 i)

/-- Stores bytes at consecutive addresses. -/
def writeBlock (m : Ram) (a : Address) : List UInt8 → Ram
  | [] => m
  | byte :: rest => (m.write a byte).writeBlock (a + 1) rest

/-- What is written is read back, and other cells keep their bytes. -/
@[simp] theorem read_write (m : Ram) (a b : Address) (byte : UInt8) :
    (m.write a byte).read b = if b = a then byte else m.read b := by
  simp only [read, write, Fin.getElem_fin, Vector.getElem_set, Fin.ext_iff, eq_comm]

@[simp] theorem read_blank (a : Address) : (blank 4096).read a = 0 := by
  simp [read, blank]

/-- Every address of the machine's memory has a cell. -/
@[simp] theorem get?_ram (m : Ram) (address : Int) :
    m.get? address = .ok (m.read (Address.ofInt address)) := by
  have h : (Address.ofInt address).val < 4096 := (Address.ofInt address).isLt
  simp only [get?, read, Vector.getElem?_eq_getElem h, Fin.getElem_fin]

@[simp] theorem set?_ram (m : Ram) (address : Int) (byte : UInt8) :
    m.set? address byte = .ok (m.write (Address.ofInt address) byte) := by
  have h : (Address.ofInt address).val < min 4096 4096 := (Address.ofInt address).isLt
  simp only [set?, write, dif_pos h]

/-- Every address of the machine's memory has a word. -/
@[simp] theorem word?_ram (m : Ram) (a : Address) : m.word? a.val = .ok (m.word a) := by
  have hnext : Address.ofInt ((a.val : Int) + 1) = a + 1 := Address.ofInt_add_val a 1
  simp only [word?, get?_ram, hnext, Address.ofInt_val]
  rfl

/-- Every reading of the machine's memory succeeds. -/
@[simp] theorem block?_ram (m : Ram) (address count : Int) :
    m.block? address count = .ok (m.block (Address.ofInt address) count.toNat) := by
  simp only [block?, get?_ram, Address.ofInt_add]
  refine Eq.trans List.ofFnM_pure (congrArg Except.ok ?_)
  apply List.ext_getElem <;> simp [block]

@[simp] theorem length_block (m : Ram) (a : Address) (count : Nat) :
    (m.block a count).length = count := by
  simp [block]

theorem getElem_block (m : Ram) (a : Address) {count k : Nat} (hk : k < (m.block a count).length) :
    (m.block a count)[k] = m.read (a + Fin.ofNat 4096 k) := by
  simp only [block, List.getElem_map, List.getElem_range]

/-- The cell of an address in the row of all cells. -/
theorem getElem?_cells (m : Ram) (a : Address) : m.cells.toList[a.val]? = some (m.read a) := by
  have hlt : a.val < m.cells.toList.length := by
    rw [Vector.length_toList]
    exact a.isLt
  rw [List.getElem?_eq_getElem hlt]
  rfl

end Memory

end Chip8
