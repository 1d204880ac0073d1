import Chip8.HostNumber
import Chip8.Word

/-!
# General registers

Sixteen byte registers. The machine reads and writes them by register number, which cannot
fail. A host may also name one by any integer: negative numbers count from the last register,
and numbers outside -16 to 15 name none.
-/

namespace Chip8

/-- Why a host's register request was refused. -/
inductive RegisterError
  -- No register of that number to read.
  | noSource
  -- No register of that number to write.
  | noTarget
  -- The number is no position at all.
  | noPosition
deriving DecidableEq, Repr

/-- The wording of a refusal. -/
def RegisterError.message : RegisterError → String
  | .noSource => "list index out of range"
  | .noTarget => "list assignment index out of range"
  | .noPosition => HostNumber.misfit

/-- The sixteen registers. -/
structure Registers where
  cells : Vector UInt8 16
deriving DecidableEq, Repr

namespace Registers

/-- All registers zero. -/
def zero : Registers :=
  ⟨Vector.replicate 16 0⟩

/-- The value of a register. -/
def read (v : Registers) (r : Register) : UInt8 :=
  v.cells[r]

/-- Sets a register. -/
def write (v : Registers) (r : Register) (value : UInt8) : Registers :=
  ⟨v.cells.set r.val value⟩

/-- Sets registers from `first` on to the values of a list, as far as there are registers. -/
def writeFrom (v : Registers) (first : Nat) : List UInt8 → Registers
  | [] => v
  | value :: rest => writeFrom ⟨v.cells.setIfInBounds first value⟩ (first + 1) rest

/-- The values in order of register number. -/
def toList (v : Registers) : List UInt8 :=
  v.cells.toList

/-- The register that an integer names. -/
def resolve? (index : Int) : Option Register :=
  if h : 0 ≤ index ∧ index < 16 then some ⟨index.toNat, Nibble.toNat_lt h⟩
  else if h : -16 ≤ index ∧ index < 0 then some ⟨(index + 16).toNat, by omega⟩
  else none

/-- The value of the register that an integer names. -/
def read? (v : Registers) (index : Int) : Except RegisterError UInt8 :=
  match resolve? index with
  | some r => .ok (v.read r)
  | none => .error (if HostNumber.fits index then .noSource else .noPosition)

/-- Sets the register that an integer names to a value modulo 256. -/
def write? (v : Registers) (index value : Int) : Except RegisterError Registers :=
  match resolve? index with
  | some r => .ok (v.write r (UInt8.ofInt value))
  | none => .error (if HostNumber.fits index then .noTarget else .noPosition)

@[simp] theorem read_write (v : Registers) (r s : Register) (value : UInt8) :
    (v.write r value).read s = if s = r then value else v.read s := by
  simp only [read, write, Fin.getElem_fin, Vector.getElem_set, Fin.ext_iff, eq_comm]

@[simp] theorem length_toList (v : Registers) : v.toList.length = 16 := by
  simp [toList]

/-- Registers that agree everywhere are the same. -/
@[ext] theorem ext {v w : Registers} (h : ∀ r, v.read r = w.read r) : v = w := by
  obtain ⟨v⟩ := v
  obtain ⟨w⟩ := w
  congr 1
  apply Vector.ext
  intro i hi
  exact h ⟨i, hi⟩

/-- A register number names itself. -/
@[simp] theorem resolve?_val (r : Register) : resolve? (r.val : Int) = some r := by
  have := r.isLt
  simp only [resolve?]
  rw [dif_pos (by omega)]
  simp

end Registers

end Chip8
