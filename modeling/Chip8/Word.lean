import Chip8.Text.Hex

/-!
# Addresses, registers and instruction words

The machine addresses 4096 cells, so an address is a number modulo 4096 and its arithmetic
wraps. An instruction word is four hexadecimal digits. The first digit names the family of the
instruction; the others are read alone or together as an address or a byte.
-/

namespace Chip8

-- Zero is the numeral here, and not that of an algebraic structure.
attribute [local instance (1100)] Zero.ofOfNat0

/-- One hexadecimal digit. -/
abbrev Nibble := Fin 16

/-- The number of one of the sixteen general registers. -/
abbrev Register := Fin 16

/-- An address of the 4096-cell memory. -/
abbrev Address := Fin 4096

-- Every literal of these types refers to one of the same two instances.
instance Nibble.neZero : NeZero 16 := ⟨by decide⟩
instance Address.neZero : NeZero 4096 := ⟨by decide⟩

/-- The register that instructions use as carry, borrow and collision flag. -/
def flagRegister : Register := 15

/-- The address congruent to an integer. -/
def Address.ofInt (value : Int) : Address :=
  ⟨(value % 4096).toNat, by omega⟩

/-- An address as it is written in texts for people: three hexadecimal digits behind a mark. -/
def Address.text (a : Address) : String :=
  "0x" ++ Text.hex 3 a.val

/-- The nibble congruent to a number. -/
def Nibble.ofNat (value : Nat) : Nibble :=
  ⟨value % 16, by omega⟩

@[simp] theorem Address.val_ofInt (value : Int) :
    (Address.ofInt value).val = (value % 4096).toNat := rfl

/-- An address stands for itself. -/
@[simp] theorem Address.ofInt_val (a : Address) : Address.ofInt (a.val : Int) = a := by
  apply Fin.ext
  simp only [Address.val_ofInt]
  omega

/-- Reducing before an addition changes nothing. -/
theorem Address.ofInt_add (value : Int) (k : Nat) :
    Address.ofInt (value + k) = Address.ofInt value + Fin.ofNat 4096 k := by
  apply Fin.ext
  simp only [Address.val_ofInt, Fin.val_add, Fin.val_ofNat]
  omega

/-- Counting on from an address wraps by itself. -/
theorem Address.ofInt_add_val (a : Address) (k : Nat) :
    Address.ofInt ((a.val : Int) + k) = a + Fin.ofNat 4096 k := by
  rw [Address.ofInt_add, Address.ofInt_val]

/-- Counting on by nothing changes nothing. -/
theorem Address.add_ofNat_zero (a : Address) : a + Fin.ofNat 4096 0 = a := by
  apply Fin.ext
  simp only [Fin.val_add, Fin.val_ofNat]
  omega

theorem Address.add_ofNat_succ (a : Address) (k : Nat) :
    a + Fin.ofNat 4096 (k + 1) = a + Fin.ofNat 4096 k + 1 := by
  apply Fin.ext
  show (a.val + (k + 1) % 4096) % 4096 = ((a.val + k % 4096) % 4096 + 1) % 4096
  omega

/-- The addresses behind an address are those behind the next one. -/
theorem Address.add_one_add_ofNat (a : Address) (k : Nat) :
    a + 1 + Fin.ofNat 4096 k = a + Fin.ofNat 4096 (k + 1) := by
  apply Fin.ext
  show ((a.val + 1) % 4096 + k % 4096) % 4096 = (a.val + (k + 1) % 4096) % 4096
  omega

/-- Addresses wrap, but distances below the size of memory lead to different ones. -/
theorem Address.eq_of_add_ofNat_eq {a : Address} {j k : Nat} (hj : j < 4096) (hk : k < 4096)
    (h : a + Fin.ofNat 4096 j = a + Fin.ofNat 4096 k) : j = k := by
  have hval : (a.val + j % 4096) % 4096 = (a.val + k % 4096) % 4096 := congrArg Fin.val h
  omega

theorem Nibble.toNat_lt {value : Int} (h : 0 ≤ value ∧ value < 16) : value.toNat < 16 := by
  omega

@[simp] theorem Nibble.val_ofNat (value : Nat) : (Nibble.ofNat value).val = value % 16 := rfl

/-- A sixteen-bit instruction word, digit by digit. -/
structure Word where
  -- The leading digit, which names the family.
  family : Nibble
  -- The second digit, usually a register.
  x : Nibble
  -- The third digit, usually a register.
  y : Nibble
  n : Nibble
deriving DecidableEq, Repr

namespace Word

/-- The word of a number, of which the low sixteen bits count. -/
def ofNat (value : Nat) : Word :=
  { family := .ofNat (value / 4096), x := .ofNat (value / 256),
    y := .ofNat (value / 16), n := .ofNat value }

/-- The word congruent to an integer modulo 65536. -/
def ofInt (value : Int) : Word :=
  ofNat (value % 65536).toNat

/-- The word made of two bytes, the high one first. -/
def ofBytes (high low : UInt8) : Word :=
  ofNat (high.toNat * 256 + low.toNat)

/-- The value of a word. -/
def toNat (w : Word) : Nat :=
  w.family.val * 4096 + w.x.val * 256 + w.y.val * 16 + w.n.val

/-- The low three digits as a number. -/
def nnn (w : Word) : Nat :=
  w.x.val * 256 + w.y.val * 16 + w.n.val

/-- The low two digits as a number. -/
def kk (w : Word) : Nat :=
  w.y.val * 16 + w.n.val

/-- The low three digits as an address. -/
def address (w : Word) : Address :=
  ⟨w.nnn, by unfold nnn; omega⟩

/-- The low two digits as a byte. -/
def byte (w : Word) : UInt8 :=
  UInt8.ofNat w.kk

/-- The leading byte of a word. -/
def highByte (w : Word) : UInt8 :=
  UInt8.ofNat (w.family.val * 16 + w.x.val)

theorem toNat_lt (w : Word) : w.toNat < 65536 := by
  unfold toNat; omega

@[simp] theorem ofNat_toNat (w : Word) : ofNat w.toNat = w := by
  obtain ⟨f, x, y, n⟩ := w
  simp only [ofNat, toNat, mk.injEq]
  refine ⟨Fin.ext ?_, Fin.ext ?_, Fin.ext ?_, Fin.ext ?_⟩ <;>
    simp only [Nibble.val_ofNat] <;> omega

@[simp] theorem toNat_ofNat (value : Nat) : (ofNat value).toNat = value % 65536 := by
  simp only [ofNat, toNat, Nibble.val_ofNat]
  omega

@[simp] theorem toNat_ofBytes (high low : UInt8) :
    (ofBytes high low).toNat = high.toNat * 256 + low.toNat := by
  have := high.toNat_lt
  have := low.toNat_lt
  simp only [ofBytes, toNat_ofNat]
  omega

end Word

end Chip8
