import Chip8.Memory

/-!
# Hex dumps

Rows of sixteen bytes from an aligned address on, wrapping at the top of memory. A row shows its
address, the bytes with a wider gap in the middle, and the bytes as characters where they are
printable.
-/

namespace Chip8.HexDump

/-- The address of the row that holds an address. -/
def align (address : Int) : Address :=
  Address.ofInt (address - address % 16)

/-- The address of a row of a dump. -/
def rowAddress (start : Int) (row : Nat) : Address :=
  align start + Address.ofInt (16 * row)

/-- A byte as a character; a dot stands for bytes that are not printable. -/
def character (byte : UInt8) : Char :=
  if 0x20 ≤ byte.toNat ∧ byte.toNat ≤ 0x7E then Char.ofNat byte.toNat else '.'

/-- The bytes of half a row. -/
def halfRow (bytes : List UInt8) : String :=
  String.intercalate " " (bytes.map Text.hexByte)

/-- A row of sixteen bytes. -/
def row (address : Address) (bytes : List UInt8) : String :=
  Address.text address ++ ": " ++ halfRow (bytes.take 8) ++ "  " ++
    halfRow (bytes.drop 8) ++ "  |" ++ String.ofList (bytes.map character) ++ "|"

/-- The dump of some rows from the row of an address on; no rows for a negative count. The
first missing cell ends the dump, however many rows are asked for. -/
def text {size : Nat} (m : Memory size) (start : Int) (rows : Int := 16) :
    Except MemoryError String := do
  let lines ← List.ofFnM fun (i : Fin rows.toNat) => do
    let address := rowAddress start i
    let bytes ← m.block? address.val 16
    return row address bytes
  return String.intercalate "\n" lines

end Chip8.HexDump
