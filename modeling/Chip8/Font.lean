/-!
# The built-in font

Sixteen glyphs, one for each hexadecimal digit. A glyph is five rows of four columns; each row
is a byte whose high half holds the columns.
-/

namespace Chip8.Font

/-- The address of the first glyph. -/
def base : Nat := 0x050

/-- Bytes in a glyph. -/
def glyphSize : Nat := 5

/-- The bytes of all glyphs, in the order of their digits. -/
def glyphs : List UInt8 := [
  0xF0, 0x90, 0x90, 0x90, 0xF0,
  0x20, 0x60, 0x20, 0x20, 0x70,
  0xF0, 0x10, 0xF0, 0x80, 0xF0,
  0xF0, 0x10, 0xF0, 0x10, 0xF0,
  0x90, 0x90, 0xF0, 0x10, 0x10,
  0xF0, 0x80, 0xF0, 0x10, 0xF0,
  0xF0, 0x80, 0xF0, 0x90, 0xF0,
  0xF0, 0x10, 0x20, 0x40, 0x40,
  0xF0, 0x90, 0xF0, 0x90, 0xF0,
  0xF0, 0x90, 0xF0, 0x10, 0xF0,
  0xF0, 0x90, 0xF0, 0x90, 0x90,
  0xE0, 0x90, 0xE0, 0x90, 0xE0,
  0xF0, 0x80, 0x80, 0x80, 0xF0,
  0xE0, 0x90, 0x90, 0x90, 0xE0,
  0xF0, 0x80, 0xF0, 0x80, 0xF0,
  0xF0, 0x80, 0xF0, 0x80, 0x80]

/-- Where the glyph of a digit starts; of a larger or negative number the low digit counts. -/
def glyphAddress (digit : Int) : Nat :=
  base + (digit % 16).toNat * glyphSize

/-- The glyphs fill their table. -/
theorem length_glyphs : glyphs.length = 16 * glyphSize := rfl

end Chip8.Font
