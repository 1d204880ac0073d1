import Chip8.Instruction
import Chip8.Memory
import Chip8.Text.Hex

/-!
# Disassembly

The assembly text of an instruction, and listings: a window of memory around an address, or a
whole program word by word. A word without a meaning is listed as data.
-/

namespace Chip8

namespace Instruction

/-- The name of a register. -/
def registerName (r : Register) : String :=
  "V" ++ Text.hex 1 r.val

/-- A byte operand. -/
def byteText (byte : UInt8) : String :=
  "0x" ++ Text.hexByte byte

/-- The name of a two-register operation. -/
def aluText : Alu → String
  | .copy => "LD"
  | .or => "OR"
  | .and => "AND"
  | .xor => "XOR"
  | .add => "ADD"
  | .sub => "SUB"
  | .shiftRight => "SHR"
  | .subFrom => "SUBN"
  | .shiftLeft => "SHL"

/-- An operation on a register and a byte. -/
def byteForm (name : String) (x : Register) (byte : UInt8) : String :=
  name ++ " " ++ registerName x ++ ", " ++ byteText byte

/-- An operation on two registers. -/
def registerForm (name : String) (x y : Register) : String :=
  name ++ " " ++ registerName x ++ ", " ++ registerName y

/-- The assembly text of an instruction. -/
def text : Instruction → String
  | clear => "CLS"
  | ret => "RET"
  | jump a => "JP " ++ Address.text a
  | call a => "CALL " ++ Address.text a
  | skipEqByte x byte => byteForm "SE" x byte
  | skipNeByte x byte => byteForm "SNE" x byte
  | skipEq x y => registerForm "SE" x y
  | skipNe x y => registerForm "SNE" x y
  | loadByte x byte => byteForm "LD" x byte
  | addByte x byte => byteForm "ADD" x byte
  | alu op x y => registerForm (aluText op) x y
  | loadIndex a => "LD I, " ++ Address.text a
  | jumpPlus a => "JP V0, " ++ Address.text a
  | random x mask => byteForm "RND" x mask
  | draw x y rows => registerForm "DRW" x y ++ s!", {rows.val}"
  | skipKey x => "SKP " ++ registerName x
  | skipNoKey x => "SKNP " ++ registerName x
  | readDelay x => "LD " ++ registerName x ++ ", DT"
  | waitKey x => "LD " ++ registerName x ++ ", K"
  | setDelay x => "LD DT, " ++ registerName x
  | setSound x => "LD ST, " ++ registerName x
  | addIndex x => "ADD I, " ++ registerName x
  | glyph x => "LD F, " ++ registerName x
  | decimal x => "LD B, " ++ registerName x
  | store x => "LD [I], " ++ registerName x
  | load x => "LD " ++ registerName x ++ ", [I]"
  | undefined w => "DW 0x" ++ Text.hex 4 w.toNat

end Instruction

/-- A line of a listing. -/
structure Line where
  address : Int
  word : Word
  -- Whether the listing was asked for around this address.
  current : Bool
deriving DecidableEq, Repr

namespace Line

/-- The assembly text of the word. -/
def text (l : Line) : String :=
  (Instruction.ofWord l.word).text

/-- The address, the word and its text. -/
def columns (l : Line) : String :=
  Text.hex 3 l.address ++ ": " ++ Text.hex 4 l.word.toNat ++ "  " ++ l.text

end Line

namespace Listing

/-- The address of line `i` in a window of `count` lines around an address. -/
def windowAddress (center count : Int) (i : Nat) : Address :=
  Address.ofInt (center - count.fdiv 2 * 2 + i * 2)

/-- A window of `count` words around an address; a line is current if it has the very address
that was asked for. The first missing cell ends the window, however many words are asked for. -/
def window {size : Nat} (m : Memory size) (center count : Int) :
    Except MemoryError (List Line) :=
  List.ofFnM fun (i : Fin count.toNat) => do
    let address : Int := (windowAddress center count i).val
    let word ← m.word? address
    return { address, word, current := address = center }

/-- The words of a program from an address on; an odd last byte is taken with a zero. -/
def ofProgram (base : Int) : List UInt8 → List Line
  | [] => []
  | [high] => [{ address := base, word := .ofBytes high 0, current := false }]
  | high :: low :: rest =>
    { address := base, word := .ofBytes high low, current := false } :: ofProgram (base + 2) rest

end Listing

end Chip8
