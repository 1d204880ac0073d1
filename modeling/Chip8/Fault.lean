import Chip8.Text.Hex

/-!
# Faults

The two ways in which a program can stop the machine for good. Each names the address of the
instruction at fault.
-/

namespace Chip8

/-- What halts the machine. -/
inductive Fault
  -- A return without a pending call.
  | stackUnderflow (pc : Int)
  -- A call on a stack that already holds `depth` entries.
  | stackOverflow (pc depth : Int)
deriving DecidableEq, Repr

namespace Fault

/-- The address of the instruction at fault. -/
def pc : Fault → Int
  | .stackUnderflow pc => pc
  | .stackOverflow pc _ => pc

/-- The wording of a fault. -/
def message : Fault → String
  | .stackUnderflow pc => "Return with empty call stack at 0x" ++ Text.hex 3 pc
  | .stackOverflow pc depth => s!"Call stack overflow (depth {depth}) at 0x" ++ Text.hex 3 pc

end Fault

end Chip8
