import Chip8.Fault
import Chip8.Word

/-!
# Notes

What the machine and the ROM reader report while they work. A note has a level, a channel and a
message; `Note.line` is its written form.
-/

namespace Chip8

/-- How important a note is. -/
inductive Level
  | debug | info | warning | error | critical
deriving DecidableEq, Repr

namespace Level

/-- Levels in rising order. -/
def rank : Level → Nat
  | debug => 10
  | info => 20
  | warning => 30
  | error => 40
  | critical => 50

/-- The name of a level. -/
def name : Level → String
  | debug => "DEBUG"
  | info => "INFO"
  | warning => "WARNING"
  | error => "ERROR"
  | critical => "CRITICAL"

/-- The level of a name. -/
def ofName? (name : String) : Option Level :=
  [debug, info, warning, error, critical].find? (·.name = name)

end Level

/-- Something worth reporting. -/
inductive Note
  | undefinedWord (word : Word) (pc : Address)
  | awaitingKey (register : Register)
  | keyStored (key : Nibble) (register : Register)
  | halting (fault : Fault)
  | programLoaded (size : Nat)
  -- A ROM file has an odd number of bytes.
  | oddLength (path : String) (size : Nat)
  | romRead (size : Nat) (path : String)
deriving DecidableEq, Repr

namespace Note

/-- How important a note is. -/
def level : Note → Level
  | undefinedWord .. => .warning
  | awaitingKey .. => .debug
  | keyStored .. => .debug
  | halting .. => .error
  | programLoaded .. => .debug
  | oddLength .. => .warning
  | romRead .. => .info

/-- The channel that a note is written to. -/
def channel : Note → String
  | undefinedWord .. => "chip8_vm.cpu.execute"
  | awaitingKey .. => "chip8_vm.cpu.keypad"
  | keyStored .. => "chip8_vm.cpu.execute"
  | halting .. => "chip8_vm.cpu.cpu"
  | programLoaded .. => "chip8_vm.cpu.cpu"
  | oddLength .. => "chip8_vm.loader.rom"
  | romRead .. => "chip8_vm.loader.rom"

/-- The wording of a note. -/
def message : Note → String
  | undefinedWord word pc =>
    "Unknown opcode 0x" ++ Text.hex 4 word.toNat ++ " at 0x" ++ Text.hex 3 pc.val ++ ", skipping"
  | awaitingKey register => "Waiting for key press into V" ++ Text.hex 1 register.val
  | keyStored key register =>
    "Key " ++ Text.hex 1 key.val ++ " pressed, stored in V" ++ Text.hex 1 register.val
  | halting fault => "Halting: " ++ fault.message
  | programLoaded size => s!"Loaded {size} byte ROM at 0x200"
  | oddLength path size => s!"ROM {path} has odd length {size}"
  | romRead size path => s!"Read {size} byte ROM from {path}"

/-- A note as a line of a log. -/
def line (n : Note) : String :=
  "[" ++ n.level.name ++ "] " ++ n.channel ++ ": " ++ n.message

/-- The lines of the notes that reach a level. -/
def lines (lowest : Level) (notes : Array Note) : List String :=
  (notes.toList.filter fun n => lowest.rank ≤ n.level.rank).map line

end Note

end Chip8
