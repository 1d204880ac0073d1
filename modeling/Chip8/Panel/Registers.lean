import Chip8.Machine.Basic
import Chip8.Text.Pad

/-!
# Register panel

The general registers as a grid of four columns, counted downwards, in which a register that
changed since an earlier snapshot is marked up; and a summary of the rest of the machine.
-/

namespace Chip8

namespace Registers

/-- The mark in front of a changed register. -/
def changedOpening : String := "[bold yellow]"

/-- The mark behind a changed register. -/
def changedClosing : String := "[/bold yellow]"

/-- The entry of a changed register between its marks. -/
def highlight (entry : String) : String :=
  changedOpening ++ entry ++ changedClosing

/-- The panel entry of a register. -/
def entry (r : Register) (value : UInt8) : String :=
  "V" ++ Text.hex 1 r.val ++ " 0x" ++ Text.hexByte value

/-- The registers of a line of the panel, from the left. -/
def panelRow (row : Fin 4) : List Register :=
  (List.finRange 4).map fun column => ⟨row.val + 4 * column.val, by omega⟩

/-- The entry of a register beside its earlier value, if there is a snapshot; a snapshot that
lacks the register is refused. -/
def panelEntry (v : Registers) (earlier : Option (List Int)) (r : Register) :
    Except RegisterError String :=
  let plain := entry r (v.read r)
  match earlier with
  | none => .ok plain
  | some values =>
    match values[r.val]? with
    | none => .error .noSource
    | some value => .ok (if ((v.read r).toNat : Int) ≠ value then highlight plain else plain)

/-- The grid of all registers. -/
def panel (v : Registers) (earlier : Option (List Int) := none) :
    Except RegisterError String := do
  let lines ← (List.finRange 4).mapM fun row => do
    let entries ← (panelRow row).mapM (v.panelEntry earlier)
    return String.intercalate "  " entries
  return String.intercalate "\n" lines

/-- The values as integers. -/
def snapshot (v : Registers) : List Int :=
  v.toList.map fun value => (value.toNat : Int)

end Registers

/-- A text, or another one in place of an empty text. -/
def Text.orElse (text replacement : String) : String :=
  if text.isEmpty then replacement else text

/-- The digits of the held keys in rising order. -/
def KeyStates.text (states : KeyStates) : String :=
  String.join (states.held.map fun key => Text.hex 1 key.val)

namespace Machine

variable {ρ : Type}

/-- Whether the machine runs, or for which register it waits. -/
def waitText (m : Machine ρ) : String :=
  match m.keypad.wait with
  | .running => "running"
  | .awaiting register => "wait->V" ++ Text.hex 1 register

/-- The index, the program counter, the timers, the keys and the stack. -/
def summary (m : Machine ρ) : String :=
  let stack := String.intercalate " " (m.stack.oldestFirst.map (Text.hex 3))
  let timer (value : Int) := Text.padLeft 3 ' ' (toString value)
  String.intercalate "\n" [
    "I  0x" ++ Text.hex 3 m.index.val ++ "  PC 0x" ++ Text.hex 3 m.pc.val,
    "DT " ++ timer m.timers.delay ++ "    ST " ++ timer m.timers.sound ++
      "  (" ++ m.waitText ++ ")",
    "Keys: " ++ Text.orElse m.keypad.states.text "none",
    s!"Stack ({m.stack.size}/{m.stack.depth}): " ++ Text.orElse stack "empty"]

end Machine

end Chip8
