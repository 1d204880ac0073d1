import Chip8.CallStack
import Chip8.Font
import Chip8.Instruction
import Chip8.Keypad
import Chip8.Memory
import Chip8.Note
import Chip8.Random.Source
import Chip8.Registers
import Chip8.Screen.Framebuffer
import Chip8.Tally
import Chip8.Timers

/-!
# The machine

The complete state of a machine, its two beginnings (`fresh` and `reset`), and what a host may
do to it between instructions: load a program, set the held keys, read the screen.
-/

namespace Chip8

/-- A machine that draws its random bytes from a source of type `ρ`. -/
structure Machine (ρ : Type) where
  memory : Ram
  registers : Registers := .zero
  -- The index, which addresses memory operands.
  index : Address := 0
  -- The address of the next instruction.
  pc : Address := 0x200
  stack : CallStack := {}
  timers : Timers := {}
  keypad : Keypad := {}
  screen : Screen := .blank 64 32
  random : ρ
  -- How many instructions were completed.
  cycles : Nat := 0
  -- How many instructions of each name were completed.
  statistics : Tally String := {}
  fault : Option Fault := none
deriving DecidableEq, Repr

/-- A program that does not fit into memory. -/
structure ProgramTooLarge where
  size : Nat
deriving DecidableEq, Repr

/-- The wording of the refusal. -/
def ProgramTooLarge.message (e : ProgramTooLarge) : String :=
  s!"ROM is {e.size} bytes, maximum is {programLimit}"

namespace Machine

variable {ρ : Type}

/-- Memory that holds nothing but the font. -/
def fontMemory : Ram :=
  ⟨Memory.overlay (Memory.blank 4096).cells Font.base Font.glyphs⟩

/-- A machine that has not run yet. -/
def fresh (random : ρ) : Machine ρ :=
  { memory := fontMemory, random }

/-- Everything as in a fresh machine, except that the random source goes on. -/
def reset (m : Machine ρ) : Machine ρ :=
  fresh m.random

/-- Whether a fault has stopped the machine. -/
def halted (m : Machine ρ) : Bool :=
  m.fault.isSome

/-- Whether the machine waits for a key. -/
def awaitingKey (m : Machine ρ) : Bool :=
  m.keypad.awaiting

/-- Copies a program to its place in memory. -/
def loadProgram (m : Machine ρ) (program : List UInt8) :
    Except ProgramTooLarge (Machine ρ × Note) :=
  if programLimit < program.length then .error ⟨program.length⟩
  else .ok
    ({ m with memory := ⟨Memory.overlay m.memory.cells programStart program⟩ },
      .programLoaded program.length)

/-- Replaces the held keys by as many states as there are keys. -/
def setKeys? (m : Machine ρ) (states : List Bool) : Except KeypadError (Machine ρ) := do
  let keypad ← m.keypad.setStates? states
  return { m with keypad }

/-- Replaces the held keys. -/
def hold (m : Machine ρ) (states : KeyStates) : Machine ρ :=
  { m with keypad := { m.keypad with states } }

/-- One tick of the timers, which stand still while the machine waits for a key. -/
def tick (m : Machine ρ) : Machine ρ :=
  if m.awaitingKey then m else { m with timers := m.timers.tick }

/-- Ticks until `count` ticks are done or both timers have run down; more would change nothing. -/
def runDown (m : Machine ρ) : (count : Nat) → Machine ρ
  | 0 => m
  | count + 1 =>
    if m.timers.delay ≤ 0 ∧ m.timers.sound ≤ 0 then m else m.tick.runDown count

/-- Several ticks; none for a negative count. -/
def ticks (m : Machine ρ) (count : Int) : Machine ρ :=
  if m.awaitingKey then m else m.runDown count.toNat

/-- The word at the current address. -/
def currentWord (m : Machine ρ) : Word :=
  m.memory.word m.pc

/-- The instruction at the current address. -/
def current (m : Machine ρ) : Instruction :=
  .ofWord m.currentWord

end Machine

end Chip8
