import Chip8.Machine.Basic

/-!
# Instructions at work

`Machine.execute` gives the effect of one instruction: the machine afterwards and the address at
which it wants to continue. That address is not reduced modulo 4096 yet. Counting the
instruction and moving on is the business of a step.
-/

namespace Chip8

namespace Alu

/-- A flag as a register value. -/
def flag (b : Bool) : UInt8 :=
  if b then 1 else 0

/-- The result of an operation and the flag that it leaves, if it leaves one. -/
def eval (op : Alu) (a b : UInt8) : UInt8 × Option UInt8 :=
  match op with
  | copy => (b, none)
  | or => (a ||| b, none)
  | and => (a &&& b, none)
  | xor => (a ^^^ b, none)
  | add => (a + b, some (flag (255 < a.toNat + b.toNat)))
  | sub => (a - b, some (flag (b ≤ a)))
  | shiftRight => (a >>> 1, some (a &&& 1))
  | subFrom => (b - a, some (flag (a ≤ b)))
  | shiftLeft => (a <<< 1, some (a >>> 7))

end Alu

/-- Writes the result of an operation and then its flag, so that the flag wins where both go to
the same register. -/
def Registers.apply (v : Registers) (op : Alu) (x y : Register) : Registers :=
  let (result, flag) := op.eval (v.read x) (v.read y)
  let v := v.write x result
  match flag with
  | none => v
  | some flag => v.write flagRegister flag

/-- Why an instruction could not be executed. -/
inductive Obstacle
  | fault (fault : Fault)
  -- The source of random bytes had none; the machine may try again.
  | source (error : SourceError)
deriving DecidableEq, Repr

/-- The wording of an obstacle. -/
def Obstacle.message : Obstacle → String
  | .fault f => f.message
  | .source e => e.message

/-- What an instruction left behind. -/
structure Effect (ρ : Type) where
  -- Where the machine wants to continue.
  next : Int
  -- The machine, still at the address of the instruction.
  machine : Machine ρ
  note : Option Note := none
deriving DecidableEq, Repr

namespace Machine

variable {ρ : Type}

/-- Goes on with the instruction after this one. -/
def following (m : Machine ρ) : Effect ρ :=
  { next := m.pc.val + 2, machine := m }

/-- Leaves out the instruction after this one if a condition holds. -/
def skipIf (m : Machine ρ) (condition : Bool) : Effect ρ :=
  { next := if condition then m.pc.val + 4 else m.pc.val + 2, machine := m }

/-- Changes the registers and goes on. -/
def setRegisters (m : Machine ρ) (registers : Registers) : Effect ρ :=
  following { m with registers }

/-- Draws the sprite at the index, and flags whether a lit pixel went out. -/
def drawSprite (m : Machine ρ) (x y : Register) (rows : Nibble) : Effect ρ :=
  let (hit, screen) := m.screen.draw (m.registers.read x).toNat (m.registers.read y).toNat
    (m.memory.block m.index rows.val)
  following { m with screen, registers := m.registers.write flagRegister (Alu.flag hit) }

/-- Begins to wait for a key, or ends the wait if one is held; without a key the machine stays
at the instruction. -/
def pollKey (m : Machine ρ) (x : Register) : Effect ρ :=
  if m.awaitingKey then
    match m.keypad.firstHeld with
    | none => { next := m.pc.val, machine := m }
    | some key =>
      { next := m.pc.val + 2
        machine :=
          { m with
            registers := m.registers.write x (UInt8.ofNat key.val)
            keypad := m.keypad.endWait }
        note := some (.keyStored key x) }
  else
    { next := m.pc.val
      machine := { m with keypad := m.keypad.beginWait x.val }
      note := some (.awaitingKey x) }

/-- The decimal digits of a byte: hundreds, tens and ones. -/
def decimalDigits (byte : UInt8) : List UInt8 :=
  [byte / 100, byte / 10 % 10, byte % 10]

/-- The effect of an instruction at the current address. -/
def execute [ByteSource ρ] (m : Machine ρ) (i : Instruction) : Except Obstacle (Effect ρ) :=
  let v := m.registers
  match i with
  | .clear => .ok (following { m with screen := .blank 64 32 })
  | .ret => do
    let (address, stack) ← (m.stack.pop m.pc.val).mapError .fault
    return { next := address, machine := { m with stack } }
  | .jump target => .ok { next := target.val, machine := m }
  | .call target => do
    -- The return address wraps at the top of memory; a fault names the call itself.
    let stack ← (m.stack.push (m.pc + 2).val m.pc.val).mapError .fault
    return { next := target.val, machine := { m with stack } }
  | .skipEqByte x byte => .ok (m.skipIf (v.read x = byte))
  | .skipNeByte x byte => .ok (m.skipIf (v.read x ≠ byte))
  | .skipEq x y => .ok (m.skipIf (v.read x = v.read y))
  | .skipNe x y => .ok (m.skipIf (v.read x ≠ v.read y))
  | .loadByte x byte => .ok (m.setRegisters (v.write x byte))
  | .addByte x byte => .ok (m.setRegisters (v.write x (v.read x + byte)))
  | .alu op x y => .ok (m.setRegisters (v.apply op x y))
  | .loadIndex value => .ok (following { m with index := value })
  | .jumpPlus base => .ok { next := (base + Address.ofInt (v.read 0).toNat).val, machine := m }
  | .random x mask => do
    let (byte, random) ← (ByteSource.draw? m.random).mapError .source
    return following { m with random, registers := v.write x (byte &&& mask) }
  | .draw x y rows => .ok (m.drawSprite x y rows)
  | .skipKey x => .ok (m.skipIf (m.keypad.isDown (v.read x).toNat))
  | .skipNoKey x => .ok (m.skipIf (!m.keypad.isDown (v.read x).toNat))
  | .readDelay x => .ok (m.setRegisters (v.write x (UInt8.ofInt m.timers.delay)))
  | .waitKey x => .ok (m.pollKey x)
  | .setDelay x => .ok (following { m with timers := { m.timers with delay := (v.read x).toNat } })
  | .setSound x => .ok (following { m with timers := { m.timers with sound := (v.read x).toNat } })
  | .addIndex x => .ok (following { m with index := m.index + Address.ofInt (v.read x).toNat })
  | .glyph x =>
    .ok (following { m with index := Address.ofInt (Font.glyphAddress (v.read x).toNat) })
  | .decimal x =>
    .ok (following { m with memory := m.memory.writeBlock m.index (decimalDigits (v.read x)) })
  | .store x =>
    .ok (following { m with memory := m.memory.writeBlock m.index (v.toList.take (x.val + 1)) })
  | .load x =>
    .ok (m.setRegisters (v.writeFrom 0 (m.memory.block m.index (x.val + 1))))
  | .undefined word =>
    .ok { m.following with note := some (.undefinedWord word m.pc) }

/-- With a random source faults are the only obstacles. -/
theorem exists_fault_of_execute_eq_error [RandomSource ρ] {m : Machine ρ} {i : Instruction}
    {o : Obstacle} (h : m.execute i = .error o) : ∃ fault, o = .fault fault := by
  cases i <;> simp only [execute, reduceCtorEq] at h
  case ret =>
    cases hp : m.stack.pop m.pc.val <;> rw [hp] at h <;> cases h
    exact ⟨_, rfl⟩
  case call =>
    cases hp : m.stack.push (m.pc + 2).val m.pc.val <;> rw [hp] at h <;> cases h
    exact ⟨_, rfl⟩
  case random => cases h

end Machine

end Chip8
