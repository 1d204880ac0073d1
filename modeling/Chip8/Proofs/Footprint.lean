import Chip8.Proofs.KeyWait

/-!
# What a step may change

Every word has a footprint: the cells, registers and other parts of the machine that its execution
may change. The footprint is read off the digits of the word; nothing outside it changes. The
registers `x` and `y` of a word may be the same and may be the flag register, and a row of cells may
run past the top of memory, so the footprint is stated cell by cell and register by register.

## Key results

- `Memory.read_writeBlock_of_outside`, `Registers.read_writeFrom_of_outside`,
  `Registers.read_apply_of_outside`: what the writing of blocks and results leaves alone
- `Machine.Footprint`: what a word may change
- `Machine.execute_footprint`: every instruction keeps to the footprint of its word
- `Machine.step_footprint`: so does every completed step; a random instruction draws once, and a
  word without a meaning is only skipped
-/

namespace Chip8

/-! ## Blocks of cells and registers -/

/-- A block write changes no cell outside the block. -/
theorem Memory.read_writeBlock_of_outside (m : Ram) (a b : Address) (bytes : List UInt8)
    (h : ∀ k < bytes.length, b ≠ a + Fin.ofNat 4096 k) :
    (m.writeBlock a bytes).read b = m.read b := by
  -- Induction on the bytes; each is written to the cell behind the one before it.
  induction bytes generalizing m a with
  | nil => rfl
  | cons byte rest ih =>
    have hfirst : b ≠ a := by
      have h0 := h 0 (Nat.succ_pos _)
      rwa [Address.add_ofNat_zero] at h0
    have hrest : ∀ k < rest.length, b ≠ a + 1 + Fin.ofNat 4096 k := by
      intro k hk
      rw [Address.add_one_add_ofNat]
      exact h (k + 1) (Nat.succ_lt_succ hk)
    rw [Memory.writeBlock, ih _ _ hrest, Memory.read_write, if_neg hfirst]

namespace Registers

/-- A block load changes no register outside the block. -/
theorem read_writeFrom_of_outside (v : Registers) (first : Nat) (values : List UInt8)
    (r : Register) (h : r.val < first ∨ first + values.length ≤ r.val) :
    (v.writeFrom first values).read r = v.read r := by
  -- Induction on the values, in the order in which they are loaded.
  induction values generalizing v first with
  | nil => rfl
  | cons value rest ih =>
    rw [List.length_cons] at h
    have hne : first ≠ r.val := by omega
    rw [writeFrom, ih _ _ (by omega)]
    simp only [read, Fin.getElem_fin, Vector.getElem_setIfInBounds, if_neg hne]

/-- An operation changes its first register and, if it leaves a flag, the flag register. -/
theorem read_apply_of_outside (v : Registers) (op : Alu) (x y r : Register) (hx : r ≠ x)
    (hflag : r = flagRegister → (op.eval (v.read x) (v.read y)).2 = none) :
    (v.apply op x y).read r = v.read r := by
  simp only [apply]
  split
  -- The flag is written last, over a result in the same register.
  · rw [read_write, if_neg hx]
  · rename_i flag hsome
    have hr : r ≠ flagRegister := by
      intro hr
      rw [hflag hr] at hsome
      exact nomatch hsome
    rw [read_write, if_neg hr, read_write, if_neg hx]

end Registers

/-- The operations that leave a flag are those with the digits 4 to 7 and E. -/
private theorem Alu.eval_flag_eq_none {op : Alu} (h : op.digit ∉ [0x4, 0x5, 0x6, 0x7, 0xE])
    (a b : UInt8) :
    (op.eval a b).2 = none := by
  cases op with
  | copy | or | and | xor => rfl
  | add | sub | shiftRight | subFrom | shiftLeft => exact absurd (by decide) h

/-- The words `Cxkk` are the random instructions. -/
private theorem Instruction.ofWord_of_random {w : Word} (h : w.family = 0xC) :
    ofWord w = .random w.x w.byte := by
  simp only [ofWord, h]

/-! ## Footprints of words -/

namespace Word

/-- How many cells, from the one at the index on, the word may change. -/
def cellsWritten (w : Word) : Nat :=
  if w.family = 0xF ∧ w.kk = 0x33 then 3
  else if w.family = 0xF ∧ w.kk = 0x55 then w.x.val + 1
  else 0

/-- The registers that the word may change; a key wait stores a key only if it finds one. -/
inductive MayWrite (w : Word) (findsKey : Prop) : Register → Prop
  | operand (family : w.family = 0x6 ∨ w.family = 0x7 ∨ w.family = 0x8 ∨ w.family = 0xC) :
    MayWrite w findsKey w.x
  | flag (family : w.family = 0x8) (op : w.n ∈ [0x4, 0x5, 0x6, 0x7, 0xE]) :
    MayWrite w findsKey flagRegister
  | collision (family : w.family = 0xD) : MayWrite w findsKey flagRegister
  | timer (family : w.family = 0xF) (byte : w.kk = 0x07) : MayWrite w findsKey w.x
  | key (family : w.family = 0xF) (byte : w.kk = 0x0A) (found : findsKey) : MayWrite w findsKey w.x
  | block (family : w.family = 0xF) (byte : w.kk = 0x65) (r : Register) (within : r ≤ w.x) :
    MayWrite w findsKey r

end Word

namespace Machine

variable {ρ : Type}

/-- The machine waits and a key is held, so that the next poll ends the wait. -/
def FindsKey (m : Machine ρ) : Prop :=
  m.awaitingKey = true ∧ ¬m.keypad.states.AllUp

variable [ByteSource ρ]

/-- Between two states of a machine nothing has changed but what the word may change. Which
    instruction comes next, and what was counted, is left open. -/
structure Footprint (w : Word) (m after : Machine ρ) : Prop where
  memory : ∀ a, after.memory.read a = m.memory.read a ∨
    ∃ k < w.cellsWritten, a = m.index + Fin.ofNat 4096 k
  registers : ∀ r, after.registers.read r = m.registers.read r ∨ w.MayWrite m.FindsKey r
  index : after.index = m.index ∨
    w.family = 0xA ∨ w.family = 0xF ∧ (w.kk = 0x1E ∨ w.kk = 0x29)
  stack : after.stack = m.stack ∨
    after.stack.depth = m.stack.depth ∧
      (w.toNat = 0x00EE ∧ (∃ a, m.stack.oldestFirst = after.stack.oldestFirst ++ [a]) ∨
        w.family = 0x2 ∧ ∃ a, after.stack.oldestFirst = m.stack.oldestFirst ++ [a])
  screen : after.screen = m.screen ∨ w.toNat = 0x00E0 ∨ w.family = 0xD
  delay : after.timers.delay = m.timers.delay ∨ w.family = 0xF ∧ w.kk = 0x15
  sound : after.timers.sound = m.timers.sound ∨ w.family = 0xF ∧ w.kk = 0x18
  latch : after.keypad.wait = m.keypad.wait ∨ w.family = 0xF ∧ w.kk = 0x0A
  keys : after.keypad.states = m.keypad.states
  random : after.random = m.random ∨
    w.family = 0xC ∧ ∃ byte, ByteSource.draw? m.random = .ok (byte, after.random)

variable {m : Machine ρ} {i : Instruction} {e : Effect ρ} {w : Word}

/-- A machine that stays as it is keeps to every footprint. -/
theorem Footprint.refl (w : Word) (m : Machine ρ) : Footprint w m m where
  memory _ := .inl rfl
  registers _ := .inl rfl
  index := .inl rfl
  stack := .inl rfl
  screen := .inl rfl
  delay := .inl rfl
  sound := .inl rfl
  latch := .inl rfl
  keys := rfl
  random := .inl rfl

/-- Changing registers keeps to a footprint that has them. -/
private theorem Footprint.of_registers {v : Registers}
    (h : ∀ r, v.read r = m.registers.read r ∨ w.MayWrite m.FindsKey r) :
    Footprint w m { m with registers := v } :=
  { refl w m with registers := h }

/-- Writing one register keeps to a footprint that has it. -/
theorem Footprint.of_write {x : Register} (h : w.MayWrite m.FindsKey x) (value : UInt8) :
    Footprint w m { m with registers := m.registers.write x value } := by
  refine of_registers fun r => ?_
  by_cases hr : r = x
  · exact .inr (hr ▸ h)
  · exact .inl (by rw [Registers.read_write, if_neg hr])

/-- Writing a block keeps to a footprint of its length. -/
private theorem Footprint.of_writeBlock {bytes : List UInt8} (h : bytes.length = w.cellsWritten) :
    Footprint w m { m with memory := m.memory.writeBlock m.index bytes } := by
  refine { refl w m with memory := fun a => ?_ }
  by_cases ha : ∃ k < w.cellsWritten, a = m.index + Fin.ofNat 4096 k
  · exact .inr ha
  · left
    refine Memory.read_writeBlock_of_outside _ _ _ _ fun k hk heq => ha ⟨k, ?_, heq⟩
    rw [← h]
    exact hk

/-- An operation changes its first register, and the flag register if its digit says so. -/
private theorem footprint_apply (m : Machine ρ) (op : Alu) (x y : Register) :
    Footprint (Instruction.alu op x y).toWord m
      { m with registers := m.registers.apply op x y } := by
  refine .of_registers fun r => ?_
  -- A register that an operation changes is its first one, or the flag register.
  by_cases hx : r = x
  · exact .inr (hx ▸ .operand (.inr (.inr (.inl rfl))))
  · by_cases hflag : r = flagRegister ∧ op.digit ∈ [0x4, 0x5, 0x6, 0x7, 0xE]
    · obtain ⟨rfl, hdigit⟩ := hflag
      exact .inr (.flag rfl hdigit)
    · left
      refine Registers.read_apply_of_outside _ _ _ _ _ hx fun hr => Alu.eval_flag_eq_none ?_ _ _
      exact fun hdigit => hflag ⟨hr, hdigit⟩

/-- A poll may move the latch, and stores a key if it finds one. -/
private theorem footprint_pollKey (m : Machine ρ) (x : Register) :
    Footprint (Instruction.waitKey x).toWord m (m.pollKey x).machine := by
  unfold pollKey
  -- Only a machine that waits already looks for a key; the first poll just begins the wait.
  split
  · rename_i ha
    split
    · exact .refl _ m
    · rename_i key hkey
      have hfinds : m.FindsKey := by
        refine ⟨ha, fun hup => ?_⟩
        rw [(Keypad.firstHeld_eq_none_iff _).2 hup] at hkey
        exact nomatch hkey
      have hx : (Instruction.waitKey x).toWord.MayWrite m.FindsKey x := .key rfl rfl hfinds
      exact { Footprint.of_write hx (UInt8.ofNat key.val) with latch := .inr ⟨rfl, rfl⟩ }
  · exact { Footprint.refl _ m with latch := .inr ⟨rfl, rfl⟩ }

/-- Every instruction keeps to the footprint of its word. -/
theorem execute_footprint (h : m.execute i = .ok e) : Footprint i.toWord m e.machine := by
  -- Each instruction touches one part of the machine, and its footprint has that part.
  cases i with
  | clear => cases h; exact { Footprint.refl _ m with screen := .inr (.inl rfl) }
  | ret =>
    obtain ⟨a, rest, hs, rfl⟩ := execute_ret_eq_ok h
    refine { Footprint.refl _ m with stack := .inr ⟨rfl, .inl ⟨rfl, a, ?_⟩⟩ }
    simp only [CallStack.oldestFirst, hs, List.reverse_cons]
  | call target =>
    obtain ⟨-, rfl⟩ := execute_call_eq_ok h
    exact { Footprint.refl _ m with stack := .inr ⟨rfl, .inr ⟨rfl, _, List.reverse_cons⟩⟩ }
  | loadByte x byte => cases h; exact .of_write (.operand (.inl rfl)) byte
  | addByte x byte => cases h; exact .of_write (.operand (.inr (.inl rfl))) _
  | alu op x y => cases h; exact footprint_apply m op x y
  | loadIndex value => cases h; exact { Footprint.refl _ m with index := .inr (.inl rfl) }
  | random x mask =>
    obtain ⟨byte, random, hdraw, rfl⟩ := execute_random_eq_ok h
    have hx : (Instruction.random x mask).toWord.MayWrite m.FindsKey x :=
      .operand (.inr (.inr (.inr rfl)))
    exact { Footprint.of_write hx (byte &&& mask) with random := .inr ⟨rfl, byte, hdraw⟩ }
  | draw x y rows =>
    cases h
    have hflag : (Instruction.draw x y rows).toWord.MayWrite m.FindsKey flagRegister :=
      .collision rfl
    exact { Footprint.of_write hflag _ with screen := .inr (.inr rfl) }
  | readDelay x => cases h; exact .of_write (.timer rfl rfl) _
  | waitKey x => cases h; exact footprint_pollKey m x
  | setDelay x => cases h; exact { Footprint.refl _ m with delay := .inr ⟨rfl, rfl⟩ }
  | setSound x => cases h; exact { Footprint.refl _ m with sound := .inr ⟨rfl, rfl⟩ }
  | addIndex x => cases h; exact { Footprint.refl _ m with index := .inr (.inr ⟨rfl, .inl rfl⟩) }
  | glyph x => cases h; exact { Footprint.refl _ m with index := .inr (.inr ⟨rfl, .inr rfl⟩) }
  | decimal x => cases h; exact .of_writeBlock rfl
  | store x =>
    cases h
    refine .of_writeBlock ?_
    rw [List.length_take, Registers.length_toList]
    exact Nat.min_eq_left x.isLt
  | load x =>
    cases h
    refine .of_registers fun r => ?_
    by_cases hr : r ≤ x
    · exact .inr (.block rfl rfl r hr)
    · left
      have hlt : x.val < r.val := Fin.not_le.1 hr
      refine Registers.read_writeFrom_of_outside _ _ _ _ (.inr ?_)
      rw [Memory.length_block]
      omega
  -- Jumps, skips and words without a meaning change nothing.
  | _ => cases h; exact .refl _ m

/-- Moving on and counting keep to every footprint. -/
private theorem Footprint.complete (h : Footprint w m e.machine) (i : Instruction) :
    Footprint w m (complete i e) :=
  { h with }

/-- A step that completes changes nothing outside the footprint of the current word. A random
    instruction draws exactly once. A word without a meaning changes nothing but the address, the
    count of cycles and the count of its name. -/
theorem step_footprint (completed : m.step.obstacle = none) :
    let w := m.currentWord
    let after := m.step.machine
    Footprint w m after ∧
    (w.family = 0xC → ∃ byte, ByteSource.draw? m.random = .ok (byte, after.random)) ∧
    (∀ u, Instruction.ofWord w = .undefined u →
      after = { m with
        pc := m.pc + 2
        cycles := m.cycles + 1
        statistics := m.statistics.count "UNKNOWN" }) := by
  intro w after
  obtain ⟨e, he, hstep⟩ := exists_effect_of_completed completed
  have hafter : after = Machine.complete m.current e := hstep
  rw [hafter]
  refine ⟨?_, fun hw => ?_, fun u hw => ?_⟩
  · have hfoot := execute_footprint he
    rw [current, Instruction.toWord_ofWord] at hfoot
    -- The word of the footprint is the word of the instruction that was decoded from it.
    exact hfoot.complete _
  · rw [show m.current = .random w.x w.byte from Instruction.ofWord_of_random hw] at he
    obtain ⟨byte, random, hdraw, rfl⟩ := execute_random_eq_ok he
    exact ⟨byte, hdraw⟩
  · have hi : m.current = .undefined u := hw
    rw [hi] at he ⊢
    cases he
    have hpc : Address.ofInt ((m.pc.val : Int) + 2) = m.pc + 2 := Address.ofInt_add_val m.pc 2
    simp only [Machine.complete, following, hpc]
    rfl

/-- A program stores two registers at the last cell: the second one goes to the first cell, and the
    cell behind that is left alone. -/
theorem step_footprint_storeAcrossTop :
    ∃ m : Machine Replay,
      m = (fresh (Replay.ofInts [7])).callAll
        [.load [0x60, 0x05, 0x61, 0x06, 0xAF, 0xFF, 0xF1, 0x55],
          .drive .step, .drive .step, .drive .step] ∧
      m.step.obstacle = none ∧
      Footprint m.currentWord m m.step.machine ∧
      m.step.machine.memory.block 0xFFF 3 = [5, 6, 0] ∧ m.memory.block 0xFFF 3 = [0, 0, 0] := by
  obtain ⟨m, hm⟩ : ∃ m : Machine Replay, m = (fresh (Replay.ofInts [7])).callAll
        [.load [0x60, 0x05, 0x61, 0x06, 0xAF, 0xFF, 0xF1, 0x55],
          .drive .step, .drive .step, .drive .step] := ⟨_, rfl⟩
  obtain ⟨hcompleted, hcells⟩ : m.step.obstacle = none ∧
      m.step.machine.memory.block 0xFFF 3 = [5, 6, 0] ∧ m.memory.block 0xFFF 3 = [0, 0, 0] := by
    rw [hm]
    decide +kernel
  exact ⟨m, hm, hcompleted, (step_footprint hcompleted).1, hcells⟩

end Machine

end Chip8
