import Chip8.Machine.Step

/-!
# What an instruction and a step can do

`Machine.execute` and `Machine.step` are opened here and nowhere else. The lemmas say which words
fault or wait, what every instruction leaves alone, which instructions reach the latch, the stack
and the timers, when an instruction faults, and which four shapes a step can have.

## Key results

- `Machine.execute_bookkeeping`: no instruction touches the address, the counts, the stored fault
  or the held keys
- `Machine.execute_keypad`, `Machine.execute_stack`, `Machine.execute_timers`: what each part of
  the machine can become
- `Machine.execute_eq_fault_iff`: the two ways to fault
- `Machine.step_cases`: the four shapes of a step
-/

namespace Chip8

/-! ## Words that can fault or wait -/

/-- A word is determined by its value. -/
private theorem Word.toNat_injective {v w : Word} (h : v.toNat = w.toNat) : v = w := by
  rw [← Word.ofNat_toNat v, h, Word.ofNat_toNat]

namespace Instruction

/-- Only the word `00EE` is a return. -/
theorem ofWord_eq_ret_iff (w : Word) : ofWord w = .ret ↔ w.toNat = 0x00EE := by
  constructor
  · intro h
    rw [← toWord_ofWord w, h]
    rfl
  · intro h
    -- The value determines the word, so that reading it back is a matter of evaluation.
    have hw : w = ⟨0x0, 0x0, 0xE, 0xE⟩ := Word.toNat_injective h
    rw [hw]
    rfl

/-- The words `2nnn` are the calls. -/
theorem ofWord_eq_call_iff (w : Word) :
    (∃ target, ofWord w = .call target) ↔ w.toNat / 0x1000 = 2 := by
  constructor
  · rintro ⟨target, h⟩
    rw [← toWord_ofWord w, h]
    simp only [toWord, addressWord, Word.toNat, Nibble.val_ofNat]
    omega
  · intro h
    have hf : w.family = 0x2 := by
      apply Fin.ext
      simp only [Word.toNat] at h
      -- The family is the leading digit of the value.
      omega
    exact ⟨w.address, by simp only [ofWord, hf]⟩

end Instruction

namespace Machine

variable {ρ : Type} [ByteSource ρ] {m : Machine ρ} {i : Instruction} {e : Effect ρ}

/-! ## The instructions that may fail -/

/-- A return goes to the latest entry of the stack and removes it. -/
theorem execute_ret_eq_ok (h : m.execute .ret = .ok e) :
    ∃ address rest, m.stack.entries = address :: rest ∧
      e = { next := address, machine := { m with stack := { m.stack with entries := rest } } } := by
  -- The only case split is on the stack: `pop` answers with an error exactly when it is empty.
  simp only [execute, CallStack.pop] at h
  cases hs : m.stack.entries with
  | nil =>
    rw [hs] at h
    cases h
  | cons address rest =>
    rw [hs] at h
    cases h
    exact ⟨address, rest, rfl, rfl⟩

/-- A call puts the address behind it on a stack that has room. -/
theorem execute_call_eq_ok {target : Address} (h : m.execute (.call target) = .ok e) :
    m.stack.size < m.stack.depth ∧
      e = { next := target.val
            machine :=
              { m with
                stack := { m.stack with entries := (m.pc + 2).val :: m.stack.entries } } } := by
  simp only [execute, CallStack.push] at h
  by_cases hs : m.stack.depth ≤ m.stack.size
  · rw [if_pos hs] at h
    cases h
  · rw [if_neg hs] at h
    cases h
    exact ⟨by omega, rfl⟩

/-- A random instruction draws once. -/
theorem execute_random_eq_ok {x : Register} {mask : UInt8}
    (h : m.execute (.random x mask) = .ok e) :
    ∃ byte random, ByteSource.draw? m.random = .ok (byte, random) ∧
      e = following { m with random, registers := m.registers.write x (byte &&& mask) } := by
  simp only [execute] at h
  cases hd : ByteSource.draw? m.random with
  | error error =>
    rw [hd] at h
    cases h
  | ok draw =>
    rw [hd] at h
    cases h
    exact ⟨draw.1, draw.2, rfl, rfl⟩

/-! ## What instructions leave alone -/

/-- The address, the counts, the stored fault and the held keys are none of an instruction's
    business. -/
theorem execute_bookkeeping (h : m.execute i = .ok e) :
    e.machine.pc = m.pc ∧ e.machine.cycles = m.cycles ∧ e.machine.statistics = m.statistics ∧
      e.machine.fault = m.fault ∧ e.machine.keypad.states = m.keypad.states := by
  cases i with
  | ret =>
    obtain ⟨_, _, _, rfl⟩ := execute_ret_eq_ok h
    exact ⟨rfl, rfl, rfl, rfl, rfl⟩
  | call target =>
    obtain ⟨_, rfl⟩ := execute_call_eq_ok h
    exact ⟨rfl, rfl, rfl, rfl, rfl⟩
  | random x mask =>
    obtain ⟨_, _, _, rfl⟩ := execute_random_eq_ok h
    exact ⟨rfl, rfl, rfl, rfl, rfl⟩
  | waitKey x =>
    cases h
    -- The three ways of `pollKey`: still nothing held, a key taken, and the wait armed.
    simp only [pollKey]
    split
    · split <;> exact ⟨rfl, rfl, rfl, rfl, rfl⟩
    · exact ⟨rfl, rfl, rfl, rfl, rfl⟩
  -- Every other instruction gives its effect outright.
  | _ => cases h; exact ⟨rfl, rfl, rfl, rfl, rfl⟩

/-- Only a key wait moves the latch. -/
theorem execute_keypad (h : m.execute i = .ok e) (hi : ∀ x, i ≠ .waitKey x) :
    e.machine.keypad = m.keypad := by
  cases i with
  | ret => obtain ⟨_, _, _, rfl⟩ := execute_ret_eq_ok h; rfl
  | call target => obtain ⟨_, rfl⟩ := execute_call_eq_ok h; rfl
  | random x mask => obtain ⟨_, _, _, rfl⟩ := execute_random_eq_ok h; rfl
  | waitKey x => exact absurd rfl (hi x)
  | _ => cases h; rfl

/-- The latch stays, is released, or is armed for a register. -/
theorem execute_wait (h : m.execute i = .ok e) :
    e.machine.keypad.wait = m.keypad.wait ∨ e.machine.keypad.wait = .running ∨
      ∃ x : Register, e.machine.keypad.wait = .awaiting x.val := by
  by_cases hi : ∃ x, i = .waitKey x
  · obtain ⟨x, rfl⟩ := hi
    cases h
    simp only [pollKey]
    split
    · split
      · exact .inl rfl
      · exact .inr (.inl rfl)
    · exact .inr (.inr ⟨x, rfl⟩)
  -- All other instructions leave the whole keypad alone.
  · rw [execute_keypad h (not_exists.1 hi)]
    exact .inl rfl

/-- The stack stays, loses its latest entry, or gets an address on top if it has room. -/
theorem execute_stack (h : m.execute i = .ok e) :
    e.machine.stack = m.stack ∨
    (∃ address rest, m.stack.entries = address :: rest ∧
      e.machine.stack = { m.stack with entries := rest }) ∨
    (m.stack.size < m.stack.depth ∧ ∃ address : Address,
      e.machine.stack = { m.stack with entries := address.val :: m.stack.entries }) := by
  cases i with
  | ret =>
    obtain ⟨address, rest, hs, rfl⟩ := execute_ret_eq_ok h
    exact .inr (.inl ⟨address, rest, hs, rfl⟩)
  | call target =>
    obtain ⟨hs, rfl⟩ := execute_call_eq_ok h
    exact .inr (.inr ⟨hs, m.pc + 2, rfl⟩)
  | random x mask => obtain ⟨_, _, _, rfl⟩ := execute_random_eq_ok h; exact .inl rfl
  | waitKey x =>
    cases h
    simp only [pollKey]
    split
    · split <;> exact .inl rfl
    · exact .inl rfl
  | _ => cases h; exact .inl rfl

/-- A timer stays or is set to a byte. -/
theorem execute_timers (h : m.execute i = .ok e) :
    (e.machine.timers.delay = m.timers.delay ∨
      ∃ byte : UInt8, e.machine.timers.delay = byte.toNat) ∧
    (e.machine.timers.sound = m.timers.sound ∨
      ∃ byte : UInt8, e.machine.timers.sound = byte.toNat) := by
  cases i with
  | ret => obtain ⟨_, _, _, rfl⟩ := execute_ret_eq_ok h; exact ⟨.inl rfl, .inl rfl⟩
  | call target => obtain ⟨_, rfl⟩ := execute_call_eq_ok h; exact ⟨.inl rfl, .inl rfl⟩
  | random x mask => obtain ⟨_, _, _, rfl⟩ := execute_random_eq_ok h; exact ⟨.inl rfl, .inl rfl⟩
  | waitKey x =>
    cases h
    simp only [pollKey]
    split
    · split <;> exact ⟨.inl rfl, .inl rfl⟩
    · exact ⟨.inl rfl, .inl rfl⟩
  | setDelay x => cases h; exact ⟨.inr ⟨m.registers.read x, rfl⟩, .inl rfl⟩
  | setSound x => cases h; exact ⟨.inl rfl, .inr ⟨m.registers.read x, rfl⟩⟩
  | _ => cases h; exact ⟨.inl rfl, .inl rfl⟩

/-- A return faults on an empty stack. -/
private theorem execute_ret_eq_fault_iff {f : Fault} :
    m.execute .ret = .error (.fault f) ↔
      m.stack.entries = [] ∧ f = .stackUnderflow m.pc.val := by
  -- `pop` says when it fails, and `execute` only renames its error.
  rw [← CallStack.pop_eq_error_iff]
  simp only [execute]
  cases m.stack.pop m.pc.val with
  | error g =>
    show Except.error (Obstacle.fault g) = _ ↔ _
    simp only [Except.error.injEq, Obstacle.fault.injEq]
  | ok popped =>
    constructor
    · intro h
      cases h
    · intro h
      cases h

/-- A call faults on a full stack. -/
private theorem execute_call_eq_fault_iff {f : Fault} {target : Address} :
    m.execute (.call target) = .error (.fault f) ↔
      m.stack.depth ≤ m.stack.size ∧ f = .stackOverflow m.pc.val m.stack.depth := by
  -- As for the return, with `push` in place of `pop`; the address pushed plays no part.
  rw [← CallStack.push_eq_error_iff _ (m.pc + 2).val]
  simp only [execute]
  cases m.stack.push (m.pc + 2).val m.pc.val with
  | error g =>
    show Except.error (Obstacle.fault g) = _ ↔ _
    simp only [Except.error.injEq, Obstacle.fault.injEq]
  | ok pushed =>
    constructor
    · intro h
      cases h
    · intro h
      cases h

/-- A return faults on an empty stack and a call on a full one; nothing else faults. -/
theorem execute_eq_fault_iff {f : Fault} :
    m.execute i = .error (.fault f) ↔
      (i = .ret ∧ m.stack.entries = [] ∧ f = .stackUnderflow m.pc.val) ∨
      ((∃ target, i = .call target) ∧ m.stack.depth ≤ m.stack.size ∧
        f = .stackOverflow m.pc.val m.stack.depth) := by
  cases i with
  | ret => simp [execute_ret_eq_fault_iff]
  | call target => simp [execute_call_eq_fault_iff]
  | random x mask =>
    -- A source that fails is an obstacle, but no fault.
    have hnot : m.execute (.random x mask) ≠ .error (.fault f) := by
      simp only [execute]
      intro h
      cases hd : ByteSource.draw? m.random with
      | error error =>
        rw [hd] at h
        cases h
      | ok draw =>
        rw [hd] at h
        cases h
    simp [hnot]
  | _ => simp [execute]

/-! ## Steps -/

/-- A halted machine meets its fault again and stays as it is. -/
theorem step_of_halted {f : Fault} (hf : m.fault = some f) :
    m.step = { result := .error (.fault f), machine := m } := by
  simp only [step, hf]

/-- An instruction that faults changes nothing but the stored fault. -/
theorem step_of_fault {f : Fault} (hf : m.fault = none)
    (he : m.execute m.current = .error (.fault f)) :
    m.step =
      { result := .error (.fault f)
        machine := { m with fault := some f }
        note := some (.halting f) } := by
  simp only [step, hf, he]

/-- An instruction without a random byte changes nothing. -/
theorem step_of_source {error : SourceError} (hf : m.fault = none)
    (he : m.execute m.current = .error (.source error)) :
    m.step = { result := .error (.source error), machine := m } := by
  simp only [step, hf, he]

/-- An instruction that takes effect is counted. -/
theorem step_of_ok (hf : m.fault = none) (he : m.execute m.current = .ok e) :
    m.step =
      { result := .ok (outcome m.current (complete m.current e))
        machine := complete m.current e
        note := e.note } := by
  simp only [step, hf, he]

/-- A step meets the stored fault, faults, finds no random byte, or completes its instruction. -/
theorem step_cases (m : Machine ρ) :
    (∃ f, m.fault = some f ∧ m.step = { result := .error (.fault f), machine := m }) ∨
    (m.fault = none ∧ ∃ f, m.execute m.current = .error (.fault f) ∧
      m.step = { result := .error (.fault f), machine := { m with fault := some f },
                 note := some (.halting f) }) ∨
    (m.fault = none ∧ ∃ error, m.execute m.current = .error (.source error) ∧
      m.step = { result := .error (.source error), machine := m }) ∨
    (m.fault = none ∧ ∃ e, m.execute m.current = .ok e ∧
      m.step = { result := .ok (outcome m.current (complete m.current e)),
                 machine := complete m.current e, note := e.note }) := by
  -- The stored fault is looked at first, so that a halted machine never executes anything.
  cases hf : m.fault with
  | some f => exact .inl ⟨f, rfl, step_of_halted hf⟩
  | none =>
    right
    cases he : m.execute m.current with
    | ok e => exact .inr (.inr ⟨rfl, e, rfl, step_of_ok hf he⟩)
    | error obstacle =>
      cases obstacle with
      | fault f => exact .inl ⟨rfl, f, rfl, step_of_fault hf he⟩
      | source error => exact .inr (.inl ⟨rfl, error, rfl, step_of_source hf he⟩)

end Machine

end Chip8
