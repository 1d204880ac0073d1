import Chip8.Proofs.KeyWait

/-!
# Loading during a wait

A load lays a program over memory and leaves everything else alone, the address and the wait latch
included. The latch, however, says that the machine waits, while the word at the current address
says what a step does. As long as no load made during a wait changes that word, the two agree after
every sequence of calls, and all that a waiting machine does is poll. After a load that does change
it, other instructions are executed while the latch stays set and the timers stand still.

## Key results

- `Machine.SparesWaits`: calls whose loads leave the instruction of a wait alone
- `Machine.WaitInvariant.callAll`: after such calls a wait belongs to the instruction at the address
- `Machine.step_keypad_of_not_waitKey`: what any other instruction does to a wait
- `Machine.waiting_step_polls`: steps of waiting machines, after any calls
- `Machine.waiting_step_polls_overwritten`: a load that leads to the other case
-/

namespace Chip8

/-- Whether a call loads a program. -/
def Call.loads : Call → Bool
  | .load _ => true
  | _ => false

namespace Machine

variable {ρ : Type} {m : Machine ρ} {calls : List Call}

/-- A wait depends on memory through the current word only. -/
private theorem WaitsFor.of_currentWord {t : Register} {memory : Ram} (h : m.WaitsFor t)
    (hword : ({ m with memory } : Machine ρ).currentWord = m.currentWord) :
    ({ m with memory } : Machine ρ).WaitsFor t := by
  -- What the current instruction is depends on the word alone.
  have hcurrent : ({ m with memory } : Machine ρ).current = m.current :=
    congrArg Instruction.ofWord hword
  exact ⟨h.fault, h.wait, hcurrent.trans h.current⟩

variable [ByteSource ρ]

/-- Every load that is made during a wait leaves the current word as it is. -/
def SparesWaits (m : Machine ρ) : List Call → Prop
  | [] => True
  | call :: rest =>
    (call.loads = true → m.awaitingKey = true →
      (m.call call).machine.currentWord = m.currentWord) ∧
      (m.call call).machine.SparesWaits rest

instance decidableSparesWaits (m : Machine ρ) :
    (calls : List Call) → Decidable (m.SparesWaits calls)
  | [] => isTrue trivial
  | call :: rest =>
    have := decidableSparesWaits (m.call call).machine rest
    inferInstanceAs (Decidable ((call.loads = true → m.awaitingKey = true →
      (m.call call).machine.currentWord = m.currentWord) ∧
        (m.call call).machine.SparesWaits rest))

/-! ## Waits that are left alone -/

/-- A call that spares a wait keeps the latch and the current word in agreement. -/
theorem WaitInvariant.call {call : Call} (h : m.WaitInvariant)
    (hs : call.loads = true → m.awaitingKey = true →
      (m.call call).machine.currentWord = m.currentWord) :
    (m.call call).machine.WaitInvariant := by
  -- A reset ends the wait; a load is where the assumption is needed; an input keeps the
  -- invariant.
  cases call with
  | reset => exact nofun
  | load program =>
    obtain ⟨_, _, hload⟩ | ⟨_, hload⟩ := m.loadProgram_cases program
    · simp only [Machine.call, hload] at hs ⊢
      intro ha
      obtain ⟨t, ht⟩ := h ha
      exact ⟨t, ht.of_currentWord (hs rfl ha)⟩
    -- A refused program changes nothing, and so the invariant is the old one.
    · simp only [Machine.call, hload]
      exact h
  | drive input =>
    exact feed_induction (P := WaitInvariant) (fun _ hm => hm.step) (fun _ hm => hm.tick)
      (fun _ keys hm => hm.hold keys) h input

/-- After calls that spare its waits, a machine that awaits a key stands at the instruction that
    asked for it. -/
theorem WaitInvariant.callAll (h : m.WaitInvariant) (hs : m.SparesWaits calls) :
    (m.callAll calls).WaitInvariant := by
  induction calls generalizing m with
  | nil => exact h
  | cons call rest ih => exact ih (h.call hs.1) hs.2

/-! ## Waits that were overwritten -/

/-- An instruction that does not wait leaves a wait as it is, and the timers with it. -/
theorem step_keypad_of_not_waitKey (hi : ∀ x, m.current ≠ .waitKey x) :
    m.step.machine.keypad = m.keypad :=
  step_induction (P := fun after => after.keypad = m.keypad) m rfl (fun _ _ _ => rfl)
    (fun _ _ he => execute_keypad he hi)

/-! ## Both together -/

/-- After any calls, a step of a machine that waits is a poll for the register in the latch, if no
    load made during a wait changed the word at the current address: it changes nothing but the
    counts of polls while no key is held, and else stores the lowest held key, moves on and ends the
    wait. Where the current word is no longer an instruction that waits, the step executes what it
    finds, the latch stays set, and ticks change nothing. -/
theorem waiting_step_polls (random : ρ) (calls : List Call) :
    let m := (fresh random).callAll calls
    m.awaitingKey = true →
      ((fresh random).SparesWaits calls →
        ∃ t, m.WaitsFor t ∧
          (m.keypad.states.AllUp →
            m.step = { result := .ok .awaitingKey, machine := m.idle 1 }) ∧
          (∀ key, m.keypad.states.Lowest key →
            m.step.result = .ok .executed ∧ m.step.machine = m.release t key)) ∧
      ((∀ x, m.current ≠ .waitKey x) →
        m.step.machine.keypad = m.keypad ∧ m.step.machine.tick = m.step.machine) := by
  intro m ha
  constructor
  · intro hs
    -- A new machine does not wait, and from there on the invariant is carried along.
    have hfresh : (fresh random).WaitInvariant := nofun
    obtain ⟨t, ht⟩ := hfresh.callAll hs ha
    refine ⟨t, ht, ht.step_of_allUp, fun key hk => ?_⟩
    rw [ht.step_of_lowest hk]
    exact ⟨rfl, rfl⟩
  · intro hi
    have hkeypad := step_keypad_of_not_waitKey hi
    -- The latch was not touched, so the machine still waits after the step.
    have hstill : m.step.machine.awaitingKey = true := (congrArg Keypad.awaiting hkeypad).trans ha
    exact ⟨hkeypad, tick_of_awaitingKey hstill⟩

/-- A load during a wait that brings the same wait along and another instruction behind it: with 5
    and 9 held, the next step stores the lower key. -/
theorem waiting_step_polls_reloaded :
    ∃ m : Machine Replay,
      m = (fresh (Replay.ofInts [7])).callAll
        [.load [0xF3, 0x0A], .drive .step, .load [0xF3, 0x0A, 0x60, 0x05],
          .drive (.keys (KeyStates.holding [9, 5]).toList)] ∧
      ∃ t, m.WaitsFor t ∧ m.step.result = .ok .executed ∧ m.step.machine = m.release t 5 := by
  obtain ⟨hpolls, -⟩ := waiting_step_polls (Replay.ofInts [7])
    [.load [0xF3, 0x0A], .drive .step, .load [0xF3, 0x0A, 0x60, 0x05],
      .drive (.keys (KeyStates.holding [9, 5]).toList)] (by decide +kernel)
  obtain ⟨t, hwaits, -, hlowest⟩ := hpolls (by decide +kernel)
  exact ⟨_, rfl, t, hwaits, hlowest 5 (by decide +kernel)⟩

/-- A program sets the delay and waits for a key; then another one is loaded. The step that follows
    counts as a poll that found no key, but it has executed the assignment that stands there now,
    and the delay stands still. -/
theorem waiting_step_polls_overwritten :
    ∃ m : Machine Replay,
      m = (fresh (Replay.ofInts [7])).callAll
        [.load [0x61, 0x09, 0xF1, 0x15, 0xF3, 0x0A], .drive .step, .drive .step, .drive .step,
          .load [0x61, 0x09, 0xF1, 0x15, 0x60, 0x05, 0x12, 0x04]] ∧
      m.awaitingKey = true ∧ m.keypad.states.AllUp ∧ m.step.obstacle = none ∧
      m.step.result.toOption = some .awaitingKey ∧
      (m.pc = 0x204 ∧ m.step.machine.pc = 0x206) ∧
      (m.registers.read 0 = 0 ∧ m.step.machine.registers.read 0 = 5) ∧
      m.timers.delay = 9 ∧ m.step.machine.tick.timers.delay = 9 := by
  refine ⟨_, rfl, ?_⟩
  decide +kernel

end Machine

end Chip8
