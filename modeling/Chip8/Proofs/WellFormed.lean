import Chip8.Proofs.Calls
import Chip8.Proofs.Checked

/-!
# The machine invariant

Every part of a machine has its size and every value its range, whatever a host calls. Memory,
registers, screen, index and address are in range by their types; the stack, the timers and the
latch hold plain integers, and for them it is the instructions that keep the ranges.

## Key results

- `Machine.WellFormed`: the sizes and ranges
- `Machine.WellFormed.step`, `Machine.callAll_wellFormed`: a step and any calls keep them
- `Machine.callAll_sound`: the invariant after any calls, and the errors that any call can raise
-/

namespace Chip8

/-- The stack of the machine: sixteen addresses at most. -/
structure CallStack.WellFormed (s : CallStack) : Prop where
  depth : s.depth = 16
  size : s.size ≤ 16
  entries : ∀ a ∈ s.entries, 0 ≤ a ∧ a < 4096

/-- Both timers are bytes. -/
structure Timers.WellFormed (t : Timers) : Prop where
  delay : 0 ≤ t.delay ∧ t.delay ≤ 255
  sound : 0 ≤ t.sound ∧ t.sound ≤ 255

/-- A wait is for one of the registers. -/
def KeyWait.WellFormed (w : KeyWait) : Prop :=
  ∀ t, w = .awaiting t → 0 ≤ t ∧ t ≤ 15

/-- Every part of the machine has its size, and every value its range. -/
structure Machine.WellFormed {ρ : Type} (m : Machine ρ) : Prop where
  memory : m.memory.cells.toList.length = 4096 ∧
    ∀ byte ∈ m.memory.cells.toList, byte.toNat ≤ 255
  registers : m.registers.toList.length = 16 ∧ ∀ value ∈ m.registers.toList, value.toNat ≤ 255
  index : m.index.val < 4096
  pc : m.pc.val < 4096
  stack : m.stack.WellFormed
  screen : m.screen.toLists.length = 32 ∧ ∀ row ∈ m.screen.toLists, row.length = 64
  timers : m.timers.WellFormed
  keys : m.keypad.states.toList.length = 16
  latch : m.awaitingKey = true ↔ ∃ t, m.keypad.target = some t
  target : ∀ t, m.keypad.target = some t → 0 ≤ t ∧ t ≤ 15

/-! ## Parts -/

namespace CallStack.WellFormed

variable {s : CallStack}

/-- The empty stack is well-formed. -/
private theorem empty : CallStack.WellFormed {} :=
  ⟨rfl, Nat.zero_le _, nofun⟩

/-- A stack with room can take another address. -/
private theorem push (h : s.WellFormed) (hroom : s.size < s.depth) (a : Address) :
    CallStack.WellFormed { s with entries := a.val :: s.entries } := by
  have hsize : s.size < 16 := by
    have hdepth := h.depth
    omega
  refine ⟨h.depth, ?_, ?_⟩
  · simp only [CallStack.size, List.length_cons] at hsize ⊢
    omega
  · intro b hb
    rcases List.mem_cons.1 hb with rfl | hb
    -- The new entry is an address by its type; the others were entries before.
    · omega
    · exact h.entries b hb

/-- What remains of a stack is one. -/
private theorem pop {a : Int} {rest : List Int} (h : s.WellFormed) (hs : s.entries = a :: rest) :
    CallStack.WellFormed { s with entries := rest } := by
  refine ⟨h.depth, ?_, fun b hb => h.entries b (hs ▸ List.mem_cons_of_mem a hb)⟩
  have hsize := h.size
  simp only [CallStack.size, hs, List.length_cons] at hsize ⊢
  omega

end CallStack.WellFormed

namespace Timers

/-- A byte that counts down stays a byte. -/
private theorem countDown_le {t : Int} (h : 0 ≤ t ∧ t ≤ 255) :
    0 ≤ countDown t ∧ countDown t ≤ 255 := by
  rw [countDown_of_nonneg h.1]
  omega

/-- Timers that stand still are well-formed. -/
private theorem WellFormed.zero : Timers.WellFormed {} :=
  ⟨by decide, by decide⟩

/-- A tick keeps the timers in their ranges. -/
theorem WellFormed.tick {t : Timers} (h : t.WellFormed) : t.tick.WellFormed :=
  ⟨countDown_le h.delay, countDown_le h.sound⟩

end Timers

namespace Machine

variable {ρ : Type} {m : Machine ρ}

/-- Only the stack, the timers and the latch could leave their ranges. -/
theorem WellFormed.of_parts (hs : m.stack.WellFormed) (ht : m.timers.WellFormed)
    (hk : m.keypad.wait.WellFormed) : m.WellFormed where
  -- Bytes, addresses, rows and keys are in range by their types, and the lengths are those of
  -- vectors.
  memory := ⟨by simp, fun byte _ => by have := byte.toNat_lt; omega⟩
  registers := ⟨m.registers.length_toList, fun value _ => by have := value.toNat_lt; omega⟩
  index := m.index.isLt
  pc := m.pc.isLt
  stack := hs
  screen := by
    refine ⟨by simp [Framebuffer.toLists], fun row hrow => ?_⟩
    obtain ⟨cells, _, rfl⟩ := List.mem_map.1 hrow
    exact Vector.length_toList
  timers := ht
  keys := Vector.length_toList
  latch := by
    -- Target and latch are two readings of the same wait.
    simp only [awaitingKey, Keypad.awaiting_eq_isSome_target, Option.isSome_iff_exists]
  target := by
    intro t h
    apply hk
    simp only [Keypad.target] at h
    split at h
    · exact nomatch h
    · rename_i hw
      rw [hw, Option.some.inj h]

/-- The wait of a well-formed machine is for one of the registers. -/
theorem WellFormed.wait (h : m.WellFormed) : m.keypad.wait.WellFormed := by
  intro t hw
  apply h.target
  simp only [Keypad.target, hw]

/-- A new machine is well-formed. -/
theorem wellFormed_fresh (random : ρ) : (fresh random).WellFormed :=
  .of_parts .empty .zero nofun

/-- A reset makes the machine new. -/
theorem WellFormed.reset (_ : m.WellFormed) : m.reset.WellFormed :=
  wellFormed_fresh m.random

/-- Memory has its size by its type, whatever is loaded into it. -/
theorem WellFormed.load (h : m.WellFormed) (memory : Ram) :
    WellFormed { m with memory } :=
  .of_parts h.stack h.timers h.wait

/-- The keys held are none of the invariant's ranges. -/
theorem WellFormed.hold (h : m.WellFormed) (keys : KeyStates) : (m.hold keys).WellFormed :=
  .of_parts h.stack h.timers h.wait

/-- A tick keeps the invariant, also where a wait holds the timers. -/
theorem WellFormed.tick (h : m.WellFormed) : m.tick.WellFormed := by
  unfold Machine.tick
  split
  · exact h
  · exact .of_parts h.stack h.timers.tick h.wait

/-! ## Steps and calls -/

/-- A byte is in the range of a timer. -/
theorem byte_in_range (byte : UInt8) : (0 : Int) ≤ byte.toNat ∧ (byte.toNat : Int) ≤ 255 := by
  have := byte.toNat_lt
  omega

variable [ByteSource ρ]

/-- An instruction keeps the ranges of what it writes. -/
private theorem WellFormed.execute {i : Instruction} {e : Effect ρ} (h : m.WellFormed)
    (he : m.execute i = .ok e) : e.machine.WellFormed := by
  apply WellFormed.of_parts
  -- The stack, the timers and the latch each have a lemma on what an instruction can make of
  -- them.
  -- A call pushes only where there is room, so that the stack never outgrows its depth.
  · obtain hs | ⟨a, rest, hrest, hs⟩ | ⟨hroom, a, hs⟩ := execute_stack he
    · rw [hs]; exact h.stack
    · rw [hs]; exact h.stack.pop hrest
    · rw [hs]; exact h.stack.push hroom a
  · obtain ⟨hd, hs⟩ := execute_timers he
    constructor
    · obtain hd | ⟨byte, hd⟩ := hd
      · rw [hd]; exact h.timers.delay
      · rw [hd]; exact byte_in_range byte
    · obtain hs | ⟨byte, hs⟩ := hs
      · rw [hs]; exact h.timers.sound
      · rw [hs]; exact byte_in_range byte
  -- The latch names the register of the instruction that armed it.
  · obtain hw | hw | ⟨x, hw⟩ := execute_wait he
    · rw [hw]; exact h.wait
    · rw [hw]; exact nofun
    · rw [hw]
      rintro t ht
      cases ht
      omega

/-- A step keeps the invariant. -/
theorem WellFormed.step (h : m.WellFormed) : m.step.machine.WellFormed := by
  -- The two ways for a step to change the machine: it stores a fault, or it completes.
  apply step_induction m h
  · intro f _ _
    exact .of_parts h.stack h.timers h.wait
  · intro e _ he
    have hm := h.execute he
    exact .of_parts hm.stack hm.timers hm.wait

/-- Any calls keep the invariant. -/
theorem callAll_wellFormed (h : m.WellFormed) (calls : List Call) : (m.callAll calls).WellFormed :=
  callAll_induction (P := WellFormed) (fun _ hm => hm.reset) (fun _ memory hm => hm.load memory)
    (fun _ hm => hm.step) (fun _ hm => hm.tick) (fun _ keys hm => hm.hold keys) h calls

/-- Every machine that calls can reach is well-formed. -/
theorem Reachable.wellFormed (h : m.Reachable) : m.WellFormed := by
  obtain ⟨random, calls, rfl⟩ := h
  exact callAll_wellFormed (wellFormed_fresh random) calls

end Machine

/-! ## Errors -/

namespace Machine

variable {ρ : Type}

/-- A program that fits can be loaded with every bound checked. -/
theorem load?_program (m : Machine ρ) {program : List UInt8}
    (h : program.length ≤ programLimit) :
    m.memory.load? programStart program =
      .ok ⟨Memory.overlay m.memory.cells programStart program⟩ := by
  simp only [programLimit, programStart] at h
  rw [Memory.load?, if_neg]
  · rfl
  · simp only [programStart]
    omega

variable [RandomSource ρ] {m : Machine ρ}

/-- The only obstacles in the way of a step are faults. -/
theorem exists_fault_of_step_obstacle {obstacle : Obstacle}
    (h : m.step.obstacle = some obstacle) : ∃ fault, obstacle = .fault fault := by
  obtain ⟨f, hf, -⟩ | ⟨error, -, -, he⟩ := step_obstacle_cases h
  · exact ⟨f, hf⟩
  · exact absurd (exists_fault_of_execute_eq_error he) nofun

/-- After any calls, from construction on, every part of the machine has its size and its range;
    fetching and executing the next word needs no access that could be refused and finds the word
    handled; steps and frames raise nothing but faults; a reset and a tick raise nothing; a load
    raises an error only for a program that does not fit; and new keys are refused only if there is
    not one state for each key, with the machine unchanged. -/
theorem callAll_sound (random : ρ) (calls : List Call) :
    let m := (fresh random).callAll calls
    m.WellFormed ∧
    m.memory.word? m.pc.val = .ok m.currentWord ∧
    m.executeChecked m.current = (m.execute m.current).mapError .obstacle ∧
    (∀ error, (m.feed .step).error = some error → ∃ f, error = .obstacle (.fault f)) ∧
    (∀ n error, (m.feed (.frame n)).error = some error → ∃ f, error = .obstacle (.fault f)) ∧
    (m.feed .tick).error = none ∧
    (m.call .reset).error = none ∧
    (Memory.blank 4096).load? Font.base Font.glyphs = .ok m.reset.memory ∧
    (∀ program, if programLimit < program.length then
        m.call (.load program) = { error := some (.program ⟨program.length⟩), machine := m }
      else ∃ memory, m.memory.load? programStart program = .ok memory ∧
        m.call (.load program) = { machine := { m with memory } }) ∧
    (∀ states, if states.length = 16 then
        ∃ keys : KeyStates, keys.toList = states ∧
          m.feed (.keys states) = { machine := m.hold keys }
      else
        m.feed (.keys states) =
          { error := some (.keys (.wrongCount states.length)), machine := m }) := by
  intro m
  refine ⟨callAll_wellFormed (wellFormed_fresh random) calls, m.word?_pc, m.executeChecked_eq _,
    ?_, ?_, rfl, rfl, ?_, ?_, ?_⟩
  · intro error h
    -- A step raises what stands in its way, and that is a fault by the lemma above.
    obtain ⟨obstacle, ho, rfl⟩ := Option.map_eq_some_iff.1 h
    obtain ⟨f, rfl⟩ := exists_fault_of_step_obstacle ho
    exact ⟨f, rfl⟩
  · intro n error h
    obtain ⟨obstacle, ho, rfl⟩ := Option.map_eq_some_iff.1 h
    -- A frame raises what one of its steps raises.
    rw [Run.frame_obstacle] at ho
    obtain ⟨k, _, hk⟩ := Run.exists_step_of_steps_obstacle rfl ho
    obtain ⟨f, rfl⟩ := exists_fault_of_step_obstacle hk
    exact ⟨f, rfl⟩
  · rw [Memory.load?, if_neg (by decide)]
    -- The font lies below the end of memory.
    rfl
  · intro program
    split
    · rename_i h
      simp only [call, loadProgram, if_pos h]
    · rename_i h
      refine ⟨_, m.load?_program (Nat.le_of_not_lt h), ?_⟩
      simp only [call, loadProgram, if_neg h]
  · intro states
    obtain ⟨hlen, keys, hkeys, hs⟩ | ⟨hlen, hs⟩ := m.setKeys?_cases states
    -- The list of states becomes the keys exactly when there are sixteen of them.
    · rw [if_pos hlen]
      exact ⟨keys, hkeys, by simp only [feed, hs]⟩
    · rw [if_neg hlen]
      simp only [feed, hs]

end Machine

end Chip8
