import Chip8.Proofs.Footprint
import Chip8.Proofs.Signals
import Mathlib.Data.List.Induction
import Mathlib.Data.List.Infix

/-!
# Calls and returns nest

A call leaves a frame on the stack: the entries of its callers and, as the latest, the address
behind the call. Whatever the machine does next, jumps, calls of its own, writes to its own program,
the frame stays at the bottom of the stack. Only a return can break it, by taking its latest entry,
and that return goes where the entry says.

## Key results

- `Machine.step_call`: a call that has room leaves its frame
- `Machine.receive_frame`: one signal keeps a frame or is the return from it
- `Machine.receiveAll_frame`: so do any signals up to that return
- `Machine.call_returns_to_caller`: from a call to the return that ends it
-/

namespace Chip8

/-- The words `2nnn` are the calls. -/
private theorem Instruction.ofWord_of_call {w : Word} (h : w.family = 0x2) :
    ofWord w = .call w.address := by
  simp only [ofWord, h]

/-- The number of entries is the same in both orders. -/
private theorem CallStack.length_oldestFirst (s : CallStack) : s.oldestFirst.length = s.size :=
  List.length_reverse

namespace Machine

variable {ρ : Type} [ByteSource ρ] {m : Machine ρ} {callers : List Int} {back : Int}

/-! ## One signal -/

/-- A call that has room puts the address behind it on the stack. -/
theorem step_call (hf : m.fault = none) (hroom : m.stack.size < m.stack.depth)
    (hcall : m.currentWord.family = 0x2) :
    m.step.obstacle = none ∧
      m.step.machine.stack.oldestFirst = m.stack.oldestFirst ++ [((m.pc + 2).val : Int)] := by
  have hcurrent : m.current = .call m.currentWord.address := Instruction.ofWord_of_call hcall
  cases he : m.execute m.current with
  | error obstacle =>
    -- Only a full stack keeps a call from taking effect.
    rw [hcurrent] at he
    simp only [execute, CallStack.push, if_neg (Int.not_le.2 hroom)] at he
    cases he
  | ok e =>
    have hstep := step_of_ok hf he
    rw [hcurrent] at he
    obtain ⟨-, rfl⟩ := execute_call_eq_ok he
    rw [hstep]
    exact ⟨rfl, List.reverse_cons⟩

/-- The current step is a return that completes: it leaves the callers and goes back. -/
structure ReturnsTo (m : Machine ρ) (callers : List Int) (back : Int) : Prop where
  completed : m.step.obstacle = none
  word : m.currentWord.toNat = 0x00EE
  stack : m.step.machine.stack.oldestFirst = callers
  pc : m.step.machine.pc = Address.ofInt back

/-- A step keeps the stack, puts an entry on it, or returns to the latest one and takes it away. -/
private theorem step_oldestFirst (m : Machine ρ) :
    m.step.machine.stack.oldestFirst = m.stack.oldestFirst ∨
    (∃ a, m.step.machine.stack.oldestFirst = m.stack.oldestFirst ++ [a]) ∨
    ∃ callers back, m.stack.oldestFirst = callers ++ [back] ∧ m.ReturnsTo callers back := by
  -- An obstacle leaves the stack as it is, and the footprint of a word says what it may do to
  -- it.
  cases ho : m.step.obstacle with
  | some obstacle =>
    obtain ⟨_, hm⟩ := exists_machine_eq_of_obstacle ho
    exact .inl (by rw [hm])
  | none =>
    obtain hsame | ⟨-, ⟨hret, -⟩ | ⟨-, hgrown⟩⟩ := (step_footprint ho).1.stack
    · exact .inl (by rw [hsame])
    · obtain ⟨e, he, hafter⟩ := exists_effect_of_completed ho
      have hcurrent : m.current = .ret := (Instruction.ofWord_eq_ret_iff _).2 hret
      rw [hcurrent] at he
      obtain ⟨back, rest, hs, rfl⟩ := execute_ret_eq_ok he
      have hentries : m.stack.oldestFirst = rest.reverse ++ [back] := by
        rw [CallStack.oldestFirst, hs, List.reverse_cons]
      exact .inr (.inr ⟨rest.reverse, back, hentries, ho, hret, by rw [hafter]; rfl,
        by rw [hafter]; rfl⟩)
    · exact .inr (.inl hgrown)

/-- A signal keeps a frame at the bottom of the stack, unless it is the return from the frame. -/
theorem receive_frame (h : callers ++ [back] <+: m.stack.oldestFirst) (signal : Signal) :
    callers ++ [back] <+: (m.receive signal).stack.oldestFirst ∨
      signal = .step ∧ m.ReturnsTo callers back := by
  -- Only steps touch the stack.
  cases signal with
  | tick =>
    left
    simp only [receive, Signal.input, feed, tick]
    split
    · exact h
    · exact h
  | keys states =>
    left
    obtain ⟨keys, hkeys⟩ := m.receive_keys states
    rw [hkeys]
    exact h
  | step =>
    obtain hsame | ⟨a, hgrown⟩ | ⟨callers', back', hs, hreturns⟩ := m.step_oldestFirst
    · exact .inl (hsame ▸ h)
    · exact .inl (hgrown ▸ h.trans (List.prefix_append _ _))
    · -- What the return takes lies above the frame, or is the end of it.
      rw [hs, List.prefix_concat_iff] at h
      obtain hframe | habove := h
      · obtain ⟨rfl, hback⟩ := List.append_inj' hframe rfl
        cases hback
        exact .inr ⟨rfl, hreturns⟩
      · exact .inl (hreturns.stack ▸ habove)

/-! ## Many signals -/

/-- The stack is never of the size, neither before the signals nor after any of them. -/
def Avoids (m : Machine ρ) (size : Nat) (signals : List Signal) : Prop :=
  ∀ past, past <+: signals → (m.receiveAll past).stack.size ≠ size

instance (m : Machine ρ) (size : Nat) (signals : List Signal) :
    Decidable (m.Avoids size signals) :=
  decidable_of_iff (∀ past ∈ signals.inits, (m.receiveAll past).stack.size ≠ size)
    (by simp only [Avoids, List.mem_inits])

omit [ByteSource ρ] in
/-- A stack that holds a frame is larger than the callers are. -/
private theorem size_ne_of_frame (h : callers ++ [back] <+: m.stack.oldestFirst) :
    m.stack.size ≠ callers.length := by
  have hlen := h.length_le
  rw [CallStack.length_oldestFirst, List.length_append, List.length_singleton] at hlen
  omega

/-- A frame stays at the bottom of the stack as long as the stack does not come back to the size of
    the callers. -/
theorem receiveAll_frame (h : callers ++ [back] <+: m.stack.oldestFirst) (signals : List Signal)
    (ha : m.Avoids callers.length signals) :
    callers ++ [back] <+: (m.receiveAll signals).stack.oldestFirst := by
  -- The last signal finds the frame that those before it have kept.
  induction signals using List.reverseRecOn with
  | nil => exact h
  | append_singleton past signal ih =>
    have hpast := ih fun p hp => ha p (hp.trans (List.prefix_append past [signal]))
    have hlast := ha _ (List.prefix_refl _)
    rw [receiveAll_append] at hlast ⊢
    obtain hkept | ⟨rfl, hreturns⟩ := receive_frame hpast signal
    · exact hkept
    · refine absurd ?_ hlast
      rw [← CallStack.length_oldestFirst]
      exact congrArg List.length hreturns.stack

/-- A call on a stack with fewer than sixteen entries takes effect. Afterwards, whatever steps,
    ticks and keys come, in any order, the stack begins with the callers and the address behind the
    call until it is back at the size that it had before the call; and the signal that brings it
    back is a return, which leaves the stack of before the call and goes to the address behind
    it. -/
theorem call_returns_to_caller (reachable : m.Reachable) (running : m.fault = none)
    (room : m.stack.size < 16) (call : m.currentWord.family = 0x2) :
    m.step.obstacle = none ∧
    ∀ signals, m.step.machine.Avoids m.stack.size signals →
      let inside := m.step.machine.receiveAll signals
      m.stack.oldestFirst ++ [((m.pc + 2).val : Int)] <+: inside.stack.oldestFirst ∧
      ∀ signal, (inside.receive signal).stack.size = m.stack.size →
        signal = .step ∧
        inside.step.obstacle = none ∧
        inside.currentWord.toNat = 0x00EE ∧
        inside.step.machine.stack.oldestFirst = m.stack.oldestFirst ∧
        inside.step.machine.pc = m.pc + 2 := by
  have hdepth := reachable.wellFormed.stack.depth
  obtain ⟨hcompleted, hstack⟩ := step_call running (by omega) call
  refine ⟨hcompleted, fun signals hinside => ?_⟩
  rw [← CallStack.length_oldestFirst] at hinside
  have hcalled : m.stack.oldestFirst ++ [((m.pc + 2).val : Int)] <+:
      m.step.machine.stack.oldestFirst := by
    rw [hstack]
  have hframe := receiveAll_frame hcalled signals hinside
  refine ⟨hframe, fun signal hback => ?_⟩
  obtain hkept | ⟨rfl, hreturns⟩ := receive_frame hframe signal
  · exact absurd (hback.trans (CallStack.length_oldestFirst _).symm) (size_ne_of_frame hkept)
  · exact ⟨rfl, hreturns.completed, hreturns.word, hreturns.stack,
      hreturns.pc.trans (Address.ofInt_val _)⟩

/-- A subroutine calls another one, which waits for a key, and then returns. -/
theorem call_returns_to_caller_nested :
    let program :=
      [0x22, 0x06, 0x12, 0x02, 0x00, 0x00, 0x22, 0x0A, 0x00, 0xEE, 0xF0, 0x0A, 0x00, 0xEE]
    let held := (KeyStates.holding [5]).toList
    let signals : List Signal := [.step, .tick, .step, .keys held, .step, .step]
    ∃ m : Machine Replay,
      m = (fresh (Replay.ofInts [7])).callAll [.load program] ∧
      m.fault = none ∧ m.stack.size < 16 ∧ m.currentWord.family = 0x2 ∧
      m.step.machine.Avoids m.stack.size signals ∧
      let inside := m.step.machine.receiveAll signals
      inside.currentWord.toNat = 0x00EE ∧
      inside.step.machine.stack.oldestFirst = m.stack.oldestFirst ∧
      inside.step.machine.pc = m.pc + 2 := by
  intro program held signals
  obtain ⟨m, hm⟩ : ∃ m : Machine Replay,
      m = (fresh (Replay.ofInts [7])).callAll [.load program] := ⟨_, rfl⟩
  obtain ⟨hrunning, hroom, hcall, havoids, hback⟩ :
      m.fault = none ∧ m.stack.size < 16 ∧ m.currentWord.family = 0x2 ∧
      m.step.machine.Avoids m.stack.size signals ∧
      ((m.step.machine.receiveAll signals).receive .step).stack.size = m.stack.size := by
    rw [hm]
    decide +kernel
  have hnested := (call_returns_to_caller ⟨_, _, hm⟩ hrunning hroom hcall).2 signals havoids
  obtain ⟨-, -, hret, hstack, hpc⟩ := hnested.2 .step hback
  exact ⟨m, hm, hrunning, hroom, hcall, havoids, hret, hstack, hpc⟩

end Machine

end Chip8
