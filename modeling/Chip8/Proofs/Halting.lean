import Chip8.Proofs.WellFormed
import Chip8.Random.Twister

/-!
# Halting

A fault is raised exactly by a return on an empty stack and a call on a full one. Raising it stores
it and changes nothing else, and from then on no call but a reset gets the machine going again.

## Key results

- `Machine.step_obstacle_eq_fault_iff`: when a step faults
- `Machine.callAll_of_halted`: what is halted stays halted
- `Machine.faultInvariant_of_reachable`: a halted machine stands at the instruction at fault
- `Machine.faults_exact_and_absorbing`: faults from the step that raises them to the reset
-/

namespace Chip8.Machine

variable {ρ : Type}

/-- The next step of a machine that is not halted raises the fault: the current word is a return
    and the stack is empty, or the word is a call and the stack is full. -/
def Raises (m : Machine ρ) (f : Fault) : Prop :=
  (m.currentWord.toNat = 0x00EE ∧ m.stack.entries = [] ∧ f = .stackUnderflow m.pc.val) ∨
  (m.currentWord.toNat / 0x1000 = 2 ∧ m.stack.size = 16 ∧ f = .stackOverflow m.pc.val 16)

/-- A stored fault names the address at which the machine stands. -/
def FaultInvariant (m : Machine ρ) : Prop :=
  ∀ f, m.fault = some f → f.pc = m.pc.val

/-- A fault that is raised names the current address. -/
theorem Raises.pc_eq {m : Machine ρ} {f : Fault} (h : m.Raises f) : f.pc = m.pc.val := by
  obtain ⟨_, _, rfl⟩ | ⟨_, _, rfl⟩ := h
  · rfl
  · rfl

section Calls

variable [ByteSource ρ] {m : Machine ρ} {f : Fault}

/-! ## Raising a fault -/

/-- The faults of the current instruction are those that its word and the stack call for. -/
private theorem execute_current_eq_fault_iff (h : m.WellFormed) :
    m.execute m.current = .error (.fault f) ↔ m.Raises f := by
  -- The depth of a stack is its number of entries, and none is negative.
  have hdepth := h.stack.depth
  have hsize := h.stack.size
  rw [execute_eq_fault_iff, current, Instruction.ofWord_eq_ret_iff,
    Instruction.ofWord_eq_call_iff, hdepth, Raises]
  -- A stack of at most sixteen entries is full when it has sixteen.
  have hfull : (16 : Int) ≤ m.stack.size ↔ m.stack.size = 16 := by omega
  rw [hfull]

/-- A step faults exactly where the word and the stack call for it, and stores the fault. -/
theorem step_obstacle_eq_fault_iff (h : m.WellFormed) (hf : m.fault = none) :
    m.step.obstacle = some (.fault f) ↔ m.Raises f := by
  rw [← execute_current_eq_fault_iff h]
  constructor
  · intro ho
    -- Of a machine that is not halted, the fault is that of its instruction.
    obtain ⟨g, hg, -, hstored | ⟨-, he⟩⟩ | ⟨_, herror, -, -⟩ := step_obstacle_cases ho
    · exact absurd (hf.symm.trans hstored) nofun
    · cases hg
      exact he
    · exact nomatch herror
  · intro he
    rw [step_of_fault hf he]
    rfl

/-- Raising a fault stores it and changes nothing else. -/
theorem step_machine_of_fault (ho : m.step.obstacle = some (.fault f)) :
    m.step.machine = { m with fault := some f } := by
  obtain ⟨g, hg, hm, -⟩ | ⟨_, herror, -, -⟩ := step_obstacle_cases ho
  · cases hg
    exact hm
  · exact nomatch herror

/-! ## Staying halted -/

/-- A step of a halted machine raises the stored fault and changes nothing. -/
private theorem feed_step_of_halted (h : m.fault = some f) :
    m.feed .step = { error := some (.obstacle (.fault f)), machine := m } := by
  simp only [feed, step_of_halted h]
  rfl

/-- So does a frame of at least one step; its tick is left out. -/
private theorem feed_frame_of_halted (h : m.fault = some f) {n : Int} (hn : 1 ≤ n) :
    m.feed (.frame n) = { error := some (.obstacle (.fault f)), machine := m } := by
  have ho : m.step.obstacle = some (.fault f) := by
    rw [step_of_halted h]
    rfl
  rw [feed_frame_of_first_obstacle (k := 0) (fun k hk => absurd hk (by omega)) ho (by omega),
    after_zero, step_of_halted h]

/-- Only a reset gets a halted machine going again. -/
theorem callAll_of_halted (h : m.fault = some f) {calls : List Call} (hreset : .reset ∉ calls) :
    (m.callAll calls).fault = some f := by
  -- Induction on the calls; all that is followed is the stored fault.
  induction calls generalizing m with
  | nil => exact h
  | cons call rest ih =>
    refine ih ?_ fun hmem => hreset (List.mem_cons_of_mem call hmem)
    cases call with
    | reset => exact absurd List.mem_cons_self hreset
    | load program =>
      obtain ⟨memory, hmemory⟩ := m.exists_call_load_eq program
      show (m.call (.load program)).machine.fault = some f
      rw [hmemory]
      exact h
    | drive input =>
      refine feed_induction (P := fun m => m.fault = some f) ?_ ?_ ?_ h input
      · intro m hm
        rw [step_of_halted hm]
        exact hm
      · intro m hm
        unfold Machine.tick
        split
        · exact hm
        · exact hm
      · intro m keys hm
        exact hm

/-! ## The address of a stored fault -/

/-- A step keeps to it that a stored fault names the current address. -/
theorem FaultInvariant.step (h : m.FaultInvariant) (hm : m.WellFormed) :
    m.step.machine.FaultInvariant := by
  refine step_induction (P := FaultInvariant) m h ?_ ?_
  · intro g _ he f hf
    cases hf
    exact ((execute_current_eq_fault_iff hm).1 he).pc_eq
  · intro e hnone he f hf
    have hfault : e.machine.fault = m.fault := (execute_bookkeeping he).2.2.2.1
    exact absurd (hfault.trans hnone) (by rw [show e.machine.fault = some f from hf]; exact nofun)

/-- A halted machine stands at the instruction at fault. -/
theorem faultInvariant_of_reachable (h : m.Reachable) : m.FaultInvariant := by
  obtain ⟨random, calls, rfl⟩ := h
  -- That a fault names the current address needs the depth of the stack, so both go together.
  have hboth : ((fresh random).callAll calls).WellFormed ∧
      ((fresh random).callAll calls).FaultInvariant := by
    refine callAll_induction (P := fun m => m.WellFormed ∧ m.FaultInvariant) ?_ ?_ ?_ ?_ ?_
      ⟨wellFormed_fresh random, nofun⟩ calls
    · exact fun m hm => ⟨hm.1.reset, nofun⟩
    · exact fun m memory hm => ⟨hm.1.load memory, hm.2⟩
    · exact fun m hm => ⟨hm.1.step, hm.2.step hm.1⟩
    · intro m hm
      refine ⟨hm.1.tick, ?_⟩
      unfold Machine.tick
      split
      · exact hm.2
      · exact hm.2
    · exact fun m keys hm => ⟨hm.1.hold keys, hm.2⟩
  exact hboth.2

/-- What is called from a machine that a host can come to leads to another one. -/
theorem Reachable.callAll (h : m.Reachable) (calls : List Call) : (m.callAll calls).Reachable := by
  obtain ⟨random, before, rfl⟩ := h
  exact ⟨random, before ++ calls, (callAll_append _ before calls).symm⟩

end Calls

variable [RandomSource ρ] {m : Machine ρ}

/-- For every machine that a host can come to. A step of a machine that is not halted raises an
    error exactly if it is a return on an empty stack or a call on a full one; the fault names the
    current address, and storing it is all that happens. A halted machine answers every step and
    every frame of at least one step with the stored fault and stays as it is, at the address of the
    fault, whatever is called but a reset. And a frame whose `k`-th step is the first to fault
    leaves the machine as after `k - 1` steps with the fault stored, without a tick. -/
theorem faults_exact_and_absorbing (reachable : m.Reachable) :
    (m.fault = none →
      (∀ error, (m.feed .step).error = some error ↔
        ∃ f, m.Raises f ∧ error = .obstacle (.fault f)) ∧
      (∀ f, m.Raises f → f.pc = m.pc.val ∧
        m.feed .step =
          { error := some (.obstacle (.fault f)), machine := { m with fault := some f } })) ∧
    (∀ f, m.fault = some f →
      (∀ calls, .reset ∉ calls →
        let w := m.callAll calls
        w.fault = some f ∧ f.pc = w.pc.val ∧
        w.feed .step = { error := some (.obstacle (.fault f)), machine := w } ∧
        ∀ n, 1 ≤ n →
          w.feed (.frame n) = { error := some (.obstacle (.fault f)), machine := w }) ∧
      m.reset.fault = none) ∧
    (∀ (n : Int) (k : Nat) (f : Fault), 1 ≤ k → k ≤ n → m.Completes (k - 1) →
      (m.after (k - 1)).step.obstacle = some (.fault f) →
      m.feed (.frame n) =
        { error := some (.obstacle (.fault f))
          machine := { m.after (k - 1) with fault := some f } }) := by
  have hm : m.WellFormed := reachable.wellFormed
  refine ⟨fun hf => ⟨fun error => ?_, fun f hraises => ⟨hraises.pc_eq, ?_⟩⟩,
    fun f hf => ⟨fun calls hreset => ?_, rfl⟩, fun n k f hk hkn hc ho => ?_⟩
  -- An obstacle of a source with random bytes can only be a fault.
  · constructor
    · intro h
      obtain ⟨obstacle, ho, rfl⟩ := Option.map_eq_some_iff.1 h
      obtain ⟨f, rfl⟩ := exists_fault_of_step_obstacle ho
      exact ⟨f, (step_obstacle_eq_fault_iff hm hf).1 ho, rfl⟩
    · rintro ⟨f, hraises, rfl⟩
      exact Option.map_eq_some_iff.2
        ⟨.fault f, (step_obstacle_eq_fault_iff hm hf).2 hraises, rfl⟩
  · have ho := (step_obstacle_eq_fault_iff hm hf).2 hraises
    simp only [feed, ho, step_machine_of_fault ho]
    rfl
  -- Whatever was called, the machine is halted with the same fault and stands where it did.
  · intro w
    have hw : w.fault = some f := callAll_of_halted hf hreset
    have hpc : w.FaultInvariant := faultInvariant_of_reachable (reachable.callAll calls)
    exact ⟨hw, hpc f hw, feed_step_of_halted hw, fun n hn => feed_frame_of_halted hw hn⟩
  · rw [feed_frame_of_first_obstacle hc ho (by omega), step_machine_of_fault ho]

/-- A return with nothing to return to: raised by a step, met again by a frame after another program
    was loaded, and met by the second step of a frame. -/
theorem faults_exact_and_absorbing_underflow :
    let raising := (fresh (Twister.ofSeed 0)).callAll [.load [0x00, 0xEE]]
    let halted := (fresh (Twister.ofSeed 0)).callAll [.load [0x00, 0xEE], .drive .step]
    let later := halted.callAll [.load [0x12, 0x00], .drive .tick]
    let running := (fresh (Twister.ofSeed 0)).callAll [.load [0x60, 0x01, 0x00, 0xEE]]
    raising.feed .step =
      { error := some (.obstacle (.fault (.stackUnderflow 0x200)))
        machine := { raising with fault := some (.stackUnderflow 0x200) } } ∧
    later.feed (.frame 2) =
      { error := some (.obstacle (.fault (.stackUnderflow 0x200))), machine := later } ∧
    running.feed (.frame 5) =
      { error := some (.obstacle (.fault (.stackUnderflow 0x202)))
        machine := { running.after 1 with fault := some (.stackUnderflow 0x202) } } := by
  intro raising halted later running
  obtain ⟨hraise, -, -⟩ := faults_exact_and_absorbing (m := raising) ⟨_, _, rfl⟩
  obtain ⟨-, habsorb, -⟩ := faults_exact_and_absorbing (m := halted) ⟨_, _, rfl⟩
  obtain ⟨-, -, hframe⟩ := faults_exact_and_absorbing (m := running) ⟨_, _, rfl⟩
  refine ⟨?_, ?_, ?_⟩
  · have hraises : raising.Raises (.stackUnderflow 0x200) :=
      .inl ⟨by decide +kernel, by decide +kernel, by decide +kernel⟩
    exact ((hraise (by decide +kernel)).2 _ hraises).2
  · have hfault : halted.fault = some (.stackUnderflow 0x200) := by decide +kernel
    exact ((habsorb _ hfault).1 [.load [0x12, 0x00], .drive .tick] (by decide)).2.2.2 2 (by decide)
  · have hcompletes : running.Completes 1 := by
      intro k hk
      obtain rfl : k = 0 := by omega
      decide +kernel
    exact hframe 5 2 _ (by decide) (by decide) hcompletes (by decide +kernel)

end Chip8.Machine
