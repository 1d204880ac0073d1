import Chip8.Proofs.Reload
import Mathlib.Data.List.DropRight

/-!
# Accounting of cycles

A machine counts its completed instructions twice, once all together and once by name. Neither count
is made where an instruction takes effect: outcomes, faults and random draws are decided elsewhere.
What ties them together is an account that a step either extends by one entry everywhere or leaves
alone: the outcomes of the steps that returned, and what is left of the random source. It begins
anew with every reset, and loads, ticks and changes of keys are no business of it.

A step that leaves the machine waiting says so, whatever instruction it executed. That it executed
one that waits is true of machines that stand at such an instruction whenever they wait, which only
a load during a wait can put an end to.

## Key results

- `Machine.Account.complete`, `Machine.Account.after`, `Machine.Account.callAll`: the account over
  one instruction, over some steps and over some calls
- `Machine.StandsAtWait.result_eq_awaitingKey_iff`: when a step reports that a key is awaited
- `Machine.callAll_account`: the account of any machine that a host can come to
- `Machine.callAll_account_overwritten`: a load during a wait, and a step that reports the wait
  though it executed another instruction
-/

namespace Chip8

/-! ## Names -/

namespace Instruction

/-- The names under which instructions are counted, the last one being that of undefined words. -/
def mnemonics : List String :=
  ["CLS", "RET", "JP", "CALL", "SE_VX_BYTE", "SNE_VX_BYTE", "SE_VX_VY", "LD_VX_BYTE",
    "ADD_VX_BYTE", "LD_VX_VY", "OR", "AND", "XOR", "ADD_VX_VY", "SUB", "SHR", "SUBN", "SHL",
    "SNE_VX_VY", "LD_I", "JP_V0", "RND", "DRW", "SKP", "SKNP", "LD_VX_DT", "LD_VX_K", "LD_DT_VX",
    "LD_ST_VX", "ADD_I_VX", "LD_F_VX", "LD_B_VX", "LD_MEM_VX", "LD_VX_MEM", "UNKNOWN"]

/-- There are thirty-five names, no two of them the same. -/
private theorem length_mnemonics : mnemonics.length = 35 ∧ mnemonics.Nodup := by
  decide

/-- Every instruction is counted under one of the names. -/
private theorem mnemonic_mem_mnemonics (i : Instruction) : i.mnemonic ∈ mnemonics := by
  cases i with
  | alu op x y => cases op <;> simp [mnemonic, mnemonics]
  | _ => simp [mnemonic, mnemonics]

end Instruction

/-- A step reports an unknown word exactly if it counts one. -/
theorem Machine.outcome_eq_unknownOpcode_iff {ρ : Type} (i : Instruction) (m : Machine ρ) :
    outcome i m = .unknownOpcode ↔ i.mnemonic = "UNKNOWN" := by
  cases i with
  | undefined w => simp [outcome, Instruction.mnemonic]
  | alu op x y =>
    simp only [outcome]
    split <;> cases op <;> simp [Instruction.mnemonic]
  | _ =>
    simp only [outcome]
    split <;> simp [Instruction.mnemonic]

/-! ## Draws -/

namespace ByteSource

variable {ρ : Type} [ByteSource ρ]

/-- So many draws, none of them refused, lead from one state of a source to another. -/
inductive Draws : Nat → ρ → ρ → Prop
  | none (source : ρ) : Draws 0 source source
  | draw {count : Nat} {source between left : ρ} {byte : UInt8} :
    Draws count source between → draw? between = .ok (byte, left) → Draws (count + 1) source left

/-- A function of the states of a source that goes up by one with every draw. -/
def Meter (drawn : ρ → Nat) : Prop :=
  ∀ source byte left, draw? source = .ok (byte, left) → drawn left = drawn source + 1

/-- A meter shows how many draws there were. -/
private theorem Draws.eq_add_of_meter {count : Nat} {source left : ρ} (h : Draws count source left)
    {drawn : ρ → Nat} (hmeter : Meter drawn) : drawn left = drawn source + count := by
  induction h with
  | none => rfl
  | draw _ hdraw ih =>
    have hlast := hmeter _ _ _ hdraw
    omega

end ByteSource

namespace Machine

variable {ρ : Type} [ByteSource ρ] {m : Machine ρ} {i : Instruction} {e : Effect ρ}

/-- A random instruction draws once, and no other instruction draws. -/
private theorem execute_random (h : m.execute i = .ok e) :
    (i.mnemonic = "RND" ∧ ∃ byte, ByteSource.draw? m.random = .ok (byte, e.machine.random)) ∨
      (i.mnemonic ≠ "RND" ∧ e.machine.random = m.random) := by
  cases i with
  | random x mask =>
    obtain ⟨byte, left, hdraw, rfl⟩ := execute_random_eq_ok h
    exact .inl ⟨rfl, byte, hdraw⟩
  -- The other instructions leave the source as it is, and none of them has the name `RND`.
  | ret =>
    obtain ⟨_, _, _, rfl⟩ := execute_ret_eq_ok h
    exact .inr ⟨by simp [Instruction.mnemonic], rfl⟩
  | call target =>
    obtain ⟨_, rfl⟩ := execute_call_eq_ok h
    exact .inr ⟨by simp [Instruction.mnemonic], rfl⟩
  | waitKey x =>
    cases h
    refine .inr ⟨by simp [Instruction.mnemonic], ?_⟩
    simp only [pollKey]
    split
    · split <;> rfl
    · rfl
  | alu op x y =>
    cases h
    exact .inr ⟨by cases op <;> simp [Instruction.mnemonic], rfl⟩
  | _ =>
    cases h
    exact .inr ⟨by simp [Instruction.mnemonic], rfl⟩

end Machine

/-! ## Accounts -/

/-- How many instructions a call executes. -/
def Call.instructions : Call → Nat
  | .drive input => input.instructions
  | .reset => 0
  | .load _ => 0

namespace Machine

variable {ρ : Type} [ByteSource ρ] {m : Machine ρ} {i : Instruction} {e : Effect ρ}

/-- The account of a machine since it began with a random source: the counts, the outcomes of the
    steps that returned, and the draws agree. -/
structure Account (source : ρ) (returned : List Outcome) (m : Machine ρ) : Prop where
  total : m.cycles = m.statistics.total
  cycles : m.cycles = returned.length
  entries : ∀ entry ∈ m.statistics.entries, entry.1 ∈ Instruction.mnemonics ∧ 1 ≤ entry.2
  names : (m.statistics.entries.map (·.1)).Nodup
  unknown : m.statistics.get "UNKNOWN" = returned.count .unknownOpcode
  draws : ByteSource.Draws (m.statistics.get "RND") source m.random

/-- The outcomes of some steps, as far as they returned one. -/
def outcomes (m : Machine ρ) : (steps : Nat) → List Outcome
  | 0 => []
  | steps + 1 =>
    match m.step.result with
    | .ok outcome => outcome :: m.step.machine.outcomes steps
    | .error _ => []

/-- The outcomes of the steps that returned during some calls, in frames as well. -/
def returned (m : Machine ρ) : List Call → List Outcome
  | [] => []
  | call :: rest => m.outcomes call.instructions ++ (m.call call).machine.returned rest

variable {source : ρ} {seen : List Outcome}

/-- An account that has just been opened is empty. -/
theorem Account.fresh (source : ρ) : (fresh source).Account source [] where
  total := rfl
  cycles := rfl
  entries := nofun
  names := List.nodup_nil
  unknown := rfl
  draws := .none source

/-- What is no business of the account can change. -/
theorem Account.of_eq {after : Machine ρ} (h : m.Account source seen)
    (hcycles : after.cycles = m.cycles) (hstatistics : after.statistics = m.statistics)
    (hrandom : after.random = m.random) : after.Account source seen where
  total := by rw [hcycles, hstatistics]; exact h.total
  cycles := hcycles.trans h.cycles
  entries := by rw [hstatistics]; exact h.entries
  names := by rw [hstatistics]; exact h.names
  unknown := by rw [hstatistics]; exact h.unknown
  draws := by rw [hstatistics, hrandom]; exact h.draws

/-- A tick is no business of the account. -/
theorem Account.tick (h : m.Account source seen) : m.tick.Account source seen := by
  unfold Machine.tick
  split
  · exact h
  · exact h.of_eq rfl rfl rfl

/-- An instruction that completes has one entry in every part of the account. -/
theorem Account.complete (h : m.Account source seen) (he : m.execute i = .ok e) :
    (complete i e).Account source (seen ++ [outcome i (complete i e)]) := by
  -- The effect has not counted yet: both counts are those of `m` until the instruction
  -- completes.
  obtain ⟨-, hcycles, hstatistics, -, -⟩ := execute_bookkeeping he
  have hget (name : String) : (Machine.complete i e).statistics.get name =
      m.statistics.get name + if i.mnemonic = name then 1 else 0 := by
    simp only [Machine.complete, Tally.get_count, hstatistics]
  constructor
  · simp only [Machine.complete, Tally.total_count, hcycles, hstatistics, h.total]
  · simp only [Machine.complete, List.length_append, List.length_singleton, hcycles, h.cycles]
  · intro entry hentry
    simp only [Machine.complete, hstatistics] at hentry
    obtain hold | ⟨hname, hpos⟩ := Tally.mem_count hentry
    · exact h.entries entry hold
    · exact ⟨hname ▸ i.mnemonic_mem_mnemonics, hpos⟩
  · simp only [Machine.complete, hstatistics]
    exact Tally.nodup_count h.names i.mnemonic
  -- The entries of unknown words and of draws go up exactly if the name is theirs.
  · rw [hget, h.unknown, List.count_append, List.count_singleton]
    congr 1
    simp only [beq_iff_eq, outcome_eq_unknownOpcode_iff]
  · rw [hget]
    obtain ⟨hname, byte, hdraw⟩ | ⟨hname, hkept⟩ := execute_random he
    · rw [if_pos hname]
      exact .draw h.draws hdraw
    · rw [if_neg hname]
      exact hkept.symm ▸ h.draws

/-- A step that does not return leaves the account alone. -/
private theorem Account.step_of_obstacle (h : m.Account source seen) (ho : m.step.obstacle ≠ none) :
    m.step.machine.Account source seen := by
  obtain ⟨obstacle, ho⟩ := Option.ne_none_iff_exists'.1 ho
  obtain ⟨fault, hm⟩ := exists_machine_eq_of_obstacle ho
  rw [hm]
  exact h.of_eq rfl rfl rfl

/-- A step that returns extends the account by its outcome. -/
private theorem Account.step_of_ok (h : m.Account source seen) {returned : Outcome}
    (ho : m.step.result = .ok returned) :
    m.step.machine.Account source (seen ++ [returned]) := by
  -- Three of the ways a step can go do not return.
  obtain ⟨_, _, hs⟩ | ⟨_, _, _, hs⟩ | ⟨_, _, _, hs⟩ | ⟨_, e, he, hs⟩ := m.step_cases
  · rw [hs] at ho; cases ho
  · rw [hs] at ho; cases ho
  · rw [hs] at ho; cases ho
  · rw [hs] at ho ⊢
    cases ho
    exact h.complete he

/-- Some steps extend the account by the outcomes that they returned. -/
theorem Account.after (h : m.Account source seen) (steps : Nat) :
    (m.after steps).Account source (seen ++ m.outcomes steps) := by
  -- Induction on the steps; the account grows by the outcome of the first one.
  induction steps generalizing m seen with
  | zero =>
    rw [outcomes, List.append_nil]
    exact h
  | succ steps ih =>
    cases ho : m.step.result with
    | ok returned =>
      rw [after_succ, outcomes, ho, List.append_cons]
      exact ih (h.step_of_ok ho)
    | error obstacle =>
      -- The machine stays where the obstacle left it.
      have hobstacle : m.step.obstacle = some obstacle := by rw [Step.obstacle, ho]
      rw [after_succ_of_obstacle hobstacle, outcomes, ho, List.append_nil]
      exact h.step_of_obstacle (by rw [hobstacle]; exact nofun)

/-- An input extends the account by the outcomes of its steps. -/
private theorem Account.feed (h : m.Account source seen) (input : Input) :
    (m.feed input).machine.Account source (seen ++ m.outcomes input.instructions) := by
  cases input with
  | step => exact h.after 1
  | tick =>
    rw [Input.instructions, outcomes, List.append_nil]
    exact h.tick
  | keys states =>
    rw [Input.instructions, outcomes, List.append_nil]
    obtain ⟨keys, hkeys⟩ := m.exists_feed_keys_eq states
    rw [hkeys]
    exact h.of_eq rfl rfl rfl
  -- The tick of a frame adds nothing to its steps.
  | frame steps =>
    have hafter := h.after steps.toNat
    rw [feed_frame_machine]
    split
    · exact hafter.tick
    · exact hafter

/-- Calls without a reset extend the account by the outcomes of their steps. -/
theorem Account.callAll (h : m.Account source seen) {calls : List Call}
    (hcalls : ∀ call ∈ calls, call ≠ .reset) :
    (m.callAll calls).Account source (seen ++ m.returned calls) := by
  -- Induction on the calls; without a reset the source stays the one that was begun with.
  induction calls generalizing m seen with
  | nil =>
    rw [returned, List.append_nil]
    exact h
  | cons call rest ih =>
    have hrest := fun later hlater => hcalls later (List.mem_cons_of_mem _ hlater)
    rw [callAll_cons, returned, ← List.append_assoc]
    refine ih ?_ hrest
    cases call with
    | reset => exact absurd rfl (hcalls .reset List.mem_cons_self)
    | drive input => exact h.feed input
    | load program =>
      obtain ⟨memory, hmemory⟩ := m.exists_call_load_eq program
      rw [Call.instructions, outcomes, List.append_nil, hmemory]
      exact h.of_eq rfl rfl rfl

/-! ## Steps that await a key -/

/-- A machine that awaits a key stands at an instruction that waits for one. -/
def StandsAtWait (m : Machine ρ) : Prop :=
  m.awaitingKey = true → ∃ x, m.current = .waitKey x

/-- A step does not take a waiting machine away from where it stands. -/
theorem StandsAtWait.step (h : m.StandsAtWait) : m.step.machine.StandsAtWait := by
  obtain ⟨_, _, hs⟩ | ⟨_, _, _, hs⟩ | ⟨_, _, _, hs⟩ | ⟨_, e, he, hs⟩ := m.step_cases
  · rw [hs]
    exact h
  · rw [hs]
    exact h
  · rw [hs]
    exact h
  · intro ha
    by_cases hwaits : ∃ x, m.current = .waitKey x
    · obtain ⟨x, hx⟩ := hwaits
      rw [hx] at he
      cases he
      refine ⟨x, ?_⟩
      rw [hs] at ha ⊢
      -- Only a poll that finds a key moves on, and that one ends the wait.
      simp only [Machine.complete, pollKey] at ha ⊢
      split at ha
      · split at ha
        · rw [← hx]
          simp only [current, currentWord, *, if_true, Address.ofInt_val]
        · cases ha
      · next hidle =>
        rw [← hx]
        simp only [current, currentWord, hidle, Bool.false_eq_true, if_false, Address.ofInt_val]
    · -- Another instruction leaves the keypad alone, so that the machine waited before, but there
      -- the instruction is one that waits.
      have hkeypad := step_keypad_of_not_waitKey (not_exists.1 hwaits)
      exact absurd (h ((congrArg Keypad.awaiting hkeypad).symm.trans ha)) hwaits

/-- No call but a load takes a waiting machine away from where it stands. -/
theorem StandsAtWait.callAll {calls : List Call} (h : m.StandsAtWait)
    (hcalls : ∀ call ∈ calls, call.loads = false) : (m.callAll calls).StandsAtWait := by
  -- Induction on the calls: a reset ends the wait, and no call here is a load.
  induction calls generalizing m with
  | nil => exact h
  | cons call rest ih =>
    refine ih ?_ fun later hlater => hcalls later (List.mem_cons_of_mem _ hlater)
    cases call with
    | reset => exact fun ha => by cases ha
    | load program => cases hcalls _ List.mem_cons_self
    | drive input =>
      refine feed_induction (P := StandsAtWait) (fun _ hm => hm.step) (fun m hm ha => ?_)
        (fun _ _ hm => hm) h input
      cases hw : m.awaitingKey with
      | true =>
        rw [tick_of_awaitingKey hw]
        exact hm hw
      | false =>
        simp only [Machine.tick, hw] at ha
        cases hw.symm.trans ha

/-- A step reports that a key is awaited exactly if it executed an instruction that waits and left
    the machine waiting. -/
theorem StandsAtWait.result_eq_awaitingKey_iff (h : m.StandsAtWait) :
    m.step.result = .ok .awaitingKey ↔
      m.step.obstacle = none ∧ (∃ x, m.current = .waitKey x) ∧
        m.step.machine.awaitingKey = true := by
  -- Only a step that completes has an outcome, and that outcome asks whether the machine waits.
  obtain ⟨_, _, hs⟩ | ⟨_, _, _, hs⟩ | ⟨_, _, _, hs⟩ | ⟨_, e, he, hs⟩ := m.step_cases
  · simp [hs, Step.obstacle]
  · simp [hs, Step.obstacle]
  · simp [hs, Step.obstacle]
  · have hobstacle : m.step.obstacle = none := by rw [hs]; rfl
    have hresult : m.step.result = .ok (outcome m.current m.step.machine) := by rw [hs]
    rw [hresult, Except.ok.injEq]
    constructor
    · intro ho
      have hafter : m.step.machine.awaitingKey = true := by
        by_contra hnot
        simp only [outcome, hnot] at ho
        split at ho <;> cases ho
      refine ⟨hobstacle, ?_, hafter⟩
      by_contra hnone
      have hkeypad := step_keypad_of_not_waitKey (not_exists.1 hnone)
      exact hnone (h ((congrArg Keypad.awaiting hkeypad).symm.trans hafter))
    · rintro ⟨-, ⟨x, hx⟩, hafter⟩
      simp only [outcome, hx, hafter, if_true]

/-! ## Resets -/

end Machine

/-- The calls up to the last reset, of which there are none without a reset. -/
def Call.upToReset (calls : List Call) : List Call :=
  calls.rdropWhile (· ≠ .reset)

/-- The calls since the last reset, which are all of them without a reset. -/
def Call.sinceReset (calls : List Call) : List Call :=
  calls.rtakeWhile (· ≠ .reset)

namespace Machine

variable {ρ : Type} [ByteSource ρ]

/-- The machine is a fresh one after its last reset, as it is in the beginning. -/
private theorem callAll_upToReset (random : ρ) (calls : List Call) :
    ∃ source, (fresh random).callAll (Call.upToReset calls) = fresh source := by
  -- Without a reset there are no calls before it; otherwise the last of them is one.
  by_cases hnil : Call.upToReset calls = []
  · exact ⟨random, by rw [hnil, callAll_nil]⟩
  · have hnot : ¬decide ((Call.upToReset calls).getLast hnil ≠ .reset) = true :=
      List.rdropWhile_last_not _ calls hnil
    have hlast : (Call.upToReset calls).getLast hnil = .reset := by
      simpa only [decide_eq_true_eq, ne_eq, not_not] using hnot
    rw [← List.dropLast_append_getLast hnil, hlast, callAll_append]
    exact ⟨_, rfl⟩

/-- The books of every machine balance. After any calls, its number of cycles is the sum of its
    statistics and the number of steps that returned since the last reset, or since construction,
    in frames as well. Every entry of the statistics has one of the thirty-five names of
    instructions and counts at least once, and no two have the same name. The entry of unknown words
    counts the steps that reported one, and the entry of random instructions the draws from the
    source. And a program that is started with no later load reports that a key is awaited in
    exactly those steps that execute an instruction that waits and leave the machine waiting, unless
    its load took away the instruction at which the machine was waiting then. -/
theorem callAll_account (random : ρ) (calls : List Call) :
    let m := (fresh random).callAll calls
    let start := (fresh random).callAll (Call.upToReset calls)
    let returned := start.returned (Call.sinceReset calls)
    m.cycles = m.statistics.total ∧ m.cycles = returned.length ∧
    (Instruction.mnemonics.length = 35 ∧ Instruction.mnemonics.Nodup) ∧
    (∀ entry ∈ m.statistics.entries, entry.1 ∈ Instruction.mnemonics ∧ 1 ≤ entry.2) ∧
    (m.statistics.entries.map (·.1)).Nodup ∧
    m.statistics.get "UNKNOWN" = returned.count .unknownOpcode ∧
    ByteSource.Draws (m.statistics.get "RND") start.random m.random ∧
    (∀ drawn : ρ → Nat, ByteSource.Meter drawn →
      drawn m.random = drawn start.random + m.statistics.get "RND") ∧
    ∀ program later, (∀ call ∈ later, call.loads = false) →
      let loaded := (m.call (.load program)).machine
      (m.awaitingKey = true → ∃ x, loaded.current = .waitKey x) →
      let running := loaded.callAll later
      (running.step.result = .ok .awaitingKey ↔
        running.step.obstacle = none ∧ (∃ x, running.current = .waitKey x) ∧
          running.step.machine.awaitingKey = true) := by
  intro m start returned
  -- The account is opened at the last reset and kept over the calls since then.
  have haccount : m.Account start.random returned := by
    obtain ⟨source, hstart⟩ := callAll_upToReset random calls
    have hm : m = start.callAll (Call.sinceReset calls) := by
      rw [← callAll_append, Call.upToReset, Call.sinceReset, List.rdropWhile_append_rtakeWhile]
    have hsince : ∀ call ∈ Call.sinceReset calls, call ≠ .reset := fun call hcall => by
      simpa using List.mem_rtakeWhile_imp hcall
    have hopen : start.Account start.random [] := by
      rw [show start = fresh source from hstart]
      exact .fresh source
    rw [hm]
    exact hopen.callAll hsince
  refine ⟨haccount.total, haccount.cycles, Instruction.length_mnemonics, haccount.entries,
    haccount.names, haccount.unknown, haccount.draws,
    fun drawn hmeter => haccount.draws.eq_add_of_meter hmeter, ?_⟩
  intro program later hlater loaded hstands running
  -- A load leaves the keypad alone, and no later call is one.
  have hkeypad : loaded.awaitingKey = m.awaitingKey := by
    obtain ⟨memory, hmemory⟩ := m.exists_call_load_eq program
    show (m.call (.load program)).machine.awaitingKey = _
    rw [hmemory]
    rfl
  have hloaded : loaded.StandsAtWait := fun ha => hstands (hkeypad.symm.trans ha)
  exact (hloaded.callAll hlater).result_eq_awaitingKey_iff

/-- An unknown word is counted, and then a program is loaded that has another wait where the machine
    waits for a key already: the step behind a tick reports that one is awaited, as it executed the
    instruction that waits. -/
theorem callAll_account_reloaded :
    ∃ m loaded running : Machine Replay,
      m = (fresh (Replay.ofInts [7])).callAll
        [.load [0xC0, 0xFF, 0x00, 0x00, 0xF3, 0x0A], .drive (.frame 3)] ∧
      loaded = (m.call (.load [0x60, 0x05, 0x12, 0x04, 0xF9, 0x0A])).machine ∧
      running = loaded.callAll [.drive .tick] ∧
      (m.cycles = m.statistics.total ∧ m.awaitingKey = true ∧ loaded.current = .waitKey 9) ∧
      running.step.result = .ok .awaitingKey := by
  obtain ⟨htotal, -, -, -, -, -, -, -, hwaits⟩ := callAll_account (Replay.ofInts [7])
    [.load [0xC0, 0xFF, 0x00, 0x00, 0xF3, 0x0A], .drive (.frame 3)]
  have hrun : ∃ m loaded running : Machine Replay,
      m = (fresh (Replay.ofInts [7])).callAll
        [.load [0xC0, 0xFF, 0x00, 0x00, 0xF3, 0x0A], .drive (.frame 3)] ∧
      loaded = (m.call (.load [0x60, 0x05, 0x12, 0x04, 0xF9, 0x0A])).machine ∧
      running = loaded.callAll [.drive .tick] ∧
      (m.awaitingKey = true ∧ loaded.current = .waitKey 9) ∧ running.step.obstacle = none ∧
        running.current = .waitKey 9 ∧ running.step.machine.awaitingKey = true :=
    ⟨_, _, _, rfl, rfl, rfl, by decide +kernel⟩
  -- The machine is generalized before the theorem is used, so that its run is evaluated only
  -- once.
  obtain ⟨m, loaded, running, hm, hload, hlater, ⟨hawaits, hloaded⟩, hobstacle, hcurrent, hafter⟩ :=
    hrun
  refine ⟨m, loaded, running, hm, hload, hlater, ⟨?_, hawaits, hloaded⟩, ?_⟩
  · rw [hm]
    exact htotal
  · have hreports : (m.awaitingKey = true → ∃ x, loaded.current = .waitKey x) →
        (running.step.result = .ok .awaitingKey ↔ running.step.obstacle = none ∧
          (∃ x, running.current = .waitKey x) ∧ running.step.machine.awaitingKey = true) := by
      rw [hlater, hload, hm]
      exact hwaits [0x60, 0x05, 0x12, 0x04, 0xF9, 0x0A] [.drive .tick] (by decide)
    exact (hreports fun _ => ⟨9, hloaded⟩).2 ⟨hobstacle, ⟨9, hcurrent⟩, hafter⟩

/-- A load during a wait that brings another instruction: the step executes it and reports that a
    key is awaited, though the instruction is not one that waits. -/
theorem callAll_account_overwritten :
    ∃ m running : Machine Replay,
      m = (fresh (Replay.ofInts [7])).callAll
        [.load [0x61, 0x09, 0xF1, 0x15, 0xF3, 0x0A], .drive .step, .drive .step, .drive .step] ∧
      running = (m.call (.load [0x61, 0x09, 0xF1, 0x15, 0x60, 0x05, 0x12, 0x04])).machine ∧
      (m.awaitingKey = true ∧ running.current = .loadByte 0 5) ∧
      ¬(running.step.result = .ok .awaitingKey ↔
        running.step.obstacle = none ∧ (∃ x, running.current = .waitKey x) ∧
          running.step.machine.awaitingKey = true) := by
  have hrun : ∃ m running : Machine Replay,
      m = (fresh (Replay.ofInts [7])).callAll
        [.load [0x61, 0x09, 0xF1, 0x15, 0xF3, 0x0A], .drive .step, .drive .step, .drive .step] ∧
      running = (m.call (.load [0x61, 0x09, 0xF1, 0x15, 0x60, 0x05, 0x12, 0x04])).machine ∧
      (m.awaitingKey = true ∧ running.current = .loadByte 0 5) ∧
      running.step.result.toOption = some .awaitingKey := ⟨_, _, rfl, rfl, by decide +kernel⟩
  obtain ⟨m, running, hm, hrunning, ⟨hawaits, hcurrent⟩, hresult⟩ := hrun
  refine ⟨m, running, hm, hrunning, ⟨hawaits, hcurrent⟩, fun hiff => ?_⟩
  cases hok : running.step.result with
  | error obstacle =>
    rw [hok] at hresult
    cases hresult
  | ok outcome =>
    rw [hok] at hresult
    obtain rfl : outcome = .awaitingKey := Option.some.inj hresult
    obtain ⟨-, ⟨x, hx⟩, -⟩ := hiff.1 hok
    cases hcurrent.symm.trans hx

end Machine

end Chip8
