import Chip8.Proofs.Calls
import Mathlib.Algebra.GroupWithZero.Nat

/-!
# Waiting for a key

Nothing but the latch remembers that a machine waits: the wait goes on because the same instruction
is executed again at an address that did not move. The invariant that carries it ties the latch to
the instruction at the current address, and holds after every sequence of inputs.

## Key results

- `Machine.WaitsFor`: the latch, the fault and the word at the current address while a wait lasts
- `Machine.WaitsFor.step_of_allUp`, `Machine.WaitsFor.step_of_lowest`: a poll without and with a key
- `Machine.feedAll_waitInvariant`: a machine that awaits a key stands at the instruction that asked
- `Machine.WaitsFor.feedAll_of_undisturbed`: all that can happen during a wait
- `Machine.keyWait_protocol`: the whole life of a wait
-/

namespace Chip8

/-! ## The lowest held key -/

namespace KeyStates

/-- No key is held. -/
def AllUp (states : KeyStates) : Prop :=
  ∀ key : Nibble, states.get key = false

/-- A key is held and no lower one is. -/
def Lowest (states : KeyStates) (key : Nibble) : Prop :=
  states.get key = true ∧ ∀ lower < key, states.get lower = false

instance (states : KeyStates) : Decidable states.AllUp :=
  inferInstanceAs (Decidable (∀ key : Nibble, states.get key = false))

instance (states : KeyStates) (key : Nibble) : Decidable (states.Lowest key) :=
  inferInstanceAs (Decidable (states.get key = true ∧ ∀ lower < key, states.get lower = false))

end KeyStates

namespace Keypad

/-- There is no first held key exactly if no key is held. -/
theorem firstHeld_eq_none_iff (k : Keypad) : k.firstHeld = none ↔ k.states.AllUp := by
  -- `findFinIdx?` speaks of the entries of the vector, `AllUp` of its places.
  simp only [firstHeld, Vector.findFinIdx?_eq_none_iff, id_eq, Bool.not_eq_true]
  constructor
  · intro h key
    exact h _ (Vector.getElem_mem key.isLt)
  · intro h b hb
    obtain ⟨key, hkey, rfl⟩ := Vector.mem_iff_getElem.1 hb
    exact h ⟨key, hkey⟩

/-- A search finds the first place that holds `true`. -/
private theorem findFinIdx?_id_eq_some_iff {n : Nat} (xs : Vector Bool n) (i : Fin n) :
    xs.findFinIdx? id = some i ↔ xs.get i = true ∧ ∀ j < i, xs.get j = false := by
  obtain ⟨xs, rfl⟩ := xs
  rw [Vector.findFinIdx?_mk]
  simp only [Fin.cast_refl, Option.map_id_fun]
  rw [id_eq, Array.findFinIdx?_eq_some_iff]
  simp only [id_eq, Bool.not_eq_true]
  exact Iff.rfl

/-- The first held key is the lowest one. -/
private theorem firstHeld_eq_some_iff (k : Keypad) (key : Nibble) :
    k.firstHeld = some key ↔ k.states.Lowest key :=
  findFinIdx?_id_eq_some_iff k.states key

end Keypad

/-- How many instructions an input executes. -/
def Input.instructions : Input → Nat
  | .step => 1
  | .frame steps => steps.toNat
  | .tick => 0
  | .keys _ => 0

namespace Machine

variable {ρ : Type}

/-- The machine waits for a key for register `t`: nothing has halted it, the latch names `t`, and
    the word at the current address is the instruction that waits for `t`. -/
structure WaitsFor (m : Machine ρ) (t : Register) : Prop where
  fault : m.fault = none
  wait : m.keypad.wait = .awaiting t.val
  current : m.current = .waitKey t

/-- A machine that awaits a key stands at the instruction that asked for it. -/
def WaitInvariant (m : Machine ρ) : Prop :=
  m.awaitingKey = true → ∃ t, m.WaitsFor t

/-- The machine after polls that found no key: it only counted them. -/
def idle (m : Machine ρ) (polls : Nat) : Machine ρ :=
  { m with
    cycles := m.cycles + polls
    statistics := (fun s => s.count "LD_VX_K")^[polls] m.statistics }

/-- The machine after a poll that found `key` and ended a wait for register `t`. -/
def release (m : Machine ρ) (t : Register) (key : Nibble) : Machine ρ :=
  { m.idle 1 with
    registers := m.registers.write t (UInt8.ofNat key.val)
    pc := m.pc + 2
    keypad := m.keypad.endWait }

/-- The machine after the step that began a wait for register `t`. -/
def beginWait (m : Machine ρ) (t : Register) : Machine ρ :=
  { m.idle 1 with keypad := m.keypad.beginWait t.val }

variable {m : Machine ρ} {t : Register}

/-! ## Idle machines -/

/-- Polls that found no key add up. -/
private theorem idle_idle (m : Machine ρ) (a b : Nat) : (m.idle a).idle b = m.idle (a + b) := by
  simp only [idle, Nat.add_comm a b, Function.iterate_add_apply]
  simp only [Nat.add_comm, Nat.add_left_comm]

/-- The latch is set exactly if it names a register. -/
private theorem awaitingKey_eq_true_iff :
    m.awaitingKey = true ↔ ∃ t, m.keypad.wait = .awaiting t := by
  simp only [awaitingKey, Keypad.awaiting]
  cases m.keypad.wait <;> simp

/-- A machine that waits for a register awaits a key. -/
theorem WaitsFor.awaitingKey (h : m.WaitsFor t) : m.awaitingKey = true :=
  awaitingKey_eq_true_iff.2 ⟨t.val, h.wait⟩

/-- A machine that only counted polls waits as before. -/
theorem WaitsFor.idle (h : m.WaitsFor t) (polls : Nat) : (m.idle polls).WaitsFor t :=
  ⟨h.fault, h.wait, h.current⟩

/-- New keys do not end a wait. -/
theorem WaitsFor.hold (h : m.WaitsFor t) (keys : KeyStates) : (m.hold keys).WaitsFor t :=
  ⟨h.fault, h.wait, h.current⟩

/-- The timers stand still during a wait. -/
theorem tick_of_awaitingKey (ha : m.awaitingKey = true) : m.tick = m := by
  simp only [tick, ha, if_true]

/-- During a wait a tick changes nothing. -/
theorem WaitsFor.tick (h : m.WaitsFor t) : m.tick = m :=
  tick_of_awaitingKey h.awaitingKey

/-- A tick keeps the latch and the current word in agreement. -/
theorem WaitInvariant.tick (h : m.WaitInvariant) : m.tick.WaitInvariant := by
  intro ha
  -- A tick does not set the latch, and where the latch is set it does nothing.
  cases hw : m.awaitingKey with
  | false =>
    simp only [Machine.tick, hw] at ha
    exact absurd (hw.symm.trans ha) nofun
  | true =>
    obtain ⟨t, ht⟩ := h hw
    rw [ht.tick]
    exact ⟨t, ht⟩

/-- New keys keep the latch and the current word in agreement. -/
theorem WaitInvariant.hold (h : m.WaitInvariant) (keys : KeyStates) :
    (m.hold keys).WaitInvariant := by
  intro ha
  obtain ⟨t, ht⟩ := h ha
  exact ⟨t, ht.hold keys⟩

variable [ByteSource ρ]

/-- No instruction among the inputs is executed while a key is held. -/
def Undisturbed (m : Machine ρ) : List Input → Prop
  | [] => True
  | input :: rest =>
    (0 < input.instructions → m.keypad.states.AllUp) ∧ (m.feed input).machine.Undisturbed rest

/-! ## The three kinds of polls -/

/-- The first execution of a key wait arms the latch. Which keys are held makes no difference. -/
private theorem step_of_waitKey (hf : m.fault = none) (hw : m.awaitingKey = false)
    (hc : m.current = .waitKey t) :
    m.step =
      { result := .ok .awaitingKey
        machine := m.beginWait t
        note := some (.awaitingKey t) } := by
  have he : m.execute m.current =
      .ok { next := m.pc.val
            machine := { m with keypad := m.keypad.beginWait t.val }
            note := some (.awaitingKey t) } := by
    rw [hc]
    simp only [execute, pollKey, hw, Bool.false_eq_true, if_false]
  -- The instruction goes on at its own address, so that the address is written back unchanged.
  rw [step_of_ok hf he, hc]
  simp only [complete, Address.ofInt_val]
  rfl

/-- A poll that finds no key only counts itself. -/
theorem WaitsFor.step_of_allUp (h : m.WaitsFor t) (hk : m.keypad.states.AllUp) :
    m.step = { result := .ok .awaitingKey, machine := m.idle 1 } := by
  have he : m.execute m.current = .ok { next := m.pc.val, machine := m } := by
    rw [h.current]
    simp only [execute, pollKey, h.awaitingKey, if_true, (Keypad.firstHeld_eq_none_iff _).2 hk]
  -- The latch is still set after the poll, and that is what its outcome is read from.
  have ha : (m.idle 1).awaitingKey = true := h.awaitingKey
  rw [step_of_ok h.fault he, h.current]
  simp only [complete, Address.ofInt_val]
  change ({ result := .ok (outcome (.waitKey t) (m.idle 1)), machine := m.idle 1 } : Step ρ) = _
  simp only [outcome, ha, if_true]

/-- A poll that finds a key stores the lowest one and ends the wait. -/
theorem WaitsFor.step_of_lowest {key : Nibble} (h : m.WaitsFor t)
    (hk : m.keypad.states.Lowest key) :
    m.step =
      { result := .ok .executed
        machine := m.release t key
        note := some (.keyStored key t) } := by
  have he : m.execute m.current =
      .ok { next := m.pc.val + 2
            machine :=
              { m with
                registers := m.registers.write t (UInt8.ofNat key.val)
                keypad := m.keypad.endWait }
            note := some (.keyStored key t) } := by
    rw [h.current]
    simp only [execute, pollKey, h.awaitingKey, if_true, (Keypad.firstHeld_eq_some_iff _ key).2 hk]
  have hpc : Address.ofInt ((m.pc.val : Int) + 2) = m.pc + 2 := Address.ofInt_add_val m.pc 2
  rw [step_of_ok h.fault he, h.current]
  simp only [complete, hpc]
  rfl

/-! ## The invariant -/

/-- A wait can only begin at an instruction that waits. -/
private theorem exists_waitKey_of_step_awaitingKey (hw : m.awaitingKey = false)
    (ha : m.step.machine.awaitingKey = true) : m.fault = none ∧ ∃ t, m.current = .waitKey t := by
  obtain ⟨f, hf, hs⟩ | ⟨hf, f, he, hs⟩ | ⟨hf, error, he, hs⟩ | ⟨hf, e, he, hs⟩ := m.step_cases
  -- Only a completed step can move the latch, and only if its instruction waits.
  · rw [hs] at ha
    exact absurd (hw.symm.trans ha) nofun
  · rw [hs] at ha
    exact absurd (hw.symm.trans ha) nofun
  · rw [hs] at ha
    exact absurd (hw.symm.trans ha) nofun
  · refine ⟨hf, Classical.byContradiction fun hi => ?_⟩
    have hk : e.machine.keypad = m.keypad := execute_keypad he (not_exists.1 hi)
    have hsame : m.step.machine.awaitingKey = m.awaitingKey := by
      rw [hs]
      exact congrArg Keypad.awaiting hk
    exact absurd (hw.symm.trans (hsame.symm.trans ha)) nofun

/-- A step keeps the latch and the current word in agreement. -/
theorem WaitInvariant.step (h : m.WaitInvariant) : m.step.machine.WaitInvariant := by
  intro ha
  cases hw : m.awaitingKey with
  | false =>
    -- The address does not move, so that the instruction that armed the latch stays current.
    obtain ⟨hf, t, hc⟩ := exists_waitKey_of_step_awaitingKey hw ha
    rw [step_of_waitKey hf hw hc]
    exact ⟨t, hf, rfl, hc⟩
  | true =>
    obtain ⟨t, ht⟩ := h hw
    -- The two polls: without a key the wait goes on, and with one it is over.
    cases hk : m.keypad.firstHeld with
    | none =>
      rw [ht.step_of_allUp ((Keypad.firstHeld_eq_none_iff _).1 hk)]
      exact ⟨t, ht.idle 1⟩
    | some key =>
      rw [ht.step_of_lowest ((Keypad.firstHeld_eq_some_iff _ key).1 hk)] at ha
      exact nomatch ha

/-- Whatever drives a machine, a wait belongs to the instruction at the current address. -/
theorem feedAll_waitInvariant (h : m.WaitInvariant) (inputs : List Input) :
    (m.feedAll inputs).WaitInvariant :=
  feedAll_induction (P := WaitInvariant) (fun _ hm => hm.step) (fun _ hm => hm.tick)
    (fun _ keys hm => hm.hold keys) h inputs

/-! ## What can happen during a wait -/

/-- Polls without a key are all alike. -/
private theorem WaitsFor.after_of_allUp (h : m.WaitsFor t) (hk : m.keypad.states.AllUp) (n : Nat) :
    m.after n = m.idle n := by
  -- Induction on the polls: each leaves an idle machine, which waits for the same register.
  induction n with
  | zero => rfl
  | succ n ih =>
    have hs := (h.idle n).step_of_allUp hk
    rw [after_succ', ih, hs, idle_idle]

/-- An input that executes nothing while a key is held leaves a waiting machine idle. -/
private theorem WaitsFor.feed_of_undisturbed (h : m.WaitsFor t) (input : Input)
    (hk : 0 < input.instructions → m.keypad.states.AllUp) :
    ∃ keys, (m.feed input).machine = (m.idle input.instructions).hold keys := by
  cases input with
  -- A step is one poll, and no keys change; `hold` with the same keys does nothing.
  | step =>
    refine ⟨m.keypad.states, ?_⟩
    simp only [feed, h.step_of_allUp (hk Nat.one_pos)]
    rfl
  | frame steps =>
    refine ⟨m.keypad.states, ?_⟩
    by_cases hn : 0 < steps.toNat
    · have hall := h.after_of_allUp (hk hn)
      -- Polls meet no obstacle, so that the frame runs to its tick.
      have hc : m.Completes steps.toNat := by
        intro k _
        rw [hall k, (h.idle k).step_of_allUp (hk hn)]
        rfl
      simp only [feed, (Run.frame_of_completes (r := .start m) rfl hc).2]
      change (m.after steps.toNat).tick = _
      rw [hall, (h.idle steps.toNat).tick]
      rfl
    -- A frame of no steps is its tick alone, and that does nothing during a wait.
    · have hz : steps.toNat = 0 := by omega
      have hc : m.Completes steps.toNat := fun k hk => absurd hk (by omega)
      simp only [feed, (Run.frame_of_completes (r := .start m) rfl hc).2]
      change (m.after steps.toNat).tick = _
      rw [hz, after_zero, h.tick, Input.instructions, hz]
      rfl
  | tick => exact ⟨m.keypad.states, h.tick⟩
  | keys states =>
    obtain ⟨keys, hkeys⟩ := m.exists_feed_keys_eq states
    exact ⟨keys, hkeys⟩

/-- Until a key is found, inputs change nothing but the held keys and the counts of polls. -/
theorem WaitsFor.feedAll_of_undisturbed (h : m.WaitsFor t) (inputs : List Input)
    (hu : m.Undisturbed inputs) :
    ∃ keys, m.feedAll inputs = (m.idle (inputs.map Input.instructions).sum).hold keys := by
  -- Induction on the inputs: the wait goes on behind each of them, with the keys it left.
  induction inputs generalizing m with
  | nil => exact ⟨m.keypad.states, rfl⟩
  | cons input rest ih =>
    obtain ⟨keys, hfeed⟩ := h.feed_of_undisturbed input hu.1
    have hw : (m.feed input).machine.WaitsFor t := by
      rw [hfeed]
      exact (h.idle _).hold keys
    obtain ⟨last, hrest⟩ := ih hw hu.2
    refine ⟨last, ?_⟩
    rw [feedAll_cons, hrest, hfeed, List.map_cons, List.sum_cons, ← idle_idle]
    rfl

/-! ## The protocol -/

/-- From a loaded machine, after any inputs: a step that begins a wait only arms the latch; and a
    machine that waits stands at the instruction that asked, is changed by nothing but polls and
    new keys as long as no poll finds a key, and ends the wait at the first poll that does. -/
theorem keyWait_protocol {random : ρ} {program : List UInt8} {start : Machine ρ} {note : Note}
    (loaded : (fresh random).loadProgram program = .ok (start, note)) (inputs : List Input) :
    let m := start.feedAll inputs
    (m.awaitingKey = false → m.step.machine.awaitingKey = true →
      ∃ t, m.current = .waitKey t ∧ m.step.result = .ok .awaitingKey ∧
        m.step.machine =
          { m with
            keypad := m.keypad.beginWait t.val
            cycles := m.cycles + 1
            statistics := m.statistics.count "LD_VX_K" }) ∧
    (m.awaitingKey = true →
      ∃ t, m.WaitsFor t ∧ ∀ later, m.Undisturbed later →
        let w := m.feedAll later
        w = (m.idle (later.map Input.instructions).sum).hold w.keypad.states ∧
        w.WaitsFor t ∧
        w.tick = w ∧
        (w.keypad.states.AllUp →
          w.step.result = .ok .awaitingKey ∧
          w.step.machine =
            { w with
              cycles := w.cycles + 1
              statistics := w.statistics.count "LD_VX_K" }) ∧
        (∀ key, w.keypad.states.Lowest key →
          w.step.result = .ok .executed ∧
          w.step.machine =
            { w with
              registers := w.registers.write t (UInt8.ofNat key.val)
              pc := w.pc + 2
              keypad := w.keypad.endWait
              cycles := w.cycles + 1
              statistics := w.statistics.count "LD_VX_K" })) := by
  -- A new machine does not wait, and loading a program does not change that.
  have hstart : start.WaitInvariant := by
    obtain ⟨_, _, h⟩ | ⟨_, h⟩ := (fresh random).loadProgram_cases program
    · rw [h] at loaded
      cases loaded
      exact nofun
    · rw [h] at loaded
      exact nomatch loaded
  intro m
  have hm : m.WaitInvariant := feedAll_waitInvariant hstart inputs
  constructor
  · intro hw ha
    obtain ⟨hf, t, hc⟩ := exists_waitKey_of_step_awaitingKey hw ha
    rw [step_of_waitKey hf hw hc]
    exact ⟨t, hc, rfl, rfl⟩
  · intro hw
    obtain ⟨t, ht⟩ := hm hw
    refine ⟨t, ht, fun later hu => ?_⟩
    intro w
    obtain ⟨keys, hkeys⟩ := ht.feedAll_of_undisturbed later hu
    have heq : w = (m.idle (later.map Input.instructions).sum).hold keys := hkeys
    have hwait : w.WaitsFor t := by
      rw [heq]
      exact (ht.idle _).hold keys
    -- `w` is the idle machine with new keys, so that the two polls apply to it as they stand.
    refine ⟨by rw [heq]; rfl, hwait, hwait.tick, fun hk => ?_, fun key hk => ?_⟩
    · rw [hwait.step_of_allUp hk]
      exact ⟨rfl, rfl⟩
    · rw [hwait.step_of_lowest hk]
      exact ⟨rfl, rfl⟩

/-- A program waits for a key while 5 and 9 are held: the first step arms the latch, and the second
    one, a tick later, stores the lower key. -/
theorem keyWait_protocol_heldKeys :
    ∃ start note, (fresh (Replay.ofInts [7])).loadProgram [0xF3, 0x0A] = .ok (start, note) ∧
      let held := (KeyStates.holding [9, 5]).toList
      let m := start.feedAll [.keys held]
      let w := start.feedAll [.keys held, .step, .tick]
      (∃ t, m.current = .waitKey t ∧ m.step.result = .ok .awaitingKey ∧
        m.step.machine =
          { m with
            keypad := m.keypad.beginWait t.val
            cycles := m.cycles + 1
            statistics := m.statistics.count "LD_VX_K" }) ∧
      ∃ t, w.WaitsFor t ∧ w.step.result = .ok .executed ∧
        w.step.machine =
          { w with
            registers := w.registers.write t 5
            pc := w.pc + 2
            keypad := w.keypad.endWait
            cycles := w.cycles + 1
            statistics := w.statistics.count "LD_VX_K" } := by
  obtain ⟨_, note, hload⟩ | ⟨hlong, -⟩ := (fresh (Replay.ofInts [7])).loadProgram_cases [0xF3, 0x0A]
  · refine ⟨_, note, hload, ?_, ?_⟩
    · exact (keyWait_protocol hload [.keys (KeyStates.holding [9, 5]).toList]).1
        (by decide +kernel) (by decide +kernel)
    · obtain ⟨t, -, hlater⟩ :=
        (keyWait_protocol hload [.keys (KeyStates.holding [9, 5]).toList, .step]).2
          (by decide +kernel)
      -- A tick executes nothing, so that the held keys do not matter to it.
      obtain ⟨-, hwaits, -, -, hlowest⟩ := hlater [.tick] ⟨fun h => absurd h (by decide), trivial⟩
      refine ⟨t, ?_⟩
      rw [show [.keys (KeyStates.holding [9, 5]).toList, .step, .tick] =
        [.keys (KeyStates.holding [9, 5]).toList, .step] ++ [Input.tick] from rfl, feedAll_append]
      exact ⟨hwaits, hlowest 5 (by decide +kernel)⟩
  · exact absurd hlong (by decide)

end Machine

end Chip8
