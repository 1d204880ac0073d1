import Chip8.Proofs.Checked
import Chip8.Proofs.Footprint
import Chip8.Proofs.Signals
import Mathlib.Data.List.Induction

/-!
# What the timers show

A timer is set by an instruction and counted down by the ticks, which pass it by while the machine
waits for a key. So at any moment it shows what it was last set to, less the ticks that have counted
since, and never less than zero. The moments of a run are listed with the machines that they find,
the latest first, so that the last setting is the first one in the list and the ticks since then
stand before it.

## Key results

- `Timer.value_receive`: what one signal does to a timer
- `Timer.value_receiveAll`: what any signals do to it
- `Machine.step_readDelay`: what a program reads
- `Machine.timers_show_due`: both timers, the sound and the reading, at each moment of a run
-/

namespace Chip8

/-! ## Words about timers -/

/-- The low digits of a word are those of its low byte. -/
private theorem Word.eq_of_kk {w : Word} {y n : Nibble} (hf : w.family = 0xF)
    (hkk : w.kk = y.val * 16 + n.val) : w = ⟨0xF, w.x, y, n⟩ := by
  obtain ⟨f, x, y', n'⟩ := w
  simp only [kk] at hkk
  simp only [mk.injEq, true_and]
  exact ⟨hf, Fin.ext (by omega), Fin.ext (by omega)⟩

/-- One of the two timers. -/
inductive Timer
  | delay
  | sound
deriving DecidableEq, Repr

namespace Timer

/-- What the timer shows. -/
def value : Timer → Timers → Int
  | delay, timers => timers.delay
  | sound, timers => timers.sound

/-- The low byte of the words that set the timer. -/
def setter : Timer → Nat
  | delay => 0x15
  | sound => 0x18

/-- A tick counts the timer down. -/
private theorem value_tick (t : Timer) (timers : Timers) :
    t.value timers.tick = Timers.countDown (t.value timers) := by
  cases t <;> rfl

/-- The timers of a well-formed machine are not negative. -/
private theorem value_nonneg (t : Timer) {timers : Timers} (h : timers.WellFormed) :
    0 ≤ t.value timers := by
  cases t with
  | delay => exact h.delay.1
  | sound => exact h.sound.1

end Timer

/-! ## The moments of a run -/

/-- A signal and the machine that it finds. -/
structure Moment (ρ : Type) where
  machine : Machine ρ
  signal : Signal

namespace Moment

variable {ρ : Type}

/-- The register that the current word names first. -/
def operand (p : Moment ρ) : UInt8 :=
  p.machine.registers.read p.machine.currentWord.x

/-- At this moment the timers are ticked, and the machine does not wait for a key. -/
def Counts (p : Moment ρ) : Prop :=
  p.signal = .tick ∧ p.machine.awaitingKey = false

instance (p : Moment ρ) : Decidable p.Counts :=
  inferInstanceAs (Decidable (_ ∧ _))

/-- Only ticks count. -/
private theorem not_counts {p : Moment ρ} (h : p.signal ≠ .tick) : ¬p.Counts :=
  fun hcounts => h hcounts.1

variable [ByteSource ρ]

/-- At this moment the timer is set: an instruction that sets it is executed. -/
def Sets (t : Timer) (p : Moment ρ) : Prop :=
  p.signal = .step ∧ p.machine.step.obstacle = none ∧
    p.machine.currentWord.family = 0xF ∧ p.machine.currentWord.kk = t.setter

instance (t : Timer) (p : Moment ρ) : Decidable (p.Sets t) :=
  inferInstanceAs (Decidable (_ ∧ _ ∧ _ ∧ _))

end Moment

namespace Machine

variable {ρ : Type} [ByteSource ρ] {m : Machine ρ}

/-- The moments of a run, the latest first. -/
def history (m : Machine ρ) : List Signal → List (Moment ρ)
  | [] => []
  | signal :: rest => (m.receive signal).history rest ++ [⟨m, signal⟩]

/-- The latest signal finds the machine that the earlier ones left. -/
@[simp] theorem history_append_singleton (m : Machine ρ) (past : List Signal) (signal : Signal) :
    m.history (past ++ [signal]) = ⟨m.receiveAll past, signal⟩ :: m.history past := by
  -- Induction on the earlier signals: the history is built from the other end.
  induction past generalizing m with
  | nil => rfl
  | cons first rest ih => simp only [List.cons_append, history, ih, receiveAll_cons]

end Machine

namespace Timer

variable {ρ : Type} [ByteSource ρ] {m : Machine ρ} (t : Timer)

/-- What the timer was last set to; what it showed at the start, if it has not been set. -/
def lastSet (m : Machine ρ) (signals : List Signal) : Int :=
  match (m.history signals).find? fun p => p.Sets t with
  | some p => p.operand.toNat
  | none => t.value m.timers

/-- How many ticks have counted since the timer was last set. -/
def ticksSince (m : Machine ρ) (signals : List Signal) : Nat :=
  ((m.history signals).takeWhile fun p => ¬p.Sets t).countP fun p => p.Counts

/-- What is left of the last setting. -/
def due (m : Machine ρ) (signals : List Signal) : Int :=
  max 0 (t.lastSet m signals - t.ticksSince m signals)

/-! ## One signal -/

/-- An instruction that sets the timer sets it to its register. -/
private theorem value_of_sets {signal : Signal} (h : Moment.Sets t ⟨m, signal⟩) :
    t.value (m.receive signal).timers = (m.registers.read m.currentWord.x).toNat := by
  obtain ⟨rfl, hcompleted, hf, hkk⟩ := h
  obtain ⟨e, he, hafter⟩ := Machine.exists_effect_of_completed hcompleted
  change t.value m.step.machine.timers = _
  rw [hafter]
  -- The low byte fixes the instruction, and that sets the timer outright.
  cases t with
  | delay =>
    have hcurrent : m.current = .setDelay m.currentWord.x := by
      rw [Machine.current, Word.eq_of_kk (y := 0x1) (n := 0x5) hf hkk]
      rfl
    rw [hcurrent] at he
    cases he
    rfl
  | sound =>
    have hcurrent : m.current = .setSound m.currentWord.x := by
      rw [Machine.current, Word.eq_of_kk (y := 0x1) (n := 0x8) hf hkk]
      rfl
    rw [hcurrent] at he
    cases he
    rfl

/-- Any other step leaves the timer alone. -/
private theorem value_step_of_not_sets (h : ¬Moment.Sets t ⟨m, .step⟩) :
    t.value m.step.machine.timers = t.value m.timers := by
  cases ho : m.step.obstacle with
  | some obstacle =>
    obtain ⟨_, hm⟩ := Machine.exists_machine_eq_of_obstacle ho
    rw [hm]
  | none =>
    have hfoot := (Machine.step_footprint ho).1
    have hword : ¬(m.currentWord.family = 0xF ∧ m.currentWord.kk = t.setter) :=
      -- The footprint of a step names the words that reach this timer.
      fun hw => h ⟨rfl, ho, hw⟩
    cases t with
    | delay => exact hfoot.delay.resolve_right hword
    | sound => exact hfoot.sound.resolve_right hword

/-- A signal sets the timer, counts it down, or leaves it alone. -/
theorem value_receive (m : Machine ρ) (signal : Signal) :
    t.value (m.receive signal).timers =
      if Moment.Sets t ⟨m, signal⟩ then ((m.registers.read m.currentWord.x).toNat : Int)
      else if Moment.Counts ⟨m, signal⟩ then Timers.countDown (t.value m.timers)
      else t.value m.timers := by
  by_cases hsets : Moment.Sets t ⟨m, signal⟩
  · rw [if_pos hsets, value_of_sets t hsets]
  · rw [if_neg hsets]
    -- What is left are the signals that cannot set: a tick counts, unless the machine waits.
    cases signal with
    | step =>
      rw [if_neg (Moment.not_counts (by simp))]
      exact value_step_of_not_sets t hsets
    | tick =>
      simp only [Machine.receive, Signal.input, Machine.feed, Machine.tick, Moment.Counts]
      cases hw : m.awaitingKey with
      | true => simp
      | false => simp [value_tick]
    | keys states =>
      rw [if_neg (Moment.not_counts (by simp))]
      obtain ⟨keys, hkeys⟩ := m.receive_keys states
      rw [hkeys]
      rfl

/-! ## Many signals -/

/-- The last signal sets the timer afresh, or is one tick more, or makes no difference. -/
private theorem due_append_singleton (m : Machine ρ) (past : List Signal) (signal : Signal) :
    let p : Moment ρ := ⟨m.receiveAll past, signal⟩
    t.due m (past ++ [signal]) =
      if p.Sets t then (p.operand.toNat : Int)
      else if p.Counts then Timers.countDown (t.due m past)
      else t.due m past := by
  intro p
  by_cases hsets : p.Sets t
  -- The latest moment sets the timer: it is found first, and no tick stands before it.
  · have hset : t.lastSet m (past ++ [signal]) = p.operand.toNat := by
      simp [lastSet, p, hsets]
    have hnone : t.ticksSince m (past ++ [signal]) = 0 := by
      simp [ticksSince, p, hsets]
    rw [if_pos hsets, due, hset, hnone]
    omega
  -- The latest moment does not set: the search goes past it, and it may be one tick more.
  · have hset : t.lastSet m (past ++ [signal]) = t.lastSet m past := by
      simp [lastSet, p, hsets]
    have hticks : t.ticksSince m (past ++ [signal]) =
        t.ticksSince m past + if p.Counts then 1 else 0 := by
      simp [ticksSince, p, hsets, List.countP_cons]
    have hnonneg : 0 ≤ t.due m past := Int.le_max_left 0 _
    rw [if_neg hsets, Timers.countDown_of_nonneg hnonneg, due, due, hset, hticks]
    split
    · push_cast
      omega
    · rw [Nat.add_zero]

/-- After any signals a timer shows what is left of its last setting. -/
theorem value_receiveAll (h : m.timers.WellFormed) (signals : List Signal) :
    t.value (m.receiveAll signals).timers = t.due m signals := by
  -- Induction from the latest signal back, as the history lists it first.
  induction signals using List.reverseRecOn with
  | nil =>
    have hnonneg := t.value_nonneg h
    simp only [Machine.receiveAll_nil, due, lastSet, ticksSince, Machine.history, List.find?_nil,
      List.takeWhile_nil, List.countP_nil]
    omega
  | append_singleton past signal ih =>
    rw [Machine.receiveAll_append, due_append_singleton, ← ih]
    exact value_receive t _ signal

end Timer

namespace Machine

variable {ρ : Type} [ByteSource ρ] {m : Machine ρ}

/-- A program that reads the delay timer gets what the timer shows. -/
theorem step_readDelay (hf : m.fault = none) (ht : m.timers.WellFormed)
    (hfamily : m.currentWord.family = 0xF) (hkk : m.currentWord.kk = 0x07) :
    m.step.obstacle = none ∧
      ((m.step.machine.registers.read m.currentWord.x).toNat : Int) = m.timers.delay := by
  have hcurrent : m.current = .readDelay m.currentWord.x := by
    rw [current, Word.eq_of_kk (y := 0x0) (n := 0x7) hfamily hkk]
    rfl
  -- The timer is not negative, so that the byte read is the whole of it.
  have he : m.execute m.current = .ok (m.setRegisters
      (m.registers.write m.currentWord.x (UInt8.ofInt m.timers.delay))) := by
    rw [hcurrent]
    rfl
  have hstep := step_of_ok hf he
  refine ⟨by rw [hstep]; rfl, ?_⟩
  obtain ⟨n, hn⟩ := Int.eq_ofNat_of_zero_le ht.delay.1
  have hle := ht.delay.2
  rw [hstep]
  change (((m.registers.write _ (UInt8.ofInt m.timers.delay)).read _).toNat : Int) = _
  rw [Registers.read_write, if_pos rfl, hn, Byte.ofInt_natCast, UInt8.toNat_ofNat']
  omega

/-- At each moment of a run of steps, ticks, frames and changes of keys, each timer shows what it
    was last set to, or what it showed at the start, less the ticks that have counted since, the
    ticks of frames among them; the machine sounds exactly while that is positive for the sound
    timer, and a program that reads the delay timer at that moment reads exactly that. -/
theorem timers_show_due (reachable : m.Reachable) (inputs : List Input) :
    m.feedAll inputs = m.receiveAll (m.signals inputs) ∧
    ∀ past, past <+: m.signals inputs →
      let now := m.receiveAll past
      (∀ t : Timer, t.value now.timers = t.due m past) ∧
      (now.timers.sounding = true ↔ 0 < Timer.sound.due m past) ∧
      (now.fault = none → now.currentWord.family = 0xF → now.currentWord.kk = 0x07 →
        now.step.obstacle = none ∧
        ((now.step.machine.registers.read now.currentWord.x).toNat : Int) =
          Timer.delay.due m past) := by
  have hm := reachable.wellFormed
  refine ⟨feedAll_eq_receiveAll m inputs, fun past _ => ?_⟩
  intro now
  have hshow : ∀ t : Timer, t.value now.timers = t.due m past :=
    fun t => t.value_receiveAll hm.timers past
  refine ⟨hshow, ?_, fun hf hfamily hkk => ?_⟩
  -- The buzzer looks at the sound timer alone.
  · rw [← hshow]
    exact decide_eq_true_iff
  · obtain ⟨hcompleted, hread⟩ := step_readDelay hf (hm.receiveAll past).timers hfamily hkk
    exact ⟨hcompleted, hread.trans (hshow .delay)⟩

/-- A program sets both timers within frames and waits for a key, while two of the ticks pass the
    timers by. When it reads the delay timer, which was set to five, four ticks have counted. -/
theorem timers_show_due_waiting :
    let program := [0x60, 0x05, 0xF0, 0x15, 0x61, 0x03, 0xF1, 0x18, 0xF3, 0x0A, 0xF2, 0x07]
    let held := (KeyStates.holding [5]).toList
    let inputs : List Input :=
      [.step, .frame 1, .frame 2, .tick, .step, .tick, .tick, .keys held, .step, .tick]
    ∃ m : Machine Replay,
      m = (fresh (Replay.ofInts [7])).callAll [.load program] ∧
      let signals := m.signals inputs
      let now := m.receiveAll signals
      m.feedAll inputs = now ∧
      Timer.delay.value now.timers = Timer.delay.due m signals ∧
      Timer.delay.due m signals = 1 ∧ Timer.sound.due m signals = 0 ∧
      (now.timers.sounding = true ↔ 0 < Timer.sound.due m signals) ∧
      ((now.step.machine.registers.read now.currentWord.x).toNat : Int) =
        Timer.delay.due m signals := by
  intro program held inputs
  obtain ⟨m, hm⟩ : ∃ m : Machine Replay,
      m = (fresh (Replay.ofInts [7])).callAll [.load program] := ⟨_, rfl⟩
  obtain ⟨hdelay, hsound, hrunning, hfamily, hkk⟩ :
      Timer.delay.due m (m.signals inputs) = 1 ∧ Timer.sound.due m (m.signals inputs) = 0 ∧
      (m.receiveAll (m.signals inputs)).fault = none ∧
      (m.receiveAll (m.signals inputs)).currentWord.family = 0xF ∧
      (m.receiveAll (m.signals inputs)).currentWord.kk = 0x07 := by
    rw [hm]
    decide +kernel
  obtain ⟨hfeed, hlaw⟩ := timers_show_due ⟨_, _, hm⟩ inputs
  obtain ⟨hshow, hsounding, hread⟩ := hlaw _ (List.prefix_refl _)
  exact ⟨m, hm, hfeed, hshow .delay, hdelay, hsound, hsounding,
    (hread hrunning hfamily hkk).2⟩

end Machine

end Chip8
