import Chip8.Proofs.Calls

/-!
# Channels

A host reaches a running program through three channels: the timers, which it ticks, the keys, which
it holds, and the source of the random bytes. A program notices a channel only through the
instructions that read it. Two machines that differ in one channel and are driven alike apart from
it do the same, step by step, as long as neither of them comes to such an instruction.

The wait latch is no part of the keys: it is moved by instructions and read by ticks, so two
machines that are alike outside a channel are at the same point of the same wait.

## Key results

- `Machine.without`: what is left of a machine when a channel is blanked out
- `Machine.execute_without`, `Machine.step_without`: instructions and steps that do not read a
  channel
- `Machine.Blind.after_without`: several such steps
- `Machine.receive_of_channel`, `Machine.receive_without`: inputs on the channel and on the others
- `Machine.transcript_without_of_outside_eq`: two runs that read no channel in which they differ
-/

namespace Chip8

/-- The ways in which a host reaches a running program. -/
inductive Channel
  | timers
  | keys
  | random
deriving DecidableEq, Repr

/-- Whether an instruction reads a channel. -/
def Instruction.reads : Instruction → Channel → Bool
  | .readDelay _, .timers => true
  | .skipKey _, .keys => true
  | .skipNoKey _, .keys => true
  | .waitKey _, .keys => true
  | .random _ _, .random => true
  | _, _ => false

/-- What drives a machine: a step, or an input on a channel. -/
inductive Signal
  | step
  | tick
  | keys (states : List Bool)
deriving DecidableEq, Repr

namespace Signal

/-- The call that gives the signal. -/
def input : Signal → Input
  | step => .step
  | tick => .tick
  | keys states => .keys states

/-- The channel on which the signal comes, if it is no step. -/
def channel? : Signal → Option Channel
  | step => none
  | tick => some .timers
  | keys _ => some .keys

/-- The signals that do not come on a channel. -/
def outside (c : Channel) (signals : List Signal) : List Signal :=
  signals.filter fun signal => signal.channel? ≠ some c

end Signal

/-! ## Blanking out a channel -/

namespace Machine

variable {ρ : Type} {c : Channel} {m m' : Machine ρ}

/-- The machine with a channel blanked out. -/
def without (m : Machine ρ) : Channel → Machine (Option ρ)
  | .timers => { m with timers := {}, random := some m.random }
  | .keys => { m with keypad := { m.keypad with states := .none }, random := some m.random }
  | .random => { m with random := none }

/-- The machine with a channel taken from another one. -/
def graft (m : Machine ρ) (other : Machine ρ) : Channel → Machine ρ
  | .timers => { m with timers := other.timers }
  | .keys => m.hold other.keypad.states
  | .random => { m with random := other.random }

/-- A tick changes nothing but the timers. -/
theorem tick_without (m : Machine ρ) : m.tick.without .timers = m.without .timers := by
  unfold tick
  split
  · rfl
  · rfl

/-- What was grafted on is left out with the channel. -/
private theorem graft_without (m other : Machine ρ) :
    (m.graft other c).without c = m.without c := by
  cases c <;> rfl

/-- A machine that is alike outside a channel differs in the channel only. -/
theorem eq_graft_of_without_eq (h : m.without c = m'.without c) : m' = m.graft m' c := by
  obtain ⟨memory, registers, index, pc, stack, timers, ⟨states, wait⟩, screen, random, cycles,
    statistics, fault⟩ := m
  cases c with
  | timers =>
    simp only [without, Machine.mk.injEq, Option.some.injEq] at h
    obtain ⟨rfl, rfl, rfl, rfl, rfl, -, hkeypad, rfl, rfl, rfl, rfl, rfl⟩ := h
    simp only [graft, hkeypad]
  | keys =>
    simp only [without, Machine.mk.injEq, Keypad.mk.injEq, Option.some.injEq] at h
    obtain ⟨rfl, rfl, rfl, rfl, rfl, rfl, ⟨-, rfl⟩, rfl, rfl, rfl, rfl, rfl⟩ := h
    rfl
  | random =>
    simp only [without, Machine.mk.injEq] at h
    obtain ⟨rfl, rfl, rfl, rfl, rfl, rfl, hkeypad, rfl, -, rfl, rfl, rfl⟩ := h
    simp only [graft, hkeypad]

@[simp] theorem graft_fault (m other : Machine ρ) : (m.graft other c).fault = m.fault := by
  cases c <;> rfl

@[simp] theorem graft_current (m other : Machine ρ) : (m.graft other c).current = m.current := by
  cases c <;> rfl

@[simp] theorem graft_awaitingKey (m other : Machine ρ) :
    (m.graft other c).awaitingKey = m.awaitingKey := by
  cases c <;> rfl

end Machine

/-! ## Instructions and steps -/

/-- What is left of an effect when a channel is blanked out. -/
def Effect.without {ρ : Type} (c : Channel) (e : Effect ρ) : Effect (Option ρ) :=
  { next := e.next, machine := e.machine.without c, note := e.note }

/-- What is left of a step when a channel is blanked out. -/
def Step.without {ρ : Type} (c : Channel) (s : Step ρ) : Step (Option ρ) :=
  { result := s.result, machine := s.machine.without c, note := s.note }

namespace Machine

variable {ρ : Type} {c : Channel} {m m' : Machine ρ} {i : Instruction}

/-- Counting an instruction is no business of a channel. -/
private theorem complete_without (i : Instruction) (e : Effect ρ) :
    (complete i e).without c = complete i (e.without c) := by
  cases c <;> rfl

/-- No outcome depends on what a channel holds. -/
private theorem outcome_without (i : Instruction) (m : Machine ρ) :
    outcome i (m.without c) = outcome i m := by
  cases c <;> rfl

/-- A poll for a key looks at no other channel. -/
private theorem pollKey_graft (m other : Machine ρ) (x : Register) (hc : c ≠ .keys) :
    ((m.graft other c).pollKey x).without c = (m.pollKey x).without c := by
  have hkeypad : (m.graft other c).keypad = m.keypad := by
    cases c with
    | timers => rfl
    | keys => exact absurd rfl hc
    | random => rfl
  -- Either the wait begins, or it is answered from the keypad, which was not grafted on.
  cases hw : m.awaitingKey with
  | false =>
    simp only [pollKey, graft_awaitingKey, hw, Bool.false_eq_true, if_false]
    cases c <;> rfl
  | true =>
    simp only [pollKey, graft_awaitingKey, hw, if_true, hkeypad]
    cases m.keypad.firstHeld with
    | none => cases c <;> rfl
    | some key => cases c <;> rfl

variable [ByteSource ρ]

/-- An instruction that does not read a channel has the same effect whatever the channel holds. -/
private theorem execute_graft (m other : Machine ρ) (hi : i.reads c = false) :
    ((m.graft other c).execute i).map (Effect.without c) =
      (m.execute i).map (Effect.without c) := by
  -- Three families read a channel; each of them is blind to the two others.
  cases i with
  | readDelay x =>
    cases c with
    | timers => cases hi
    | keys => rfl
    | random => rfl
  | skipKey x =>
    cases c with
    | timers => rfl
    | keys => cases hi
    | random => rfl
  | skipNoKey x =>
    cases c with
    | timers => rfl
    | keys => cases hi
    | random => rfl
  | waitKey x =>
    have hc : c ≠ .keys := by
      rintro rfl
      cases hi
    exact congrArg Except.ok (pollKey_graft m other x hc)
  | random x mask =>
    cases c with
    | timers => simp only [execute, graft]; cases ByteSource.draw? m.random <;> rfl
    | keys => simp only [execute, graft, hold]; cases ByteSource.draw? m.random <;> rfl
    | random => cases hi
  -- These two may fault, for reasons that lie outside every channel.
  | ret =>
    cases c <;> simp only [execute, graft, hold] <;> cases m.stack.pop m.pc.val <;> rfl
  | call target =>
    cases c <;> simp only [execute, graft, hold] <;>
      cases m.stack.push (m.pc + 2).val m.pc.val <;> rfl
  | _ => cases c <;> rfl

/-- Machines that are alike outside a channel execute alike what does not read it. -/
theorem execute_without (h : m.without c = m'.without c) (hi : i.reads c = false) :
    (m.execute i).map (Effect.without c) = (m'.execute i).map (Effect.without c) := by
  rw [eq_graft_of_without_eq h, execute_graft m m' hi]

/-- Machines that are alike outside a channel step alike unless they read it. -/
theorem step_without (h : m.without c = m'.without c)
    (hr : m.fault = none → m.current.reads c = false) :
    m.step.without c = m'.step.without c := by
  -- No channel holds the fault or the memory, so both machines are at the same word.
  have hfault : m'.fault = m.fault := by rw [eq_graft_of_without_eq h, graft_fault]
  have hcurrent : m'.current = m.current := by rw [eq_graft_of_without_eq h, graft_current]
  have hstored : ∀ f, ({ m with fault := f }).without c = ({ m' with fault := f }).without c := by
    intro f
    rw [eq_graft_of_without_eq h]
    cases c <;> rfl
  cases hf : m.fault with
  | some f =>
    rw [step_of_halted hf, step_of_halted (hfault.trans hf)]
    simp only [Step.without, h]
  | none =>
    have hf' : m'.fault = none := hfault.trans hf
    have he := execute_without h (hr hf)
    -- Both fail alike, or both take effects that are alike outside the channel.
    cases hm : m.execute m.current with
    | error obstacle =>
      cases hm' : m'.execute m.current with
      | ok e' => rw [hm, hm'] at he; exact nomatch he
      | error obstacle' =>
        rw [hm, hm'] at he
        cases he
        rw [← hcurrent] at hm'
        cases obstacle with
        | fault f =>
          rw [step_of_fault hf hm, step_of_fault hf' hm']
          simp only [Step.without, hstored]
        | source error =>
          rw [step_of_source hf hm, step_of_source hf' hm']
          simp only [Step.without, h]
    | ok e =>
      cases hm' : m'.execute m.current with
      | error obstacle' => rw [hm, hm'] at he; exact nomatch he
      | ok e' =>
        rw [hm, hm'] at he
        have heffect : e.without c = e'.without c := Except.ok.inj he
        have hafter : (complete m.current e).without c = (complete m.current e').without c := by
          rw [complete_without, complete_without, heffect]
        have houtcome : outcome m.current (complete m.current e) =
            outcome m.current (complete m.current e') := by
          rw [← outcome_without (c := c), hafter, outcome_without]
        have hnote : e.note = e'.note := (Effect.mk.inj heffect).2.2
        rw [← hcurrent] at hm'
        rw [step_of_ok hf hm, step_of_ok hf' hm', hcurrent]
        simp only [Step.without, hafter, houtcome, hnote]

/-! ## Steps that read nothing from a channel -/

variable {n k : Nat}

/-- The next steps complete and read nothing from a channel. -/
structure Blind (c : Channel) (m : Machine ρ) (n : Nat) : Prop where
  completes : m.Completes n
  unread : ∀ k < n, (m.after k).current.reads c = false

instance (c : Channel) (m : Machine ρ) (n : Nat) : Decidable (m.Blind c n) :=
  decidable_of_iff (m.Completes n ∧ ∀ k < n, (m.after k).current.reads c = false)
    ⟨fun h => ⟨h.1, h.2⟩, fun h => ⟨h.completes, h.unread⟩⟩

/-- The steps that follow the first ones are blind too. -/
theorem Blind.drop (h : m.Blind c (k + n)) : (m.after k).Blind c n := by
  constructor
  · intro i hi
    rw [← after_add]
    exact h.completes (k + i) (by omega)
  · intro i hi
    rw [← after_add]
    exact h.unread (k + i) (by omega)

/-- So are the first ones. -/
theorem Blind.take (h : m.Blind c (k + n)) : m.Blind c k :=
  ⟨fun i hi => h.completes i (by omega), fun i hi => h.unread i (by omega)⟩

/-- Machines that are alike outside a channel meet the same obstacles unless they read it. -/
theorem step_obstacle_without (h : m.without c = m'.without c) (hr : m.current.reads c = false) :
    m.step.obstacle = m'.step.obstacle := by
  have hresult : m.step.result = m'.step.result :=
    (Step.mk.inj (step_without h fun _ => hr)).1
  rw [Step.obstacle, Step.obstacle, hresult]

/-- Blind steps leave machines alike that were alike outside the channel. -/
theorem Blind.after_without (hb : m.Blind c n) (h : m.without c = m'.without c) :
    (m.after n).without c = (m'.after n).without c := by
  -- Induction on the number of steps; the last of them is blind because the run is.
  induction n with
  | zero => exact h
  | succ n ih =>
    rw [after_succ', after_succ']
    exact congrArg Step.machine
      (step_without (ih hb.take) fun _ => hb.unread n (Nat.lt_succ_self n))

/-- Machines that are alike outside a channel go through the same blind steps. -/
theorem Blind.of_without_eq (hb : m.Blind c n) (h : m.without c = m'.without c) :
    m'.Blind c n := by
  -- Up to each step the two have gone through blind steps, so they are alike there.
  have halike : ∀ k < n, (m.after k).without c = (m'.after k).without c := by
    intro k hk
    obtain ⟨rest, rfl⟩ := Nat.exists_eq_add_of_le (Nat.le_of_lt hk)
    exact hb.take.after_without h
  constructor
  · intro k hk
    rw [← step_obstacle_without (halike k hk) (hb.unread k hk)]
    exact hb.completes k hk
  · intro k hk
    rw [eq_graft_of_without_eq (halike k hk), graft_current]
    exact hb.unread k hk

/-! ## Signals -/

/-- The machine after a signal. -/
def receive (m : Machine ρ) (signal : Signal) : Machine ρ :=
  (m.feed signal.input).machine

/-- The steps among the signals, as they come out. -/
def transcript (m : Machine ρ) : List Signal → List (Step ρ)
  | [] => []
  | signal :: rest =>
    let later := (m.receive signal).transcript rest
    if signal = .step then m.step :: later else later

/-- No step among the signals executes an instruction that reads the channel. -/
def NeverReads (c : Channel) (m : Machine ρ) : List Signal → Prop
  | [] => True
  | signal :: rest =>
    (signal = .step → m.fault = none → m.current.reads c = false) ∧
      (m.receive signal).NeverReads c rest

instance decidableNeverReads (c : Channel) (m : Machine ρ) :
    (signals : List Signal) → Decidable (m.NeverReads c signals)
  | [] => isTrue trivial
  | signal :: rest =>
    have := decidableNeverReads c (m.receive signal) rest
    inferInstanceAs (Decidable ((signal = .step → m.fault = none → m.current.reads c = false) ∧
      (m.receive signal).NeverReads c rest))

/-- A signal on a channel changes nothing outside it. -/
theorem receive_of_channel {signal : Signal} (hc : signal.channel? = some c) :
    (m.receive signal).without c = m.without c := by
  cases signal with
  | step => exact nomatch hc
  | tick =>
    cases hc
    exact tick_without m
  | keys states =>
    cases hc
    obtain ⟨keys, hkeys⟩ := m.exists_feed_keys_eq states
    rw [receive, Signal.input, hkeys]
    rfl

/-- Any other signal does the same to machines that are alike outside the channel, unless it is a
    step that reads it. -/
theorem receive_without {signal : Signal} (h : m.without c = m'.without c)
    (hc : signal.channel? ≠ some c)
    (hr : signal = .step → m.fault = none → m.current.reads c = false) :
    (m.receive signal).without c = (m'.receive signal).without c := by
  cases signal with
  | step => exact congrArg Step.machine (step_without h (hr rfl))
  -- A tick asks whether a key is awaited, which is in no channel.
  | tick =>
    simp only [receive, Signal.input, feed, Machine.tick]
    rw [eq_graft_of_without_eq h, graft_awaitingKey]
    split
    · exact (graft_without m m').symm
    · cases c with
      | timers => exact absurd rfl hc
      | keys => rfl
      | random => rfl
  | keys states =>
    have hsame : ∀ keys, (m.hold keys).without c = (m'.hold keys).without c := by
      intro keys
      rw [eq_graft_of_without_eq h]
      cases c with
      | timers => rfl
      | keys => exact absurd rfl hc
      | random => rfl
    -- Both refuse a list of the wrong length, and hold the same keys otherwise.
    obtain ⟨_, keys, hkeys, hs⟩ | ⟨hlen, hs⟩ := m.setKeys?_cases states
    · obtain ⟨_, keys', hkeys', hs'⟩ | ⟨hlen', -⟩ := m'.setKeys?_cases states
      · have heq : keys' = keys := Vector.toList_inj.1 (hkeys'.trans hkeys.symm)
        simp only [receive, Signal.input, feed, hs, hs', heq, hsame]
      · exact absurd ‹_› hlen'
    · obtain ⟨hlen', -⟩ | ⟨_, hs'⟩ := m'.setKeys?_cases states
      · exact absurd hlen' hlen
      · simp only [receive, Signal.input, feed, hs, hs', h]

/-! ## Runs -/

/-- Signals on a channel that is never read might as well not come. -/
private theorem transcript_outside {signals : List Signal} (h : m.without c = m'.without c)
    (hr : m.NeverReads c signals) :
    (m.transcript signals).map (Step.without c) =
      (m'.transcript (Signal.outside c signals)).map (Step.without c) := by
  -- Induction on the signals; one on the channel is passed over, another is met by both.
  induction signals generalizing m m' with
  | nil => rfl
  | cons signal rest ih =>
    obtain ⟨hstep, hrest⟩ := hr
    by_cases hc : signal.channel? = some c
    · have hskip : Signal.outside c (signal :: rest) = Signal.outside c rest :=
        List.filter_cons_of_neg fun hkept => of_decide_eq_true hkept hc
      have hnot : signal ≠ .step := by
        rintro rfl
        exact nomatch hc
      simp only [transcript, if_neg hnot, hskip]
      exact ih ((receive_of_channel hc).trans h) hrest
    · have hkeep : Signal.outside c (signal :: rest) = signal :: Signal.outside c rest :=
        List.filter_cons_of_pos (decide_eq_true hc)
      have hlater := ih (receive_without h hc hstep) hrest
      simp only [hkeep, transcript]
      by_cases hs : signal = .step
      · simp only [if_pos hs, List.map_cons, hlater]
        rw [step_without h (hstep hs)]
      · simp only [if_neg hs, hlater]

/-- Two machines that are alike outside a channel, and get the same signals apart from those on it,
    go through the same steps outside it, with the same outcomes and errors, if neither executes an
    instruction that reads it. -/
theorem transcript_without_of_outside_eq {signals signals' : List Signal}
    (alike : m.without c = m'.without c)
    (same : Signal.outside c signals = Signal.outside c signals')
    (unread : m.NeverReads c signals) (unread' : m'.NeverReads c signals') :
    (m.transcript signals).map (Step.without c) =
      (m'.transcript signals').map (Step.without c) := by
  have hfirst := transcript_outside alike unread
  have hsecond := transcript_outside (rfl : m'.without c = m'.without c) unread'
  rw [hfirst, same, hsecond]

/-- A program sets the delay, waits for a key and arms the next wait, but never reads a timer. The
    second machine starts with other timers, is ticked at other moments and more often, and does the
    same. -/
theorem transcript_without_of_outside_eq_ticks :
    let program := [0x60, 0x05, 0xF0, 0x15, 0xF3, 0x0A, 0xC7, 0xFF, 0xF4, 0x0A]
    let m : Machine Replay :=
      (fresh (Replay.ofInts [7])).callAll [.load program]
    let m' : Machine Replay := { m with timers := { delay := 9, sound := 200 } }
    let held := (KeyStates.holding [5]).toList
    let signals := [.step, .step, .step, .keys held, .step, .step, .step]
    let signals' :=
      [.tick, .step, .step, .tick, .tick, .step, .tick, .keys held, .step, .tick, .step, .step]
    (m.transcript signals).map (Step.without .timers) =
      (m'.transcript signals').map (Step.without .timers) ∧
    (m.transcript signals).map (fun s => s.machine.awaitingKey) =
      [false, false, true, false, false, true] := by
  intro program m m' held signals signals'
  have halike : ∀ (m : Machine Replay) (timers : Timers),
      m.without .timers = { m with timers }.without .timers := fun _ _ => rfl
  obtain ⟨hunread, hunread', hwaits⟩ :
      m.NeverReads .timers signals ∧ m'.NeverReads .timers signals' ∧
        (m.transcript signals).map (fun s => s.machine.awaitingKey) =
          [false, false, true, false, false, true] := by
    decide +kernel
  exact ⟨transcript_without_of_outside_eq (halike m _) (by decide) hunread hunread', hwaits⟩

end Machine

end Chip8
