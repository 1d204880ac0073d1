import Chip8.Proofs.Channels
import Chip8.Proofs.WellFormed

/-!
# Runs of signals

A frame is a series of steps and a tick, so every sequence of inputs can be taken apart into single
signals, one for each step and each tick. What happens inside a frame can then be spoken of like
anything else. Which signals a frame comes to depends on the machine: an obstacle ends it, and then
the tick is left out.

## Key results

- `Machine.receiveAll_induction`: what every step, tick and change of keys preserves holds after
  every sequence of signals
- `Machine.feedAll_eq_receiveAll`: a sequence of inputs is the sequence of its signals
-/

namespace Chip8.Machine

variable {ρ : Type} [ByteSource ρ] {m : Machine ρ}

/-- The machine after a sequence of signals. -/
def receiveAll (m : Machine ρ) (signals : List Signal) : Machine ρ :=
  signals.foldl receive m

@[simp] theorem receiveAll_nil (m : Machine ρ) : m.receiveAll [] = m := rfl

@[simp] theorem receiveAll_cons (m : Machine ρ) (signal : Signal) (rest : List Signal) :
    m.receiveAll (signal :: rest) = (m.receive signal).receiveAll rest := rfl

/-- Receiving two sequences is receiving the one behind the other. -/
theorem receiveAll_append (m : Machine ρ) (first last : List Signal) :
    m.receiveAll (first ++ last) = (m.receiveAll first).receiveAll last :=
  List.foldl_append

/-! ## Signals are inputs -/

/-- Signals are inputs without frames. -/
private theorem receiveAll_eq_feedAll (m : Machine ρ) (signals : List Signal) :
    m.receiveAll signals = m.feedAll (signals.map Signal.input) := by
  induction signals generalizing m with
  | nil => rfl
  | cons signal rest ih => exact ih (m.receive signal)

/-- What a step, a tick and a change of keys preserve holds after any signals. -/
theorem receiveAll_induction {P : Machine ρ → Prop} (hstep : ∀ m, P m → P m.step.machine)
    (htick : ∀ m, P m → P m.tick) (hhold : ∀ m keys, P m → P (m.hold keys)) (hm : P m)
    (signals : List Signal) : P (m.receiveAll signals) := by
  rw [receiveAll_eq_feedAll]
  exact feedAll_induction hstep htick hhold hm _

/-- No signal takes a well-formed machine out of its ranges. -/
theorem WellFormed.receiveAll (h : m.WellFormed) (signals : List Signal) :
    (m.receiveAll signals).WellFormed :=
  receiveAll_induction (P := WellFormed) (fun _ hm => hm.step) (fun _ hm => hm.tick)
    (fun _ keys hm => hm.hold keys) h signals

/-- New keys are held or refused; nothing else happens. -/
theorem receive_keys (m : Machine ρ) (states : List Bool) :
    ∃ keys, m.receive (.keys states) = m.hold keys :=
  m.exists_feed_keys_eq states

/-! ## Inputs are signals -/

/-- The signals of a frame: its steps up to the first obstacle, and its tick if there is none. -/
def frameSignals (m : Machine ρ) : (steps : Nat) → List Signal
  | 0 => [.tick]
  | steps + 1 =>
    match m.step.obstacle with
    | some _ => [.step]
    | none => .step :: m.step.machine.frameSignals steps

/-- The signals of an input. -/
def inputSignals (m : Machine ρ) : Input → List Signal
  | .step => [.step]
  | .frame steps => m.frameSignals steps.toNat
  | .tick => [.tick]
  | .keys states => [.keys states]

/-- The signals of a sequence of inputs. -/
def signals (m : Machine ρ) : List Input → List Signal
  | [] => []
  | input :: rest => m.inputSignals input ++ (m.feed input).machine.signals rest

/-- A frame whose steps all succeed is received as its steps and the tick after them. -/
private theorem receiveAll_frameSignals_of_completes {n : Nat} (hc : m.Completes n) :
    m.receiveAll (m.frameSignals n) = (m.after n).tick := by
  -- Induction on the steps: every `Completes` gives the first step a success and the rest a
  -- frame.
  induction n generalizing m with
  | zero => rfl
  | succ n ih =>
    obtain ⟨ho, hrest⟩ := completes_succ.1 hc
    simp only [frameSignals, ho, receiveAll_cons]
    exact ih hrest

/-- A frame that meets an obstacle is received as the steps up to it, and no tick follows. -/
private theorem receiveAll_frameSignals_of_not_completes {n : Nat} (hc : ¬m.Completes n) :
    m.receiveAll (m.frameSignals n) = m.after n := by
  induction n generalizing m with
  -- No steps at all cannot meet an obstacle: such a frame completes.
  | zero => exact absurd (fun k hk => absurd hk (Nat.not_lt_zero k)) hc
  | succ n ih =>
    cases ho : m.step.obstacle with
    | some obstacle =>
      -- What remains of the frame leaves the machine as the obstacle found it.
      simp only [frameSignals, ho]
      exact (after_succ_of_obstacle ho n).symm
    | none =>
      simp only [frameSignals, ho, receiveAll_cons]
      -- The first step succeeded, so that the obstacle lies among the others.
      exact ih fun hrest => hc (completes_succ.2 ⟨ho, hrest⟩)

/-- An input leaves the machine that its signals leave. -/
private theorem feed_eq_receiveAll (m : Machine ρ) (input : Input) :
    (m.feed input).machine = m.receiveAll (m.inputSignals input) := by
  cases input with
  | step => rfl
  | tick => rfl
  | keys states => rfl
  | frame steps =>
    -- Whether the tick is among the signals depends on the machine, and so do the two lemmas.
    simp only [feed, inputSignals]
    by_cases hc : m.Completes steps.toNat
    · rw [receiveAll_frameSignals_of_completes hc]
      exact (Run.frame_of_completes (r := .start m) rfl hc).2
    · rw [receiveAll_frameSignals_of_not_completes hc]
      exact (Run.frame_of_not_completes (r := .start m) rfl hc).2

/-- A sequence of inputs leaves the machine that its signals leave. -/
theorem feedAll_eq_receiveAll (m : Machine ρ) (inputs : List Input) :
    m.feedAll inputs = m.receiveAll (m.signals inputs) := by
  induction inputs generalizing m with
  | nil => rfl
  | cons input rest ih =>
    -- The signals of the rest are those of the machine that the first input leaves.
    rw [feedAll_cons, ih, signals, receiveAll_append, ← feed_eq_receiveAll]

end Chip8.Machine
