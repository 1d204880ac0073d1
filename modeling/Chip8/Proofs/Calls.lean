import Chip8.Proofs.Execute
import Mathlib.Logic.Function.Iterate

/-!
# Runs of calls

What a host may call, and the machine after any sequence of such calls. An `Input` drives a machine
once its program is loaded; a `Call` is an input, a reset or a load. A call that is refused leaves
an error beside the machine, and the sequence goes on from there.

## Key results

- `Machine.after_succ_of_obstacle`: a machine that met an obstacle stays where it is
- `Run.steps_machine`, `Run.steps_obstacle_eq_none_iff`: a run of steps is the iterated step
- `Machine.feed_frame_machine`, `Machine.exists_feed_keys_eq`, `Machine.exists_call_load_eq`: what a
  frame, new keys and a load can change
- `Machine.feedAll_induction`, `Machine.callAll_induction`: what every step, tick and change of keys
  preserves holds after every sequence of inputs, and with resets and loads after every sequence of
  calls
-/

namespace Chip8

/-- What drives a machine once its program is loaded. -/
inductive Input
  | step
  -- Executes some instructions and ticks the timers.
  | frame (steps : Int)
  | tick
  | keys (states : List Bool)
deriving DecidableEq, Repr

/-- Everything that a host may call. -/
inductive Call
  | reset
  | load (program : List UInt8)
  | drive (input : Input)
deriving DecidableEq, Repr

/-- Why a call was refused. -/
inductive CallError
  | obstacle (obstacle : Obstacle)
  | program (error : ProgramTooLarge)
  | keys (error : KeypadError)
deriving DecidableEq, Repr

/-- What a call came to: the error it raised, if any, and the machine after it. -/
structure Answer (ρ : Type) where
  error : Option CallError := none
  machine : Machine ρ

/-- A sequence that has a value somewhere has a first one. -/
theorem exists_first_eq_some {α : Type} (values : Nat → Option α) {n : Nat}
    (h : ¬∀ k < n, values k = none) :
    ∃ k < n, (∀ earlier < k, values earlier = none) ∧ ∃ value, values k = some value := by
  -- Induction on the bound: the first value lies below `n`, or it is the one at `n`.
  induction n with
  | zero => exact absurd (fun k hk => absurd hk (by omega)) h
  | succ n ih =>
    by_cases hn : ∀ k < n, values k = none
    · refine ⟨n, by omega, hn, Option.ne_none_iff_exists'.1 fun hnone => h fun k hk => ?_⟩
      obtain rfl | hlt : k = n ∨ k < n := by omega
      · exact hnone
      · exact hn k hlt
    · obtain ⟨k, hk, hfirst⟩ := ih hn
      exact ⟨k, by omega, hfirst⟩

/-- The obstacle that a step met. -/
def Step.obstacle {ρ : Type} (s : Step ρ) : Option Obstacle :=
  match s.result with
  | .error obstacle => some obstacle
  | .ok _ => none

namespace Machine

variable {ρ : Type}

/-! ## Requests that may be refused -/

/-- New key states are taken over if there is one for each key, and refused otherwise. -/
theorem setKeys?_cases (m : Machine ρ) (states : List Bool) :
    (states.length = 16 ∧ ∃ keys : KeyStates, keys.toList = states ∧
      m.setKeys? states = .ok (m.hold keys)) ∨
    (states.length ≠ 16 ∧ m.setKeys? states = .error (.wrongCount states.length)) := by
  by_cases h : states.length = 16
  · left
    -- The states themselves are the keys; only their number has to be known to the type.
    refine ⟨h, ⟨states.toArray, by simp [h]⟩, rfl, ?_⟩
    simp only [setKeys?, Keypad.setStates?, KeyStates.ofList?, dif_pos h]
    rfl
  · right
    simp only [setKeys?, Keypad.setStates?, KeyStates.ofList?, dif_neg h]
    exact ⟨h, rfl⟩

/-- A program that fits is laid over memory and changes nothing else. -/
theorem loadProgram_cases (m : Machine ρ) (program : List UInt8) :
    (program.length ≤ programLimit ∧ ∃ note, m.loadProgram program =
      .ok ({ m with memory := ⟨Memory.overlay m.memory.cells programStart program⟩ }, note)) ∨
    (programLimit < program.length ∧ m.loadProgram program = .error ⟨program.length⟩) := by
  by_cases h : programLimit < program.length
  · exact .inr ⟨h, by simp only [loadProgram, if_pos h]⟩
  · exact .inl ⟨by omega, .programLoaded program.length, by simp only [loadProgram, if_neg h]⟩

/-! ## Calls and sequences of calls -/

variable [ByteSource ρ]

/-- Takes an input. -/
def feed (m : Machine ρ) : Input → Answer ρ
  | .step => { error := m.step.obstacle.map .obstacle, machine := m.step.machine }
  | .frame steps =>
    let r := Run.frame steps (.start m)
    { error := r.obstacle.map .obstacle, machine := r.machine }
  | .tick => { machine := m.tick }
  | .keys states =>
    match m.setKeys? states with
    | .ok after => { machine := after }
    | .error error => { error := some (.keys error), machine := m }

/-- Answers a call. -/
def call (m : Machine ρ) : Call → Answer ρ
  | .reset => { machine := m.reset }
  | .load program =>
    match m.loadProgram program with
    | .ok (after, _) => { machine := after }
    | .error error => { error := some (.program error), machine := m }
  | .drive input => m.feed input

/-- The machine after a sequence of inputs. -/
def feedAll (m : Machine ρ) (inputs : List Input) : Machine ρ :=
  inputs.foldl (fun m input => (m.feed input).machine) m

/-- The machine after a sequence of calls. -/
def callAll (m : Machine ρ) (calls : List Call) : Machine ρ :=
  calls.foldl (fun m call => (m.call call).machine) m

/-- A machine that a host can come to, from a new machine by calls. -/
def Reachable (m : Machine ρ) : Prop :=
  ∃ (random : ρ) (calls : List Call), m = (fresh random).callAll calls

/-- The machine after some steps, whether they complete or not. -/
def after (m : Machine ρ) (steps : Nat) : Machine ρ :=
  (fun m => m.step.machine)^[steps] m

/-- The next steps meet no obstacle. -/
def Completes (m : Machine ρ) (steps : Nat) : Prop :=
  ∀ k < steps, (m.after k).step.obstacle = none

instance (m : Machine ρ) (steps : Nat) : Decidable (m.Completes steps) :=
  inferInstanceAs (Decidable (∀ k < steps, (m.after k).step.obstacle = none))

variable {m : Machine ρ} {obstacle : Obstacle}

/-! ## Iterated steps -/

@[simp] theorem after_zero (m : Machine ρ) : m.after 0 = m := rfl

/-- The first step comes first. -/
theorem after_succ (m : Machine ρ) (n : Nat) : m.after (n + 1) = m.step.machine.after n := rfl

theorem after_succ' (m : Machine ρ) (n : Nat) : m.after (n + 1) = (m.after n).step.machine :=
  Function.iterate_succ_apply' _ n m

/-- Runs of steps follow one another. -/
theorem after_add (m : Machine ρ) (k n : Nat) : m.after (k + n) = (m.after k).after n := by
  rw [after, Nat.add_comm, Function.iterate_add_apply]
  rfl

/-- An obstacle is a fault, which is stored by now, or a missing byte, which changed nothing. -/
theorem step_obstacle_cases (h : m.step.obstacle = some obstacle) :
    (∃ f, obstacle = .fault f ∧ m.step.machine = { m with fault := some f } ∧
      (m.fault = some f ∨ m.fault = none ∧ m.execute m.current = .error (.fault f))) ∨
    (∃ error, obstacle = .source error ∧ m.step.machine = m ∧
      m.execute m.current = .error (.source error)) := by
  obtain ⟨f, hf, hs⟩ | ⟨hf, f, he, hs⟩ | ⟨hf, error, he, hs⟩ | ⟨hf, e, he, hs⟩ := m.step_cases
  · rw [hs] at h ⊢
    cases h
    -- Halted before: the same fault is met, and storing it again changes nothing.
    exact .inl ⟨f, rfl, by rw [← hf], .inl hf⟩
  · rw [hs] at h ⊢
    cases h
    -- The instruction faults now, and its fault is stored.
    exact .inl ⟨f, rfl, rfl, .inr ⟨hf, he⟩⟩
  · rw [hs] at h ⊢
    cases h
    exact .inr ⟨error, rfl, rfl, he⟩
  -- A completed instruction is no obstacle.
  · rw [hs] at h
    exact nomatch h

/-- An obstacle changes nothing but the stored fault. -/
theorem exists_machine_eq_of_obstacle (h : m.step.obstacle = some obstacle) :
    ∃ fault, m.step.machine = { m with fault } := by
  obtain ⟨f, -, hm, -⟩ | ⟨_, -, hm, -⟩ := step_obstacle_cases h
  · exact ⟨some f, hm⟩
  · exact ⟨m.fault, hm⟩

/-- A machine that met an obstacle meets it again and stays as it is. -/
theorem step_of_obstacle (h : m.step.obstacle = some obstacle) :
    m.step.machine.step.obstacle = some obstacle ∧
      m.step.machine.step.machine = m.step.machine := by
  obtain ⟨f, rfl, hm, -⟩ | ⟨error, rfl, hm, -⟩ := step_obstacle_cases h
  · rw [hm, step_of_halted rfl]
    exact ⟨rfl, rfl⟩
  · rw [hm]
    exact ⟨h, hm⟩

/-- A step that completes is counted and leaves the machine running. -/
theorem step_of_completed (h : m.step.obstacle = none) :
    m.fault = none ∧ m.step.machine.fault = none ∧ m.step.machine.cycles = m.cycles + 1 := by
  obtain ⟨f, _, hs⟩ | ⟨_, f, _, hs⟩ | ⟨_, error, _, hs⟩ | ⟨hf, e, he, hs⟩ := m.step_cases
  -- Only the last of the four shapes of a step has no obstacle.
  · rw [hs] at h; exact nomatch h
  · rw [hs] at h; exact nomatch h
  · rw [hs] at h; exact nomatch h
  · obtain ⟨_, hcycles, _, hfault, _⟩ := execute_bookkeeping he
    rw [hs]
    exact ⟨hf, hfault.trans hf, congrArg (· + 1) hcycles⟩

/-- A step that completes executes the current instruction and counts it. -/
theorem exists_effect_of_completed (h : m.step.obstacle = none) :
    ∃ e, m.execute m.current = .ok e ∧ m.step.machine = complete m.current e := by
  obtain ⟨f, _, hs⟩ | ⟨_, f, _, hs⟩ | ⟨_, error, _, hs⟩ | ⟨_, e, he, hs⟩ := m.step_cases
  · rw [hs] at h; exact nomatch h
  · rw [hs] at h; exact nomatch h
  · rw [hs] at h; exact nomatch h
  · exact ⟨e, he, congrArg Step.machine hs⟩

/-- However many steps follow an obstacle, they change nothing. -/
theorem after_succ_of_obstacle (h : m.step.obstacle = some obstacle) (n : Nat) :
    m.after (n + 1) = m.step.machine := by
  induction n with
  | zero => rfl
  | succ n ih => rw [after_succ', ih, (step_of_obstacle h).2]

/-- Steps complete if the first one does and the others do from there. -/
theorem completes_succ {n : Nat} :
    m.Completes (n + 1) ↔ m.step.obstacle = none ∧ m.step.machine.Completes n := by
  constructor
  · intro h
    exact ⟨h 0 (by omega), fun k hk => h (k + 1) (by omega)⟩
  · rintro ⟨h0, h⟩ k hk
    cases k with
    | zero => exact h0
    | succ k => exact h k (by omega)

/-- Steps that do not all complete meet a first obstacle. -/
theorem exists_first_obstacle {n : Nat} (h : ¬m.Completes n) :
    ∃ k < n, m.Completes k ∧ ∃ obstacle, (m.after k).step.obstacle = some obstacle :=
  exists_first_eq_some (fun k => (m.after k).step.obstacle) h

/-- All that follows an obstacle leaves the machine as the obstacle left it. -/
theorem after_of_obstacle {k n : Nat} (h : (m.after k).step.obstacle = some obstacle)
    (hkn : k < n) : m.after n = (m.after k).step.machine := by
  -- At least one step follows the first `k`.
  obtain ⟨rest, rfl⟩ : ∃ rest, n = (rest + 1) + k := ⟨n - k - 1, by omega⟩
  rw [after, Function.iterate_add_apply]
  exact after_succ_of_obstacle h rest

/-! ## What a step keeps -/

/-- A property that survives the two changes a step can make survives the step. -/
theorem step_induction {P : Machine ρ → Prop} (m : Machine ρ) (hm : P m)
    (hfault : ∀ f, m.fault = none → m.execute m.current = .error (.fault f) →
      P { m with fault := some f })
    (hok : ∀ e, m.fault = none → m.execute m.current = .ok e → P (complete m.current e)) :
    P m.step.machine := by
  obtain ⟨f, hf, hs⟩ | ⟨hf, f, he, hs⟩ | ⟨hf, error, he, hs⟩ | ⟨hf, e, he, hs⟩ := m.step_cases
  · rw [hs]; exact hm
  · rw [hs]; exact hfault f hf he
  · rw [hs]; exact hm
  · rw [hs]; exact hok e hf he

/-- A step never changes which keys are held. -/
@[simp] theorem step_states (m : Machine ρ) :
    m.step.machine.keypad.states = m.keypad.states :=
  step_induction (P := fun after => after.keypad.states = m.keypad.states) m rfl
    (fun _ _ _ => rfl) (fun _ _ he => (execute_bookkeeping he).2.2.2.2)

end Machine

/-! ## Runs of steps -/

namespace Run

variable {ρ : Type} [ByteSource ρ] {r : Run ρ}

/-- The first step of a run comes first, and the notes are carried on. -/
theorem steps_succ (n : Nat) (h : r.obstacle = none) :
    steps (n + 1) r = steps n (add r.notes r.machine.step) := by
  simp only [steps, h]

/-- A run that has met an obstacle takes no steps. -/
private theorem steps_of_obstacle (n : Nat) {obstacle : Obstacle} (h : r.obstacle = some obstacle) :
    steps n r = r := by
  cases n with
  | zero => rfl
  | succ n => simp only [steps, h]

/-- A run of steps ends at the machine of the iterated step. -/
theorem steps_machine (n : Nat) (h : r.obstacle = none) :
    (steps n r).machine = r.machine.after n := by
  -- Induction on the steps, for every run: the notes gathered so far change with each step.
  induction n generalizing r with
  | zero => rfl
  | succ n ih =>
    rw [steps_succ n h]
    cases ho : (add r.notes r.machine.step).obstacle with
    | none => rw [ih ho]; rfl
    | some obstacle =>
      -- The run stops here, and the iterated step does not get any further either.
      rw [steps_of_obstacle n ho]
      exact (Machine.after_succ_of_obstacle ho n).symm

/-- A run of steps meets no obstacle if none of its steps does. -/
theorem steps_obstacle_eq_none_iff (n : Nat) (h : r.obstacle = none) :
    (steps n r).obstacle = none ↔ r.machine.Completes n := by
  induction n generalizing r with
  | zero => exact ⟨fun _ k hk => absurd hk (by omega), fun _ => h⟩
  | succ n ih =>
    rw [steps_succ n h, Machine.completes_succ]
    cases ho : (add r.notes r.machine.step).obstacle with
    | none =>
      rw [ih ho]
      exact ⟨fun hc => ⟨ho, hc⟩, fun hc => hc.2⟩
    | some obstacle =>
      -- The run holds the obstacle of its first step, so both sides are false.
      rw [steps_of_obstacle n ho, ho]
      exact ⟨nofun, fun hc => absurd (ho.symm.trans hc.1) nofun⟩

/-- A run stops at the first step that meets an obstacle. -/
theorem steps_of_first_obstacle {k n : Nat} {obstacle : Obstacle} (h : r.obstacle = none)
    (hc : r.machine.Completes k) (ho : (r.machine.after k).step.obstacle = some obstacle)
    (hkn : k < n) :
    (steps n r).obstacle = some obstacle ∧
      (steps n r).machine = (r.machine.after k).step.machine := by
  -- Induction on the steps that complete, with `n` bounding them from above at every level.
  induction k generalizing r n with
  | zero =>
    obtain ⟨n, rfl⟩ : ∃ n', n = n' + 1 := ⟨n - 1, by omega⟩
    rw [steps_succ n h, steps_of_obstacle n ho]
    exact ⟨ho, rfl⟩
  | succ k ih =>
    obtain ⟨n, rfl⟩ : ∃ n', n = n' + 1 := ⟨n - 1, by omega⟩
    rw [steps_succ n h]
    exact ih (Machine.completes_succ.1 hc).1 (Machine.completes_succ.1 hc).2 ho (by omega)

/-- The obstacle of a run is the obstacle of one of its steps. -/
theorem exists_step_of_steps_obstacle {n : Nat} {obstacle : Obstacle} (h : r.obstacle = none)
    (ho : (steps n r).obstacle = some obstacle) :
    ∃ k < n, (r.machine.after k).step.obstacle = some obstacle := by
  induction n generalizing r with
  | zero => exact absurd (h.symm.trans ho) nofun
  | succ n ih =>
    rw [steps_succ n h] at ho
    cases hs : (add r.notes r.machine.step).obstacle with
    -- The obstacle was met later: its place is counted from the second step.
    | none =>
      obtain ⟨k, hk, hstep⟩ := ih hs ho
      exact ⟨k + 1, by omega, hstep⟩
    | some first =>
      -- The obstacle was met at once, and the run stopped there.
      rw [steps_of_obstacle n hs] at ho
      exact ⟨0, by omega, ho⟩

/-- The tick of a frame meets no obstacle. -/
theorem frame_obstacle (count : Int) (r : Run ρ) :
    (frame count r).obstacle = (steps count.toNat r).obstacle := by
  simp only [frame]
  split
  · rfl
  · rename_i ho
    rw [ho]
    exact ho

/-- A frame without an obstacle ends with a tick. -/
theorem frame_of_completes {steps : Int} (h : r.obstacle = none)
    (hc : r.machine.Completes steps.toNat) :
    (frame steps r).obstacle = none ∧
      (frame steps r).machine = (r.machine.after steps.toNat).tick := by
  -- Without an obstacle the frame reaches its tick, which only `map` stands in front of.
  have ho := (steps_obstacle_eq_none_iff steps.toNat h).2 hc
  simp only [frame, ho, map]
  rw [steps_machine _ h]
  exact ⟨trivial, rfl⟩

/-- A frame with an obstacle ends there, without a tick. -/
theorem frame_of_not_completes {steps : Int} (h : r.obstacle = none)
    (hc : ¬r.machine.Completes steps.toNat) :
    (frame steps r).obstacle ≠ none ∧
      (frame steps r).machine = r.machine.after steps.toNat := by
  cases ho : (Run.steps steps.toNat r).obstacle with
  | none => exact absurd ((steps_obstacle_eq_none_iff _ h).1 ho) hc
  | some obstacle =>
    simp only [frame, ho]
    rw [steps_machine _ h]
    exact ⟨nofun, rfl⟩

/-- The first frame comes first. -/
theorem frames_succ (steps : Int) (count : Nat) (h : r.obstacle = none) :
    frames steps (count + 1) r = frames steps count (frame steps r) := by
  simp only [frames, h]

/-- A run that has met an obstacle plays no frames. -/
theorem frames_of_obstacle (steps : Int) (count : Nat) (h : r.obstacle ≠ none) :
    frames steps count r = r := by
  cases count with
  | zero => rfl
  | succ count =>
    obtain ⟨obstacle, ho⟩ := Option.ne_none_iff_exists'.1 h
    simp only [frames, ho]

/-- The first of some frames either completes, and the others follow its tick, or is the last. -/
theorem frames_cases (steps : Nat) (h : r.obstacle = none) :
    (r.machine.Completes steps ∧
      ∃ next : Run ρ, next.obstacle = none ∧ next.machine = (r.machine.after steps).tick ∧
        ∀ count, frames steps (count + 1) r = frames steps count next) ∨
    (¬r.machine.Completes steps ∧
      ∀ count, (frames steps (count + 1) r).machine = r.machine.after steps) := by
  -- The count of a frame is an integer, and `Completes` counts in numbers.
  by_cases hc : r.machine.Completes (steps : Int).toNat
  · obtain ⟨ho, hm⟩ := frame_of_completes h hc
    exact .inl ⟨hc, frame steps r, ho, hm, fun count => frames_succ steps count h⟩
  · obtain ⟨ho, hm⟩ := frame_of_not_completes h hc
    refine .inr ⟨hc, fun count => ?_⟩
    rw [frames_succ _ _ h, frames_of_obstacle _ _ ho, hm, Int.toNat_natCast]

end Run

namespace Machine

variable {ρ : Type} [ByteSource ρ]

/-! ## Sequences of inputs and calls -/

@[simp] theorem feedAll_cons (m : Machine ρ) (input : Input) (rest : List Input) :
    m.feedAll (input :: rest) = (m.feed input).machine.feedAll rest := rfl

/-- Two sequences of inputs follow one another. -/
theorem feedAll_append (m : Machine ρ) (first last : List Input) :
    m.feedAll (first ++ last) = (m.feedAll first).feedAll last :=
  List.foldl_append

@[simp] theorem callAll_nil (m : Machine ρ) : m.callAll [] = m := rfl

@[simp] theorem callAll_cons (m : Machine ρ) (call : Call) (rest : List Call) :
    m.callAll (call :: rest) = (m.call call).machine.callAll rest := rfl

/-- Two sequences of calls follow one another. -/
theorem callAll_append (m : Machine ρ) (first last : List Call) :
    m.callAll (first ++ last) = (m.callAll first).callAll last :=
  List.foldl_append

/-- A frame breaks off at its first obstacle, and its tick is left out. -/
theorem feed_frame_of_first_obstacle {m : Machine ρ} {obstacle : Obstacle} {k : Nat} {n : Int}
    (hc : m.Completes k) (ho : (m.after k).step.obstacle = some obstacle) (hkn : k < n.toNat) :
    m.feed (.frame n) =
      { error := some (.obstacle obstacle), machine := (m.after k).step.machine } := by
  obtain ⟨hobstacle, hmachine⟩ := Run.steps_of_first_obstacle (r := .start m) rfl hc ho hkn
  simp only [feed, Run.frame, hobstacle, hmachine]
  rfl

/-- A frame is some steps, and a tick if they complete. -/
theorem feed_frame_machine (m : Machine ρ) (steps : Int) :
    (m.feed (.frame steps)).machine =
      if m.Completes steps.toNat then (m.after steps.toNat).tick else m.after steps.toNat := by
  simp only [feed]
  split
  · rename_i hc
    exact (Run.frame_of_completes (r := .start m) rfl hc).2
  · rename_i hc
    exact (Run.frame_of_not_completes (r := .start m) rfl hc).2

/-- New keys change nothing but which keys are held. -/
theorem exists_feed_keys_eq (m : Machine ρ) (states : List Bool) :
    ∃ keys, (m.feed (.keys states)).machine = m.hold keys := by
  -- A refused change counts as holding the keys that are held already.
  obtain ⟨_, keys, _, hset⟩ | ⟨_, hset⟩ := m.setKeys?_cases states
  · exact ⟨keys, by simp only [feed, hset]⟩
  · exact ⟨m.keypad.states, by simp only [feed, hset]; rfl⟩

/-- A load changes nothing but memory. -/
theorem exists_call_load_eq (m : Machine ρ) (program : List UInt8) :
    ∃ memory, (m.call (.load program)).machine = { m with memory } := by
  obtain ⟨_, note, hload⟩ | ⟨_, hload⟩ := m.loadProgram_cases program
  · refine ⟨⟨Memory.overlay m.memory.cells programStart program⟩, ?_⟩
    simp only [call, hload]
  -- A refused program counts as loading the memory that is there already.
  · refine ⟨m.memory, ?_⟩
    simp only [call, hload]

/-- What a step, a tick and a change of keys preserve, an input preserves. -/
theorem feed_induction {P : Machine ρ → Prop} (hstep : ∀ m, P m → P m.step.machine)
    (htick : ∀ m, P m → P m.tick) (hhold : ∀ m keys, P m → P (m.hold keys)) {m : Machine ρ}
    (hm : P m) (input : Input) : P (m.feed input).machine := by
  -- A frame is some iterated steps, with or without a tick behind them.
  have hafter : ∀ n, P (m.after n) := by
    intro n
    induction n with
    | zero => exact hm
    | succ n ih => rw [after_succ']; exact hstep _ ih
  cases input with
  | step => exact hstep m hm
  | frame steps =>
    rw [feed_frame_machine]
    split
    · exact htick _ (hafter _)
    · exact hafter _
  | tick => exact htick m hm
  | keys states =>
    obtain ⟨keys, hkeys⟩ := m.exists_feed_keys_eq states
    rw [hkeys]
    exact hhold m keys hm

/-- What a step, a tick and a change of keys preserve holds after any inputs. -/
theorem feedAll_induction {P : Machine ρ → Prop} (hstep : ∀ m, P m → P m.step.machine)
    (htick : ∀ m, P m → P m.tick) (hhold : ∀ m keys, P m → P (m.hold keys)) {m : Machine ρ}
    (hm : P m) (inputs : List Input) : P (m.feedAll inputs) := by
  induction inputs generalizing m with
  | nil => exact hm
  | cons input rest ih => exact ih (feed_induction hstep htick hhold hm input)

/-- What resets, changes of memory, steps, ticks and changes of keys preserve holds after any
    calls. -/
theorem callAll_induction {P : Machine ρ → Prop} (hreset : ∀ m, P m → P m.reset)
    (hload : ∀ m memory, P m → P { m with memory }) (hstep : ∀ m, P m → P m.step.machine)
    (htick : ∀ m, P m → P m.tick) (hhold : ∀ m keys, P m → P (m.hold keys)) {m : Machine ρ}
    (hm : P m) (calls : List Call) : P (m.callAll calls) := by
  -- Induction on the calls; a drive is one of the inputs of `feed_induction`.
  induction calls generalizing m with
  | nil => exact hm
  | cons call rest ih =>
    apply ih
    cases call with
    | reset => exact hreset m hm
    | load program =>
      obtain ⟨memory, hmemory⟩ := m.exists_call_load_eq program
      show P (m.call (.load program)).machine
      rw [hmemory]
      exact hload m memory hm
    | drive input => exact feed_induction hstep htick hhold hm input

end Machine

end Chip8
