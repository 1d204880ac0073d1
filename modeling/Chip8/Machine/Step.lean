import Chip8.Machine.Execute

/-!
# Steps and frames

A step fetches, executes and counts one instruction. A fault stops the machine: it stays at the
instruction at fault, and every later step meets the same fault again. A step that found no random
byte changes nothing, and a later one may find some. A frame is a number of steps and one tick of
the timers.
-/

namespace Chip8

/-- What a completed step did. -/
inductive Outcome
  | executed
  -- It skipped a word without a meaning.
  | unknownOpcode
  -- It left the machine waiting for a key.
  | awaitingKey
deriving DecidableEq, Repr

/-- The name of an outcome. -/
def Outcome.name : Outcome → String
  | executed => "executed"
  | unknownOpcode => "unknown_opcode"
  | awaitingKey => "awaiting_key"

/-- A step: its outcome or the obstacle it met, the machine after it, and what it reported. -/
structure Step (ρ : Type) where
  result : Except Obstacle Outcome
  machine : Machine ρ
  note : Option Note := none

namespace Machine

variable {ρ : Type} [ByteSource ρ]

/-- Counts a completed instruction and moves on. -/
def complete (i : Instruction) (e : Effect ρ) : Machine ρ :=
  { e.machine with
    pc := Address.ofInt e.next
    cycles := e.machine.cycles + 1
    statistics := e.machine.statistics.count i.mnemonic }

/-- What a completed instruction counts as. -/
def outcome (i : Instruction) (m : Machine ρ) : Outcome :=
  match i with
  | .undefined _ => .unknownOpcode
  | _ => if m.awaitingKey then .awaitingKey else .executed

/-- Fetches, executes and counts one instruction. -/
def step (m : Machine ρ) : Step ρ :=
  match m.fault with
  | some fault => { result := .error (.fault fault), machine := m }
  | none =>
    let i := m.current
    match m.execute i with
    | .error (.fault fault) =>
      { result := .error (.fault fault)
        machine := { m with fault := some fault }
        note := some (.halting fault) }
    | .error (.source error) => { result := .error (.source error), machine := m }
    | .ok effect =>
      let after := complete i effect
      { result := .ok (outcome i after), machine := after, note := effect.note }

end Machine

/-- A machine in motion: the machine so far, the obstacle that ended the motion, and the reports in
the order in which they came. -/
structure Run (ρ : Type) where
  machine : Machine ρ
  obstacle : Option Obstacle := none
  notes : Array Note := #[]

namespace Run

variable {ρ : Type}

/-- A run that has not begun. -/
def start (m : Machine ρ) : Run ρ :=
  { machine := m }

/-- Changes the machine of a run. -/
def map (f : Machine ρ → Machine ρ) (r : Run ρ) : Run ρ :=
  { r with machine := f r.machine }

variable [ByteSource ρ]

/-- Adds a step to the run. -/
def add (notes : Array Note) (s : Step ρ) : Run ρ :=
  { machine := s.machine
    obstacle := match s.result with
      | .error obstacle => some obstacle
      | .ok _ => none
    notes := match s.note with
      | some note => notes.push note
      | none => notes }

/-- Steps `count` times or until an obstacle. -/
def steps : (count : Nat) → Run ρ → Run ρ
  | 0, r => r
  | count + 1, r =>
    match r.obstacle with
    | some _ => r
    | none => steps count (add r.notes r.machine.step)

/-- Steps `count` times or until an obstacle, and keeps what `view` shows of each completed step. -/
def trace {α : Type} (view : Outcome → Machine ρ → α) :
    (count : Nat) → Array α → Run ρ → Array α × Run ρ
  | 0, seen, r => (seen, r)
  | count + 1, seen, r =>
    match r.obstacle with
    | some _ => (seen, r)
    | none =>
      let s := r.machine.step
      match s.result with
      | .error _ => (seen, add r.notes s)
      | .ok outcome => trace view count (seen.push (view outcome s.machine)) (add r.notes s)

/-- A frame: some steps and a tick, which is left out after an obstacle. -/
def frame (count : Int) (r : Run ρ) : Run ρ :=
  let r := steps count.toNat r
  match r.obstacle with
  | some _ => r
  | none => r.map Machine.tick

/-- Several frames, up to an obstacle. -/
def frames (steps : Int) : (count : Nat) → Run ρ → Run ρ
  | 0, r => r
  | count + 1, r =>
    match r.obstacle with
    | some _ => r
    | none => frames steps count (frame steps r)

end Run

end Chip8
