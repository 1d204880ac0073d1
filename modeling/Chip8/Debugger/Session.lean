import Chip8.Debugger.Command
import Chip8.Machine.Step

/-!
# Debugger sessions

A session drives a machine step by step or in runs. It holds keys for the machine, which learns
of them before each step; it stops runs at breakpoints; and it delivers a timer tick after every
so many steps. Each command gives the session afterwards and what was reported on the way.

A command is broken off when the machine finds no random byte, or when a notice cannot be worded.
The session then stays as it is at that moment, and its user is told nothing new. A timed run that
nothing brings to its end is not finished in any number of frames: its reply says where it stands
after the frames it was given, and it is no answer.
-/

namespace Chip8.Debugger

/-- The state of a session. -/
structure Session (ρ : Type) where
  machine : Machine ρ
  -- The addresses at which runs stop, in rising order.
  breakpoints : List Address := []
  -- The registers before the last command that ran the machine.
  previous : Registers := .zero
  -- The address from which memory is shown; without one the view follows the index.
  view : Option Address := none
  held : KeyStates := .none
  -- How many steps make a frame.
  stepsPerFrame : Int := 10
  -- How many steps of the current frame are done.
  frameSteps : Int := 0
  notice : Notice := .ready

/-- What breaks a command off. -/
inductive Failure
  -- The source had no byte for the machine.
  | source (error : SourceError)
  -- A notice could not be worded.
  | number (error : NumberError)
deriving DecidableEq, Repr

/-- The wording of the failure. -/
def Failure.message : Failure → String
  | source error => error.message
  | number error => error.message

/-- What becomes of a command: the session afterwards, whether it goes on, what broke the command
off, whether it is still under way, what was shown during a timed run, and what was reported. -/
structure Reply (ρ α : Type) where
  session : Session ρ
  goesOn : Bool := true
  failure : Option Failure := none
  -- Whether a timed run had all its frames before it came to an end.
  unfinished : Bool := false
  shown : Array α := #[]
  notes : Array Note := #[]

/-- What a command answers: whether the session goes on. A command that was broken off gives no
answer, and neither does one that is still under way. -/
def Reply.answer? {ρ α : Type} (r : Reply ρ α) : Option Bool :=
  if r.failure.isSome || r.unfinished then none else some r.goesOn

/-- Adds a report, if there is one. -/
def addNote (notes : Array Note) : Option Note → Array Note
  | none => notes
  | some note => notes.push note

/-- Adds an address to a rising list, or removes it. -/
def toggleAddress (a : Address) : List Address → List Address
  | [] => [a]
  | b :: rest =>
    if a = b then rest
    else if a < b then a :: b :: rest
    else b :: toggleAddress a rest

namespace Session

variable {ρ α : Type}

/-- Tells the user something. -/
def tell (s : Session ρ) (notice : Notice) : Session ρ :=
  { s with notice }

/-- Keeps the registers to compare with later. -/
def remember (s : Session ρ) : Session ρ :=
  { s with previous := s.machine.registers }

/-- Whether the machine has come to a breakpoint. -/
def atBreakpoint (s : Session ρ) : Bool :=
  s.machine.pc ∈ s.breakpoints

/-- Whether the machine waits for a key and none is held. -/
def stuckOnKey (s : Session ρ) : Bool :=
  s.machine.awaitingKey && !s.held.any id

/-- Adds a completed step to the current frame; the last one of a frame brings a tick. -/
def countStep (s : Session ρ) : Session ρ :=
  if s.stepsPerFrame ≤ s.frameSteps + 1 then
    { s with machine := s.machine.tick, frameSteps := 0 }
  else
    { s with frameSteps := s.frameSteps + 1 }

variable [ByteSource ρ]

/-- A step of the machine with the held keys: the session after it, the obstacle it met, and what
it reported. -/
def stepWithKeys (s : Session ρ) : Session ρ × Option Obstacle × Option Note :=
  let step := (s.machine.hold s.held).step
  let obstacle := match step.result with
    | .error obstacle => some obstacle
    | .ok _ => none
  ({ s with machine := step.machine }, obstacle, step.note)

/-- A step that counts towards the current frame unless it meets an obstacle. -/
def advance (s : Session ρ) : Session ρ × Option Obstacle × Option Note :=
  match s.stepWithKeys with
  | (s, some obstacle, note) => (s, some obstacle, note)
  | (s, none, note) => (s.countStep, none, note)

/-- Executes one instruction. -/
def step (s : Session ρ) : Reply ρ α :=
  match s.machine.fault with
  | some fault => { session := s.tell (.alreadyHalted fault) }
  | none =>
    match s.remember.advance with
    | (s, some (.fault fault), note) =>
      { session := s.tell (.fatal fault), notes := addNote #[] note }
    | (s, some (.source error), note) =>
      { session := s, failure := some (.source error), notes := addNote #[] note }
    | (s, none, note) =>
      { session := s.tell (.stepped s.machine.pc s.machine.cycles s.machine.awaitingKey)
        notes := addNote #[] note }

/-- Advances until something stops the run or no steps are left; `done` counts the steps. -/
def resumeFrom (limit : Int) :
    (left done : Nat) → Session ρ → Array Note → Reply ρ α
  | 0, _, s, notes => { session := s.tell (.limitReached limit), notes }
  | left + 1, done, s, notes =>
    match s.advance with
    | (s, some (.fault fault), note) =>
      { session := s.tell (.fatalAfter done fault), notes := addNote notes note }
    | (s, some (.source error), note) =>
      { session := s, failure := some (.source error), notes := addNote notes note }
    | (s, none, note) =>
      let notes := addNote notes note
      if s.atBreakpoint then
        { session := s.tell (.breakpointHit s.machine.pc (done + 1)), notes }
      else if s.stuckOnKey then
        { session := s.tell (.waitingForKey s.machine.pc (done + 1)), notes }
      else resumeFrom limit left (done + 1) s notes

/-- How far a run goes if nothing else is said. -/
def defaultLimit : Int := 10000

/-- Runs until a fault, a breakpoint, a key wait or the limit. -/
def resume (s : Session ρ) (limit : Int := defaultLimit) : Reply ρ α :=
  match s.machine.fault with
  | some fault => { session := s.tell (.alreadyHalted fault) }
  | none => resumeFrom limit limit.toNat 0 s.remember #[]

/-- Delivers timer ticks. -/
def tick (s : Session ρ) (count : Int := 1) : Reply ρ α :=
  let machine := s.machine.ticks count
  { session := { s with machine }.tell (.ticked count machine.timers) }

end Session

end Chip8.Debugger
