import Chip8.Debugger.Session

/-!
# Timed runs

A run at a fixed speed goes frame by frame, sixty frames a second. Every frame earns `hz`
sixtieths of a step; as many whole steps as have been earned are taken, and the rest is carried
over. A frame ends with a tick and is then shown. The run ends at a fault, at a breakpoint, at its
limit, or when the viewer interrupts it; and it is broken off where it has to tell a speed that
cannot be written.

Without a limit and without an interruption a run may go on for ever; `horizon` is the number of
frames that it gets in that case. A run that is still under way behind them is `unfinished`.
-/

namespace Chip8.Debugger

/-- Who watches a timed run. -/
structure Viewer (ρ α : Type) where
  -- What is kept of a session that is shown.
  picture : Session ρ → α
  -- From which showing on the viewer interrupts the run.
  patience : Option Nat := none

/-- A timed run under way. -/
structure Watch (ρ α : Type) where
  session : Session ρ
  -- How many steps were completed.
  steps : Nat := 0
  shown : Array α := #[]
  notes : Array Note := #[]
  -- What broke the run off.
  failure : Option Failure := none
  -- Whether the run had all its frames before it came to an end.
  unfinished : Bool := false

/-- What cuts a frame short. -/
inductive Stop
  | obstacle (obstacle : Obstacle)
  -- A step led to a breakpoint.
  | breakpoint
deriving DecidableEq, Repr

/-- Whether a limit on the steps is reached. -/
def limitMet (limit : Option Int) (steps : Nat) : Bool :=
  match limit with
  | none => false
  | some limit => limit ≤ steps

namespace Watch

variable {ρ α : Type}

/-- Tells the user something; a notice that cannot be worded breaks the run off. -/
def tell (write : Notice.Writer) (notice : Notice) (w : Watch ρ α) : Watch ρ α :=
  match write notice with
  | .error error => { w with failure := some (.number error) }
  | .ok _ => { w with session := w.session.tell notice }

/-- Shows the session to the viewer and says whether the viewer interrupts. -/
def show? (viewer : Option (Viewer ρ α)) (w : Watch ρ α) : Bool × Watch ρ α :=
  match viewer with
  | none => (false, w)
  | some viewer =>
    let w := { w with shown := w.shown.push (viewer.picture w.session) }
    match viewer.patience with
    | none => (false, w)
    | some patience => (patience ≤ w.shown.size, w)

/-- Tells the user something and shows the session, and says whether that ends the run: a notice
that cannot be worded does, and an interruption, which has the last word. -/
def announce (write : Notice.Writer) (viewer : Option (Viewer ρ α)) (hz : Int) (notice : Notice)
    (w : Watch ρ α) : Bool × Watch ρ α :=
  match write notice with
  | .error error => (true, { w with failure := some (.number error) })
  | .ok _ =>
    match ({ w with session := w.session.tell notice }).show? viewer with
    | (true, w) => (true, w.tell write (.paused w.steps hz))
    | (false, w) => (false, w)

/-- What becomes of the command. -/
def reply (w : Watch ρ α) : Reply ρ α :=
  { session := w.session
    failure := w.failure
    unfinished := w.unfinished
    shown := w.shown
    notes := w.notes }

variable [ByteSource ρ]

/-- Takes up to `left` steps of a frame. -/
def burst (limit : Option Int) : (left : Nat) → Watch ρ α → Option Stop × Watch ρ α
  | 0, w => (none, w)
  | left + 1, w =>
    if limitMet limit w.steps then (none, w)
    else
      match w.session.stepWithKeys with
      | (session, some obstacle, note) =>
        (some (.obstacle obstacle), { w with session, notes := addNote w.notes note })
      | (session, none, note) =>
        let w := { w with session, steps := w.steps + 1, notes := addNote w.notes note }
        if session.atBreakpoint then (some .breakpoint, w) else burst limit left w

/-- Goes through one frame; `budget` counts the earned sixtieths of a step. Gives the budget that is
left if the run goes on, and the run behind the frame. -/
def frame (write : Notice.Writer) (viewer : Option (Viewer ρ α)) (hz : Int) (limit : Option Int)
    (budget : Int) (w : Watch ρ α) : Option Int × Watch ρ α :=
  let earned := budget + hz
  match burst limit (earned / 60).toNat { w with session := w.session.remember } with
  | (some (.obstacle (.fault fault)), after) =>
    (none, (after.announce write viewer hz (.timedFatal after.steps fault)).2)
  | (some (.obstacle (.source error)), after) =>
    (none, { after with failure := some (.source error) })
  | (some .breakpoint, after) =>
    let notice := .timedBreakpoint after.session.machine.pc after.steps hz
    (none, (after.announce write viewer hz notice).2)
  | (none, after) =>
    -- Where the limit cut the frame short, what it earned stays in the budget.
    let left := earned - 60 * ((after.steps : Int) - w.steps)
    let session := { after.session with machine := after.session.machine.tick }
    let notice := .running hz after.steps session.machine.pc
    match ({ after with session }).announce write viewer hz notice with
    | (true, after) => (none, after)
    | (false, after) =>
      if limitMet limit after.steps then
        (none, (after.announce write viewer hz (.timedLimit after.steps)).2)
      else (some left, after)

/-- Runs up to `frames` frames, until one of them ends the run. -/
def runFrames (write : Notice.Writer) (viewer : Option (Viewer ρ α)) (hz : Int)
    (limit : Option Int) : (frames : Nat) → (budget : Int) → Watch ρ α → Watch ρ α
  | 0, _, w => { w with unfinished := true }
  | frames + 1, budget, w =>
    match w.frame write viewer hz limit budget with
    | (none, after) => after
    | (some left, after) => runFrames write viewer hz limit frames left after

/-- How many frames a run can last: every frame is shown, so the viewer's patience bounds them;
and every frame earns its part of a limit. -/
def frameBound (viewer : Option (Viewer ρ α)) (hz : Int) (limit : Option Int) (horizon : Nat) :
    Nat :=
  match viewer.bind (·.patience), limit with
  | some patience, _ => patience + 1
  | none, some limit => if 0 < hz then (60 * limit / hz).toNat + 1 else horizon
  | none, none => horizon

end Watch

namespace Session

variable {ρ α : Type} [ByteSource ρ]

/-- Runs at a speed of `hz` steps per second. -/
def runAtSpeed (s : Session ρ) (hz : Int) (limit : Option Int) (viewer : Option (Viewer ρ α))
    (horizon : Nat) (write : Notice.Writer := .plain) : Reply ρ α :=
  match s.machine.fault with
  | some fault => { session := s.tell (.alreadyHalted fault) }
  | none =>
    let frames := Watch.frameBound viewer hz limit horizon
    (Watch.runFrames write viewer hz limit frames 0 { session := s }).reply

/-- Holds or releases a key. -/
def toggleKey (s : Session ρ) (key : Nibble) : Session ρ :=
  let held := s.held.toggle key
  { s with held, notice := .keyToggled key (held.get key) }

/-- Sets or removes a breakpoint. -/
def toggleBreakpoint (s : Session ρ) (address : Address) : Session ρ :=
  let breakpoints := toggleAddress address s.breakpoints
  { s with breakpoints, notice := .breakpointToggled address (breakpoints.contains address) }

/-- Shows memory at an address, or at the index. -/
def setView (s : Session ρ) (view : Option Address) : Session ρ :=
  { s with
    view
    notice := match view with
      | none => .viewFollows
      | some address => .viewSet address }

/-- Carries out a command. -/
def perform (s : Session ρ) (viewer : Option (Viewer ρ α)) (horizon : Nat) :
    Command → Reply ρ α
  | .step => s.step
  | .resume => s.resume
  | .run hz limit => s.runAtSpeed hz limit viewer horizon
  | .tick count => s.tick count
  | .key key => { session := s.toggleKey key }
  | .breakpoint address => { session := s.toggleBreakpoint address }
  | .view address => { session := s.setView address }
  | .help => { session := s.tell .help }
  | .quit => { session := s, goesOn := false }

/-- Carries out a command line; a line that is no command only tells why. -/
def performLine (s : Session ρ) (viewer : Option (Viewer ρ α)) (horizon : Nat) (line : String) :
    Reply ρ α :=
  match Command.ofLine line with
  | .ok command => s.perform viewer horizon command
  | .error refusal => { session := s.tell (.refused refusal) }

end Session

end Chip8.Debugger
