import Chip8.Fault
import Chip8.Number.Quantity
import Chip8.Timers
import Chip8.Word

/-!
# Notices

What a debugger session tells its user: the outcome of the last command, or why it was refused.

A notice is worded as soon as it is told. Its counts stay small, but the speed of a timed run is any
integer, and one with more digits than a numeral may have is not written. A `Notice.Writer` says
which notices can be worded.
-/

namespace Chip8.Debugger

-- Powers are those of natural numbers here, and not those of a monoid.
attribute [local instance (1100)] instPowNat

/-- Why a command line is not a command. -/
inductive Refusal
  | missingSpeed
  | badSpeed (text : String)
  | lowSpeed
  | badLimit (text : String)
  | lowLimit
  | badTickCount (text : String)
  | missingKey
  | badKey (text : String)
  | missingBreakpoint
  | missingView
  | badAddress (text : String)
  | unknownVerb (verb : String)
deriving DecidableEq, Repr

/-- What a session tells its user. -/
inductive Notice
  | ready
  -- The machine cannot run any more.
  | alreadyHalted (fault : Fault)
  -- A single step met a fault.
  | fatal (fault : Fault)
  | stepped (pc : Address) (cycles : Nat) (waiting : Bool)
  -- A fault ended a run of so many completed steps.
  | fatalAfter (steps : Nat) (fault : Fault)
  | breakpointHit (pc : Address) (steps : Nat)
  | waitingForKey (pc : Address) (steps : Nat)
  | limitReached (limit : Int)
  | ticked (count : Int) (timers : Timers)
  -- A timed run goes on.
  | running (hz : Int) (steps : Nat) (pc : Address)
  | timedFatal (steps : Nat) (fault : Fault)
  | timedBreakpoint (pc : Address) (steps : Nat) (hz : Int)
  | timedLimit (steps : Nat)
  | paused (steps : Nat) (hz : Int)
  | keyToggled (key : Nibble) (down : Bool)
  | breakpointToggled (address : Address) (present : Bool)
  -- The memory view follows the index.
  | viewFollows
  -- The memory view stays at an address.
  | viewSet (address : Address)
  | help
  | refused (refusal : Refusal)
deriving DecidableEq, Repr

/-- The list of commands. -/
def helpText : String :=
  String.intercalate "\n" [
    "s, step                  - step one instruction",
    "c, continue              - run until breakpoint/fault/key wait",
    "r, run <hz> [max_steps]  - run at fixed speed (Ctrl+C to pause)",
    "t, tick [n]              - deliver n timer ticks (default 1)",
    "k, key <hex>             - toggle a held key (0-F)",
    "b <addr>                 - toggle breakpoint (hex address)",
    "g <addr|i>               - set memory view address (hex), or follow I",
    "h, help                  - show this help",
    "q, quit                  - exit debugger"]

/-- The wording of a refusal. -/
def Refusal.message : Refusal → String
  | missingSpeed => "Usage: run <hz> [max_steps]"
  | badSpeed text => s!"Invalid hz: {text}"
  | lowSpeed => "Hz must be >= 1."
  | badLimit text => s!"Invalid max_steps: {text}"
  | lowLimit => "max_steps must be >= 1."
  | badTickCount text => s!"Invalid tick count: {text}"
  | missingKey => "Usage: k <hex_key>"
  | badKey text => s!"Invalid key: {text}"
  | missingBreakpoint => "Usage: b <hex_address>"
  | missingView => "Usage: g <hex_address|i>"
  | badAddress text => s!"Invalid address: {text}"
  | unknownVerb verb => s!"Unknown command: {verb}\n\n{helpText}"

namespace Notice

/-- The wording of a notice. -/
def message : Notice → String
  | ready => "Ready. Type 's' to step, 'c' to continue, 'q' to quit."
  | alreadyHalted fault => "VM is halted: " ++ fault.message
  | fatal fault => "Fatal: " ++ fault.message
  | stepped pc cycles waiting =>
    "Stepped to " ++ Address.text pc ++ s!" (cycle {cycles})" ++
      (if waiting then " (waiting for key)" else "")
  | fatalAfter steps fault => s!"Fatal after {steps} cycles: " ++ fault.message
  | breakpointHit pc steps =>
    "Breakpoint hit at " ++ Address.text pc ++ s!" (ran {steps} cycles)"
  | waitingForKey pc steps =>
    "Waiting for key at " ++ Address.text pc ++
      s!" (ran {steps} cycles). Use 'k <hex>' to press one."
  | limitReached limit => s!"Stopped after {limit} cycles (limit reached)."
  | ticked count timers => s!"Ticked {count}x: DT={timers.delay} ST={timers.sound}"
  | running hz steps pc =>
    s!"Running at {hz} Hz: step {steps}, PC " ++ Address.text pc ++ " (Ctrl+C to stop)"
  | timedFatal steps fault => s!"Fatal after {steps} steps: " ++ fault.message
  | timedBreakpoint pc steps hz =>
    "Breakpoint hit at " ++ Address.text pc ++ s!" (ran {steps} steps at {hz} Hz)"
  | timedLimit steps => s!"Stopped after {steps} steps (limit reached)."
  | paused steps hz => s!"Paused after {steps} steps at {hz} Hz."
  | keyToggled key down =>
    "Key " ++ Text.hex 1 key.val ++ (if down then " down" else " up")
  | breakpointToggled address present =>
    (if present then "Breakpoint set at " else "Breakpoint removed at ") ++ Address.text address
  | viewFollows => "Memory view follows I"
  | viewSet address => "Memory view set to " ++ Address.text address
  | help => helpText
  | refused refusal => refusal.message

/-- The numbers that a notice writes in base ten. -/
def numbers : Notice → List Int
  | stepped _ cycles _ => [cycles]
  | fatalAfter steps _ | breakpointHit _ steps | waitingForKey _ steps => [steps]
  | timedFatal steps _ | timedLimit steps => [steps]
  | limitReached limit => [limit]
  | ticked count timers => [count, timers.delay, timers.sound]
  | running hz steps _ | timedBreakpoint _ steps hz | paused steps hz => [steps, hz]
  | _ => []

/-- A way to word notices. -/
abbrev Writer := Notice → Except NumberError String

/-- Words every notice. -/
def Writer.plain : Writer := fun notice => .ok notice.message

/-- Words a notice as long as its numbers have no more digits than a numeral may have. -/
def Writer.limited : Writer := fun notice =>
  if notice.numbers.all fun n => n.natAbs < 10 ^ Text.decimalLimit then .ok notice.message
  else .error .tooManyDigits

end Notice

end Chip8.Debugger
