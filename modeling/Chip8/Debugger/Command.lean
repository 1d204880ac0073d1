import Chip8.Debugger.Notice
import Chip8.Keypad
import Chip8.Text.Blank
import Chip8.Text.LowerCase
import Chip8.Text.Numeral

/-!
# Debugger commands

A command line is split into words. The first, in lower case, names the command; the others are
its arguments, and words beyond those that a command takes are ignored. An empty line asks for
help.
-/

namespace Chip8.Debugger

/-- What a user may ask of a session. -/
inductive Command
  | step
  -- Run until something stops the run.
  | resume
  -- Run at a speed in steps per second, with a limit on the steps.
  | run (hz : Int) (limit : Option Int)
  | tick (count : Int)
  | key (key : Nibble)
  | breakpoint (address : Address)
  -- Show memory at an address, or at the index.
  | view (address : Option Address)
  | help
  | quit
deriving DecidableEq, Repr

namespace Command

/-- The address of a hexadecimal numeral. -/
def address? (text : String) : Option Address :=
  (Text.integer? .sixteen text).map Address.ofInt

/-- A run with the words of its limit. -/
def runLimit (hz : Int) : List String → Except Refusal Command
  | [] => .ok (run hz none)
  | text :: _ =>
    match Text.integer? .ten text with
    | none => .error (.badLimit text)
    | some limit => if limit < 1 then .error .lowLimit else .ok (run hz (some limit))

/-- A run with its words. -/
def ofRunWords : List String → Except Refusal Command
  | [] => .error .missingSpeed
  | text :: rest =>
    match Text.integer? .ten text with
    | none => .error (.badSpeed text)
    | some hz => if hz < 1 then .error .lowSpeed else runLimit hz rest

/-- A tick command with its words. -/
def ofTickWords : List String → Except Refusal Command
  | [] => .ok (tick 1)
  | text :: _ =>
    match Text.integer? .ten text with
    | none => .error (.badTickCount text)
    | some count => .ok (tick count)

/-- A key command with its words. -/
def ofKeyWords : List String → Except Refusal Command
  | [] => .error .missingKey
  | text :: _ =>
    match keyOfNumeral? text with
    | none => .error (.badKey text)
    | some k => .ok (key k)

/-- A breakpoint command with its words. -/
def ofBreakpointWords : List String → Except Refusal Command
  | [] => .error .missingBreakpoint
  | text :: _ =>
    match address? text with
    | none => .error (.badAddress text)
    | some a => .ok (breakpoint a)

/-- A view command with its words. -/
def ofViewWords : List String → Except Refusal Command
  | [] => .error .missingView
  | text :: _ =>
    if Text.lower text = "i" then .ok (view none)
    else
      match address? text with
      | none => .error (.badAddress text)
      | some a => .ok (view (some a))

/-- The command of a verb and its arguments. -/
def ofVerb (verb : String) (arguments : List String) : Except Refusal Command :=
  if verb = "s" ∨ verb = "step" then .ok step
  else if verb = "c" ∨ verb = "continue" then .ok resume
  else if verb = "r" ∨ verb = "run" then ofRunWords arguments
  else if verb = "t" ∨ verb = "tick" then ofTickWords arguments
  else if verb = "k" ∨ verb = "key" then ofKeyWords arguments
  else if verb = "b" ∨ verb = "breakpoint" then ofBreakpointWords arguments
  else if verb = "g" ∨ verb = "goto" then ofViewWords arguments
  else if verb = "h" ∨ verb = "help" then .ok help
  else if verb = "q" ∨ verb = "quit" then .ok quit
  else .error (.unknownVerb verb)

/-- The command of a line. -/
def ofLine (line : String) : Except Refusal Command :=
  match Text.words line with
  | [] => .ok help
  | verb :: arguments => ofVerb (Text.lower verb) arguments

end Command

end Chip8.Debugger
