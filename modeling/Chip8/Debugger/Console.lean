import Chip8.Debugger.Dashboard
import Chip8.Debugger.TimedRun

/-!
# Debugger console

A session at a console: the dashboard is drawn, a line is asked for and carried out, until the
user quits, interrupts the prompt, the input ends, or a command is broken off.
-/

namespace Chip8.Debugger

/-- What a console is told to do. -/
inductive ConsoleEvent
  | clear
  | draw (panels : Except PanelError Dashboard)
  | prompt (text : String)
  | print (text : String)

/-- What a session at a console did. -/
structure Conversation where
  events : Array ConsoleEvent := #[]
  notes : Array Note := #[]
  -- What broke the last command off.
  failure : Option Failure := none

namespace Conversation

/-- Tells the console something. -/
def tell (c : Conversation) (event : ConsoleEvent) : Conversation :=
  { c with events := c.events.push event }

/-- Draws panels on a clear screen. -/
def draw (c : Conversation) (panels : Except PanelError Dashboard) : Conversation :=
  (c.tell .clear).tell (.draw panels)

/-- Draws a session. -/
def drawSession {ρ : Type} (c : Conversation) (s : Session ρ) : Conversation :=
  c.draw (Dashboard.ofSession s)

/-- The prompt. -/
def promptText : String := "dbg> "

/-- What is printed when the user quits. -/
def farewell : String := "Exiting debugger."

variable {ρ : Type} [ByteSource ρ]

/-- What follows a prompt: a line is carried out and its session drawn, unless it quits or is broken
off. Gives the session to go on with, if the conversation goes on. -/
def afterPrompt (horizon : Nat) (c : Conversation) (s : Session ρ) :
    Option String → Option (Session ρ) × Conversation
  | none => (none, c.tell (.print ("\n" ++ farewell)))
  | some line =>
    let r := s.performLine (some { picture := Dashboard.ofSession }) horizon line
    let c := { r.shown.foldl draw c with notes := c.notes ++ r.notes, failure := r.failure }
    if c.failure.isSome then (none, c)
    else if r.goesOn then (some r.session, c.drawSession r.session)
    else (none, c.tell (.print farewell))

/-- Goes on with the lines of the input, the end of which is an interruption. -/
def continueWith (horizon : Nat) (c : Conversation) (s : Session ρ) :
    List (Option String) → Conversation
  | [] => ((c.tell (.prompt promptText)).afterPrompt horizon s none).2
  | line :: rest =>
    match (c.tell (.prompt promptText)).afterPrompt horizon s line with
    | (some s, c) => continueWith horizon c s rest
    | (none, c) => c

/-- The session about a machine with which a conversation begins. -/
def opening (m : Machine ρ) : Session ρ :=
  { machine := m, previous := m.registers }

/-- A whole conversation about a machine. A missing line of the input is an interruption. -/
def about (m : Machine ρ) (horizon : Nat) (input : List (Option String)) : Conversation :=
  continueWith horizon (({} : Conversation).drawSession (opening m)) (opening m) input

end Conversation

end Chip8.Debugger
