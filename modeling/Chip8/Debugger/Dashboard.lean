import Chip8.Debugger.Session
import Chip8.Disassembly
import Chip8.Panel.HexDump
import Chip8.Panel.Picture
import Chip8.Panel.Registers
import Chip8.Panel.Statistics
import Chip8.Text.Control

/-!
# Dashboard

The panels of a debugger session: their texts, titles and sizes. How they are drawn on a terminal
is left to the terminal.
-/

namespace Chip8.Debugger

/-- Why a panel has no text. -/
inductive PanelError
  | memory (error : MemoryError)
  | registers (error : RegisterError)
  | statistics (error : NumberError)
deriving DecidableEq, Repr

/-- The wording of the failure. -/
def PanelError.message : PanelError → String
  | .memory error => error.message
  | .registers error => error.message
  | .statistics error => error.message

/-- How a listed line stands out. -/
inductive LineStyle
  | current
  | breakpoint
deriving DecidableEq, Repr

/-- The style of a listed line on a terminal. -/
def LineStyle.name : LineStyle → String
  | current => "bold green"
  | breakpoint => "bold red"

/-- A line of the listing panel. -/
structure ListedLine where
  text : String
  -- How the line stands out.
  style : Option LineStyle
deriving DecidableEq, Repr

/-- A text with a title. -/
structure Panel where
  title : String
  text : String
deriving DecidableEq, Repr

/-- The panels of a session. -/
structure Dashboard where
  -- The screen in half blocks.
  screen : Panel
  registers : Panel
  -- The instructions around the current one.
  listing : List ListedLine
  memory : Panel
  statistics : Panel
  status : Panel
  -- The height of the upper part.
  topHeight : Nat
  statisticsHeight : Nat
  statusHeight : Nat
  screenHeight : Nat
deriving DecidableEq, Repr

namespace Dashboard

variable {ρ : Type}

/-- How many instructions are listed. -/
def listingLength : Nat := 21

/-- How many rows of memory are shown. -/
def memoryRows : Nat := 8

/-- A line of the listing, marked where it is current or a breakpoint. -/
def listedLine (breakpoints : List Address) (line : Line) : ListedLine :=
  let marked := breakpoints.any fun a => (a.val : Int) = line.address
  { text := (if line.current then ">" else " ") ++ (if marked then "*" else " ") ++ " " ++
      line.columns
    style :=
      if line.current then some .current
      else if marked then some .breakpoint
      else none }

/-- The text of the listing panel. -/
def listingText (lines : List ListedLine) : String :=
  String.join (lines.map fun line => line.text ++ "\n")

/-- The listing as a panel, without its styles. -/
def listingPanel (d : Dashboard) : Panel :=
  { title := "Disassembly", text := listingText d.listing }

/-- Where the lines that stand out begin and end, counted in characters with line ends. -/
def spansFrom (start : Nat) : List ListedLine → List (Nat × Nat × LineStyle)
  | [] => []
  | line :: rest =>
    let stop := start + line.text.length + 1
    match line.style with
    | some style => (start, stop, style) :: spansFrom stop rest
    | none => spansFrom stop rest

/-- Whether the machine runs, waits or has halted. -/
def stateText (m : Machine ρ) : String :=
  if m.halted then "HALTED" else if m.awaitingKey then "AWAITING KEY" else "RUNNING"

/-- The breakpoints in rising order. -/
def breakpointText (breakpoints : List Address) : String :=
  Text.orElse (String.intercalate ", " (breakpoints.map Address.text)) "none"

/-- The state of the session and the last notice. The notice may quote what the user typed; the
control codes in it are not shown. -/
def statusText (s : Session ρ) : String :=
  Text.withoutControlCodes <|
  "PC: " ++ Address.text s.machine.pc ++
  "  |  " ++ s!"Cycles: {s.machine.cycles}" ++
  "  |  State: " ++ stateText s.machine ++
  "  |  Sound: " ++ (if s.machine.timers.sounding then "on" else "off") ++
  "  |  Breakpoints: " ++ breakpointText s.breakpoints ++ "\n" ++ s.notice.message

/-- The number of lines of a text. -/
def lineCount (text : String) : Nat :=
  text.toList.count '\n' + 1

/-- The address from which memory is shown. -/
def viewAddress (s : Session ρ) : Address :=
  s.view.getD s.machine.index

/-- The panels of a session. -/
def ofSession (s : Session ρ) : Except PanelError Dashboard := do
  let m := s.machine
  let registers ← (m.registers.panel (some s.previous.snapshot)).mapError .registers
  let lines ← (Listing.window m.memory m.pc.val listingLength).mapError .memory
  let memory ← (HexDump.text m.memory (viewAddress s).val memoryRows).mapError .memory
  let statistics ← (Statistics.text (.ofTally m.statistics)).mapError .statistics
  return {
    screen := { title := "Display", text := Picture.halfBlocks m.screen.toLists }
    registers := { title := "Registers", text := registers ++ "\n\n" ++ m.summary }
    listing := lines.map (listedLine s.breakpoints)
    memory := { title := "Memory @ " ++ Address.text (viewAddress s), text := memory }
    statistics := { title := "Instruction Statistics", text := statistics }
    status := { title := "Status", text := statusText s }
    topHeight := 28
    statisticsHeight := 8
    statusHeight := 3 + lineCount s.notice.message
    screenHeight := 18 }

end Dashboard

end Chip8.Debugger
