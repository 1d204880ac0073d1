import Chip8.CommandLine.Invocation
import Chip8.Debugger.Console
import Chip8.Random.Twister
import Chip8.Rom.Reader

/-!
# The program

What the program prints for a command line, given the files it may read and the lines that its
user types, and how it ends.
-/

namespace Chip8.CommandLine

/-- A failure that the program does not handle. -/
inductive Failure
  | file (error : Rom.FileError)
  | source (error : SourceError)
  -- A notice of the debugger could not be worded.
  | number (error : NumberError)
  -- The number of frames or of steps was named without a value.
  | noCount
  | noSeed
  -- The level of the reports was named without a value.
  | noLevel
deriving DecidableEq, Repr

/-- The wording of a failure. -/
def Failure.message : Failure → String
  | file error => error.message
  | source error => error.message
  | number error => error.message
  | noCount => "'list' object cannot be interpreted as an integer"
  | noSeed =>
    "The only supported seed types are: None,\nint, float, str, bytes, and bytearray."
  | noLevel => "attribute name must be string, not 'list'"

/-- A failure of the debugger, which the program does not handle either. -/
def Failure.ofDebugger : Debugger.Failure → Failure
  | .source error => .source error
  | .number error => .number error

/-- How the program ends. -/
inductive Ending
  | exit (code : Nat)
  -- With a failure that it does not handle.
  | unhandled (failure : Failure)
deriving DecidableEq, Repr

/-- What the program prints, and how it ends. -/
structure Transcript where
  output : List String := []
  errors : List String := []
  console : List Debugger.ConsoleEvent := []
  ending : Ending := .exit 0

/-- The words under which the program reports an error that ends it. -/
def errorLine (message : String) : String :=
  "Error: " ++ message

/-- Ends with a ROM that cannot be had. -/
def Transcript.ofRomError : Rom.RomError → Transcript
  | .file .nullCharacter => { ending := .unhandled (.file .nullCharacter) }
  | error => { errors := [errorLine error.message], ending := .exit 1 }

/-- What surrounds the commands: the files, the lines that the user types, the source of random
bytes for each seed, and the patience with runs without an end. -/
structure Surroundings where
  files : Rom.Files
  -- The lines that the user types; a missing one is an interruption.
  input : List (Option String) := []
  random : Option Int → Twister
  -- How many frames a run without an end gets.
  horizon : Nat := 1000000000

/-- The screen of a machine, one line for each row. -/
def screenLine {ρ : Type} (m : Machine ρ) : String :=
  Picture.characters m.screen.toLists

/-- The report of a run that was begun: its screen, and how far it came. -/
def runTranscript {ρ : Type} (frames : Int) (before : List String) (level : Level)
    (run : Run ρ) : Transcript :=
  let m := run.machine
  let errors := before ++ Note.lines level run.notes
  match run.obstacle with
  | some (.fault fault) =>
    { output := [screenLine m]
      errors := errors ++
        [s!"Halted after {m.cycles} cycles at " ++ Address.text m.pc ++ ".",
          errorLine fault.message]
      ending := .exit 1 }
  | some (.source error) => { errors, ending := .unhandled (.source error) }
  | none =>
    let state := if m.awaitingKey then "awaiting key" else "running"
    { output := [screenLine m]
      errors := errors ++
        [s!"Ran {m.cycles} cycles over {frames} frames ({state}).",
          "  PC = " ++ Address.text m.pc ++ "  I = " ++ Address.text m.index] }

/-- How many frames a run has if nothing else is said. -/
def defaultFrames : Int := 60

/-- How many steps a frame has if nothing else is said. -/
def defaultSteps : Int := 10

/-- Runs a ROM for some frames with some keys held. That a count is missing shows only when the run
would begin. -/
def runRom (w : Surroundings) (level : Level) (rom : String) (frames steps : Option Int)
    (seed : Option Int) (keys : List Nibble) : Transcript :=
  match Rom.load w.files rom (.fresh (w.random seed)) with
  | .error e => .ofRomError e
  | .ok (m, size, notes) =>
    let before := Note.lines level notes ++ [s!"Loaded {size} bytes from {rom} at 0x200"]
    match frames, steps with
    | some frames, some steps =>
      runTranscript frames before level
        (Run.frames steps frames.toNat (.start (m.hold (.holding keys))))
    | _, _ => { errors := before, ending := .unhandled .noCount }

/-- Debugs a ROM at a console. -/
def debugRom (w : Surroundings) (level : Level) (rom : String) (seed : Option Int) :
    Transcript :=
  match Rom.load w.files rom (.fresh (w.random seed)) with
  | .error e => .ofRomError e
  | .ok (m, _, notes) =>
    let c := Debugger.Conversation.about m w.horizon w.input
    { errors := Note.lines level (notes ++ c.notes)
      console := c.events.toList
      ending := match c.failure with
        | some failure => .unhandled (.ofDebugger failure)
        | none => .exit 0 }

/-- Lists a ROM. -/
def disasmRom (w : Surroundings) (level : Level) (rom : String) : Transcript :=
  match Rom.read w.files rom with
  | .error e => .ofRomError e
  | .ok (bytes, notes) =>
    { output := (Listing.ofProgram programStart bytes).map fun line => "0x" ++ line.columns
      errors := Note.lines level notes }

/-- Carries out a command. -/
def perform (w : Surroundings) (level : Level) : Command → Transcript
  | .run rom frames steps seed keys =>
    match seed.orOpen with
    | some seed =>
      runRom w level rom (frames.orDefault defaultFrames) (steps.orDefault defaultSteps) seed keys
    | none => { ending := .unhandled .noSeed }
  | .debug rom seed =>
    match seed.orOpen with
    | some seed => debugRom w level rom seed
    | none => { ending := .unhandled .noSeed }
  | .disasm rom => disasmRom w level rom

/-- What the program does for a command line. -/
def transcript (w : Surroundings) (words : List String) : Transcript :=
  match Invocation.ofWords words with
  | .error refusal => { errors := [refusal.message], ending := .exit 2 }
  | .ok (.help page) => { output := page.lines }
  | .ok (.perform none _) => { ending := .unhandled .noLevel }
  | .ok (.perform _ none) => { output := HelpPage.program.lines, ending := .exit 1 }
  | .ok (.perform (some level) (some command)) => perform w level command

end Chip8.CommandLine
