import Chip8.CommandLine.Grammar
import Chip8.CommandLine.Help
import Chip8.Note

/-!
# Invocations

What a command line asks of the program: one of its commands with the settings, or nothing but
help. The words behind a command belong to the grammar of that command; what neither grammar takes
is refused at the end, by the program as a whole.
-/

namespace Chip8.CommandLine

/-- A command with its settings. -/
inductive Command
  | run (rom : String) (frames steps seed : Setting Int) (keys : List Nibble)
  | debug (rom : String) (seed : Setting Int)
  | disasm (rom : String)
deriving DecidableEq, Repr

/-- The path of the ROM that a command is about. -/
def Command.rom : Command → String
  | run rom .. => rom
  | debug rom _ => rom
  | disasm rom => rom

/-- What a command line asks for. -/
inductive Invocation
  | help (page : HelpPage)
  -- Carry out a command, if one was given, and report from a level on, unless the level was named
  -- without saying which.
  | perform (level : Option Level) (command : Option Command)
deriving DecidableEq, Repr

/-- A refusal and the program that refuses. -/
structure Refusal where
  program : String
  error : UsageError
deriving DecidableEq, Repr

/-- The wording of a refusal. -/
def Refusal.message (r : Refusal) : String :=
  r.program ++ ": error: " ++ r.error.message

/-- The seed of the random source. -/
def seedOption : Parameter :=
  { names := ["--seed"], label := "seed", arity := .one, kind := .whole }

/-- The path of the ROM. -/
def romArgument : Parameter :=
  { label := "rom", arity := .one }

/-- The grammar of the program as a whole. -/
def programGrammar : Grammar :=
  { program := "chip8-vm"
    options := [
      { names := ["--log-level"], label := "level", arity := .one,
        kind := .choice ["DEBUG", "INFO", "WARNING", "ERROR"] }]
    positional :=
      { label := "command", arity := .rest, kind := .choice ["run", "debug", "disasm"] }
    mayOmit := true }

/-- The grammar of a run. -/
def runGrammar : Grammar :=
  { program := "chip8-vm run"
    options := [
      { names := ["--frames"], label := "frames", arity := .one, kind := .positive },
      { names := ["--steps-per-frame"], label := "steps", arity := .one, kind := .positive },
      seedOption,
      { names := ["--keys"], label := "keys", arity := .many, kind := .key }]
    positional := romArgument }

/-- The grammar of debugging. -/
def debugGrammar : Grammar :=
  { program := "chip8-vm debug", options := [seedOption], positional := romArgument }

/-- The grammar of a listing. -/
def disasmGrammar : Grammar :=
  { program := "chip8-vm disasm", options := [], positional := romArgument }

/-- The grammar and the help page of a command. -/
def commandGrammar : String → Grammar × HelpPage
  | "run" => (runGrammar, .run)
  | "debug" => (debugGrammar, .debug)
  | _ => (disasmGrammar, .disasm)

/-- The command that was read. -/
def commandOf (name : String) (r : Grammar.Reading) : Command :=
  let rom := (r.text "rom").value?.getD ""
  match name with
  | "run" => .run rom (r.whole "frames") (r.whole "steps") (r.whole "seed") (r.keys "keys")
  | "debug" => .debug rom (r.whole "seed")
  | _ => .disasm rom

/-- Reads a command line with a grammar. -/
def Grammar.readAs (g : Grammar) (words : List String) : Except Refusal Grammar.Reading :=
  (g.read words).mapError fun error => { program := g.program, error }

/-- What is asked for once all words are read, unless some are left over. -/
def concluded (level : Option Level) (command : Option Command) (extras : List String) :
    Except Refusal Invocation :=
  if extras.isEmpty then .ok (.perform level command)
  else .error { program := programGrammar.program, error := .unrecognized extras }

/-- What a command line asks for. -/
def Invocation.ofWords (words : List String) : Except Refusal Invocation := do
  let outer ← programGrammar.readAs words
  if outer.help then return .help .program
  let level := ((outer.text "level").orDefault Level.warning.name).bind Level.ofName?
  match (outer.text "command").value? with
  | none => concluded level none outer.extras
  | some name =>
    let (grammar, page) := commandGrammar name
    let inner ← grammar.readAs outer.behind
    if inner.help then return .help page
    concluded level (some (commandOf name inner)) (outer.extras ++ inner.extras)

end Chip8.CommandLine
