import Chip8.Benchmark.Workload
import Chip8.CommandLine.Grammar
import Chip8.Rom.Reader
import Chip8.Text.LowerCase

/-!
# The benchmark program

What the benchmark prints for a command line: the repeated operations, then the programs whose
name contains the given text, and a ROM if one is named.
-/

namespace Chip8.Benchmark

open CommandLine

/-- The grammar of the benchmark. -/
def grammar : Grammar :=
  { program := "bench"
    options := [
      { names := ["--rom"], label := "rom", arity := .one },
      { names := ["--cprofile"], label := "profile", arity := .none },
      { names := ["--micro-only"], label := "microOnly", arity := .none },
      { names := ["--no-micro"], label := "noMicro", arity := .none }]
    positional := { label := "workload", arity := .optional }
    mayOmit := true }

/-- The lines of the help page. -/
def helpLines : List String := [
  "usage: bench.py [-h] [--rom ROM] [--cprofile] [--micro-only] [--no-micro]",
  "                [workload]",
  "",
  "Profile the CHIP-8 emulator",
  "",
  "positional arguments:",
  "  workload      Run a specific workload (substring match)",
  "",
  "options:",
  "  -h, --help    show this help message and exit",
  "  --rom ROM     Also time a ROM file for 2000 frames",
  "  --cprofile    Run under cProfile and print hot functions",
  "  --micro-only  Only run micro-benchmarks",
  "  --no-micro    Skip micro-benchmarks"]

/-- What a benchmark printed, and its exit code. -/
structure Printout where
  output : List String := []
  code : Nat := 0

/-- Why a benchmark broke off. -/
inductive BenchmarkError
  | rom (error : Rom.RomError)
  | report (error : ReportError)
deriving DecidableEq, Repr

/-- What surrounds a benchmark: the files, the clock, and perhaps other amounts of work. -/
structure Surroundings where
  files : Rom.Files
  clock : Clock := {}
  -- For how many frames the built-in programs run.
  frames : Option Int := none
  -- How often the operations are repeated.
  repetitions : Option Int := none

/-- A line across the report. -/
def ruler : String :=
  String.ofList (List.replicate 65 '-')

/-- For how many frames a ROM runs. -/
def romFrames : Int := 2000

/-- Whether a text occurs in another. -/
def occursIn (part : List Char) : List Char → Bool
  | [] => part.isEmpty
  | c :: rest => part.isPrefixOf (c :: rest) || occursIn part rest

/-- The built-in programs whose name contains a text, whatever its case. -/
def select (workloads : List Workload) (text : String) : List Workload :=
  workloads.filter fun w => occursIn (Text.lower text).toList (Text.lower w.name).toList

/-- The lines about the repeated operations. -/
def operationLines (w : Surroundings) :
    List Operation → Clock → Except NumberError (List String × Clock)
  | [], clock => .ok ([], clock)
  | operation :: rest, clock => do
    let repetitions := w.repetitions.getD operation.repetitions
    let (result, clock) ← timeOperation repetitions clock
    let line ← result.line operation.title
    let (lines, clock) ← operationLines w rest clock
    return (line :: lines, clock)

/-- The lines about programs. -/
def workloadLines : List Workload → Clock → Except ReportError (List String)
  | [], _ => .ok []
  | workload :: rest, clock => do
    let m ← machineFor workload.program
    let (result, _, clock) ← timeWorkload m workload.frames clock
    let lines ← (result.lines workload.name).mapError .number
    let others ← workloadLines rest clock
    return lines ++ others

/-- The report about the repeated operations, unless it is left out, and the clock after it. -/
def operationReport (w : Surroundings) (wanted : Bool) :
    Except NumberError (List String × Clock) :=
  if !wanted then .ok ([], w.clock)
  else do
    let (lines, clock) ← operationLines w Operation.all w.clock
    return ("Micro-benchmarks (isolated hot-path components)" :: ruler :: lines ++ [""], clock)

/-- The ROM that is named, as a program to be timed. -/
def romWorkload (files : Rom.Files) (path : String) : Except Rom.RomError (List Workload) :=
  if path.isEmpty then .ok []
  else do
    let (program, _) ← Rom.read files path
    return [{ name := Rom.Path.name path, program, frames := romFrames }]

/-- The report for the arguments that were read. -/
def report (w : Surroundings) (r : Grammar.Reading) : Except BenchmarkError Printout := do
  let available := builtIn.map fun workload =>
    { workload with frames := w.frames.getD workload.frames }
  let wanted := (r.text "workload").value?.getD ""
  let selected := if wanted.isEmpty then available else select available wanted
  if selected.isEmpty then
    return {
      output := [
        "No workload matching '" ++ wanted ++ "'",
        "Available: " ++ String.intercalate ", " (available.map (·.name))]
      code := 1 }
  let rom ← (romWorkload w.files ((r.text "rom").value?.getD "")).mapError .rom
  let (operations, clock) ←
    (operationReport w (!r.has "noMicro")).mapError (.report ∘ .number)
  if r.has "microOnly" then return { output := operations }
  let programs ← (workloadLines (selected ++ rom) clock).mapError .report
  return {
    output := operations ++
      s!"Workloads ({stepsPerFrame} steps/frame)" :: ruler :: programs ++ [""] }

/-- What the benchmark does for a command line. -/
def printout (w : Surroundings) (words : List String) : Except BenchmarkError Printout :=
  match grammar.read words with
  | .error _ => .ok { code := 2 }
  | .ok r =>
    if r.help then .ok { output := helpLines }
    else if !r.extras.isEmpty then .ok { code := 2 }
    else report w r

end Chip8.Benchmark
